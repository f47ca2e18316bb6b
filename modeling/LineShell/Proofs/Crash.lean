import LineShell.Proofs.Failures
import LineShell.Proofs.ShellRun
import LineShell.Proofs.VariableHistory

/-! What brings a shell down. The environment can only store what is `Storable`, and a call on the
variables that sends it anything else is the end. Identifiers are names that can be stored, so it is
values that matter. The other end is a message of the shell that standard error refuses.
`crash_iff_breaks` says which lines come to one or the other. -/

namespace LineShell

open Act

namespace Variables

/-- The environment can hold the value under the name. -/
def Storable (name value : Text) : Prop :=
  name ≠ [] ∧ '=' ∉ name ∧ '\x00' ∉ name ∧ '\x00' ∉ value

theorem storable_iff_of_identifier {name : Text} (named : isIdentifier name) (value : Text) :
    Storable name value ↔ '\x00' ∉ value := by
  have chars (c : Char) (there : c ∈ name) : isNameChar c := by
    cases name with
    | nil => cases named
    | cons first rest =>
      obtain ⟨start, others⟩ := Bool.and_eq_true_iff.mp named
      rcases List.mem_cons.mp there with rfl | later
      · simp [isNameChar, start]
      · exact List.all_eq_true.mp others c later
  have nonempty : name ≠ [] := by
    rintro rfl
    cases named
  have equals : '=' ∉ name := fun there => absurd (chars _ there) (by decide)
  have nul : '\x00' ∉ name := fun there => absurd (chars _ there) (by decide)
  simp [Storable, nonempty, equals, nul]

namespace Call

/-- The call sends the environment something that it cannot hold. -/
def Breaks (c : Call) (v : View) : Prop :=
  isIdentifier c.name ∧ ∃ value ∈ c.published? v, ¬ Storable c.name value

theorem exporting_eq_crash_iff (value : Text) :
    View.exporting value = .error .crash ↔ '\x00' ∈ value := by
  rw [View.exporting]
  split <;> simp_all

theorem onView_eq_crash_iff (c : Call) (v : View) : c.onView v = .error .crash ↔ c.Breaks v := by
  rw [onView, Breaks]
  by_cases named : isIdentifier c.name
  · simp only [named, if_true, true_and, storable_iff_of_identifier named, not_not]
    cases c with
    | setLocal name value =>
      rw [change]
      cases exported : v.isExported <;> simp [published?, exported, exporting_eq_crash_iff]
    | setExported name value => simp [change, published?, exporting_eq_crash_iff]
    | markExported name =>
      rw [change]
      cases entry : v.entry <;> simp [published?, entry, exporting_eq_crash_iff]
    | unset name => simp [change, published?]
  · simp [named]

theorem carryOut_eq_crash_iff (c : Call) (vars : Variables) :
    (c.carryOut vars).1 = .error .crash ↔ c.Breaks (vars.view c.name) := by
  rw [answer_carryOut, ← onView_eq_crash_iff]
  cases c.onView (vars.view c.name) <;> simp [Except.map]

end Call

/-- Calls fail as the first of them fails that does, after the ones before it. -/
theorem callAll_eq_error_iff (calls : List Call) (vars : Variables) (e : Failure EnvError) :
    (callAll calls vars).1 = .error e ↔ ∃ front c back mid, calls = front ++ c :: back ∧
      callAll front vars = (.ok (), mid) ∧ (c.carryOut mid).1 = .error e := by
  constructor
  · intro failed
    induction calls generalizing vars with
    | nil => cases failed
    | cons c rest ih =>
      rw [callAll] at failed
      rcases made : c.carryOut vars with ⟨_ | ⟨⟩, after⟩ <;> rw [made] at failed
      · exact ⟨[], c, rest, vars, rfl, rfl, by rw [made]; exact failed⟩
      · obtain ⟨front, d, back, mid, rfl, done, refused⟩ := ih after failed
        exact ⟨c :: front, d, back, mid, rfl, by rw [callAll, made]; exact done, refused⟩
  · rintro ⟨front, c, back, mid, rfl, done, refused⟩
    induction front generalizing vars with
    | nil =>
      obtain rfl : vars = mid := congrArg Prod.snd done
      rw [List.nil_append, callAll]
      rcases made : c.carryOut vars with ⟨_ | _, after⟩ <;> rw [made] at refused
      · exact refused
      · cases refused
    | cons d front ih =>
      rw [callAll] at done
      rw [List.cons_append, callAll]
      rcases made : d.carryOut vars with ⟨_ | ⟨⟩, after⟩ <;> rw [made] at done
      · cases done
      · exact ih after done

end Variables

open Variables

/-- The files of the line can be opened. -/
def Redirections.Openable (r : Redirections) (world : World) : Prop :=
  ∃ files, (r.openFiles.outcome world).1 = .ok files

/-- The line comes to a call on the variables, which are then as the calls before it left them. -/
def World.ComesTo (world : World) (line : Text) (c : Call) (vars : Variables) : Prop :=
  ∃ p front back, world.read? line = some (.ok (some p)) ∧ p.left.redirections.Openable world ∧
    p.demand = .calls (front ++ c :: back) ∧ callAll front world.session.vars = (.ok (), vars)

/-- A builtin brings the shell down by the calls that it is asked to make. -/
theorem Builtin.crash_run_iff (b : Builtin) (output : Output) (args : List Text) (world : World) :
    ((b.run output args).outcome world).1 = .error .crash ↔
      ∃ made, b.demand args = .calls made ∧
        (callAll made world.session.vars).1 = .error .crash := by
  have survives {act : Act CommandError Verdict} (known : act.Survives) :
      (act.outcome world).1 ≠ .error .crash := fun crashed => known world _ crashed rfl
  cases b with
  | setExport =>
    simp only [demand, Demand.calls.injEq, exists_eq_left']
    by_cases operands : args.tail = []
    · have lists : (runExport output args).Survives := by
        rw [runExport, operands]
        exact .bind .get fun _ => .bind (output.survives_lines _) fun _ => .pure _
      simp [run, survives lists, operands, callAll]
    · rw [run, outcome_runExport output world operands, map_eq_error_iff, mapError_eq_crash_iff]
  | unset =>
    simp only [demand, Demand.calls.injEq, exists_eq_left']
    rw [run, outcome_runUnset, map_eq_error_iff, mapError_eq_crash_iff]
  | _ => simp [demand, survives (survives_run output args _ _)]

section Line

variable (quiet : Bool) {line : Text} {world : World}

theorem crash_runBuiltin_iff (b : Builtin) (stage : Stage) (world : World) :
    ((runBuiltin b stage).outcome world).1 = .error .crash ↔ stage.redirections.Openable world ∧
      ∃ made, b.demand stage.args = .calls made ∧
        (callAll made world.session.vars).1 = .error .crash := by
  rcases outcome_runBuiltin world b stage with
    ⟨e, mid, failed, ran⟩ | ⟨files, mid, done, ran⟩
  · have survives : e ≠ .crash :=
      failsOnly_openFiles (P := (· ≠ .crash)) _ (by simp) world e (congrArg Prod.fst failed)
    have shut : ¬ stage.redirections.Openable world := by
      rintro ⟨files, opened⟩
      rw [failed] at opened
      cases opened
    cases e with
    | error e => simp [ran, shut, Failure.map]
    | crash => exact absurd rfl survives
  · have opened : stage.redirections.Openable world := ⟨files, congrArg Prod.fst done⟩
    have own := keeps_openFiles stage.redirections world
    rw [done] at own
    have same : mid.session = world.session := congrArg Prod.fst own
    rw [ran, crash_runOutput_iff, Builtin.crash_run_iff, same]
    simp [opened]

theorem openable_of_assignments {p : Pipeline} {assignments : List (Text × Text)}
    (assigns : p.assignments? = some assignments) (world : World) :
    p.left.redirections.Openable world := by
  rw [Pipeline.assignments?] at assigns
  split at assigns
  · cases assigns
  · next plain =>
    have empty : p.left.redirections.isEmpty := by
      by_contra redirected
      exact plain (by simp [redirected])
    obtain ⟨noInput, noOutput⟩ := Bool.and_eq_true_iff.mp empty
    rw [Redirections.Openable, Redirections.openFiles, Option.isNone_iff_eq_none.mp noInput,
      Option.isNone_iff_eq_none.mp noOutput]
    exact ⟨_, rfl⟩

theorem foreground_of_assignments {p : Pipeline} {assignments : List (Text × Text)}
    (assigns : p.assignments? = some assignments) : p.background = false := by
  rw [Pipeline.assignments?] at assigns
  split at assigns
  · cases assigns
  · next plain => exact Bool.eq_false_iff.mpr fun background => plain (by simp [background])

/-- Before something that never does so, a message brings the shell down just when it is refused. -/
theorem crash_tell_bind_iff {ε α : Type} (text : Text) {next : Unit → Act ε α}
    (survives : ∀ a, (next a).Survives) (world : World) :
    ((tell text >>= next).outcome world).1 = .error .crash ↔ world.told? text = none := by
  rw [outcome_bind, outcome_tell]
  cases world.told? text with
  | none => simp
  | some after => simpa using fun crashed => survives () after _ crashed rfl

/-- The world in which a process has become a job in the background. -/
def World.tracking (world : World) (pid : Nat) : World :=
  { world with jobs := (world.jobs.track pid).2 }

/-- A background job is told by its number, and only that message can bring the shell down. -/
theorem crash_launch_iff (stage : Stage) (background : Bool) (world : World) :
    ((launch quiet stage background).outcome world).1 = .error .crash ↔
      quiet = false ∧ background = true ∧ ∃ files opened pid started,
        stage.redirections.openFiles.outcome world = (.ok files, opened) ∧
        (spawn stage.args files.io).outcome opened = (.ok pid, started) ∧
        ((started.close files.fds).tracking pid).told? ('[' :: decimal pid ++ [']']) = none := by
  have opening := failsOnly_openFiles (P := (· ≠ .crash)) stage.redirections (by simp) world
  rw [launch_eq, outcome_bind]
  rcases opens : stage.redirections.openFiles.outcome world with ⟨e | files, opened⟩ <;>
    rw [opens] at opening
  · simpa using opening e rfl
  have starting := failsOnly_spawn (P := (· ≠ .crash)) (by simp) stage.args files.io opened
  dsimp only
  rw [launchOpened]
  cases background with
  | false =>
    have survives : (inForeground do
        let pid ← (spawn stage.args files.io).ensuring (·.close files.fds)
        return some (← waitFor pid) : Act ProcessError (Option ChildState)).Survives :=
      .bind (.modify _) fun _ => .ensuring (.bind (.ensuring (failsOnly_spawn (by simp) _ _) _)
        fun pid => .bind (failsOnly_waitFor (by simp) pid) fun _ => .pure _) _
    simpa using fun crashed => survives opened _ crashed rfl
  | true =>
    simp only [if_true, outcome_bind, outcome_ensuring]
    rcases spawned : (spawn stage.args files.io).outcome opened with ⟨e | pid, started⟩
    · rw [spawned] at starting
      simpa [spawned] using starting e rfl
    · cases quiet with
      | true => simp [outcome_modify]
      | false =>
        have told := crash_tell_bind_iff (ε := ProcessError) ('[' :: decimal pid ++ [']'])
          (fun _ => .pure (none : Option ChildState)) ((started.close files.fds).tracking pid)
        refine told.trans ⟨fun refused =>
          ⟨rfl, trivial, files, opened, pid, started, rfl, spawned, refused⟩,
          ?_⟩
        rintro ⟨-, -, files, opened, pid, started, same, again, refused⟩
        cases same
        cases spawned.symm.trans again
        exact refused

/-- A notice that goes with a line is refused: that two commands run in the foreground, or the
number of a job in the background. -/
inductive World.RefusesNotice (world : World) (quiet : Bool) (line : Text) : Prop
  | joined {p : Pipeline} {right : Stage} (loud : quiet = false)
      (read : world.read? line = some (.ok (some p))) (two : p.right = some right)
      (background : p.background = true)
      (refused : world.told?
        "vena: background pipelines are not supported; running in foreground".toList = none)
  | numbered {p : Pipeline} {files : OpenFiles} {opened started : World} {pid : Nat}
      (loud : quiet = false) (read : world.read? line = some (.ok (some p))) (one : p.right = none)
      (program : Builtin.lookup? p.left.program = none) (background : p.background = true)
      (opens : p.left.redirections.openFiles.outcome world = (.ok files, opened))
      (starts : (spawn p.left.args files.io).outcome opened = (.ok pid, started))
      (refused :
        ((started.close files.fds).tracking pid).told? ('[' :: decimal pid ++ [']']) = none)

theorem crash_runPipeline_of_right {p : Pipeline} {right : Stage}
    (read : world.read? line = some (.ok (some p))) (two : p.right = some right) :
    ((runPipeline quiet p).outcome world).1 = .error .crash ↔ world.RefusesNotice quiet line := by
  have runs : (do
      let _ ← (runPipe p.left right).mapError ShellError.process
      return .proceed : Act ShellError Verdict).Survives :=
    .bind (Survives.mapError (survives_runPipe p.left right) _) fun _ => .pure _
  have unnoticed (silent : (p.background && !quiet) = false) :
      ¬ world.RefusesNotice quiet line := by
    rintro (⟨rfl, again, -, background, -⟩ | ⟨-, again, one, -⟩) <;> cases read.symm.trans again
    · simp [background] at silent
    · cases two.symm.trans one
  rw [runPipeline, two]
  dsimp only
  cases noticed : p.background && !quiet with
  | false => simpa [unnoticed noticed] using fun crashed => runs world _ crashed rfl
  | true =>
    obtain ⟨background, loud⟩ := Bool.and_eq_true_iff.mp noticed
    rw [if_pos rfl, crash_tell_bind_iff _ fun _ => runs]
    refine ⟨.joined (by simpa using loud) read two background, ?_⟩
    rintro (⟨-, -, -, -, refused⟩ | ⟨-, again, one, -⟩)
    · exact refused
    · cases read.symm.trans again
      cases two.symm.trans one

theorem crash_runPipeline_of_program {p : Pipeline}
    (read : world.read? line = some (.ok (some p))) (one : p.right = none)
    (program : Builtin.lookup? p.left.program = none) :
    ((runPipeline quiet p).outcome world).1 = .error .crash ↔ world.RefusesNotice quiet line := by
  have launched : ((runPipeline quiet p).outcome world).1 = .error .crash ↔
      ((launch quiet p.left p.background).outcome world).1 = .error .crash := by
    rw [runPipeline, one]
    dsimp only
    rw [program, outcome_bind, outcome_mapError]
    rcases (launch quiet p.left p.background).outcome world with ⟨(_ | _) | _, _⟩ <;>
      simp [Except.mapError, Failure.map]
  rw [launched, crash_launch_iff]
  constructor
  · rintro ⟨loud, background, files, opened, pid, started, opens, starts, refused⟩
    exact .numbered loud read one program background opens starts refused
  · rintro (⟨-, again, two, -⟩ | ⟨loud, again, -, -, background, opens, starts, refused⟩) <;>
      cases read.symm.trans again
    · cases one.symm.trans two
    · exact ⟨loud, background, _, _, _, _, opens, starts, refused⟩

/-- A builtin and an assignment have no notice. -/
theorem no_notice {p : Pipeline} (read : world.read? line = some (.ok (some p)))
    (silent : p.background = false ∨ p.right = none ∧ ∃ b, Builtin.lookup? p.left.program = some b) :
    ¬ world.RefusesNotice quiet line := by
  rintro (⟨-, again, two, background, -⟩ | ⟨-, again, -, program, background, -⟩) <;>
    cases read.symm.trans again <;>
    rcases silent with foreground | ⟨one, b, known⟩
  · cases foreground.symm.trans background
  · cases one.symm.trans two
  · cases foreground.symm.trans background
  · cases known.symm.trans program

theorem crash_runLine_iff : ((runLine quiet line).outcome world).1 = .error .crash ↔
    (∃ p made, world.read? line = some (.ok (some p)) ∧ p.left.redirections.Openable world ∧
      p.demand = .calls made ∧ (callAll made world.session.vars).1 = .error .crash) ∨
      world.RefusesNotice quiet line := by
  obtain ⟨asked, read⟩ := exists_read world line
  have unread (other : ∀ p, asked ≠ .ok (some p)) : ¬ world.RefusesNotice quiet line := by
    rintro (⟨-, again, -⟩ | ⟨-, again, -⟩) <;>
      exact other _ (Option.some.inj (read.symm.trans again))
  match asked with
  | .error e => simp [outcome_runLine_of_error quiet read, read, unread]
  | .ok none => simp [outcome_runLine_of_none quiet read, read, unread]
  | .ok (some p) =>
    simp only [read, Option.some.injEq, Except.ok.injEq]
    cases assigns : p.assignments? with
    | some assignments =>
      have plain : p.left.redirections.Openable world := openable_of_assignments assigns world
      have silent := no_notice quiet read (.inl (foreground_of_assignments assigns))
      rw [outcome_runLine_of_assignments quiet read assigns, map_eq_error_iff, outcome_assign,
        mapError_eq_crash_iff]
      simp [Pipeline.demand, assigns, plain, silent]
    | none =>
      rw [outcome_runLine_of_command quiet read assigns]
      cases two : p.right with
      | some right =>
        rw [crash_runPipeline_of_right quiet read two]
        simp [Pipeline.demand, assigns, two]
      | none =>
        cases program : Builtin.lookup? p.left.program with
        | none =>
          rw [crash_runPipeline_of_program quiet read two program]
          simp [Pipeline.demand, assigns, two, program]
        | some b =>
          have silent := no_notice quiet read (.inr ⟨two, b, program⟩)
          rw [runPipeline_of_builtin quiet two program, crash_runBuiltin_iff]
          simp [Pipeline.demand, assigns, two, program, silent]

end Line

/-! `cd` writes to the environment without asking what it can hold. -/

namespace World

/-- What the system sees to: it hands over no value, and holds no name, with a NUL in it. -/
structure Upright (world : World) : Prop where
  values : ∀ name value, world.environment.get? name = some value → '\x00' ∉ value
  tree : world.machine.root.Named
  place : ∀ name ∈ world.place.base, IsName name

variable {world moved : World}

theorem no_nul_physicalDir {dir : Text} (names : ∀ name ∈ world.place.base, IsName name)
    (known : world.physicalDir = .ok dir) : '\x00' ∉ dir := by
  rw [(physicalDir_ok known).2]
  exact no_nul_ofNames names

theorem no_nul_of_reach {path : Text} {place : Place} (reached : world.reach path = .ok place) :
    '\x00' ∉ path := by
  intro nul
  rw [reach, systemPath, if_pos nul] at reached
  cases reached

theorem no_nul_of_changeDir {target : Text} (went : world.changeDir target = .ok moved) :
    '\x00' ∉ target := by
  intro nul
  rw [changeDir, systemPath, if_pos nul] at went
  cases went

end World

namespace Builtin

variable {world moved : World} {target : Text}

theorem no_nul_dirToLeave (upright : world.Upright) {dir : Text}
    (leaves : dirToLeave world = some dir) : '\x00' ∉ dir := by
  have own {pwd : Text} (held : world.absolutePwd = some pwd) : '\x00' ∉ pwd :=
    upright.values _ pwd (Option.filter_eq_some_iff.mp held).1
  rw [dirToLeave] at leaves
  split at leaves
  · next known =>
    obtain rfl := Option.some.inj leaves
    rw [World.logicalDir] at known
    split at known
    · next held =>
      split at known
      · obtain rfl := Except.ok.inj known
        exact own held
      · exact World.no_nul_physicalDir upright.place known
    · exact World.no_nul_physicalDir upright.place known
  · exact own leaves

theorem no_nul_nameOfNew (upright : world.Upright) (went : world.changeDir target = .ok moved)
    (left : Option Text) : '\x00' ∉ nameOfNew moved left target := by
  rw [nameOfNew]
  split
  · next way taken =>
    have same : moved.sameFile way ['.'] := (Option.filter_eq_some_iff.mp taken).2
    rw [World.sameFile] at same
    split at same
    · next reached _ => exact World.no_nul_of_reach reached
    · cases same
  · split
    · next known =>
      obtain ⟨machine, opened⟩ := World.changeDir_ok went
      obtain ⟨live, -⟩ := World.physicalDir_ok known
      have isOpen := opened (by rw [Place.isLive, live]; rfl)
      rw [machine] at isOpen
      exact World.no_nul_physicalDir (Node.isName_of_isOpen upright.tree isOpen) known
    · exact World.no_nul_of_changeDir went

/-- Nothing that `cd` writes to the environment is more than that can hold. -/
theorem storable_runCd (upright : world.Upright) (output : Output) (args : List Text) :
    ∀ name value, ((runCd output args).outcome world).2.environment.get? name = some value →
      world.environment.get? name = some value ∨ Storable name value := by
  intro name value holds
  have env (here : World) : here.environment = here.own.1.vars.environment := rfl
  rcases own_runCd output world args with same | ⟨target, moved, went, arrives⟩
  · rw [env, same] at holds
    exact .inl holds
  · rw [env, arrives, ← env, environment_arrived] at holds
    have session := session_changeDir went
    split at holds
    · next pwd =>
      obtain rfl := Option.some.inj holds
      exact .inr (by
        rw [pwd, storable_iff_of_identifier (by decide)]
        exact no_nul_nameOfNew upright went _)
    · split at holds
      · next oldpwd =>
        rcases Option.or_eq_some_iff.mp holds with leaves | ⟨-, holds⟩
        · exact .inr (by
            rw [oldpwd, storable_iff_of_identifier (by decide)]
            exact no_nul_dirToLeave upright leaves)
        · rw [World.environment, session] at holds
          exact .inl holds
      · rw [World.environment, session] at holds
        exact .inl holds

end Builtin

/-- The line comes to a call that sends the environment something that it cannot hold. -/
def World.Breaks (world : World) (line : Text) : Prop :=
  ∃ c vars, world.ComesTo line c vars ∧ c.Breaks (vars.view c.name)

theorem crash_runLine_iff_breaks (quiet : Bool) (line : Text) (world : World) :
    ((runLine quiet line).outcome world).1 = .error .crash ↔
      world.Breaks line ∨ world.RefusesNotice quiet line := by
  rw [crash_runLine_iff]
  refine or_congr_left ⟨?_, ?_⟩
  · rintro ⟨p, made, read, opened, demand, crashed⟩
    obtain ⟨front, c, back, mid, rfl, done, refused⟩ := (callAll_eq_error_iff _ _ _).mp crashed
    have breaks := (c.carryOut_eq_crash_iff mid).mp refused
    exact ⟨c, mid, ⟨p, front, back, read, opened, demand, done⟩, breaks⟩
  · rintro ⟨c, mid, ⟨p, front, back, read, opened, demand, done⟩, breaks⟩
    have refused := (c.carryOut_eq_crash_iff mid).mpr breaks
    exact ⟨p, _, read, opened, demand,
      (callAll_eq_error_iff _ _ _).mpr ⟨front, c, back, mid, rfl, done, refused⟩⟩

/-- What brings a shell down that comes to a line: the line breaks it, or standard error refuses a
notice of the line, its error, or what is due before the line is at hand. -/
inductive Turn.Crashes {σ : Type} (t : Turn σ) (s : σ × World) : Prop
  | broken {state : σ} {ready : World} (atHand : t.ready s = .ok (state, ready))
      (breaks : ready.Breaks t.line)
  | unnoticed {state : σ} {ready : World} (atHand : t.ready s = .ok (state, ready))
      (refused : ready.RefusesNotice t.quiet t.line)
  | untold {state : σ} {ready failed : World} {e : ShellError}
      (atHand : t.ready s = .ok (state, ready))
      (fails : (runLine t.quiet t.line).outcome ready = (.error (.error e), failed))
      (refused : failed.told? (t.message e) = none)
  | unready {after : World} (refused : t.ready s = .error after)

theorem Turn.Comes.crashes {σ : Type} {t : Turn σ} {s last : σ × World}
    (comes : t.Comes s (.error .crash) last) : t.Crashes s := by
  cases comes with
  | crashed atHand crashes =>
    rcases (crash_runLine_iff_breaks _ _ _).mp (congrArg Prod.fst crashes) with breaks | refused
    · exact .broken atHand breaks
    · exact .unnoticed atHand refused
  | untold atHand fails refused => exact .untold atHand fails refused
  | unready refused => exact .unready refused

/-- A line brings the shell down just when it comes to a call that sends the environment a value
with a NUL in it, or to a notice that standard error refuses; `cd`, which asks for nothing, sends it
no such value; and a shell that reads its lines to the end ends with a status unless it crashes at
one of them or standard error refuses its last messages. -/
theorem crash_iff_breaks (quiet : Bool) (line : Text) (world : World) :
    (((runLine quiet line).outcome world).1 = .error .crash ↔
      world.Breaks line ∨ world.RefusesNotice quiet line) ∧
    (world.Upright → ∀ output args name value,
      ((Builtin.runCd output args).outcome world).2.environment.get? name = some value →
        world.environment.get? name = some value ∨ Storable name value) ∧
    ∀ {σ : Type} (source : LineSource σ) state turns flags rcLines inputs,
      rcTurns? flags world = some rcLines →
      (∀ mid, Course rcLines (state, world) (.ok none) mid →
        Delivers source (flags.isSet .quiet) inputs mid) →
      inputs.length < turns →
      let answer := ((runShell source state turns flags).outcome world).1
      let all := rcLines ++ inputs.map (inputTurn source (flags.isSet .quiet))
      (∃ status, answer = .ok status) ∨ answer = .error .crash ∧
        ((∃ front t back mid, all = front ++ t :: back ∧
            Course front (state, world) (.ok none) mid ∧ t.Crashes mid) ∨
          ∃ last after, Course all (state, world) (.ok none) last ∧
            farewell source (flags.isSet .quiet) last = .error after) := by
  refine ⟨crash_runLine_iff_breaks quiet line world, Builtin.storable_runCd,
    fun source state turns flags rcLines inputs chosen delivers enough => ?_⟩
  obtain ⟨answer, last, course, ran⟩ := course_runShell chosen delivers enough
  rw [ran]
  rcases answer with (e | -) | (- | status)
  · exact absurd rfl (course.ne_error e)
  · obtain ⟨front, t, back, mid, split, before, comes⟩ := course.exists_end (by simp)
    exact .inr ⟨rfl, .inl ⟨front, t, back, mid, split, before, comes.crashes⟩⟩
  · rw [closing]
    cases ended : farewell source (flags.isSet .quiet) last with
    | ok after => exact .inl ⟨0, rfl⟩
    | error after => exact .inr ⟨rfl, .inr ⟨last, after, course, ended⟩⟩
  · exact .inl ⟨status, rfl⟩

/-- Of three lines the second one breaks the shell. -/
theorem crash_iff_breaks_export :
    let world := shellWith []
    let line := "export A=x\x00y".toList
    let inputs := ["A=1".toList, line, "exit 7".toList]
    world.Upright ∧ world.Breaks line ∧ ∃ front t back mid,
      inputs.map (inputTurn scripted true) = front ++ t :: back ∧
      Course front (inputs, world) (.ok none) mid ∧ t.Crashes mid := by
  intro world line inputs
  have upright : world.Upright :=
    ⟨by simp [world, shellWith, Table.ofList, World.environment], .dir (by simp) (by simp),
      List.forall_mem_nil _⟩
  obtain ⟨breaks, -, ends⟩ := crash_iff_breaks true line world
  have crashed : ((runLine true line).outcome world).1 = .error .crash := by decide +kernel
  have broken : world.Breaks line := (breaks.mp crashed).resolve_right fun refused => by
    rcases refused with ⟨loud, -⟩ | ⟨loud, -⟩ <;> cases loud
  let flags : Flags := { quiet := some "true".toList }
  have stopped : ((runShell scripted inputs 4 flags).outcome world).1 = .error .crash := by
    decide +kernel
  have chosen : rcTurns? flags world = some ([] : List (Turn (List Text))) := by rfl
  have delivers (mid : List Text × World) (course : Course [] (inputs, world) (.ok none) mid) :
      Delivers scripted (flags.isSet .quiet) inputs mid := by
    cases course with
    | finished => exact delivers_scripted _ rfl
  rcases ends scripted inputs 4 flags [] inputs chosen delivers (by decide) with
    ⟨status, ended⟩ | ⟨-, crashes | ⟨last, after, -, refused⟩⟩
  · rw [ended] at stopped
    cases stopped
  · exact ⟨upright, broken, crashes⟩
  · cases refused

/-- Where standard error is full, a job in the background brings the shell down, and so does a line
that fails. -/
example :
    let world : World := { shellWith [] with
      descriptors := .ofList [(Descriptors.stderr, ⟨0, false⟩)]
      machine := { root := .dir [] .ownDir
                   streams := [{ endpoint := .device .full, readable := false, writable := true }] } }
    ((runLine false "tool &".toList).outcome world).1 = .error .crash ∧
      ((runLine true "tool &".toList).outcome world).1 = .ok .proceed ∧
      (runMain scripted ["cat <".toList] 2 ["-q".toList] world).1 = crashStatus := by
  decide +kernel

/-- An export of a value with a NUL in it ends the shell, and the line after it is not run. -/
theorem crash_export_nul :
    let line := "export A=x\x00y".toList
    ((runLine true line).outcome (shellWith [])).1 = .error .crash ∧
      (runMain scripted [line, "exit 7".toList] 3 ["-q".toList] (shellWith [])).1 = crashStatus := by
  decide +kernel

end LineShell
