import LineShell.Proofs.CommandLookup
import LineShell.Proofs.Complaint
import LineShell.Proofs.ProcessNumbers

/-! How the child of a command is started, once its file has been looked up. The descriptors of its
files are open, so the child is wired (`exists_wire_of_opened`), and begins with its program or with
the complaint that there is none. What a foreground wait comes to then is said by
`state_of_unfound` and `outcome_launchWith_unfound`. To start a child leaves its mark on the machine,
also when the system refuses (`forks_launchWith_ne`). -/

namespace LineShell

open Act Descriptors

/-! Starting a child. -/

theorem ChildIo.exists_connect (steps : List (Option Nat × Nat)) {table : Descriptors}
    (isOpen : ∀ step ∈ steps, ∀ fd ∈ step.1, (table.get? fd).isSome) :
    ∃ wired, steps.foldlM connect? table = some wired := by
  induction steps generalizing table with
  | nil => exact ⟨table, rfl⟩
  | cons step rest ih =>
    have later := fun step listed => isOpen step (List.mem_cons_of_mem _ listed)
    obtain ⟨_ | source, target⟩ := step
    · exact ih later
    obtain ⟨handle, held⟩ := Option.isSome_iff_exists.mp (isOpen _ List.mem_cons_self source rfl)
    rw [List.foldlM_cons, connect?, redirect?, held, Option.map_some]
    refine ih fun step listed fd given => ?_
    -- no step closes a descriptor
    split
    · exact later step listed fd given
    · rw [Table.get?_insert]
      split
      · rfl
      · exact later step listed fd given

/-- A wiring succeeds when every descriptor is open that is to be put in place of another. -/
theorem ChildIo.exists_wire {io : ChildIo} {table : Descriptors}
    (isOpen : ∀ fd ∈ io.sources, (table.get? fd).isSome) : ∃ wired, io.wire? table = some wired := by
  have listed_open (step : Option Nat × Nat) (listed : step ∈ io.wiring) (fd : Nat)
      (given : fd ∈ step.1) : (table.get? fd).isSome := by
    refine isOpen fd (mem_sources.mpr ?_)
    obtain rfl | rfl | rfl | rfl : step = _ ∨ step = _ ∨ step = _ ∨ step = _ := by
      simpa [wiring] using listed
    · exact .inl given
    · exact .inr (.inl given)
    · exact .inr (.inr (.inl given))
    · exact .inr (.inr (.inr given))
  obtain ⟨wired, done⟩ := exists_connect io.wiring listed_open
  exact ⟨_, by rw [wire?, done, Option.map_some]⟩

/-- A plan can be made for a command that has a name and holds no NUL: the file that is found holds
none either. -/
theorem plan_eq_ok {world : World} {args : List Text} (named : args ≠ [])
    (clean : ∀ arg ∈ args, '\x00' ∉ arg) :
    world.plan args = .ok ⟨world.findExecutable (args.headD []), args⟩ := by
  obtain ⟨name, operands, rfl⟩ := List.exists_cons_of_ne_nil named
  have none_found : (name :: operands).find? (fun arg => '\x00' ∈ arg) = none :=
    List.find?_eq_none.mpr fun arg listed => by simpa using clean arg listed
  simp only [World.plan, none_found, List.headD_cons]
  cases found : world.findExecutable name with
  | none => rfl
  | some path => exact if_neg (World.runs_of_findExecutable found).1.1

variable {world after : World} {program : Option Text} {args : List Text} {io : ChildIo} {pid : Nat}

/-- A child that is wired begins with its program. -/
theorem begins_startProgram {table : Descriptors}
    (done : (startProgram program args io).outcome world = (.ok pid, after))
    (wires : io.wire? world.descriptors = some table) :
    ∃ task, after.machine.tasks = world.machine.tasks ++ [task] ∧ task.pid = pid ∧
      task.descriptors = table ∧
      task.code.Begins program ⟨args, world.environment, world.place, world.descriptors⟩ := by
  obtain ⟨rfl, forks, rfl⟩ := startProgram_ok done
  have wired := task_of_wired (p := world.child program args io) wires Machine.shellPid
    (world.machine.now + Machine.startTime)
  exact ⟨_, rfl, by rw [wired]; rfl, by rw [wired], by
    rw [wired]
    exact begins_becomeProgram (world.child program args io)⟩

/-- A child that is wired keeps to what it is to do, as long as that leads nowhere else. -/
theorem abides_startProgram {good : Code → Prop} {table : Descriptors}
    (done : (startProgram program args io).outcome world = (.ok pid, after))
    (new : world.machine.HasNewPid) (wires : io.wire? world.descriptors = some table)
    (begins : good (world.child program args io).becomeProgram.code) :
    after.machine.Abides pid good := by
  obtain ⟨rfl, forks, rfl⟩ := startProgram_ok done
  refine ⟨Nat.lt_succ_self _, fun task there own => ?_, .inl ?_⟩
  · rcases List.mem_append.mp there with old | isNew
    · exact absurd own (new.tasks task old).ne
    · obtain rfl := List.mem_singleton.mp isNew
      rwa [task_of_wired (p := world.child program args io) wires]
  · exact (ChildTable.status?_start new.children _).trans (if_pos rfl)

/-! One command, however its child is started. -/

/-- What `launchOpened` does with an action that starts its child. -/
def launchWith (quiet background : Bool) (files : OpenFiles) (start : Act ProcessError Nat) :
    Act ProcessError (Option ChildState) := do
  let start : Act ProcessError Nat := start.ensuring (·.close files.fds)
  if background then
    let pid ← start
    modify fun world => { world with jobs := (world.jobs.track pid).2 }
    if !quiet then tell ('[' :: decimal pid ++ [']'])
    return none
  else
    inForeground do
      let pid ← start
      return some (← waitFor pid)

variable {quiet background : Bool} {files : OpenFiles} {start start' : Act ProcessError Nat}

/-- The child is started in the world as it is, or under the guard for a foreground wait. -/
theorem outcome_launchWith_congr
    (same : ∀ jobs, start.outcome { world with jobs } = start'.outcome { world with jobs }) :
    (launchWith quiet background files start).outcome world =
      (launchWith quiet background files start').outcome world := by
  rw [launchWith, launchWith]
  cases background with
  | true =>
    have here : start.outcome world = start'.outcome world := same world.jobs
    simp only [if_true, outcome_bind, outcome_ensuring, here]
  | false =>
    simp only [Bool.false_eq_true, if_false, outcome_inForeground, outcome_bind, outcome_ensuring,
      same]

theorem outcome_launchWith_foreground
    (started : start.outcome { world with jobs := world.jobs.enter } = (.ok pid, after)) :
    (launchWith quiet false files start).outcome world =
      let waited := (waitFor pid).outcome (after.close files.fds)
      (waited.1.map some, { waited.2 with jobs := waited.2.jobs.leave }) := by
  rw [launchWith]
  simp only [Bool.false_eq_true, if_false, outcome_inForeground, outcome_bind, outcome_ensuring,
    started]
  rcases (waitFor pid).outcome (after.close files.fds) with ⟨_ | _, _⟩ <;> rfl

/-- When nobody else is at work and standard error takes the message, a foreground wait finds that a
child has ended with its status. -/
theorem outcome_launchWith_complains {task : Task} {stream : Nat} {message : Bytes}
    {written : Machine}
    (started : start.outcome { world with jobs := world.jobs.enter } = (.ok pid, after))
    (own : task.pid = pid) (granted : after.machine.refusals.waits = [])
    (alone : after.machine.tasks = [task]) (ready : task.isBlocked = false)
    (going : task.isStopped = false) (ours : task.parent = Machine.shellPid)
    (alive : after.machine.children.status? task.pid = some .running)
    (complains : task.code.Complains status message)
    (leads : task.descriptors.stream? stderr = some stream)
    (takes : { after.machine with now := max after.machine.now task.clock }.writeStream
      (after.close files.fds).held stream message = .done (message.length, written)) :
    ∃ last, (launchWith quiet false files start).outcome world =
        (.ok (some (.exited (status % 256))), last) ∧
      last.machine.files = written.files ∧ last.machine.pipes = written.pipes := by
  subst own
  have enough : 2 ≤ Machine.stepBound := by decide
  obtain ⟨ended, kept⟩ := Machine.run_complains (m := (after.close files.fds).machine) alone ready
    going ours alive complains leads takes enough
  have found : stateOf ((after.close files.fds).machine.await (after.close files.fds).held
      task.pid).1 = .exited (status % 256) := by
    rw [Machine.await, ChildTable.collect_of_ended ended]
    exact ofWord_exited status
  rw [outcome_launchWith_foreground started,
    outcome_waitFor_of_granted (after.close files.fds) granted]
  exact ⟨_, by rw [found]; rfl, kept⟩

/-! The files of a command are open when its child is started. -/

theorem openGiven_isOpen {file : Option Text} {mode : OpenMode} {fd? : Option Nat}
    (done : (openGiven file mode).outcome world = (.ok fd?, after)) :
    world.descriptors.Kept after.descriptors ∧
      ∀ fd ∈ fd?, (after.descriptors.get? fd).isSome := by
  rcases outcome_openGiven file mode world with ⟨_, _, _, -, refused⟩ | ⟨_, _, ran, -, made⟩
  · cases refused.symm.trans done
  cases ran.symm.trans done
  rcases made with ⟨-, rfl, rfl⟩ | ⟨path, refusals, endpoint, opened, -, rfl, -, rfl⟩
  · exact ⟨fun _ _ held => held, fun _ none => by cases none⟩
  · refine ⟨kept_add _ _, ?_⟩
    rintro fd ⟨⟩
    have new := get?_add world.descriptors world.machine.streams.length world.descriptors.lowestFree
    rw [if_pos rfl] at new
    exact congrArg Option.isSome new

theorem openFiles_isOpen {r : Redirections} {opened : World}
    (opens : r.openFiles.outcome world = (.ok files, opened)) :
    ∀ fd ∈ files.io.sources, (opened.descriptors.get? fd).isSome := by
  rw [outcome_openFiles] at opens
  rcases ran : (openGiven r.input .input).outcome world with ⟨e | input, mid⟩
  · rw [ran] at opens
    cases opens
  rcases ran' : (openGiven r.output .output).outcome mid with ⟨e | output, last⟩ <;>
    simp only [ran, ran'] at opens <;> cases opens
  obtain ⟨-, isOpen⟩ := openGiven_isOpen ran
  obtain ⟨kept, isOpen'⟩ := openGiven_isOpen ran'
  intro fd source
  have given : input = some fd ∨ output = some fd := by
    simpa [OpenFiles.io] using ChildIo.mem_sources.mp source
  rcases given with given | given
  · rw [kept.get? (isOpen fd given)]
    exact isOpen fd given
  · exact isOpen' fd given

theorem exists_wire_of_opened {r : Redirections} {opened : World}
    (opens : r.openFiles.outcome world = (.ok files, opened)) :
    ∃ table, files.io.wire? opened.descriptors = some table :=
  ChildIo.exists_wire (openFiles_isOpen opens)

/-! A child without a program. -/

theorem complains_child (world : World) (args : List Text) (io : ChildIo) :
    (world.child none args io).becomeProgram.code.Complains 1
      (encode (notFoundText (args.headD []))) := begins_becomeProgram (world.child none args io)

/-- What a foreground wait comes to for a child without a program. -/
theorem state_of_unfound {table : Descriptors} {answer : Option ChildState}
    (new : world.machine.HasNewPid) (wires : files.io.wire? world.descriptors = some table)
    (ran : (launchWith quiet false files (startProgram none args files.io)).outcome world =
      (.ok answer, after)) :
    ∃ state, answer = some state ∧
      (state = .exited 1 ∨ (∃ signal, state = .signaled signal) ∨ state = .running ∨
        state = .reaped ∧ some Errno.noChild ∈ world.machine.refusals.waits) := by
  rcases started : (startProgram none args files.io).outcome
      { world with jobs := world.jobs.enter } with ⟨e | pid, split⟩
  · rw [launchWith] at ran
    simp only [Bool.false_eq_true, if_false, outcome_inForeground, outcome_bind, outcome_ensuring,
      started] at ran
    cases ran
  rw [outcome_launchWith_foreground started] at ran
  have abides : split.machine.Abides pid fun code => ∃ rest, code.Finishes 1 rest :=
    abides_startProgram started new wires ⟨_, (complains_child _ _ _).finishes⟩
  have waits : split.machine.refusals.waits = world.machine.refusals.waits := by
    obtain ⟨-, forks, rfl⟩ := startProgram_ok started
    rfl
  rcases waited : (waitFor pid).outcome (split.close files.fds) with ⟨e | state, last⟩ <;>
    rw [waited] at ran <;> cases ran
  rw [← waits]
  exact ⟨state, rfl, state_of_waitFor waited abides⟩

/-- When nobody else is at work and its standard error takes the message, such a child is found to have
ended with status 1. -/
theorem outcome_launchWith_unfound {table : Descriptors} {task : Task} {stream : Nat}
    {written : Machine} (new : world.machine.HasNewPid) (granted : world.machine.refusals.waits = [])
    (wires : files.io.wire? world.descriptors = some table)
    (started : (startProgram none args files.io).outcome { world with jobs := world.jobs.enter } =
      (.ok pid, after))
    (alone : after.machine.tasks = [task]) (leads : task.descriptors.stream? stderr = some stream)
    (takes : { after.machine with now := task.clock }.writeStream (after.close files.fds).held stream
      (encode (notFoundText (args.headD []))) =
        .done ((encode (notFoundText (args.headD []))).length, written)) :
    ∃ last, (launchWith quiet false files (startProgram none args files.io)).outcome world =
        (.ok (some (.exited 1)), last) ∧
      last.machine.files = written.files ∧ last.machine.pipes = written.pipes := by
  obtain ⟨rfl, forks, rfl⟩ := startProgram_ok started
  have only : (world.child none args files.io).task Machine.shellPid
      (world.machine.now + Machine.startTime) = task :=
    (List.append_eq_singleton_iff.mp alone).elim (fun ⟨_, same⟩ => List.singleton_inj.mp same)
      fun ⟨_, absurd⟩ => by cases absurd
  rw [task_of_wired (p := world.child none args files.io) wires] at only
  subst only
  have alive := ChildTable.status?_start new.children world.machine.nextPid
  rw [if_pos rfl] at alive
  have later : max (world.machine.now + Machine.forkTime) (world.machine.now + Machine.startTime) =
      world.machine.now + Machine.startTime := max_eq_right (Nat.add_le_add_left (by decide) _)
  refine outcome_launchWith_complains started rfl granted alone rfl rfl rfl alive
    (complains_child world args files.io) leads ?_
  dsimp only
  rw [later]
  exact takes

/-! To start a child leaves its mark. -/

/-- The number for the next process, and what the system will answer to those who want another one:
what changes when a process is asked for. -/
def World.forks (world : World) : Nat × List (Option Errno) :=
  (world.machine.nextPid, world.machine.refusals.forks)

/-- After an action that starts a child no other child has been asked for. -/
structure Lasts (ran : Except (Failure ProcessError) Nat × World) (after : World) : Prop where
  failed : ∀ e, ran.1 = .error e → after.forks = ran.2.forks
  numbers : NumbersOn ran.2 after

theorem Lasts.withJobs {ran : Except (Failure ProcessError) Nat × World} (lasts : Lasts ran after)
    (jobs : JobTable) : Lasts ran { after with jobs } := ⟨lasts.failed, lasts.numbers⟩

theorem lasts_bind {α : Type} (start : Act ProcessError Nat) {next : Nat → Act ProcessError α}
    (onward : ∀ pid, (next pid).Within NumbersOn) (fds : List Nat) (world : World) :
    Lasts (start.outcome world) ((start.ensuring (·.close fds) >>= next).outcome world).2 := by
  rw [outcome_bind, outcome_ensuring]
  rcases start.outcome world with ⟨e | pid, mid⟩
  · exact ⟨fun _ _ => rfl, .refl _⟩
  · exact ⟨fun e failed => (nomatch failed), onward pid (mid.close fds)⟩

theorem lasts_launchWith (quiet background : Bool) (files : OpenFiles)
    (start : Act ProcessError Nat) (world : World) : ∃ jobs, Lasts (start.outcome { world with jobs })
    ((launchWith quiet background files start).outcome world).2 := by
  cases background with
  | true =>
    have rest (pid : Nat) : (do
        modify fun world => { world with jobs := (world.jobs.track pid).2 }
        if !quiet then tell ('[' :: decimal pid ++ [']'])
        return none : Act ProcessError (Option ChildState)).Within NumbersOn := by
      refine .bind (.modify fun _ => numbersOn_of_same rfl) fun _ => ?_
      split
      · exact .bind ((wrote_tell _).mono numbersOn_wrote) fun _ => .pure _
      · exact .pure _
    exact ⟨world.jobs, lasts_bind start rest files.fds world⟩
  | false =>
    have lasts := lasts_bind start
      (fun pid => .bind (numbersOn_waitFor pid) fun state => .pure (some state)) files.fds
      { world with jobs := world.jobs.enter }
    exact ⟨world.jobs.enter, lasts.withJobs _⟩

theorem forks_startProgram (program : Option Text) (args : List Text) (io : ChildIo)
    (world : World) :
    (∃ e refusal rest, ((startProgram program args io).outcome world).1 = .error e ∧
      world.machine.refusals.forks = some refusal :: rest ∧
      ((startProgram program args io).outcome world).2.forks = (world.machine.nextPid, rest)) ∨
    ((startProgram program args io).outcome world).2.machine.nextPid = world.machine.nextPid + 1 := by
  rcases ran : (startProgram program args io).outcome world with ⟨e | pid, after⟩
  · left
    obtain ⟨_, _, _, _, machine, -⟩ := world.wrote_flushed.moved
    rw [outcome_startProgram, machine, Machine.fork] at ran
    dsimp only at ran
    split at ran
    · next refusal refused =>
      cases ran
      cases left : world.machine.refusals.forks with
      | nil =>
        rw [left] at refused
        cases refused
      | cons answer rest =>
        rw [left] at refused
        obtain rfl : answer = some refusal := refused
        exact ⟨_, refusal, rest, rfl, rfl, rfl⟩
    · cases ran
  · right
    obtain ⟨-, forks, rfl⟩ := startProgram_ok ran
    rfl

/-- To start a child leaves its mark on the machine, also when the system refuses. -/
theorem forks_launchWith_ne (quiet background : Bool) (files : OpenFiles) (program : Option Text)
    (args : List Text) (io : ChildIo) (world : World) :
    ((launchWith quiet background files (startProgram program args io)).outcome world).2.forks ≠
      world.forks := by
  obtain ⟨jobs, lasts⟩ :=
    lasts_launchWith quiet background files (startProgram program args io) world
  rcases forks_startProgram program args io { world with jobs } with
    ⟨e, refusal, rest, refused, listed, forks⟩ | more
  · rw [lasts.failed e refused, forks]
    intro same
    have listed : world.machine.refusals.forks = some refusal :: rest := listed
    have shorter := congrArg (fun forks => forks.2.length) same
    simp [World.forks, listed] at shorter
  · have later := lasts.numbers.nextPid
    rw [more] at later
    intro same
    exact absurd (congrArg Prod.fst same) (Nat.ne_of_gt later)

end LineShell
