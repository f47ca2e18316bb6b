import LineShell.Proofs.CommandFiles
import LineShell.Proofs.EnteredLines

/-! That lines are entered makes no difference but to the history. All that the shell does for a
line, apart from the builtin `history`, goes the same way whatever the history is, and leaves it as
it was (`Act.IgnoresHistory`); so a list of lines has the same effects entered or only run, line by
line, as long as none of them asks for the history (`outcome_entered`). -/

namespace LineShell

/-- The action goes the same way whatever the history is, and leaves it as it was. -/
abbrev Act.IgnoresHistory {ε α : Type} (history : List Text) (act : Act ε α) : Prop :=
  act.CommutesWith fun world => world.withHistory history

open Act

/-! What the shell asks of the machine. -/

theorem beside_withHistory (history : List Text) :
    Beside fun world => world.withHistory history where
  machine _ := rfl
  descriptors _ := rfl
  unwritten _ := rfl
  after _ _ _ := rfl

section

variable {history : List Text}

theorem ignoresHistory_openFile (path : Text) (mode : OpenMode) :
    (openFile path mode).IgnoresHistory history := by
  have asks : nextOpening.IgnoresHistory history := by
    intro world
    have same : (world.withHistory history).machine = world.machine := rfl
    simp only [nextOpening, Act.of, outcome, ExceptT.run, same]
    cases (Machine.nextRefusal world.machine.refusals.opens).1 <;> rfl
  rw [openFile]
  exact .bind (.ofExcept _) fun path => .bind asks fun _ =>
    .rebuild (fun _ => rfl) (fun _ _ => rfl) (fun _ => rfl) fun _ _ => .pure _

theorem ignoresHistory_spawn (args : List Text) (io : ChildIo) :
    (spawn args io).IgnoresHistory history := by
  have starts (program : Option Text) (args : List Text) :
      (startProgram program args io).IgnoresHistory history := by
    intro world
    rw [outcome_startProgram, outcome_startProgram]
    have same : (world.withHistory history).flushed = world.flushed.withHistory history :=
      (beside_withHistory history).flushed world
    rw [same]
    rfl
  exact .get_bind (fun _ => rfl) fun _ => .bind (.ofExcept _) fun _ => starts _ _

theorem ignoresHistory_waitFor (pid : Nat) : (waitFor pid).IgnoresHistory history := by
  intro world
  have same : (world.withHistory history).machine = world.machine := rfl
  simp only [waitFor, Act.of, outcome, ExceptT.run, same]
  cases (Machine.nextRefusal
      (world.machine.refusals.waits.dropWhile (· = some .interrupted))).1 with
  | none => rfl
  | some e =>
    dsimp only
    split <;> rfl

theorem ignoresHistory_openPipe : openPipe.IgnoresHistory history := by
  intro world
  have same : (world.withHistory history).machine = world.machine := rfl
  simp only [openPipe, Act.of, outcome, ExceptT.run, same]
  cases (Machine.nextRefusal world.machine.refusals.pipes).1 <;> rfl

theorem ignoresHistory_openFiles (r : Redirections) : r.openFiles.IgnoresHistory history := by
  have given (file : Option Text) (mode : OpenMode) :
      (openGiven file mode).IgnoresHistory history :=
    .mapM (fun path => .mapError (ignoresHistory_openFile path mode) _) file
  rw [openFiles_eq]
  refine .bind (given r.input .input) fun input => .bind (.attempt (given r.output .output)) ?_
  rintro (e | output)
  · exact .bind (.modify fun _ => rfl) fun _ => .throw _
  · exact .pure _

theorem ignoresHistory_closingOnFailure {ε α : Type} {act : Act ε α}
    (known : act.IgnoresHistory history) (fds : List Nat) : (closingOnFailure fds act).IgnoresHistory history := by
  refine .bind (.attempt known) ?_
  rintro (e | a)
  · exact .bind (.modify fun _ => rfl) fun _ => .throw _
  · exact .pure _

theorem ignoresHistory_spawning (args : List Text) (io : ChildIo) (fds : List Nat) :
    (Act.ensuring (fun world => world.close fds) (spawn args io)).IgnoresHistory history :=
  .ensuring (ignoresHistory_spawn args io) fun _ => rfl

theorem ignoresHistory_inForeground {ε α : Type} {act : Act ε α}
    (known : act.IgnoresHistory history) : (inForeground act).IgnoresHistory history :=
  .bind (.modify fun _ => rfl) fun _ => .ensuring known fun _ => rfl

theorem ignoresHistory_launch (quiet : Bool) (stage : Stage) (background : Bool) :
    (launch quiet stage background).IgnoresHistory history := by
  rw [launch]
  refine .bind (ignoresHistory_openFiles _) fun files => ?_
  dsimp only
  split
  · refine .bind (ignoresHistory_spawning _ _ _) fun pid =>
      .bind (.modify fun _ => rfl) fun _ => ?_
    split
    · exact .bind ((beside_withHistory history).tell _) fun _ => .pure _
    · exact .pure _
  · exact ignoresHistory_inForeground (.bind (ignoresHistory_spawning _ _ _) fun pid =>
      .bind (ignoresHistory_waitFor pid) fun _ => .pure _)

theorem ignoresHistory_runPipe (left right : Stage) :
    (runPipe left right).IgnoresHistory history := by
  rw [runPipe_eq, startPipe]
  refine ignoresHistory_inForeground (.bind (.bind (ignoresHistory_openFiles _) fun leftFiles =>
    .bind (ignoresHistory_closingOnFailure (ignoresHistory_openFiles _) _) fun rightFiles =>
    .bind (ignoresHistory_closingOnFailure ignoresHistory_openPipe _) ?_) ?_)
  · rintro ⟨readEnd, writeEnd⟩
    refine .bind (ignoresHistory_closingOnFailure (ignoresHistory_spawning _ _ _) _) fun leftPid =>
      .bind (.attempt (ignoresHistory_spawning _ _ _)) ?_
    rintro (e | rightPid)
    · exact .bind (.attempt (ignoresHistory_waitFor _)) fun _ => .throw _
    · exact .pure _
  · intro pids
    refine .bind (.attempt (ignoresHistory_waitFor _)) fun leftState =>
      .bind (ignoresHistory_waitFor _) fun _ => ?_
    cases leftState with
    | error e => exact .throw _
    | ok state => exact .pure _

/-! Builtins. -/

theorem ignoresHistory_changeVariables
    (change : Variables → Except (Failure EnvError) Variables) :
    (changeVariables change).IgnoresHistory history := by
  intro world
  simp only [changeVariables, Act.of, outcome, ExceptT.run]
  have same : (world.withHistory history).session.vars = world.session.vars := rfl
  rw [same]
  cases change world.session.vars <;> rfl

namespace Builtin

variable (output : Output) (args : List Text)

theorem changeDir_withHistory (world : World) (history : List Text) (target : Text) :
    (world.withHistory history).changeDir target =
      (world.changeDir target).map (·.withHistory history) := by
  rw [World.changeDir, World.changeDir]
  rcases systemPath target with e | path
  · rfl
  · simp only [bind, Except.bind, World.withHistory]
    cases world.machine.root.reachDir world.place path <;> rfl

theorem arrived_withHistory (moved : World) (history : List Text) (left : Option Text)
    (target : Text) : arrived (moved.withHistory history) left target =
      (arrived moved left target).withHistory history := by
  cases left <;> rfl

theorem ignoresHistory_runCd : (runCd output args).IgnoresHistory history := by
  intro world
  rw [runCd]
  by_cases many : 1 < args.tail.length
  · rw [if_pos many]
    rfl
  rw [if_neg many]
  have told : cdTarget (world.withHistory history) args.tail.head? =
      cdTarget world args.tail.head? := rfl
  have left : dirToLeave (world.withHistory history) = dirToLeave world := rfl
  simp only [outcome_bind, outcome_get, outcome_ofExcept, told, left, changeDir_withHistory]
  cases cdTarget world args.tail.head? with
  | error e => rfl
  | ok names =>
    obtain ⟨target, shown⟩ := names
    simp only [Except.mapError]
    cases went : world.changeDir target with
    | error e => rfl
    | ok moved =>
      have rest : (do
          if args.tail.head? = some ['-'] then
            output.line (nameOfNew moved (dirToLeave world) target)
          return .proceed : Act CommandError Verdict).IgnoresHistory history := by
        split
        · exact .bind ((beside_withHistory history).print output _) fun _ => .pure _
        · exact .pure _
      have gone := rest (arrived moved (dirToLeave world) target)
      dsimp only at gone
      rw [← arrived_withHistory] at gone
      exact gone

theorem ignoresHistory_runPwd : (runPwd output args).IgnoresHistory history := by
  have prints (dir : Except CommandError Text) :
      (do output.line (← Act.ofExcept dir)
          return .proceed : Act CommandError Verdict).IgnoresHistory history :=
    .bind (.ofExcept _) fun _ =>
      .bind ((beside_withHistory history).print output _) fun _ => .pure _
  refine .get_bind (fun _ => rfl) fun world => ?_
  split
  · exact prints _
  · split
    · exact prints _
    · split
      · exact prints _
      · exact .bind (.fail _) fun _ => .pure _

theorem ignoresHistory_runExit : (runExit output args).IgnoresHistory history := by
  rw [runExit]
  split
  · exact .pure _
  · split
    · exact .pure _
    · exact .bind ((beside_withHistory history).complain output _) fun _ => .pure _
  · exact .fail _

theorem ignoresHistory_runEcho : (runEcho output args).IgnoresHistory history := by
  rw [runEcho]
  split
  next newline words _ =>
    have expands (world : World) : (expandAll world words).IgnoresHistory history := by
      rw [expandAll]
      split
      · exact .pure _
      · exact .throw _
    refine .get_bind (fun _ => rfl) fun world => .bind (expands world) fun texts =>
      .bind ((beside_withHistory history).print output _) fun _ => ?_
    dsimp only
    split
    · exact .bind ((beside_withHistory history).print output _) fun _ => .pure _
    · exact .pure _

theorem ignoresHistory_tellType (name : Text) : (tellType output name).IgnoresHistory history := by
  rw [tellType]
  split
  · exact (beside_withHistory history).print output _
  · refine .get_bind (fun _ => rfl) fun world => ?_
    split
    · exact (beside_withHistory history).print output _
    · exact (beside_withHistory history).complain output _

theorem ignoresHistory_runHelp : (runHelp output args).IgnoresHistory history := by
  rw [runHelp]
  split
  · exact .bind ((beside_withHistory history).lines output _) fun _ => .pure _
  · split
    · exact .bind ((beside_withHistory history).lines output _) fun _ => .pure _
    · exact .bind (.fail _) fun _ => .pure _

theorem ignoresHistory_runExport : (runExport output args).IgnoresHistory history := by
  rw [runExport]
  split
  · exact .get_bind (fun _ => rfl) fun _ =>
      .bind ((beside_withHistory history).lines output _) fun _ => .pure _
  · exact .bind (.forM (fun _ => ignoresHistory_changeVariables _) _) fun _ => .pure _

/-- Only `history` looks at the history. -/
theorem ignoresHistory_run {b : Builtin} (other : b ≠ .history) :
    (b.run output args).IgnoresHistory history := by
  cases b with
  | history => contradiction
  | cd => exact ignoresHistory_runCd output args
  | exit => exact ignoresHistory_runExit output args
  | pwd => exact ignoresHistory_runPwd output args
  | echo => exact ignoresHistory_runEcho output args
  | setExport => exact ignoresHistory_runExport output args
  | unset => exact .bind (.forM (fun _ => ignoresHistory_changeVariables _) _) fun _ => .pure _
  | env => exact .get_bind (fun _ => rfl) fun _ =>
      .bind ((beside_withHistory history).lines output _) fun _ => .pure _
  | type => exact .bind (.forM (ignoresHistory_tellType output) _) fun _ => .pure _
  | help => exact ignoresHistory_runHelp output args

end Builtin

/-! Lines. -/

theorem ignoresHistory_runOutput (output : Output) (args : List Text) {b : Builtin}
    (other : b ≠ .history) : (runOutput b output args).IgnoresHistory history := by
  have flushes : (output.flush.mapError ShellError.io).IgnoresHistory history :=
    .mapError ((beside_withHistory history).flushOutput output) _
  refine .bind (.attempt (.mapError (Builtin.ignoresHistory_run output args other) _)) ?_
  rintro ((e | -) | verdict)
  · exact .bind flushes fun _ => .fail _
  · exact .throw _
  · exact .bind flushes fun _ => .pure _

theorem ignoresHistory_runBuiltin {b : Builtin} (other : b ≠ .history) (stage : Stage) :
    (runBuiltin b stage).IgnoresHistory history := by
  rw [runBuiltin]
  exact .bind (.mapError (ignoresHistory_openFiles _) _) fun files =>
    .get_bind (fun _ => rfl) fun world =>
      .ensuring (ignoresHistory_runOutput _ _ other) fun _ => rfl

theorem ignoresHistory_runPipeline (quiet : Bool) {p : Pipeline}
    (other : p.right = none → Builtin.lookup? p.left.program ≠ some .history) :
    (runPipeline quiet p).IgnoresHistory history := by
  rw [runPipeline]
  split
  · next right _ =>
    have runs : (do
        let _ ← (runPipe p.left right).mapError ShellError.process
        return .proceed : Act ShellError Verdict).IgnoresHistory history :=
      .bind (.mapError (ignoresHistory_runPipe _ _) _) fun _ => .pure _
    dsimp only
    split
    · exact .bind ((beside_withHistory history).tell _) fun _ => runs
    · exact runs
  · next one =>
    split
    · next b program =>
      refine ignoresHistory_runBuiltin ?_ _
      rintro rfl
      exact other one program
    · exact .bind (.mapError (ignoresHistory_launch _ _ _) _) fun _ => .pure _

theorem ignoresHistory_assign (assignments : List (Text × Text)) :
    (assign assignments).IgnoresHistory history :=
  .forM (fun _ => .mapError (ignoresHistory_changeVariables _) _) _

end

/-- Whether a line is a matter for the builtin `history`. -/
def World.asksHistory (world : World) (line : Text) : Bool :=
  match world.read? line with
  | some (.ok (some p)) => p.right = none && Builtin.lookup? p.left.program = some .history
  | _ => false

variable {quiet : Bool} {world : World} {line : Text}

theorem read?_withHistory (history : List Text) :
    (world.withHistory history).read? line = world.read? line := rfl

theorem outcome_runLine_withHistory (other : world.asksHistory line = false)
    (history : List Text) : (runLine quiet line).outcome (world.withHistory history) =
      (((runLine quiet line).outcome world).1,
        ((runLine quiet line).outcome world).2.withHistory history) := by
  obtain ⟨asked, read⟩ := exists_read world line
  have again := (read?_withHistory history).trans read
  match asked with
  | .error e => rw [outcome_runLine_of_error quiet read, outcome_runLine_of_error quiet again]
  | .ok none => rw [outcome_runLine_of_none quiet read, outcome_runLine_of_none quiet again]
  | .ok (some p) =>
    cases assigns : p.assignments? with
    | some assignments =>
      rw [outcome_runLine_of_assignments quiet read assigns,
        outcome_runLine_of_assignments quiet again assigns, ignoresHistory_assign]
    | none =>
      rw [outcome_runLine_of_command quiet read assigns,
        outcome_runLine_of_command quiet again assigns]
      refine ignoresHistory_runPipeline quiet (fun one program => ?_) world
      simp [World.asksHistory, read, one, program] at other

/-- The lines that are entered in the history, of those that one enters. -/
def recordedLines (lines : List Text) : List Text := lines.filter fun line => !isBlank line

theorem outcome_executeLine_withHistory (other : world.asksHistory line = false)
    (history : List Text) : (executeLine quiet line).outcome (world.withHistory history) =
      (((runLine quiet line).outcome world).1,
        ((runLine quiet line).outcome world).2.withHistory (history ++ recordedLines [line])) := by
  cases blank : isBlank line with
  | true =>
    rw [outcome_executeLine_of_blank quiet _ blank, outcome_runLine_withHistory other]
    simp [recordedLines, blank]
  | false =>
    have recorded : (world.withHistory history).record line =
        world.withHistory (history ++ [line]) := rfl
    rw [outcome_executeLine_of_not_blank quiet _ blank, recorded,
      outcome_runLine_withHistory other]
    simp [recordedLines, blank]

/-- None of the lines asks for the history when its turn has come. -/
def NoneAsks (quiet : Bool) (world : World) (lines : List Text) : Prop :=
  ∀ before line after, lines = before ++ line :: after →
    (world.fed quiet (before.map .ran)).asksHistory line = false

theorem NoneAsks.start {before after : List Text} (never : NoneAsks quiet world (before ++ after)) :
    NoneAsks quiet world before := fun first line rest same =>
  never first line (rest ++ after) (by rw [same, List.append_assoc, List.cons_append])

theorem fed_concat (events : List LineEvent) (e : LineEvent) :
    world.fed quiet (events ++ [e]) = e.step quiet (world.fed quiet events) := by
  rw [World.fed, List.foldl_append]
  rfl

theorem fed_entered {lines : List Text} (never : NoneAsks quiet world lines) :
    world.fed quiet (lines.map .entered) =
      (world.fed quiet (lines.map .ran)).withHistory
        (world.session.history ++ recordedLines lines) := by
  induction lines using List.reverseRecOn with
  | nil => rw [recordedLines, List.filter_nil, List.append_nil]; rfl
  | append_singleton before line ih =>
    rw [List.map_append, List.map_append, List.map_singleton, List.map_singleton, fed_concat,
      fed_concat, ih never.start, LineEvent.step,
      outcome_executeLine_withHistory (never before line [] rfl), List.append_assoc]
    simp only [recordedLines, List.filter_append]
    rfl

/-- Entered or only run, a list of lines none of which asks for the history comes to the same: at
each line the same answer, and the same world but for the history, which has the lines that are not
blank in addition. -/
theorem outcome_entered {lines : List Text} (never : NoneAsks quiet world lines) {before : List Text}
    {line : Text} {after : List Text} (turn : lines = before ++ line :: after) :
    let ran := (runLine quiet line).outcome (world.fed quiet (before.map .ran))
    ran.2.session.history = world.session.history ∧
      (executeLine quiet line).outcome (world.fed quiet (before.map .entered)) =
        (ran.1, ran.2.withHistory
          (world.session.history ++ recordedLines (before ++ [line]))) := by
  intro ran
  refine ⟨?_, ?_⟩
  · rw [history_runLine, history_fed]
    simp [LineEvent.recorded?, Function.comp_def]
  · rw [fed_entered (turn ▸ never).start,
      outcome_executeLine_withHistory (never before line after turn), List.append_assoc]
    simp only [recordedLines, List.filter_append]
    rfl

theorem noneAsks_cd : NoneAsks true Builtin.linkedWorld ["A=a".toList, "cd $A".toList] := by
  intro before line after same
  match before with
  | [] =>
    obtain ⟨rfl, -⟩ := List.cons.inj same
    decide +kernel
  | [_] =>
    obtain ⟨rfl, rest⟩ := List.cons.inj same
    obtain ⟨rfl, -⟩ := List.cons.inj rest
    decide +kernel
  | _ :: _ :: _ => simp at same

/-- The second line goes by what the first one has set, entered or not. -/
theorem outcome_entered_cd : ∃ after,
    (executeLine true "cd $A".toList).outcome
      (Builtin.linkedWorld.fed true [.entered "A=a".toList]) = (.ok .proceed, after) ∧
    after.place = ⟨["a".toList], []⟩ ∧
    after.session.history = ["A=a".toList, "cd $A".toList] := by
  have answer : ((runLine true "cd $A".toList).outcome
      (Builtin.linkedWorld.fed true [.ran "A=a".toList])).1 = .ok .proceed := by decide +kernel
  have place : ((runLine true "cd $A".toList).outcome
      (Builtin.linkedWorld.fed true [.ran "A=a".toList])).2.place = ⟨["a".toList], []⟩ := by
    decide +kernel
  have turn : ["A=a".toList, "cd $A".toList] = ["A=a".toList] ++ "cd $A".toList :: [] := rfl
  obtain ⟨-, entered⟩ := outcome_entered noneAsks_cd turn
  rw [List.map_singleton, List.map_singleton, answer] at entered
  refine ⟨_, entered, place, ?_⟩
  decide +kernel

end LineShell
