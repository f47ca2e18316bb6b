import LineShell.Proofs.CommandFiles
import LineShell.Proofs.Failures
import LineShell.Proofs.LineEffects
import LineShell.Proofs.Steps

/-! Lines of which a file cannot be opened. Nothing of such a line is run, and of its files only
those have been touched that are opened for output before the one that fails:
`nothingRan_of_redirect`. -/

namespace LineShell

open Act

/-- The files of a line in the order in which they are opened. -/
def Pipeline.openings (p : Pipeline) : List (Text × OpenMode) :=
  p.left.redirections.openings ++ (p.right.map (·.redirections.openings)).getD []

namespace World

/-- The world in which the files of a line are opened: two commands that are asked to run in the
background run in the foreground, and the shell says so. -/
def noticed (world : World) (quiet : Bool) (p : Pipeline) : World :=
  if p.right.isSome && p.background && !quiet then
    (world.told?
      "vena: background pipelines are not supported; running in foreground".toList).getD world
  else world

/-- The shell is as it was, and nobody has been started or has acted. -/
structure NothingRan (before after : World) : Prop where
  session : after.session = before.session
  place : after.place = before.place
  jobs : after.jobs = before.jobs
  tasks : after.machine.tasks = before.machine.tasks
  children : after.machine.children = before.machine.children
  ended : after.machine.ended = before.machine.ended
  nextPid : after.machine.nextPid = before.machine.nextPid
  now : after.machine.now = before.machine.now
  unwritten : after.unwritten = before.unwritten

variable {before mid after : World}

theorem NothingRan.trans (first : before.NothingRan mid) (second : mid.NothingRan after) :
    before.NothingRan after where
  session := second.session.trans first.session
  place := second.place.trans first.place
  jobs := second.jobs.trans first.jobs
  tasks := second.tasks.trans first.tasks
  children := second.children.trans first.children
  ended := second.ended.trans first.ended
  nextPid := second.nextPid.trans first.nextPid
  now := second.now.trans first.now
  unwritten := second.unwritten.trans first.unwritten

theorem OnlyOpened.nothingRan (opened : before.OnlyOpened after) : before.NothingRan after := by
  obtain ⟨_, _, _, _, _, rfl⟩ := opened
  constructor <;> rfl

theorem nothingRan_told {text : Text} (told : before.told? text = some after) :
    before.NothingRan after := by
  rw [told?] at told
  split at told
  · next taken =>
    obtain rfl := Option.some.inj told
    rcases Machine.writeStandard_eq_ok.mp taken with wrote | ⟨-, rfl⟩
    · obtain ⟨_, _, _, _, rfl, -⟩ := Machine.write_ok wrote
      constructor <;> rfl
    · constructor <;> rfl
  · cases told

theorem nothingRan_noticed (world : World) (quiet : Bool) (p : Pipeline) :
    world.NothingRan (world.noticed quiet p) := by
  rw [noticed]
  split
  · cases told : world.told? _ with
    | none => constructor <;> rfl
    | some after => exact nothingRan_told told
  · constructor <;> rfl

end World

/-- What is left of a world after some files have been opened and the next one could not be. -/
structure Spoiled (world : World) (openings : List (Text × OpenMode)) (path : Text)
    (after : World) : Prop where
  nothing_else : world.OnlyOpened after
  files : ∃ opened mode later, openings = opened ++ (path, mode) :: later ∧
    world.machine.files.OnlyEmptied after.machine.files world.place (outputs opened)

/-- The failures that are no matter of files. -/
def OtherFailure (e : Failure ProcessError) : Prop := ∀ path cause, e ≠ .error (.redirect path cause)

section

variable {world after : World} {path : Text} {cause : IoError}

theorem failsOther {α : Type} {act : Act ProcessError α} (other : act.FailsOnly OtherFailure) :
    (act.outcome world).1 ≠ .error (.error (.redirect path cause)) := fun failed =>
  other world _ failed path cause rfl

theorem plain_otherFailure (e : ProcessError) (plain : ∀ path cause, e ≠ .redirect path cause) :
    OtherFailure (.error e) := by
  rintro path cause ⟨⟩
  exact plain path cause rfl

/-- One command: nothing has been done to the files. -/
theorem alike_of_redirect {r : Redirections}
    (failed : r.openFiles.outcome world = (.error (.error (.redirect path cause)), after)) :
    Spoiled world r.openings path after ∧ world.machine.files.Alike after.machine.files := by
  rcases openFiles_cases r world with
    ⟨opened, path', mode, later, cause', after', openings, noOutput, ran, only, alike⟩ |
    ⟨files, after', ran, -⟩
  · cases ran.symm.trans failed
    refine ⟨⟨only, opened, mode, later, openings, ?_⟩, alike⟩
    rw [noOutput]
    exact alike.onlyEmptied _
  · cases ran.symm.trans failed

theorem spoiled_of_startPipe {left right : Stage}
    (failed : (startPipe left right).outcome world =
      (.error (.error (.redirect path cause)), after)) :
    Spoiled world (left.redirections.openings ++ right.redirections.openings) path after := by
  rw [outcome_startPipe] at failed
  rcases openFiles_cases left.redirections world with
    ⟨opened, path', mode, later, cause', mid, openings, noOutput, ran, only, alike⟩ |
    ⟨leftFiles, mid, ran, only, emptied⟩
  · rw [ran] at failed
    cases failed
    refine ⟨only, opened, mode, later ++ right.redirections.openings, ?_, ?_⟩
    · rw [openings, List.append_assoc]
      rfl
    · rw [noOutput]
      exact alike.onlyEmptied _
  simp only [ran] at failed
  rcases openFiles_cases right.redirections mid with
    ⟨opened, path', mode, later, cause', last, openings, noOutput, ran', only', alike⟩ |
    ⟨rightFiles, last, ran', -⟩
  · rw [ran'] at failed
    cases failed
    refine ⟨(only.trans only').close _, left.redirections.openings ++ opened, mode, later, ?_, ?_⟩
    · rw [openings, List.append_assoc]
    · rw [outputs_append, outputs_openings, noOutput, List.append_nil]
      exact emptied.congr alike
  · rw [ran'] at failed
    exact absurd (congrArg Prod.fst failed)
      (failsOther (failsOnly_startJoined plain_otherFailure left right leftFiles rightFiles))

theorem spoiled_of_runPipe {left right : Stage}
    (failed : (runPipe left right).outcome world =
      (.error (.error (.redirect path cause)), after)) :
    Spoiled world (left.redirections.openings ++ right.redirections.openings) path after := by
  rw [runPipe_eq, outcome_inForeground] at failed
  obtain ⟨refused, rest⟩ := Prod.mk.inj failed
  rw [outcome_bind] at refused rest
  rcases ran : (startPipe left right).outcome { world with jobs := world.jobs.enter } with
    ⟨e | pids, mid⟩ <;> rw [ran] at refused rest
  · obtain rfl : e = .error (.redirect path cause) := Except.error.inj refused
    obtain ⟨only, files⟩ := spoiled_of_startPipe ran
    subst rest
    refine ⟨?_, files⟩
    obtain ⟨descriptors, root, buffers, streams, refusals, rfl⟩ := only
    exact ⟨descriptors, root, buffers, streams, refusals, by
      simp [JobTable.enter, JobTable.leave]⟩
  · exact absurd refused (failsOther (failsOnly_awaitBoth plain_otherFailure pids))

/-- A command of its own: its files are opened before anything else, and that alone can fail so. -/
theorem spoiled_of_launch {quiet background : Bool} {stage : Stage}
    (failed : (launch quiet stage background).outcome world =
      (.error (.error (.redirect path cause)), after)) :
    Spoiled world stage.redirections.openings path after ∧
      world.machine.files.Alike after.machine.files := by
  rw [launch_eq, outcome_bind] at failed
  rcases ran : stage.redirections.openFiles.outcome world with ⟨e | files, mid⟩ <;>
    rw [ran] at failed
  · cases failed
    exact alike_of_redirect ran
  · exact absurd (congrArg Prod.fst failed)
      (failsOther (failsOnly_launchOpened plain_otherFailure (by simp [OtherFailure]) quiet stage
        background files))

theorem failed_of_mapError {α : Type} {act : Act ProcessError α} {e : ProcessError}
    (failed : (do let _ ← act.mapError ShellError.process; return .proceed :
        Act ShellError Verdict).outcome world = (.error (.error (.process e)), after)) :
    act.outcome world = (.error (.error e), after) := by
  rw [outcome_bind, outcome_mapError] at failed
  rcases ran : act.outcome world with ⟨(e' | -) | a, mid⟩ <;> rw [ran] at failed
  · cases failed
    rfl
  · cases failed
  · cases failed

/-- What two commands come to short of a crash, they come to after the notice. -/
theorem failed_of_two {quiet : Bool} {p : Pipeline} {right : Stage} {e : ShellError}
    (two : p.right = some right)
    (failed : (runPipeline quiet p).outcome world = (.error (.error e), after)) :
    (do
      let _ ← (runPipe p.left right).mapError ShellError.process
      return .proceed : Act ShellError Verdict).outcome (world.noticed quiet p) =
        (.error (.error e), after) := by
  rw [runPipeline, two] at failed
  rw [World.noticed, two]
  cases noticed : p.background && !quiet with
  | false => simpa [noticed] using failed
  | true =>
    simp only [noticed, if_true] at failed
    rw [outcome_bind, outcome_tell] at failed
    simp only [Option.isSome_some, Bool.true_and, noticed, if_true]
    cases told : world.told?
        "vena: background pipelines are not supported; running in foreground".toList with
    | none =>
      rw [told] at failed
      cases failed
    | some later =>
      rw [told] at failed
      exact failed

theorem spoiled_of_runPipeline {quiet : Bool} {p : Pipeline}
    (failed : (runPipeline quiet p).outcome world =
      (.error (.error (.process (.redirect path cause))), after)) :
    Spoiled (world.noticed quiet p) p.openings path after ∧
      (p.right = none → world.machine.files.Alike after.machine.files) := by
  cases two : p.right with
  | some right =>
    have openings : p.openings = p.left.redirections.openings ++ right.redirections.openings := by
      simp [Pipeline.openings, two]
    rw [openings]
    exact ⟨spoiled_of_runPipe (failed_of_mapError (failed_of_two two failed)),
      fun absent => by cases absent⟩
  | none =>
    have alone : world.noticed quiet p = world := by simp [World.noticed, two]
    have openings : p.openings = p.left.redirections.openings := by
      simp [Pipeline.openings, two]
    rw [alone, openings]
    suffices own : Spoiled world p.left.redirections.openings path after ∧
        world.machine.files.Alike after.machine.files from ⟨own.1, fun _ => own.2⟩
    rw [runPipeline, two] at failed
    dsimp only at failed
    cases program : Builtin.lookup? p.left.program with
    | none =>
      rw [program] at failed
      exact spoiled_of_launch (failed_of_mapError failed)
    | some b =>
      rw [program] at failed
      rcases outcome_runBuiltin world b p.left with
        ⟨e, mid, refused, ran⟩ | ⟨files, mid, -, ran⟩
      · have same := ran.symm.trans failed
        cases e with
        | error e =>
          cases same
          exact alike_of_redirect refused
        | crash => cases same
      · exact absurd (congrArg Prod.fst (ran.symm.trans failed)) (runOutput_ne_process _)

/-- A line that fails because a file cannot be opened has run nothing: the shell is as it was, nobody
has been started, and nothing has been read or written. Of the files of a single command none is
changed; of those of two commands the ones are there and empty that were opened for output before
the one that failed, and no other file is changed. -/
theorem nothingRan_of_redirect {quiet : Bool} {line : Text}
    (failed : (runLine quiet line).outcome world =
      (.error (.error (.process (.redirect path cause))), after)) :
    world.NothingRan after ∧
    ∃ p opened mode later, world.read? line = some (.ok (some p)) ∧
      p.openings = opened ++ (path, mode) :: later ∧
      (world.noticed quiet p).OnlyOpened after ∧
      (world.noticed quiet p).machine.files.OnlyEmptied after.machine.files world.place
        (outputs opened) ∧
      (p.right = none →
        world.noticed quiet p = world ∧ world.machine.files.Alike after.machine.files) := by
  obtain ⟨asked, read⟩ := exists_read world line
  match asked with
  | .error e =>
    rw [outcome_runLine_of_error quiet read] at failed
    cases failed
  | .ok none =>
    rw [outcome_runLine_of_none quiet read] at failed
    cases failed
  | .ok (some p) =>
    cases assigns : p.assignments? with
    | some assignments =>
      rw [outcome_runLine_of_assignments quiet read assigns, outcome_assign] at failed
      have refused := map_eq_error_iff.mp (congrArg Prod.fst failed)
      exact absurd refused (mapError_ne (by simp) _)
    | none =>
      rw [outcome_runLine_of_command quiet read assigns] at failed
      obtain ⟨⟨only, opened, mode, later, openings, emptied⟩, alone⟩ :=
        spoiled_of_runPipeline failed
      have noticed := world.nothingRan_noticed quiet p
      rw [noticed.place] at emptied
      refine ⟨noticed.trans only.nothingRan, p, opened, mode, later, read, openings, only, emptied,
        fun one => ⟨?_, alone one⟩⟩
      simp [World.noticed, one]

end

/-- The output of the left command is made before the input of the right one is missed. -/
theorem nothingRan_of_redirect_input :
    let world : World :=
      { place := .root, descriptors := ∅, machine := { root := .dir [] .ownDir } }
    ∃ after, (runLine true "cat > out | cat < missing".toList).outcome world =
        (.error (.error (.process (.redirect "missing".toList (.os .noEntry)))), after) ∧
      world.NothingRan after ∧
      after.machine.root.seen ["out".toList] = some (.file [] ⟨true, 0o644, 0⟩) ∧
      after.machine.root.seen ["missing".toList] = none := by
  intro world
  have failed : ((runLine true "cat > out | cat < missing".toList).outcome world).1 =
      .error (.error (.process (.redirect "missing".toList (.os .noEntry)))) := by decide +kernel
  have made : ((runLine true "cat > out | cat < missing".toList).outcome world).2.machine.root.seen
      ["out".toList] = some (.file [] ⟨true, 0o644, 0⟩) := by decide +kernel
  have absent : ((runLine true "cat > out | cat < missing".toList).outcome
      world).2.machine.root.seen ["missing".toList] = none := by decide +kernel
  rcases ran : (runLine true "cat > out | cat < missing".toList).outcome world with ⟨answer, after⟩
  rw [ran] at failed made absent
  subst failed
  exact ⟨after, rfl, (nothingRan_of_redirect ran).1, made, absent⟩

end LineShell
