import LineShell.Proofs.CommandStart
import LineShell.Proofs.EnteredLines

/-! `type` tells what would run. What it says of a name, what a line does whose command has that name,
and the file that is found for it, all go by the same meaning of the name (`World.meaning`): a builtin
runs in the shell itself, a file is what the child of the line becomes, and for a name without a
meaning the child complains and ends with status 1 (`type_tells`). -/

namespace LineShell

open Act Descriptors

/-- What a command name stands for. -/
inductive Meaning
  | builtin
  | file (path : Text)
  | nothing
  deriving Repr, DecidableEq

namespace Meaning

/-- What `type` says of a name. -/
def text (name : Text) : Meaning → Text
  | builtin => name ++ " is a shell builtin".toList
  | file path => name ++ " is ".toList ++ path
  | nothing => "type: ".toList ++ name ++ ": not found".toList

/-- The pieces in which that is printed of a name that stands for something. -/
def pieces (name : Text) : Meaning → List Text
  | builtin => [name, " is a shell builtin\n".toList]
  | file path => [name, " is ".toList, path, ['\n']]
  | nothing => []

/-- A line is written that tells the meaning of a name, on standard error if it stands for nothing.
-/
def say (m : Meaning) (output : Output) (name : Text) : Act CommandError Unit :=
  match m with
  | nothing => output.complain (m.text name)
  | known => output.print (known.pieces name)

def announce (m : Meaning) (output : Output) (name : Text) : Act CommandError Verdict := do
  m.say output name
  return .proceed

theorem flatten_pieces {m : Meaning} {name : Text} (known : m ≠ nothing) :
    (m.pieces name).flatten = m.text name ++ ['\n'] := by
  -- Of any texts: those at hand would be compared letter by letter.
  have one (line words : Text) (broken : line = words ++ ['\n']) :
      [name, line].flatten = name ++ words ++ ['\n'] := by simp [broken]
  have two (words path : Text) :
      [name, words, path, ['\n']].flatten = name ++ words ++ path ++ ['\n'] := by simp
  cases m with
  | nothing => exact absurd rfl known
  | builtin => exact one _ _ rfl
  | file path => exact two _ path

theorem prints_announce {m : Meaning} (known : m ≠ nothing) (output : Output) (name : Text) :
    (m.announce output name).PrintsTo output.stdout (encode (m.text name ++ ['\n'])) := by
  have printed : m.say output name = output.print (m.pieces name) := by
    cases m with
    | nothing => exact absurd rfl known
    | builtin | file => rfl
  have prints := output.prints_print (m.pieces name)
  rw [flatten_pieces known, ← printed] at prints
  rw [← List.append_nil (encode _)]
  exact prints.bind fun _ _ => .pure _

/-- A path has a slash in it, so what is said of a file is said of nothing else that is known. -/
theorem eq_of_text {m m' : Meaning} {name : Text} (known : m ≠ nothing) (known' : m' ≠ nothing)
    (slash : ∀ path, m = file path → '/' ∈ path) (slash' : ∀ path, m' = file path → '/' ∈ path)
    (same : m.text name = m'.text name) : m = m' := by
  have plain {path : Text} (slash : '/' ∈ path) : builtin.text name ≠ (file path).text name := by
    intro same
    have rest : " is ".toList ++ "a shell builtin".toList = " is ".toList ++ path :=
      List.append_cancel_left (same.trans (List.append_assoc name _ path))
    rw [← List.append_cancel_left rest] at slash
    exact absurd slash (by decide)
  cases m with
  | nothing => exact absurd rfl known
  | builtin =>
    cases m' with
    | nothing => exact absurd rfl known'
    | builtin => rfl
    | file path => exact absurd same (plain (slash' path rfl))
  | file path =>
    cases m' with
    | nothing => exact absurd rfl known'
    | builtin => exact absurd same.symm (plain (slash path rfl))
    | file path' => rw [List.append_cancel_left same]

end Meaning

namespace World

variable {world : World} {name path : Text}

/-- A builtin comes before any file. -/
def meaning (world : World) (name : Text) : Meaning :=
  if (Builtin.lookup? name).isSome then .builtin
  else match world.findExecutable name with
    | some path => .file path
    | none => .nothing

theorem meaning_eq_builtin : world.meaning name = .builtin ↔ (Builtin.lookup? name).isSome := by
  rw [meaning]
  split
  · next known => simp [known]
  · next unknown =>
    simp only [unknown, Bool.false_eq_true, iff_false]
    split <;> simp

theorem meaning_eq_file : world.meaning name = .file path ↔
    Builtin.lookup? name = none ∧ world.findExecutable name = some path := by
  rw [meaning]
  split
  · next known => simp [Option.isSome_iff_ne_none.mp known]
  · next unknown =>
    rw [Option.not_isSome_iff_eq_none] at unknown
    split <;> simp [*]

theorem meaning_eq_nothing : world.meaning name = .nothing ↔
    Builtin.lookup? name = none ∧ world.findExecutable name = none := by
  rw [meaning]
  split
  · next known => simp [Option.isSome_iff_ne_none.mp known]
  · next unknown =>
    rw [Option.not_isSome_iff_eq_none] at unknown
    split <;> simp [*]

end World

theorem outcome_tellType (output : Output) (name : Text) (world : World) :
    (Builtin.tellType output name).outcome world =
      ((world.meaning name).say output name).outcome world := by
  rw [Builtin.tellType, World.meaning]
  split
  · rfl
  · simp only [outcome_bind, outcome_get]
    cases world.findExecutable name <;> rfl

/-- `type` tells the meaning of a name. -/
theorem outcome_runType (output : Output) (called name : Text) (world : World) :
    (Builtin.type.run output [called, name]).outcome world =
      ((world.meaning name).announce output name).outcome world := by
  have told := outcome_tellType output name world
  have one : [name].forM (Builtin.tellType output) =
      Builtin.tellType output name >>= fun _ => pure ⟨⟩ := rfl
  rw [Builtin.run, Builtin.runType, List.tail_cons, one, Meaning.announce, outcome_bind, outcome_bind,
    outcome_bind, told]
  rcases Act.outcome _ world with ⟨_ | _, _⟩ <;> rfl

/-! Lines that a builtin carries out, and lines for which a child is started. -/

theorem forks_of_wrote (before after : World) (wrote : before.Wrote after) :
    after.forks = before.forks := by
  obtain ⟨_, _, _, _, machine, -⟩ := wrote.moved
  rw [World.forks, machine]
  rfl

theorem keeps_forks_openFile (path : Text) (mode : OpenMode) :
    (openFile path mode).Keeps World.forks := by
  have asks : nextOpening.Keeps World.forks := by
    intro world
    simp only [nextOpening, Act.of, outcome, ExceptT.run]
    split <;> rfl
  rw [openFile]
  refine .bind (.ofExcept _) fun path => .bind asks fun _ =>
    .rebuild (fun world opened opens => ?_) fun _ _ => .pure _
  obtain ⟨_, _, -, -, same⟩ := Machine.openPath_opened (mapError_eq_ok.mp opens)
  rw [World.forks, same]
  rfl

/-- A builtin asks for no process. -/
theorem keeps_forks_runBuiltin (b : Builtin) (stage : Stage) :
    (runBuiltin b stage).Keeps World.forks := by
  rw [runBuiltin]
  refine .bind (.mapError (within_openFiles keeps_forks_openFile (fun _ _ => rfl) _) _) fun files =>
    .bind .get fun world => .ensuring ?_ fun _ => rfl
  exact within_runOutput_of_same forks_of_wrote
    (fun _ machine => by rw [World.forks, World.forks, machine]) b _ stage.args

namespace World

/-- A builtin carries out the line, and nobody asks for another process. -/
structure RunsHere (world : World) (quiet : Bool) (line : Text) : Prop where
  builtin : ∃ b stage, (runLine quiet line).outcome world = (runBuiltin b stage).outcome world
  alone : ((runLine quiet line).outcome world).2.forks = world.forks

/-- What is left of a line to run in a world in which its files are open: a child is to become some
file, if there is one, and the shell waits for it or lets it be. -/
structure Launches (world : World) (quiet : Bool) (line : Text) (p : Pipeline) (files : OpenFiles)
    (opened : World) (program : Option Text) : Prop where
  plan : opened.plan p.left.args = .ok ⟨program, p.left.args⟩
  runs : (runLine quiet line).outcome world = (do
    let _ ← (launchWith quiet p.background files
      (startProgram program p.left.args files.io)).mapError ShellError.process
    return .proceed : Act ShellError Verdict).outcome opened
  begins : ∀ jobs pid after,
    (startProgram program p.left.args files.io).outcome { opened with jobs } = (.ok pid, after) →
    ∃ task, after.machine.tasks = opened.machine.tasks ++ [task] ∧ task.pid = pid ∧
      task.code.Begins program
        ⟨p.left.args, opened.environment, opened.place, opened.descriptors⟩

variable {quiet : Bool} {line : Text} {p : Pipeline} {files : OpenFiles} {world opened : World}
  {program : Option Text}

theorem args_ne_nil_of_read (read : world.read? line = some (.ok (some p))) : p.left.args ≠ [] := by
  obtain ⟨expanded, -, asked⟩ := Option.map_eq_some_iff.mp read
  obtain ⟨tokens, -, asked⟩ := bind_eq_ok.mp asked
  exact PipelineGrammar.args_ne_nil_of_ofTokens asked

theorem Launches.forks_ne (launches : world.Launches quiet line p files opened program) :
    ((runLine quiet line).outcome world).2.forks ≠ opened.forks := by
  have marked := forks_launchWith_ne quiet p.background files program p.left.args files.io opened
  rw [launches.runs, outcome_bind, outcome_mapError]
  rcases ran : (launchWith quiet p.background files
    (startProgram program p.left.args files.io)).outcome opened with ⟨_ | _, _⟩ <;>
    rw [ran] at marked <;> exact marked

section

variable (read : world.read? line = some (.ok (some p))) (one : p.right = none)
  (command : p.assignments? = none)
  (opens : p.left.redirections.openFiles.outcome world = (.ok files, opened))
include read one command

theorem runsHere_of_builtin {b : Builtin} (known : Builtin.lookup? p.left.program = some b) :
    world.RunsHere quiet line := by
  have runs : (runLine quiet line).outcome world = (runBuiltin b p.left).outcome world := by
    rw [outcome_runLine_of_command quiet read command, runPipeline_of_builtin quiet one known]
  exact ⟨⟨b, p.left, runs⟩, by rw [runs]; exact keeps_forks_runBuiltin b p.left world⟩

include opens

theorem launches_of_program (clean : ∀ arg ∈ p.left.args, '\x00' ∉ arg)
    (unknown : Builtin.lookup? p.left.program = none) :
    world.Launches quiet line p files opened (world.findExecutable p.left.program) := by
  have plan (jobs : JobTable) : World.plan { opened with jobs } p.left.args =
      .ok ⟨world.findExecutable p.left.program, p.left.args⟩ := by
    rw [plan_eq_ok (args_ne_nil_of_read read) clean]
    exact congrArg (fun file => Except.ok (Plan.mk file p.left.args))
      (findExecutable_opened opens p.left.program)
  obtain ⟨table, wires⟩ := exists_wire_of_opened opens
  refine ⟨plan opened.jobs, ?_, fun jobs pid after done => ?_⟩
  · rw [outcome_runLine_of_command quiet read command, runPipeline, one]
    dsimp only
    rw [unknown]
    have ran : (launch quiet p.left p.background).outcome world =
        (launchWith quiet p.background files (startProgram
          (world.findExecutable p.left.program) p.left.args files.io)).outcome opened := by
      rw [launch_eq, outcome_bind, opens]
      exact outcome_launchWith_congr fun jobs => outcome_spawn_of_plan (plan jobs) files.io
    simp only [outcome_bind, outcome_mapError, ran]
  · obtain ⟨task, tasks, own, -, begins⟩ :=
      begins_startProgram done wires
    exact ⟨task, tasks, own, begins⟩

end

/-- A child is started for the file that the name stands for, and for no other. -/
theorem Launches.eq_findExecutable (launches : world.Launches quiet line p files opened program)
    (read : world.read? line = some (.ok (some p)))
    (opens : p.left.redirections.openFiles.outcome world = (.ok files, opened))
    (clean : ∀ arg ∈ p.left.args, '\x00' ∉ arg) :
    program = world.findExecutable p.left.program := by
  have plan := launches.plan
  rw [plan_eq_ok (args_ne_nil_of_read read) clean, findExecutable_opened opens] at plan
  exact (congrArg Plan.program (Except.ok.inj plan)).symm

/-- A line for which a child is started is not carried out by a builtin. -/
theorem RunsHere.not_launches (here : world.RunsHere quiet line)
    (opens : p.left.redirections.openFiles.outcome world = (.ok files, opened)) :
    ¬ world.Launches quiet line p files opened program := by
  intro launches
  have kept := within_openFiles keeps_forks_openFile (fun _ _ => rfl) p.left.redirections world
  rw [opens] at kept
  exact launches.forks_ne (here.alone.trans kept.symm)

end World

/-- What becomes of the child of a command for which no file is found. The files of the command are
open, and the number of the child is new, as it is in whatever state a shell finds itself
(`numbered_runShell`). -/
structure NotFound (quiet : Bool) (p : Pipeline) (files : OpenFiles) (opened : World) : Prop where
  /-- It writes that the command is not found, and ends with status 1. -/
  complains : ∀ jobs pid after,
    (startProgram none p.left.args files.io).outcome { opened with jobs } = (.ok pid, after) →
    ∃ task ∈ after.machine.tasks, task.pid = pid ∧
      task.code.Complains 1 (encode (p.left.program ++ ": command not found\n".toList))
  /-- Whatever all processes do, it has not ended in another way, unless a signal has ended it. -/
  ends : opened.machine.HasNewPid → ∀ jobs pid after,
    (startProgram none p.left.args files.io).outcome { opened with jobs } = (.ok pid, after) →
    ∀ held isOver steps, let status? := (after.machine.run held isOver steps).children.status? pid
      status? = some .running ∨ ∃ word, status? = some (.ended word) ∧
        (ChildState.ofWord word = .exited 1 ∨ ∃ signal, ChildState.ofWord word = .signaled signal)
  /-- So the shell learns nothing else that waits for it, unless it is made to give up. -/
  awaited : opened.machine.HasNewPid → ∀ answer last, (launchWith quiet false files
      (startProgram none p.left.args files.io)).outcome opened = (.ok answer, last) →
    ∃ state, answer = some state ∧ (state = .exited 1 ∨ (∃ signal, state = .signaled signal) ∨
      state = .running ∨ state = .reaped ∧ some Errno.noChild ∈ opened.machine.refusals.waits)
  /-- When nobody else is at work and standard error takes the message, it is written there and
  nothing else is done to any file, and the shell learns that the child has ended with status 1. -/
  alone : opened.machine.HasNewPid → opened.machine.refusals.waits = [] →
    ∀ pid after task stream written,
    (startProgram none p.left.args files.io).outcome { opened with jobs := opened.jobs.enter } =
      (.ok pid, after) →
    after.machine.tasks = [task] → task.descriptors.stream? stderr = some stream →
    let message := encode (p.left.program ++ ": command not found\n".toList)
    { after.machine with now := task.clock }.writeStream (after.close files.fds).held stream message =
      .done (message.length, written) →
    ∃ last, (launchWith quiet false files (startProgram none p.left.args files.io)).outcome opened =
        (.ok (some (.exited 1)), last) ∧
      last.machine.files = written.files ∧ last.machine.pipes = written.pipes

variable {quiet : Bool} {line : Text} {p : Pipeline} {files : OpenFiles} {world opened : World}

theorem notFound_of_opened
    (opens : p.left.redirections.openFiles.outcome world = (.ok files, opened)) :
    NotFound quiet p files opened := by
  obtain ⟨table, wires⟩ := exists_wire_of_opened opens
  constructor
  · intro jobs pid after started
    obtain ⟨task, tasks, own, -, begins⟩ :=
      begins_startProgram started wires
    exact ⟨task, by simp [tasks], own, begins⟩
  · intro new jobs pid after started held isOver steps
    have abides : after.machine.Abides pid fun code => ∃ rest, code.Finishes 1 rest :=
      abides_startProgram started new wires ⟨_, (complains_child _ _ _).finishes⟩
    exact (abides.run_finishes held isOver steps).finds
  · exact fun new answer last => state_of_unfound new wires
  · intro new granted pid after task stream written started alone leads message takes
    exact outcome_launchWith_unfound new granted wires started alone leads takes

end LineShell
