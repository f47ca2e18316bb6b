import LineShell.Pipeline
import LineShell.ProcessError
import LineShell.StandardStreams

/-! Starting one command: its files are opened, a child is started with them in place, and the
shell lets go of its copies. A foreground child is waited for under a guard, which keeps the
reaper away from its status; a background child goes into the job table. -/

namespace LineShell

/-- Where commands are looked for when `PATH` is not set. -/
def defaultPath : Text := "/usr/local/bin:/usr/bin:/bin".toList

/-- The files that a name may stand for, in the order in which they are tried. An empty directory
of the list is the working directory. -/
def candidates (searchPath name : Text) : List Text :=
  (pieces ':' searchPath).map fun dir =>
    Path.push (if dir.isEmpty then ['.'] else dir) name

/-- The file that a command name stands for. A name with a slash in it is a path. -/
def World.findExecutable (world : World) (name : Text) : Option Text :=
  if name.isEmpty then none
  else if '/' ∈ name then if world.isExecutable name then some name else none
  else (candidates ((world.getenv "PATH").getD defaultPath) name).find? world.isExecutable

/-- The descriptors of the files of a command. -/
structure OpenFiles where
  input : Option Nat := none
  output : Option Nat := none
  deriving Repr, DecidableEq

namespace OpenFiles

def fds (files : OpenFiles) : List Nat := files.input.toList ++ files.output.toList

def io (files : OpenFiles) : ChildIo := { fileIn := files.input, fileOut := files.output }

end OpenFiles

/-- Opens the files of a command, the input first; if the output cannot be opened, the input is
closed again. -/
def Redirections.openFiles (redirections : Redirections) : Act ProcessError OpenFiles := do
  let input ← redirections.input.mapM fun path => (openInput path).mapError (.redirect path)
  match ← Act.attempt (redirections.output.mapM fun path =>
      (openOutput path).mapError (.redirect path)) with
  | .ok output => return ⟨input, output⟩
  | .error e =>
    modify (·.close input.toList)
    throw e

/-- What a child is to become: a file, if one is found, and its arguments. -/
structure Plan where
  program : Option Text
  args : List Text
  deriving Repr, DecidableEq

/-- A plan can be made for a command whose words, and whose file, hold no NUL. -/
def World.plan (world : World) (args : List Text) : Except ProcessError Plan :=
  match args with
  | [] => .error .emptyCommand
  | name :: _ =>
    match args.find? fun arg => '\x00' ∈ arg with
    | some arg => .error (.invalidArgument arg)
    | none =>
      match world.findExecutable name with
      | some path => if '\x00' ∈ path then .error (.invalidArgument name) else .ok ⟨path, args⟩
      | none => .ok ⟨none, args⟩

/-- Starts a child for a program that has been looked up. What is kept for standard output is
written before the child can write there. -/
def startProgram (program : Option Text) (args : List Text) (io : ChildIo) :
    Act ProcessError Nat := do
  modify World.flushed
  let world ← get
  let image : Image := ⟨args, world.environment, world.place, world.descriptors⟩
  let (result, machine) := world.machine.fork program image io
  set { world with machine }
  Act.ofExcept (result.mapError fun e => .fork (.os e))

/-- Starts a child with the given wiring. The caller keeps the descriptors. -/
def spawn (args : List Text) (io : ChildIo) : Act ProcessError Nat := do
  let plan ← Act.ofExcept ((← get).plan args)
  startProgram plan.program plan.args io

/-- The state in which the system's answer finds a child. -/
def stateOf : Collected → ChildState
  | .status word => .ofWord word
  | .pending => .running
  | .noChild => .reaped

/-- Waits for a child to end. One whose status someone else has collected counts as reaped; a wait
that is interrupted is taken up again. -/
def waitFor (pid : Nat) : Act ProcessError ChildState := Act.of fun world =>
  let refusals := world.machine.refusals
  let waits := refusals.waits.dropWhile (· = some .interrupted)
  let (refusal, waits) := Machine.nextRefusal waits
  let world := { world with
    machine := { world.machine with refusals := { refusals with waits } } }
  match refusal with
  | some e => if e = .noChild then (.ok .reaped, world) else (.error (.error (.wait (.os e))), world)
  | none =>
    let (answer, machine) := world.machine.await world.held pid
    (.ok (stateOf answer), { world with machine })

/-- The action under a guard for a foreground wait. -/
def inForeground {ε α : Type} (act : Act ε α) : Act ε α := do
  modify fun world => { world with jobs := world.jobs.enter }
  act.ensuring fun world => { world with jobs := world.jobs.leave }

/-- Runs one command: in the foreground its final state is the answer, in the background there is
none. -/
def launch (quiet : Bool) (stage : Stage) (background : Bool) :
    Act ProcessError (Option ChildState) := do
  let files ← stage.redirections.openFiles
  let start : Act ProcessError Nat :=
    (spawn stage.args files.io).ensuring (·.close files.fds)
  if background then
    let pid ← start
    modify fun world => { world with jobs := (world.jobs.track pid).2 }
    if !quiet then tell ('[' :: decimal pid ++ [']'])
    return none
  else
    inForeground do
      let pid ← start
      return some (← waitFor pid)

end LineShell
