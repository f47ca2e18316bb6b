import LineShell.Interpreter

/-! The shell as a whole: the lines of its rc file, and then line after line of input, until one
asks to leave or the input ends. Errors of a line are told, and the next line is run. -/

namespace LineShell

/-- Where lines of input come from: a source has a state of its own, and may read from the
world. -/
abbrev LineSource (σ : Type) := σ → World → Except ReadError Text × σ × World

/-- The background jobs that are done, and the world in which they are no longer in the table. -/
def World.finishedJobs (world : World) : List (Nat × ChildState) × World :=
  let (jobs, children) := world.jobs.reap world.machine.children
  let (finished, jobs) := jobs.drain
  (finished, { world with machine := { world.machine with children }, jobs })

/-- Tells of the background jobs that have ended. -/
def reportJobs {ε : Type} (quiet : Bool) : Act ε Unit := do
  let world ← get
  let (finished, world) := { world with machine := world.machine.settle world.held }.finishedJobs
  set world
  if !quiet then
    finished.forM fun job => tell ('[' :: decimal job.1 ++ "] ".toList ++ job.2.display)

/-- Tells of an error. -/
def tellError {ε : Type} (label : Text) (e : ShellError) : Act ε Unit :=
  tell ("vena: ".toList ++ label ++ e.message)

/-- Runs a line whose errors are told; the answer is the status with which to leave, if the line
asks for that. -/
def runTelling (label : Text) (run : Act ShellError Verdict) : Act ShellError (Option Int) := do
  match ← Act.attempt run with
  | .ok .proceed => return none
  | .ok (.leave status) => return some status
  | .error (.error e) =>
    tellError label e
    return none
  | .error .crash => throw .crash

/-- Runs lines until one asks to leave. -/
def runLines (quiet : Bool) (label : Text) : List Text → Act ShellError (Option Int)
  | [] => return none
  | line :: rest => do
    match ← runTelling label (runLine quiet line) with
    | some status => return some status
    | none => runLines quiet label rest

/-- Runs the rc file, if there is one. -/
def sourceRc (flags : Flags) : Act ShellError (Option Int) := do
  let world ← get
  match RcFile.ofFlags? world flags with
  | none => return none
  | some rc =>
    let lines ← Act.ofExcept ((rc.load world).mapError .config)
    runLines (flags.isSet .quiet) (rc.path ++ ": ".toList) lines

/-- Reads and runs lines, at most `turns` of them. -/
def serve {σ : Type} (source : LineSource σ) (quiet : Bool) : (turns : Nat) → σ →
    Act ShellError Int
  | 0, _ => return 0
  | turns + 1, state => do
    reportJobs quiet
    let (answer, state, world) := source state (← get)
    set world
    match answer with
    | .ok line =>
      match ← runTelling [] (executeLine quiet line) with
      | some status => return status
      | none => serve source quiet turns state
    | .error .interrupted =>
      if !quiet then tell "^C (type 'exit' to leave)".toList
      serve source quiet turns state
    | .error .endOfInput =>
      if !quiet then tell "exit".toList
      return 0
    | .error e => Act.fail (.readLine e)

/-- The whole run of a shell. -/
def runShell {σ : Type} (source : LineSource σ) (state : σ) (turns : Nat) (flags : Flags) :
    Act ShellError Int := do
  match ← sourceRc flags with
  | some status => return status
  | none => serve source (flags.isSet .quiet) turns state

/-- Makes ready for reading lines, and for hearing of children and interrupts. -/
def setUp : Act ShellError Unit := do
  let refusals := (← get).machine.refusals
  if let some e := refusals.editor then Act.fail (.readLine e)
  if let some reason := refusals.reaper then Act.fail (.process (.signalSetup reason))
  if let some reason := refusals.interrupts then Act.fail (.interruptHandler reason)

def versionText : Text := "vena 0.1.0\n".toList

/-- The shell started with arguments. -/
def runProgram {σ : Type} (source : LineSource σ) (state : σ) (turns : Nat) (args : List Text) :
    Act ShellError Int := do
  match Flags.parse {} args with
  | (.error e, _) => Act.fail (.flag e.message)
  | (.ok (), flags) =>
    if flags.isSet .help then
      (StandardOutput.print (encode Flags.helpText)).insist
      return 0
    else if flags.isSet .version then
      (StandardOutput.print (encode versionText)).insist
      return 0
    else
      setUp
      runShell source state turns flags

/-- The program, the error of which is told and gives status 1. -/
def runReporting {σ : Type} (source : LineSource σ) (state : σ) (turns : Nat) (args : List Text) :
    Act ShellError Int := do
  match ← Act.attempt (runProgram source state turns args) with
  | .ok status => return status
  | .error (.error e) =>
    tellError [] e
    return 1
  | .error .crash => throw .crash

/-- The status of a shell that a crash brings down. -/
def crashStatus : Int := 101

/-- The shell started with arguments: its exit status, and the world it leaves. At the very end,
also after a crash, what is kept for standard output is written. -/
def runMain {σ : Type} (source : LineSource σ) (state : σ) (turns : Nat) (args : List Text)
    (world : World) : Int × World :=
  match (runReporting source state turns args).run world with
  | (.ok status, world) => (status, world.flushed)
  | (.error _, world) => (crashStatus, world.flushed)

/-! ### Lines from standard input -/

/-- How many bytes are read at a time. -/
def chunkSize : Nat := 8192

/-- Reads chunks until the bytes at hand hold a line break or nothing more comes. -/
def fill : (chunks : Nat) → Bytes → World → Except IoError Bytes × World
  | 0, pending, world => (.ok pending, world)
  | chunks + 1, pending, world =>
    if 10 ∈ pending then (.ok pending, world)
    else
      match world.machine.readStream world.held (world.streamOf Descriptors.stdin) chunkSize with
      | .failed e => (.error (.os e), world)
      | .done ([], machine) => (.ok pending, { world with machine })
      | .done (chunk, machine) => fill chunks (pending ++ chunk) { world with machine }
      | .blocked | .broken => (.ok pending, world)

/-- How many bytes can be read from standard input. -/
def World.inputSize (world : World) : Nat :=
  match world.machine.contents (world.streamOf Descriptors.stdin) with
  | .ok bytes => bytes.length
  | .error _ => 0

/-- The bytes up to the first line break and with it, or all of them. -/
def firstLine : Bytes → Bytes
  | [] => []
  | b :: rest => if b = 10 then [b] else b :: firstLine rest

/-- A line without its break, which may be preceded by a carriage return. -/
def lineText? (bytes : Bytes) : Option Text :=
  let body := if bytes.getLast? = some 10 then
      let body := bytes.dropLast
      if body.getLast? = some 13 then body.dropLast else body
    else bytes
  decode? body

/-- Lines from standard input. The state is what has been read and belongs to later lines; it
begins empty. -/
def inputLines : LineSource Bytes := fun pending world =>
  match fill (world.inputSize + 1) pending world with
  | (.error e, world) => (.error (.io e), pending, world)
  | (.ok [], world) => (.error .endOfInput, [], world)
  | (.ok bytes, world) =>
    let line := firstLine bytes
    let rest := bytes.drop line.length
    match lineText? line with
    | some text => (.ok text, rest, world)
    | none => (.error (.io .notText), rest, world)

/-- The shell started with arguments, reading its lines from standard input: its status as the
system keeps it, in one byte, and the world as it leaves it. Every line takes a byte at least, so
there are no more lines than bytes. -/
def runOnInput (args : List Text) (world : World) : Nat × World :=
  let (status, world) := runMain inputLines [] (world.inputSize + 2) args world
  ((status % 256).toNat, { world with machine := world.machine.settle world.held })

end LineShell
