import LineShell.Builtin.Run
import LineShell.Launch.Pipe
import LineShell.ShellError

/-! Running a line: its references are replaced, it is cut into words, the words are read as a
pipeline, and that is an assignment of variables, a builtin, or a matter for other processes. -/

namespace LineShell

/-- The assignments that a pipeline consists of, if it is nothing else. -/
def Pipeline.assignments? (p : Pipeline) : Option (List (Text × Text)) :=
  if p.isPipeline || p.background || !p.left.redirections.isEmpty then none
  else p.left.args.mapM assignment?

/-- Assigns variables one after the other. -/
def assign (assignments : List (Text × Text)) : Act ShellError Unit :=
  assignments.forM fun (name, value) =>
    (changeVariables fun vars => vars.setLocal name value).mapError
      (.builtin "assignment".toList)

/-- Where a builtin writes: an output file takes the place of standard output. -/
def World.output (world : World) (files : OpenFiles) : Output where
  stdout := (files.output.map fun fd => Sink.stream (world.streamOf fd)).getD .standard
  stderr := world.streamOf Descriptors.stderr

/-- Runs a builtin. However it ends, unless it crashes, what it has printed is then written, and
that this fails comes before its own error. -/
def runOutput (b : Builtin) (output : Output) (args : List Text) : Act ShellError Verdict := do
  match ← Act.attempt ((b.run output args).mapError (.builtin b.name)) with
  | .ok verdict =>
    output.flush.mapError .io
    return verdict
  | .error (.error e) =>
    output.flush.mapError .io
    Act.fail e
  | .error .crash => throw .crash

/-- Runs a builtin with its files. -/
def runBuiltin (b : Builtin) (stage : Stage) : Act ShellError Verdict := do
  let files ← stage.redirections.openFiles.mapError .process
  let world ← get
  (runOutput b (world.output files) stage.args).ensuring (·.close files.fds)

/-- Runs a pipeline that is no assignment. -/
def runPipeline (quiet : Bool) (p : Pipeline) : Act ShellError Verdict := do
  match p.right with
  | some right =>
    if p.background && !quiet then
      tell "vena: background pipelines are not supported; running in foreground".toList
    let _ ← (runPipe p.left right).mapError .process
    return .proceed
  | none =>
    match Builtin.lookup? p.left.program with
    | some b => runBuiltin b p.left
    | none =>
      let _ ← (launch quiet p.left p.background).mapError .process
      return .proceed

/-- What a line asks for once its references are replaced. -/
def readPipeline (line : Text) : Except LineError (Option Pipeline) :=
  (tokenize line).bind Pipeline.ofTokens

/-- Runs a line without entering it in the history. -/
def runLine (quiet : Bool) (line : Text) : Act ShellError Verdict := do
  match (← get).expand? line with
  | none => throw .crash
  | some expanded =>
    match ← Act.ofExcept ((readPipeline expanded).mapError .parse) with
    | none => return .proceed
    | some p =>
      match p.assignments? with
      | some assignments =>
        assign assignments
        return .proceed
      | none => runPipeline quiet p

/-- The history with a line entered. -/
def World.record (world : World) (line : Text) : World :=
  { world with session := { world.session with history := world.session.history ++ [line] } }

/-- Enters a line in the history unless it is blank, and runs it. -/
def executeLine (quiet : Bool) (line : Text) : Act ShellError Verdict := do
  if !(trim line).isEmpty then modify (·.record line)
  runLine quiet line

end LineShell
