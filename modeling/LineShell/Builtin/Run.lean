import LineShell.Builtin.Directory
import LineShell.Builtin.Variable
import LineShell.Expansion
import LineShell.Launch

/-! The other builtins, and running a builtin by its kind. -/

namespace LineShell

/-- A text with the references to the variables of the shell replaced. -/
def World.expand? (world : World) (text : Text) : Option Text :=
  LineShell.expand? world.session.vars.lookup text

namespace Builtin

/-- Several texts with their references replaced, one after the other. -/
def expandAll (world : World) (texts : List Text) : Act CommandError (List Text) :=
  match texts.mapM world.expand? with
  | some texts => pure texts
  | none => throw .crash

def runEcho (output : Output) (args : List Text) : Act CommandError Verdict := do
  let (newline, words) : Bool × List Text := match args.tail with
    | ['-', 'n'] :: words => (false, words)
    | words => (true, words)
  output.print [join ' ' (← expandAll (← get) words)]
  if newline then output.print [['\n']]
  return .proceed

def runExit (output : Output) (args : List Text) : Act CommandError Verdict := do
  match args.tail with
  | [] => return .leave 0
  | [status] =>
    match int32? status with
    | some status => return .leave status
    | none =>
      output.complain ("exit: ".toList ++ notNumeric status)
      return .leave 2
  | _ => Act.fail tooManyArguments

/-- A line of the history with its number. -/
def historyRow (entry : Text × Nat) : List Text :=
  rightAligned 5 (decimal (entry.2 + 1)) ++ ["  ".toList, entry.1, ['\n']]

def runHistory (output : Output) (args : List Text) : Act CommandError Verdict := do
  let history := (← get).session.history
  let skipped ← match args.tail.head? with
    | none => pure 0
    | some count =>
      match word64? count with
      | some count => pure (history.length - count)
      | none => Act.fail (.invalidArguments (notNumeric count))
  output.lines ((history.zipIdx.drop skipped).map historyRow)
  return .proceed

/-- Tells what one name stands for. -/
def tellType (output : Output) (name : Text) : Act CommandError Unit := do
  if (lookup? name).isSome then output.print [name, " is a shell builtin\n".toList]
  else match (← get).findExecutable name with
    | some path => output.print [name, " is ".toList, path, ['\n']]
    | none => output.complain ("type: ".toList ++ name ++ ": not found".toList)

def runType (output : Output) (args : List Text) : Act CommandError Verdict := do
  args.tail.forM (tellType output)
  return .proceed

/-- A builtin in the list of all of them. -/
def helpRow (b : Builtin) : List Text :=
  "  ".toList :: leftAligned 26 b.usage ++ [[' '], b.summary, ['\n']]

def runHelp (output : Output) (args : List Text) : Act CommandError Verdict := do
  match args.tail.head? with
  | none =>
    output.lines (["vena builtins:\n".toList] :: all.map helpRow)
  | some topic =>
    match lookup? topic with
    | some b =>
      output.lines [[b.name, ": ".toList, b.usage, ['\n']], ["    ".toList, b.summary, ['\n']]]
    | none =>
      Act.fail (.invalidArguments ("no help topics match '".toList ++ topic ++ ['\'']))
  return .proceed

/-- Runs a builtin. The first argument is the name by which it was called. -/
def run (b : Builtin) (output : Output) (args : List Text) : Act CommandError Verdict :=
  match b with
  | cd => runCd output args
  | exit => runExit output args
  | pwd => runPwd output args
  | echo => runEcho output args
  | setExport => runExport output args
  | unset => runUnset args
  | env => runEnv output
  | history => runHistory output args
  | type => runType output args
  | help => runHelp output args

end Builtin
end LineShell
