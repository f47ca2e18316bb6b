import LineShell.Builtin.Basic

/-! `export`, `unset` and `env`. Operands are taken one after the other, and the first that fails
ends the command; what the operands before it have changed stays. -/

namespace LineShell

/-- A change of the variables. -/
def changeVariables (change : Variables → Except (Failure EnvError) Variables) :
    Act CommandError Unit := Act.of fun world =>
  match change world.session.vars with
  | .ok vars => (.ok (), { world with session := { world.session with vars } })
  | .error e => (.error (e.map .env), world)

namespace Builtin

/-- The variables of an environment in the order of their names. -/
def sorted (environment : Environment) : List (Text × Text) :=
  environment.entries.mergeSort fun a b => !b.1.lex a.1

/-- A variable as a line that could set it again. -/
def exportLine (entry : Text × Text) : Text :=
  "export ".toList ++ entry.1 ++ "=\"".toList ++ entry.2 ++ ['"']

/-- That line, as it is printed. -/
def exportRow (entry : Text × Text) : List Text :=
  ["export ".toList, entry.1, "=\"".toList, entry.2, "\"\n".toList]

def envRow (entry : Text × Text) : List Text := [entry.1, ['='], entry.2, ['\n']]

def exportOperand (operand : Text) : Act CommandError Unit :=
  changeVariables fun vars =>
    match cut? '=' operand with
    | some (name, value) => vars.setExported name value
    | none => vars.markExported operand

def runExport (output : Output) (args : List Text) : Act CommandError Verdict := do
  match args.tail with
  | [] => output.lines ((sorted (← get).environment).map exportRow)
  | operands => operands.forM exportOperand
  return .proceed

def runUnset (args : List Text) : Act CommandError Verdict := do
  args.tail.forM fun name => changeVariables (·.unset name)
  return .proceed

def runEnv (output : Output) : Act CommandError Verdict := do
  output.lines ((sorted (← get).environment).map envRow)
  return .proceed

end Builtin
end LineShell
