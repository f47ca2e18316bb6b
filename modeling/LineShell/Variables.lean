import LineShell.Identifier
import LineShell.Table

/-! The variables of a shell. It keeps a table of its own beside the environment that commands
inherit: an assignment goes to the table, and only a variable that has been exported is written to
the environment as well. A look-up asks the environment first.

The environment holds texts that end at a NUL, so a value with a NUL in it cannot be stored there:
the shell dies at the attempt, before it has changed anything. -/

namespace LineShell

/-- The names and values that commands inherit, in the order in which they are handed on. -/
abbrev Environment := Table Text Text

/-- Why an operation on variables or on the environment is refused. -/
inductive EnvError
  | homeNotSet
  | notFound (name : Text)
  | invalidName (name : Text)
  deriving Repr, DecidableEq

def EnvError.message : EnvError → Text
  | .homeNotSet => "HOME not set".toList
  | .notFound name => name ++ ": not found".toList
  | .invalidName name => "'".toList ++ name ++ "': not a valid identifier".toList

/-- An operation that does not succeed reports an error, or it brings the shell down. -/
inductive Failure (ε : Type)
  | error (e : ε)
  | crash
  deriving Repr, DecidableEq

def Failure.map {ε ε' : Type} (f : ε → ε') : Failure ε → Failure ε'
  | .error e => .error (f e)
  | .crash => .crash

/-- A variable of the shell's own table. -/
structure Variable where
  value : Text
  exported : Bool
  deriving Repr, DecidableEq

structure Variables where
  table : Table Text Variable := ∅
  environment : Environment := ∅
  deriving DecidableEq

namespace Variables

def value? (vars : Variables) (name : Text) : Option Text := (vars.table.get? name).map (·.value)

def isExported (vars : Variables) (name : Text) : Bool :=
  (vars.table.get? name).any (·.exported)

/-- The value a reference to `name` stands for. -/
def lookup (vars : Variables) (name : Text) : Option Text :=
  (vars.environment.get? name).or (vars.value? name)

def validate (name : Text) : Except (Failure EnvError) Unit :=
  if isIdentifier name then .ok () else .error (.error (.invalidName name))

/-- The environment with `value` under `name`, unless the value cannot be stored. -/
def store (environment : Environment) (name value : Text) :
    Except (Failure EnvError) Environment :=
  if '\x00' ∈ value then .error .crash else .ok (environment.insert name value)

/-- An assignment; an exported variable stays exported. -/
def setLocal (vars : Variables) (name value : Text) : Except (Failure EnvError) Variables := do
  validate name
  if vars.isExported name then
    let environment ← store vars.environment name value
    return ⟨vars.table.insert name ⟨value, true⟩, environment⟩
  else
    return { vars with table := vars.table.insert name ⟨value, false⟩ }

/-- A variable that commands inherit from now on. -/
def setExported (vars : Variables) (name value : Text) : Except (Failure EnvError) Variables := do
  validate name
  let environment ← store vars.environment name value
  return ⟨vars.table.insert name ⟨value, true⟩, environment⟩

/-- Exports a variable of the table with the value it has there. -/
def markExported (vars : Variables) (name : Text) : Except (Failure EnvError) Variables := do
  validate name
  match vars.table.get? name with
  | none => throw (.error (.notFound name))
  | some known =>
    let environment ← store vars.environment name known.value
    return ⟨vars.table.insert name { known with exported := true }, environment⟩

/-- Forgets a variable, in the table and in the environment; an unknown name is no error. -/
def unset (vars : Variables) (name : Text) : Except (Failure EnvError) Variables := do
  validate name
  return ⟨vars.table.erase name, vars.environment.erase name⟩

end Variables
end LineShell
