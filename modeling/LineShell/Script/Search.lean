import LineShell.Script.Context

/-! What the name of a command stands for: a function, a command of the language itself, or a
program that is looked up in one directory after the other. -/

namespace LineShell.Script

/-- What is particular about a command of the language. An error of a special one ends the script,
and what is assigned in front of it stays; words of some are read as assignments. -/
structure Traits where
  isSpecial : Bool := false
  assigns : Bool := false
  deriving Repr, DecidableEq

/-- The commands of the language. -/
def commands : List (String × Traits) :=
  let special : Traits := { isSpecial := true }
  let assigning : Traits := { isSpecial := true, assigns := true }
  [(".", special), (":", special), ("[", {}), ("alias", { assigns := true }), ("bg", {}),
   ("break", special), ("cd", {}), ("chdir", {}), ("command", {}), ("continue", special),
   ("echo", {}), ("eval", special), ("exec", special), ("exit", special), ("export", assigning),
   ("false", {}), ("fg", {}), ("getopts", {}), ("hash", {}), ("jobs", {}), ("kill", {}),
   ("local", assigning), ("printf", {}), ("pwd", {}), ("read", {}), ("readonly", assigning),
   ("return", special), ("set", special), ("shift", special), ("test", {}), ("times", special),
   ("trap", special), ("true", {}), ("type", {}), ("ulimit", {}), ("umask", {}),
   ("unalias", {}), ("unset", special), ("wait", {})]

def traitsOf? (name : Text) : Option Traits :=
  (commands.find? fun entry => entry.1.toList = name).map Prod.snd

inductive Found
  | function (body : Command)
  | builtin (traits : Traits)
  | program
  | unknown

/-- The paths that a name may stand for, in the order of a search path. -/
def pathsFor (searchPath name : Text) : List Text :=
  (pieces ':' searchPath).map fun dir => if dir.isEmpty then name else dir ++ '/' :: name

/-- Why a program cannot be run. -/
def executeText (e : Errno) : Text :=
  if e = .noEntry ∨ e = .notDirectory then "not found".toList else e.text

namespace Run

/-- The first of some paths that leads to a program; or why there is none. -/
def firstProgram : List Text → Errno → Run (Except Errno Text)
  | [], e => return .error e
  | path :: rest, e => do
    match ← ask (Program.statusAt path) with
    | .error other =>
      firstProgram rest (if other = .noEntry ∨ other = .notDirectory then e else other)
    | .ok status =>
      if status.kind = .regular && (← ask (Program.permits path .search)) then return .ok path
      else firstProgram rest .accessDenied

/-- What a name stands for. Programs are remembered if they are found along the search path of the
script itself. -/
def search (name : Text) (path : Option Text) (skipsFunctions complains : Bool) : Run Found := do
  if '/' ∈ name then return .program
  let c ← get
  match (if skipsFunctions then none else c.functions.lookup name), traitsOf? name with
  | some body, _ => return .function body
  | none, some traits => return .builtin traits
  | none, none =>
    if path.isNone && (c.found.lookup name).isSome then return .program
    match ← firstProgram (pathsFor (path.getD c.searchPath) name) .noEntry with
    | .ok found =>
      if path.isNone then modify fun c => { c with found := (name, found) :: c.found }
      return .program
    | .error e =>
      if complains then warn (name ++ ": ".toList ++ executeText e)
      return .unknown

/-- Becomes the program at a path. A file that is no program is taken for a script. -/
def becomeAt (path : Text) (args : List Text) (environment : List (Text × Text)) : Run Errno := do
  let e ← ask (Program.execute path args environment)
  if e ≠ .notExecutable then return e
  let shell := "/bin/sh".toList
  ask (Program.execute shell (shell :: path :: args.tail) environment)

def becomeFirst (args : List Text) (environment : List (Text × Text)) : List Text → Errno →
    Run Errno
  | [], e => return e
  | path :: rest, e => do
    let other ← becomeAt path args environment
    becomeFirst args environment rest (if other = .noEntry ∨ other = .notDirectory then e else other)

/-- Becomes a program; it ends the script if that fails. -/
def become {α : Type} (args : List Text) (path : Option Text) : Run α := do
  let c ← get
  let name := args.headD []
  let e ← if '/' ∈ name then becomeAt name args c.environment
    else becomeFirst args c.environment (pathsFor (path.getD c.searchPath) name) .noEntry
  let isMissing : Bool :=
    e = .noEntry || e = .notDirectory || e = .linkLoop || e = .nameTooLong
  stop (if isMissing then 127 else 126) (name ++ ": ".toList ++ executeText e) .finish

/-- Reads the options in front of the operands; a letter that takes a value is marked. -/
def readOptions (letters : List (Char × Bool)) : (bound : Nat) → List Text →
    Run (List (Char × Text) × List Text)
  | 0, args => return ([], args)
  | bound + 1, args => do
    match args with
    | ['-', '-'] :: rest => return ([], rest)
    | ('-' :: c :: more) :: rest =>
      match letters.lookup c with
      | none => fail ("Illegal option -".toList ++ [c])
      | some false =>
        let args := if more.isEmpty then rest else ('-' :: more) :: rest
        let (options, operands) ← readOptions letters bound args
        return ((c, []) :: options, operands)
      | some true =>
        let (value, rest) ← if !more.isEmpty then pure (more, rest)
          else match rest with
            | value :: rest => pure (value, rest)
            | [] => fail ("No arg for -".toList ++ c :: " option".toList)
        let (options, operands) ← readOptions letters bound rest
        return ((c, value) :: options, operands)
    | args => return ([], args)

/-- Options that take no value. -/
def readLetters (letters : List Char) (args : List Text) : Run (List Char × List Text) := do
  let length := sumOf (args.map List.length) + args.length + 1
  let (options, operands) ← readOptions (letters.map (·, false)) length args
  return (options.map (·.1), operands)

end Run
end LineShell.Script
