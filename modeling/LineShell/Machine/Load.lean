import LineShell.Machine.Answer
import LineShell.Script.Start
import LineShell.Utility.Copying
import LineShell.Utility.Count
import LineShell.Utility.Ends
import LineShell.Utility.Environment
import LineShell.Utility.Format
import LineShell.Utility.Mode
import LineShell.Utility.Sort

/-! How a process becomes another program. A file is taken for what it is: a program of the machine,
or a script whose first line names its interpreter; anything else cannot be executed. -/

namespace LineShell

/-- What a program of the machine does with its arguments and its environment. -/
def Utility.code (utility : Utility) (args : List Text) (environment : List (Text × Text)) : Code :=
  let tool (run : List Text → Utility.Tool Nat) : Code := Utility.Tool.start run args environment
  match utility with
  | .cat => tool Utility.runCat
  | .chmod => tool Utility.runChmod
  | .echo => tool Utility.runEcho
  | .env => tool Utility.runEnv
  | .exitFalse => .exit 1
  | .exitTrue => .exit 0
  | .head => tool Utility.runHead
  | .printenv => tool Utility.runPrintenv
  | .printf => tool Utility.runPrintf
  | .pwd => tool Utility.runPwd
  | .script => Script.program args environment
  | .sleep => tool Utility.runSleep
  | .sort => tool Utility.runSort
  | .tail => tool Utility.runTail
  | .wc => tool Utility.runWc
  | .yes => tool Utility.runYes

namespace Loading

/-- How much of a file is looked at. -/
def window : Nat := 256

def isBlank (c : Char) : Bool := c = ' ' || c = '\t'

def endsName (c : Char) : Bool := isBlank c || c = '\x00'

/-- What the first line of a script names: the interpreter, and one argument for it. A line that is
cut off must at least hold the whole name. -/
def interpreter? (content : Bytes) : Option (Text × Option Text) :=
  match content with
  | 35 :: 33 :: rest =>
    let rest := byteOctets (rest.take (window - 2))
    let text := rest ++ List.replicate (window - 2 - rest.length) '\x00'
    -- A line break counts up to the first NUL only.
    let front := text.takeWhile fun c => c ≠ '\n' && c ≠ '\x00'
    let isLine : Bool := text[front.length]? = some '\n'
    let trimmed (text : Text) : Text := (text.reverse.dropWhile isBlank).reverse
    let line := trimmed (if isLine then front else text.dropLast)
    let body := line.dropWhile isBlank
    let name := body.takeWhile fun c => !endsName c
    let isCutOff : Bool := !isLine && !(text.dropWhile isBlank).any endsName
    if body.isEmpty || isCutOff then none
    else
      match body.drop name.length with
      | [] => some (name, none)
      | c :: rest =>
        -- Where no line break follows, the argument may be empty.
        if isBlank c then some (name, some ((rest.dropWhile isBlank).takeWhile (· ≠ '\x00')))
        else some (name, none)
  | _ => none

/-- No argument may be longer than this, and all of them together with the environment no longer
than the second. -/
def argumentLimit : Nat := 131072
def totalLimit : Nat := 2097152

/-- Whether arguments and an environment can be handed on. -/
def fits (args : List Text) (environment : List (Text × Text)) : Bool :=
  let sizes := args.map (fun arg => arg.length + 1) ++
    environment.map fun (name, value) => name.length + value.length + 2
  sizes.all (· ≤ argumentLimit) && sumOf sizes + 8 * sizes.length ≤ totalLimit

/-- How many programs may stand in for one another. -/
def depthLimit : Nat := 6

end Loading

namespace Machine

/-- The program at the end of a path, and the arguments it is to have. -/
def load (m : Machine) (here : Place) : (depth : Nat) → Text → List Text →
    Except Errno (Utility × List Text)
  | depth, path, args => do
    let place ← m.root.reach here (ofOctets path)
    if !place.isLive then throw .accessDenied
    let some node := m.root.at? place.base | throw .noEntry
    match node with
    | .utility utility =>
      if depth = 0 then throw .linkLoop
      return (utility, args)
    | .file content attributes =>
      if !attributes.permits .search then throw .accessDenied
      match depth with
      | 0 => throw .linkLoop
      | depth + 1 =>
        match Loading.interpreter? content with
        | none => throw .notExecutable
        | some (name, argument) =>
          -- No name leads to the working directory.
          if name.isEmpty then throw .accessDenied
          load m here depth name (name :: argument.toList ++ path :: args.tail)
    | _ => throw .accessDenied

/-- The process as another program, or why it cannot become that. -/
def become (m : Machine) (task : Task) (path : Text) (args : List Text)
    (environment : List (Text × Text)) : Except Errno Task := do
  if !Loading.fits (path :: args) environment then throw .tooLongArguments
  let (utility, args) ← m.load task.place Loading.depthLimit path args
  return { task with
    code := utility.code args environment
    descriptors := task.descriptors.afterExec
    handled := [], caught := [] }

end Machine
end LineShell
