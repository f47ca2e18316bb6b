import LineShell.Script.Run

/-! A script from its start to its end: its options tell where its commands are to be found, in an
argument, in a file or on standard input. -/

namespace LineShell.Script

/-- What the options of a script leave: the operands, and whether the first one is the script. -/
structure Options where
  operands : List Text
  isText : Bool := false

/-- The letters of an option word, and the words behind it. -/
def startLetters (on : Bool) : Text → List Text → Run (List Text × Bool)
  | [], rest => return (rest, false)
  | 'c' :: letters, rest => do
    let (rest, _) ← startLetters on letters rest
    return (rest, true)
  | 'l' :: letters, rest => startLetters on letters rest
  | 'o' :: letters, rest => do
    setModeNamed rest.head? on
    startLetters on letters rest.tail
  | letter :: letters, rest => do
    let _ ← setLetters on [letter] []
    startLetters on letters rest

def startOptions : (bound : Nat) → Options → Run Options
  | 0, options => return options
  | bound + 1, options => do
    match options.operands with
    | ['-'] :: rest | ['-', '-'] :: rest => return { options with operands := rest }
    | ('-' :: letters) :: rest =>
      let (operands, isText) ← startLetters true letters rest
      startOptions bound ⟨operands, options.isText || isText⟩
    | ('+' :: letters) :: rest =>
      let (operands, isText) ← startLetters false letters rest
      startOptions bound ⟨operands, options.isText || isText⟩
    | _ => return options

/-- The working directory, under the name it was handed on if that is right. -/
def startDir : Run Unit := do
  let name? := (← get).value? "PWD".toList
  let isRight ← match name? with
    | some (c :: rest) =>
      if c = '/' then do
        match ← Run.ask (Program.statusAt (c :: rest)), ← Run.ask (Program.statusAt ['.']) with
        | .ok a, .ok b => pure (decide (a.identity = b.identity))
        | _, _ => pure false
      else pure false
    | _ => pure false
  Run.setDir (if isRight then name? else none) false

/-- How long a script may take. -/
def scriptBound : Nat := 1000000000

/-- A whole script. -/
def whole (args : List Text) : Run Unit := do
  startDir
  modify fun c => { c with name := args.headD "sh".toList }
  let options ← startOptions (args.length + 1) { operands := args.tail }
  let _ ← Run.flush
  let readsInput : Bool := options.operands.isEmpty || (← get).hasMode 's'
  if options.operands.isEmpty then
    if options.isText then Run.fail "-c requires an argument".toList
    setMode 's' true
  let input (fd : Nat) : Run Unit := do
    let _ ← runFile scriptBound fd { text := [], isWhole := false, line := 1 } 0
  match options.isText, options.operands with
  | true, text :: rest =>
    modify fun c => { c with name := rest.headD c.name, arguments := rest.tail }
    let _ ← runText scriptBound text {}
    if readsInput then input 0
  | _, operands =>
    if readsInput then
      modify fun c => { c with arguments := operands }
      input 0
    else
      let path := operands.headD []
      match ← Run.ask (Program.openFile path .input) with
      | .error e => Run.fail ("cannot open ".toList ++ path ++ ": ".toList ++ Run.openText e)
      | .ok opened =>
        let fd ← match ← Run.ask (Program.duplicate opened firstSpare true) with
          | .ok fd =>
            Run.ask (Program.close opened)
            pure fd
          | .error _ => pure opened
        modify fun c => { c with name := path, arguments := operands.tail }
        input fd

/-- The program that carries out scripts. -/
def program (args : List Text) (environment : List (Text × Text)) : Code :=
  let run : Run Unit := do
    let (pid, parent) ← Run.ask Program.identity
    modify fun c => { c with
      pid, parent, settings := Context.startSettings environment parent }
    let how ← match ← Run.attempt (whole args) with
      | .ok () => pure Break.finish
      | .error how => pure how
    endProcess scriptBound how
  Run.codeOf run { name := "sh".toList, pid := 0, parent := 0 }

end LineShell.Script
