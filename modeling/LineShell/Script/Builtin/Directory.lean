import LineShell.Script.Search
import LineShell.Utility.Mode

/-! Commands of the language about the working directory and the mask for new files. A script keeps
the directory under the name by which it was reached. -/

namespace LineShell.Script

/-- The parts of a path put behind those of a directory; two dots take one away. -/
def walkNames (names : List Text) (path : Text) : List Text :=
  ((pieces '/' path).filter fun part => !part.isEmpty && part ≠ ['.']).foldl
    (fun names part => if part = ['.', '.'] then names.dropLast else names ++ [part]) names

/-- The name of the directory to which a path leads from another one. -/
def logicalPath? (here : Option Text) (path : Text) : Option Text :=
  let build (front : Text) (names : List Text) : Text :=
    front ++ (names.flatMap fun name => '/' :: name).drop 1
  match path with
  | '/' :: '/' :: c :: rest =>
    if c ≠ '/' then some (build ['/', '/'] (walkNames [] (c :: rest)))
    else some (build ['/'] (walkNames [] path))
  | '/' :: _ => some (build ['/'] (walkNames [] path))
  | path =>
    here.map fun here =>
      let names := (pieces '/' here).filter fun part => !part.isEmpty
      let front : Text := match here with
        | '/' :: '/' :: _ => ['/', '/']
        | _ => ['/']
      build front (walkNames names path)

namespace Run

/-- The directory as the system names it. -/
def systemDir : Run (Option Text) := do
  match ← ask Program.currentDir with
  | .ok dir => return some dir
  | .error e =>
    warn ("getcwd() failed: ".toList ++ e.text)
    return none

/-- Takes note of another working directory; without a name the system is asked for it. -/
def setDir (name : Option Text) (keepsOld : Bool) : Run Unit := do
  if keepsOld then assign "OLDPWD".toList (some ((← get).dir.getD [])) true
  let dir ← match name with
    | some name => pure (some name)
    | none => systemDir
  modify fun c => { c with dir }
  assign "PWD".toList (some (dir.getD [])) true

/-- Goes to a directory, by its name unless it is to be reached without links. -/
def enterDir (path : Text) (isPhysical : Bool) : Run Bool := do
  let c ← get
  let logical := if isPhysical then none else logicalPath? c.dir path
  match ← ask (Program.changeDir (logical.getD path)) with
  | .error _ => return false
  | .ok () =>
    setDir logical true
    modify fun c => { c with found := [] }
    return true

/-- Tries the directories of a list; the answer tells whether one of them holds the path, and
whether it is to be told where that is. -/
def searchDir (path : Text) : List Text → Run (Option (Text × Bool))
  | [] => return none
  | dir :: rest => do
    let full := if dir.isEmpty then path else dir ++ '/' :: path
    match ← ask (Program.statusAt full) with
    | .ok status =>
      if status.kind = .directory then return some (full, !dir.isEmpty) else searchDir path rest
    | .error _ => searchDir path rest

end Run

def runCd (args : List Text) : Run Nat := do
  let (letters, operands) ← Run.readLetters ['L', 'P'] args
  let isPhysical : Bool := letters.getLast? = some 'P'
  let c ← get
  let (target, tells) : Text × Bool := match operands with
    | [] => ((c.value? "HOME".toList).getD [], false)
    | ['-'] :: _ => ((c.value? "OLDPWD".toList).getD [], true)
    | target :: _ => (target, false)
  let isPlain : Bool :=
    ["/".toList, "./".toList, "../".toList].any (·.isPrefixOf target) ||
      target = ['.'] || target = ['.', '.']
  let found ← if isPlain then pure none
    else match c.value? "CDPATH".toList with
      | none => pure none
      | some list => Run.searchDir (if target.isEmpty then ['.'] else target) (pieces ':' list)
  let target := if target.isEmpty then ['.'] else target
  let (path, showsFound) := found.getD (target, false)
  if ← Run.enterDir path isPhysical then
    if tells || showsFound then Run.say (((← get).dir.getD []) ++ ['\n'])
    return 0
  else Run.fail ("can't cd to ".toList ++ target)

def runPwd (args : List Text) : Run Nat := do
  let (letters, _) ← Run.readLetters ['L', 'P'] args
  let c ← get
  let dir ← if letters.getLast? = some 'P' then Run.systemDir else pure c.dir
  Run.say (dir.getD [] ++ ['\n'])
  return 0

/-- A mask in letters, class after class: what is permitted. -/
def maskLetters (mask : Nat) : Text :=
  let group (shift : Nat) : Text :=
    let bits := 7 - mask / shift % 8
    (if bits / 4 = 1 then ['r'] else []) ++ (if bits / 2 % 2 = 1 then ['w'] else []) ++
      (if bits % 2 = 1 then ['x'] else [])
  "u=".toList ++ group 64 ++ ",g=".toList ++ group 8 ++ ",o=".toList ++ group 1

def runUmask (args : List Text) : Run Nat := do
  let (letters, operands) ← Run.readLetters ['S'] args
  let mask ← Run.ask (Program.setMask 0)
  let _ ← Run.ask (Program.setMask mask)
  match operands with
  | [] =>
    let digits := Nat.toDigits 8 mask
    Run.say (if letters.isEmpty then List.replicate (4 - digits.length) '0' ++ digits ++ ['\n']
      else maskLetters mask ++ ['\n'])
    return 0
  | text :: _ =>
    if text.head?.any Char.isDigit then
      if !text.all Utility.isOctal then Run.fail ("Illegal number: ".toList ++ text)
      let _ ← Run.ask (Program.setMask (Utility.valueIn 8 text))
    else
      match Utility.ModeChange.ofText? text with
      | none => Run.fail ("Illegal mode: ".toList ++ text)
      | some changes =>
        let permitted := Utility.ModeChange.applyAll changes 0 false (0o777 ^^^ (mask &&& 0o777))
        let _ ← Run.ask (Program.setMask (0o777 ^^^ (permitted &&& 0o777)))
    return 0

end LineShell.Script
