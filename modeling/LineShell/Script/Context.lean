import LineShell.Program
import LineShell.Script.Reader
import LineShell.Text.Numeral

/-! What a script has at hand while it is carried out: its arguments and variables, functions and
aliases, what it does about signals, and the jobs it has started. -/

namespace LineShell.Script

/-- A variable. One that is exported or readonly need not have a value. -/
structure Setting where
  value : Option Text
  exported : Bool := false
  readonly : Bool := false
  /-- The variable keeps its place when it is unset. -/
  fixed : Bool := false
  deriving Repr, DecidableEq

/-- What of the commands that come next is left out: the rest of some loops, the last of which may go
on, or the rest of a function or script, which may have been given a status. -/
inductive Skip
  | nothing
  | loops (count : Nat) (goesOn : Bool)
  | body (hasStatus : Bool)
  deriving Repr, DecidableEq

/-- Why the evaluation of a command breaks off: an error, the end of the script, or its end on
demand. -/
inductive Break
  | error
  | finish
  | leave
  deriving Repr, DecidableEq

/-- A job: its processes, with their words as far as they have ended. -/
structure Job where
  number : Nat
  processes : List (Nat × Option StatusWord)
  /-- Its status has been asked for. -/
  isWaited : Bool := false
  deriving Repr, DecidableEq

namespace Job

def isDone (job : Job) : Bool :=
  !job.processes.isEmpty && job.processes.all fun process => process.2.isSome

/-- The status that tells of a word. -/
def statusOfWord (word : StatusWord) : Nat :=
  match ChildState.ofWord word with
  | .exited status => status
  | .signaled signal | .stopped signal => 128 + signal
  | .running | .reaped => 0

/-- The status of a job is that of its last process. -/
def status (job : Job) : Nat :=
  match job.processes.getLast? with
  | some (_, some word) => statusOfWord word
  | _ => 0

end Job

/-- What a function or command has to put back when it is left. -/
inductive Saved
  | setting (name : Text) (before : Option Setting)
  | modes (letters : List Char)

structure Context where
  /-- What the script is called. -/
  name : Text
  arguments : List Text := []
  /-- Which argument is scanned for options next, and how far that one has been scanned. -/
  scanned : Nat := 1
  scannedLetters : Option Nat := none
  settings : List (Text × Setting) := []
  /-- The letters of the options that are set. -/
  modes : List Char := []
  /-- The body of every function, and the line it begins on. -/
  functions : List (Text × Command) := []
  aliases : List (Text × Text) := []
  /-- Where commands were found, the latest first. -/
  found : List (Text × Text) := []
  documents : List (Nat × Word) := []
  nextDocument : Nat := 0
  /-- What is done about signals; the number 0 stands for the end of the script. -/
  traps : List (Nat × Text) := []
  /-- Signals that have come in. -/
  pending : List Nat := []
  /-- Signals of which it is known what is done about them, and those that stay ignored whatever is
  said about them. -/
  knownSignals : List Nat := []
  lostSignals : List Nat := []
  /-- Jobs, the latest first. -/
  jobs : List Job := []
  status : Nat := 0
  /-- The status of the last command whose output was substituted. -/
  substituted : Nat := 0
  /-- The status that the script will end with. -/
  ending : Option Nat := none
  /-- The line that messages tell. -/
  line : Nat := 0
  /-- The command that messages tell. -/
  command : Option Text := none
  pid : Nat
  parent : Nat
  /-- The last process that was started in the background. -/
  background : Option Nat := none
  loops : Nat := 0
  isInFunction : Bool := false
  skip : Skip := .nothing
  /-- What is to be put back, one list for everything that has to put something back. -/
  saved : List (List Saved) := []
  /-- The redirections that have been applied, with what was there before. -/
  redirected : List (List (Nat × Option Nat)) := []
  isTracing : Bool := false
  /-- A process that a script has split off. -/
  isSplit : Bool := false
  /-- The working directory as it was named. -/
  dir : Option Text := none
  /-- Output that has not been written yet, the latest piece first. -/
  out : List Text := []

/-- Names of variables that scripts know from the start. -/
def fixedNames : List String :=
  ["IFS", "MAIL", "MAILPATH", "PATH", "PS1", "PS2", "PS4", "OPTIND"]

/-- Where commands are looked for when nothing else is said. -/
def standardPath : Text := "/usr/local/sbin:/usr/local/bin:/usr/sbin:/usr/bin:/sbin:/bin".toList

/-- The characters that separate fields when nothing else is said. -/
def standardSeparators : Text := [' ', '\t', '\n']

namespace Context

def hasMode (c : Context) (letter : Char) : Bool := c.modes.contains letter

def setting? (c : Context) (name : Text) : Option Setting := c.settings.lookup name

/-- The value of a variable. -/
def value? (c : Context) (name : Text) : Option Text := (c.setting? name).bind (·.value)

def searchPath (c : Context) : Text := (c.value? "PATH".toList).getD []

/-- Where a variable stands in the environment: the first characters count most. -/
def bucketOf (name : Text) : Nat :=
  match name with
  | [] => 0
  | c :: _ => (16 * c.toNat + sumOf (name.map Char.toNat)) % 39

/-- The variables that programs inherit, in the order in which they are handed on. -/
def environment (c : Context) : List (Text × Text) :=
  let exported := c.settings.filterMap fun (name, setting) =>
    if setting.exported then setting.value.map (name, ·) else none
  (List.range 39).flatMap fun n => exported.filter fun entry => bucketOf entry.1 = n

/-- The settings with one of them changed. -/
def putSetting (c : Context) (name : Text) (setting : Setting) : Context :=
  if c.settings.any (·.1 = name) then
    { c with settings := c.settings.map fun entry => if entry.1 = name then (name, setting) else entry }
  else { c with settings := c.settings ++ [(name, setting)] }

def eraseSetting (c : Context) (name : Text) : Context :=
  { c with settings := c.settings.filter (·.1 ≠ name) }

/-- The settings from which a script starts. -/
def startSettings (environment : List (Text × Text)) (parent : Nat) : List (Text × Setting) :=
  let standard (name : String) : Option Text :=
    match name with
    | "PATH" => some standardPath
    | "PS1" => some ['$', ' ']
    | "PS2" => some ['>', ' ']
    | "PS4" => some ['+', ' ']
    | "OPTIND" => some ['1']
    | "IFS" => some standardSeparators
    | _ => none
  let start : Context := {
    name := [], pid := 0, parent := 0
    settings := fixedNames.map fun name => (name.toList, { value := standard name, fixed := true }) }
  let inherited := environment.foldl (fun (c : Context) (name, value) =>
    if isName name then
      let before : Setting := (c.setting? name).getD { value := none }
      c.putSetting name { before with value := some value, exported := true }
    else c) start
  -- Neither separators nor the place of a scan are inherited.
  let reset (c : Context) (name : String) (value : Text) : Context :=
    let before : Setting := (c.setting? name.toList).getD { value := none }
    c.putSetting name.toList { before with value := some value }
  let c := reset inherited "IFS" standardSeparators
  let c := reset c "OPTIND" ['1']
  (reset c "PPID" (decimal parent)).settings

end Context

/-- What a part of a script does. -/
abbrev Run := ExceptT Break (StateT Context Program)

namespace Run

variable {α : Type}

/-- A request of the script's process. -/
def ask (program : Program α) : Run α := liftM program

/-- Ends the process. -/
def quit (status : Nat) : Run α := ask (Program.exit status)

/-- Writes a text to a descriptor. -/
def send (fd : Nat) (text : Text) : Run (Except Errno Unit) :=
  ask (Program.writeAll fd (octetBytes text))

/-- Puts a text to the output of a command. -/
def say (text : Text) : Run Unit := modify fun c => { c with out := text :: c.out }

/-- Writes the output of a command. -/
def flush : Run (Except Errno Unit) := do
  let c ← get
  if c.out.isEmpty then return .ok ()
  set { c with out := [] }
  send 1 c.out.reverse.flatten

/-- A message on standard error. -/
def warn (text : Text) : Run Unit := do
  let c ← get
  let command := match c.command with
    | some command => command ++ [':', ' ']
    | none => []
  let _ ← send 2 (c.name ++ ": ".toList ++ decimal c.line ++ ": ".toList ++ command ++ text ++ ['\n'])

/-- Breaks off with a message and a status. -/
def stop (status : Nat) (text : Text) (how : Break) : Run α := do
  modify fun c => { c with status }
  warn text
  let _ ← flush
  throw how

/-- An error. -/
def fail (text : Text) : Run α := stop 2 text .error

/-- A message on standard error as it stands. -/
def tell (text : Text) : Run Unit := do
  let _ ← send 2 text

/-- Carries something out; what breaks it off becomes a value. -/
def attempt (run : Run α) : Run (Except Break α) := (run.run : StateT Context Program _)

end Run

/-! ### Numbers and quotes -/

/-- A number as commands take it. -/
def readNumber (text : Text) : Run Nat := do
  let blanks := text.takeWhile fun c => c = ' ' || ('\t' ≤ c && c ≤ '\r')
  let rest := text.drop blanks.length
  let (negative, digits) : Bool × Text := match rest with
    | '-' :: rest => (true, rest)
    | '+' :: rest => (false, rest)
    | rest => (false, rest)
  let number := digits.takeWhile Char.isDigit
  let behind := (digits.drop number.length).dropWhile fun c => c = ' ' || ('\t' ≤ c && c ≤ '\r')
  match digits? number with
  | some n =>
    if behind.isEmpty && (!negative || n = 0) && n < Nat.pow 2 31 then return n
    Run.fail ("Illegal number: ".toList ++ text)
  | none => Run.fail ("Illegal number: ".toList ++ text)

/-- A text between single quotes; single quotes in it are put between double ones. -/
def singleQuoted : (bound : Nat) → Text → Text
  | 0, _ => []
  | bound + 1, text =>
    let plain := text.takeWhile (· ≠ '\'')
    let rest := text.drop plain.length
    let quotes := rest.takeWhile (· = '\'')
    let rest := rest.drop quotes.length
    '\'' :: plain ++ '\'' ::
      (if quotes.isEmpty then []
       else '"' :: quotes ++ '"' :: (if rest.isEmpty then [] else singleQuoted bound rest))

def quotedText (text : Text) : Text := singleQuoted (text.length + 1) text

/-- The order of names. -/
def comesFirst : Text → Text → Bool
  | [], _ => true
  | _ :: _, [] => false
  | a :: as, b :: bs => if a = b then comesFirst as bs else a.toNat < b.toNat

/-! ### Variables -/

namespace Run

/-- Something is put back at the end of the innermost function or command that does so. -/
def save (saved : Saved) : Run Unit := modify fun c =>
  match c.saved with
  | frame :: outer => { c with saved := (saved :: frame) :: outer }
  | [] => c

/-- What a change of some variables leads to. -/
def noteChange (name : Text) (value : Option Text) : Run Unit := do
  if name = "PATH".toList then modify fun c => { c with found := [] }
  else if name = "OPTIND".toList then
    let n ← match value with
      | some text => readNumber text
      | none => pure 1
    modify fun c => { c with scanned := if n = 0 then 1 else n, scannedLetters := none }

/-- Gives a variable a value or takes its value away, and adds to what holds of it. -/
def assign (name : Text) (value : Option Text) (exported : Bool := false)
    (readonly : Bool := false) : Run Unit := do
  if !isName name then fail (name ++ ": bad variable name".toList)
  let c ← get
  let exported := exported || c.hasMode 'a'
  match c.setting? name with
  | some before =>
    if before.readonly then fail (name ++ ": is read only".toList)
    noteChange name value
    if value.isNone && !exported && !readonly && !before.fixed then modify (·.eraseSetting name)
    else
      modify (·.putSetting name { before with
        value, exported := exported || before.exported, readonly := readonly || before.readonly })
  | none =>
    if value.isSome || exported || readonly then
      modify (·.putSetting name { value, exported, readonly })

/-- A variable of a function or command; it keeps its value unless it is given another one. -/
def assignLocal (name : Text) (value : Option Text) (exported : Bool) : Run Unit := do
  if name = ['-'] && value.isNone then
    save (.modes (← get).modes)
  else
    match (← get).setting? name with
    | none =>
      if !isName name then fail (name ++ ": bad variable name".toList)
      modify fun c => c.putSetting name
        { value, exported := exported || c.hasMode 'a', fixed := true }
      save (.setting name none)
    | some before =>
      modify (·.putSetting name { before with fixed := true })
      if value.isSome then assign name value exported
      save (.setting name (some before))

/-- Puts back what the innermost function or command has saved. -/
def restore : Run Unit := do
  match (← get).saved with
  | [] => pure ()
  | frame :: outer =>
    modify fun c => { c with saved := outer }
    frame.forM fun saved => do
      match saved with
      | .modes letters => modify fun c => { c with modes := letters }
      | .setting name none => modify (·.eraseSetting name)
      | .setting name (some before) =>
        if name = "PATH".toList then modify fun c => { c with found := [] }
        else if name = "OPTIND".toList then
          let _ ← attempt (noteChange name before.value)
        modify (·.putSetting name before)

/-- Splits a text at its first equals sign. -/
def nameAndValue (text : Text) : Text × Option Text :=
  match cut? '=' text with
  | some (name, value) => (name, some value)
  | none => (text, none)

end Run
end LineShell.Script
