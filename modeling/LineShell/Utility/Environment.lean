import LineShell.Utility.Telling

/-! `printenv`, which shows variables of the environment, and `env`, which runs a command in another
environment. A word given to `env` may be split into several, which take its place among the
arguments. -/

namespace LineShell.Utility

/-- The variables of an environment, each with an end behind it. -/
def listing (lineEnd : Char) (environment : List (Text × Text)) : Text :=
  environment.flatMap fun (name, value) => name ++ '=' :: value ++ [lineEnd]

def runPrintenv (args : List Text) : Tool Nat := do
  modify fun bench => { bench with failure := 2 }
  let options : Options := {
    letters := [('i', .nothing), ('u', .something), ('0', .nothing)]
    long := ("null", .nothing, "0") :: helpOptions
    mixes := false }
  let (lineEnd, names) ← Tool.withOptions options args 2 (fun (_ : Char) key _ => do
    match key with
    | "0" => return '\x00'
    | "help" | "version" => Tool.finish 0
    | _ => Tool.usage 2) '\n'
  let environment := (← get).environment
  if names.isEmpty then
    Tool.say (listing lineEnd environment)
    return 0
  let found := names.map fun name =>
    if '=' ∈ name then [] else environment.filter fun entry => entry.1 = name
  Tool.say (found.flatten.flatMap fun entry => entry.2 ++ [lineEnd])
  return if found.all (!·.isEmpty) then 0 else 1

/-! ### Words that are split -/

namespace Split

/-- What keeps blanks from ending a word. -/
inductive Quote
  | none
  | single
  | double
  deriving Repr, DecidableEq

/-- A text that is being split: the words so far and the open one, and what was read of variables,
each with its value. -/
structure State where
  words : List Text := []
  word : Option Text := none
  quote : Quote := .none
  seen : List (Text × Option Text) := []

namespace State

def add (s : State) (text : Text) : State := { s with word := some (s.word.getD [] ++ text) }

def endWord (s : State) : State := { s with words := s.words ++ s.word.toList, word := none }

end State

/-- The character behind a backslash, or why it must not stand there. -/
def escaped (quote : Quote) (c : Char) : Except Text (Option Char) :=
  match c with
  | '"' | '#' | '$' | '\'' | '\\' => .ok (some c)
  | '_' => .ok (if quote = .double then some ' ' else none)
  | 'f' => .ok (some '\x0c')
  | 'n' => .ok (some '\n')
  | 'r' => .ok (some '\r')
  | 't' => .ok (some '\t')
  | 'v' => .ok (some '\x0b')
  | c => .error ("invalid sequence '\\".toList ++ [c] ++ "' in -S".toList)

/-- The name of a variable between braces at the front of a text. -/
def braced? : Text → Option Text
  | '\x7b' :: c :: rest =>
    let name := (c :: rest).takeWhile fun c => c.isAlphanum || c = '_'
    if !c.isDigit && !name.isEmpty && (c :: rest)[name.length]? = some '\x7d' then some name
    else none
  | _ => none

/-- Splits a text at blanks; quotes and backslashes keep them, and names of variables between braces
stand for their values. -/
def go (environment : List (Text × Text)) : (bound : Nat) → Text → State → Except Text State
  | 0, _, s => return s.endWord
  | _, [], s =>
    if s.quote = .none then return s.endWord
    else throw "no terminating quote in -S string".toList
  | bound + 1, c :: rest, s => do
    match c, s.quote with
    | '\'', .none => go environment bound rest { s.add [] with quote := .single }
    | '\'', .single => go environment bound rest { s.add [] with quote := .none }
    | '"', .none => go environment bound rest { s.add [] with quote := .double }
    | '"', .double => go environment bound rest { s.add [] with quote := .none }
    | '\\', quote =>
      match rest with
      | [] =>
        if quote = .single then go environment bound rest (s.add [c])
        else throw "invalid backslash at end of string in -S".toList
      | 'c' :: _ =>
        if quote = .single then go environment bound rest (s.add [c])
        else if quote = .double then
          throw "'\\c' must not appear in double-quoted -S string".toList
        else return s.endWord
      | d :: behind =>
        if quote = .single && d ≠ '\\' && d ≠ '\'' then go environment bound rest (s.add [c])
        else
          match ← escaped quote d with
          | some d => go environment bound behind (s.add [d])
          | none => go environment bound behind s.endWord
    | '$', .single => go environment bound rest (s.add [c])
    | '$', _ =>
      match braced? rest with
      | none => throw ("only $\x7bVARNAME\x7d expansion is supported, error at: ".toList ++ c :: rest)
      | some name =>
        let value := environment.lookup name
        let s := { s with seen := s.seen ++ [(name, value)] }
        go environment bound (rest.drop (name.length + 2)) (match value with
          | some value => s.add value
          | none => s)
    | '#', .none =>
      if s.word.isNone then return s else go environment bound rest (s.add [c])
    | c, .none =>
      if isSpaceOctet c then go environment bound rest s.endWord
      else go environment bound rest (s.add [c])
    | c, _ => go environment bound rest (s.add [c])

end Split

/-! ### Signals -/

namespace SignalName

/-- The names of the signals that have one, from the first on. -/
def all : List Text :=
  let low : List String :=
    ["HUP", "INT", "QUIT", "ILL", "TRAP", "ABRT", "BUS", "FPE", "KILL", "USR1", "SEGV", "USR2",
     "PIPE", "ALRM", "TERM", "STKFLT", "CHLD", "CONT", "STOP", "TSTP", "TTIN", "TTOU", "URG",
     "XCPU", "XFSZ", "VTALRM", "PROF", "WINCH", "POLL", "PWR", "SYS", "", "", "RTMIN"]
  low.map String.toList ++
    (List.range 15).map (fun n => "RTMIN+".toList ++ decimal (n + 1)) ++
    ((List.range 14).reverse.map fun n => "RTMAX-".toList ++ decimal (n + 1)) ++ ["RTMAX".toList]

def ofNumber (signal : Nat) : Text := all.getD (signal - 1) []

/-- The signals that have a name. -/
def known : List Nat := (List.range 65).filter fun n => 0 < n && !(ofNumber n).isEmpty

/-- Other names of signals. -/
def others : List (String × Nat) := [("IO", 29), ("IOT", 6), ("CLD", 17)]

/-- The signal that a number or a name stands for; zero stands for none. -/
def read? (text : Text) : Option Nat :=
  match digits? text with
  | some n => if n = 0 ∨ n ∈ known then some n else none
  | none =>
    let upper := text.map Char.toUpper
    let name := if "SIG".toList.isPrefixOf upper then upper.drop 3 else upper
    if name = "EXIT".toList then some 0
    else (known.find? fun n => ofNumber n = name).or
      ((others.find? fun other => other.1.toList = name).map Prod.snd)

end SignalName

/-! ### Another environment -/

/-- What is to become of a signal; it may be of no matter that nothing can be done about it. -/
structure SignalChange where
  signal : Nat
  isIgnored : Bool
  isLoose : Bool
  deriving Repr, DecidableEq

/-- What `env` is to do. -/
structure EnvPlan where
  isEmpty : Bool := false
  unset : List Text := []
  dir : Option Text := none
  lineEnd : Char := '\n'
  signals : List SignalChange := []
  /-- The signals that are to be held back, or no longer. -/
  holds : List (Nat × Bool) := []
  /-- Everything that is done is told. -/
  isVerbose : Bool := false
  /-- The signals that are ignored are listed. -/
  listsSignals : Bool := false

namespace EnvPlan

/-- The status of `env` when it fails itself. -/
def failure : Nat := 125

def shebangHint : Text := "use -[v]S to pass options in shebang lines".toList

def options : Options where
  letters := [('C', .something), ('i', .nothing), ('S', .something), ('u', .something),
    ('v', .nothing), ('0', .nothing)] ++ [' ', '\t', '\n', '\x0b', '\x0c', '\r'].map (·, .nothing)
  long :=
    [("ignore-environment", .nothing, "i"), ("null", .nothing, "0"), ("unset", .something, "u"),
     ("chdir", .something, "C"), ("default-signal", .perhaps, "default"),
     ("ignore-signal", .perhaps, "ignore"), ("block-signal", .perhaps, "block"),
     ("list-signal-handling", .nothing, "list"), ("debug", .nothing, "v"),
     ("split-string", .something, "S")] ++ helpOptions
  mixes := false

/-- A line about what is done, if such lines are wanted. -/
def note (plan : EnvPlan) (text : Text) : Tool Unit := do
  if plan.isVerbose then Tool.tell (text ++ ['\n'])

/-- The signals of a list; every signal, if there is no list. -/
def signalsOf (argument : Option Text) : Tool (List Nat) := do
  match argument with
  | none => return SignalName.known
  | some list =>
    ((pieces ',' list).filter (!·.isEmpty)).mapM fun word => do
      match SignalName.read? word with
      | some (n + 1) => return n + 1
      | _ =>
        Tool.complain (shownText word ++ ": invalid signal".toList)
        Tool.usage failure

/-- The plan with something to be done about signals; what is said later about one counts. -/
def withSignals (plan : EnvPlan) (argument : Option Text) (isIgnored : Bool) : Tool EnvPlan := do
  let changes := (← signalsOf argument).map fun signal => ⟨signal, isIgnored, argument.isNone⟩
  let kept := plan.signals.filter fun old => changes.all fun change => change.signal ≠ old.signal
  return { plan with signals := kept ++ changes }

/-- The plan with signals that are to be held back or no longer. -/
def withHolds (plan : EnvPlan) (argument : Option Text) (isHeld : Bool) : Tool EnvPlan := do
  let signals ← signalsOf argument
  let kept := plan.holds.filter fun old => !signals.contains old.1
  return { plan with holds := kept ++ signals.map (·, isHeld) }

/-- The plan with an option that is not split. -/
def take (plan : EnvPlan) (key : String) (argument : Option Text) : Tool EnvPlan := do
  let text := argument.getD []
  match key with
  | "i" => return { plan with isEmpty := true }
  | "0" => return { plan with lineEnd := '\x00' }
  | "u" => return { plan with unset := plan.unset ++ [text] }
  | "C" => return { plan with dir := some text }
  | "v" => return { plan with isVerbose := true }
  | "default" => (← plan.withSignals argument false).withHolds argument false
  | "ignore" => plan.withSignals argument true
  | "block" => plan.withHolds argument true
  | "list" => return { plan with listsSignals := true }
  | "help" | "version" => Tool.finish 0
  | letter =>
    Tool.complain ("invalid option -- '".toList ++ letter.toList ++ ['\''])
    Tool.complain shebangHint
    Tool.usage failure

/-- The words that an argument is split into. -/
def split (plan : EnvPlan) (text : Text) : Tool (List Text) := do
  match Split.go (← get).environment (text.length + 1) text {} with
  | .error fault => Tool.die fault failure
  | .ok s =>
    for (name, value) in s.seen do
      match value with
      | some value =>
        plan.note ("expanding $\x7b".toList ++ name ++ "\x7d into ".toList ++ shownText value)
      | none => plan.note ("replacing $\x7b".toList ++ name ++ "\x7d with null string".toList)
    if let first :: others := s.words then
      plan.note ("split -S:  ".toList ++ shownText text)
      plan.note (" into:    ".toList ++ shownText first)
      others.forM fun word => plan.note ("     &    ".toList ++ shownText word)
    return s.words

/-- Takes options in order, up to one whose argument is split; then the words and what is behind
them are still to be read. -/
def takeAll (plan : EnvPlan) : List (Met × List Text) → Tool (EnvPlan × Option (List Text))
  | [] => return (plan, none)
  | (.fault text, _) :: _ => Tool.faulty text failure
  | (.bare key, _) :: rest => do (← plan.take key none).takeAll rest
  | (.option key argument, behind) :: rest => do
    if key = "S" then return (plan, some ((← plan.split argument) ++ behind))
    (← plan.take key (some argument)).takeAll rest

/-- The plan with all options, and the operands. -/
def read : (bound : Nat) → EnvPlan → (args : List Text) → Tool (EnvPlan × List Text)
  | 0, plan, args => return (plan, args)
  | bound + 1, plan, args => do
    let (met, operands) := options.scan args
    match ← plan.takeAll met with
    | (plan, none) => return (plan, operands)
    | (plan, some args) => read bound plan args

/-- The environment without a name. -/
def unsetIn (plan : EnvPlan) (environment : List (Text × Text)) (name : Text) :
    Tool (List (Text × Text)) := do
  plan.note ("unset:    ".toList ++ name)
  if name.isEmpty || '=' ∈ name then
    Tool.die ("cannot unset ".toList ++ shownText name ++ ": ".toList ++ Errno.invalidArgument.text)
      failure
  return environment.filter fun entry => entry.1 ≠ name

/-- The environment with what an operand sets. -/
def setIn (plan : EnvPlan) (environment : List (Text × Text)) (operand : Text) :
    Tool (List (Text × Text)) := do
  plan.note ("setenv:   ".toList ++ operand)
  match cut? '=' operand with
  | some (name, value) => return Table.put name value environment
  | none => return environment

/-- Does what is to be done about a signal. -/
def changeSignal (plan : EnvPlan) (change : SignalChange) : Tool Unit := do
  let isFixed : Bool := change.signal = 9 || change.signal = 19
  if isFixed then
    if !change.isLoose then
      Tool.die ("failed to set signal action for signal ".toList ++ decimal change.signal ++
        ": ".toList ++ Errno.invalidArgument.text) failure
  else
    let _ ← Program.setSignal change.signal (if change.isIgnored then .ignored else .standard)
  plan.note ("Reset signal ".toList ++ SignalName.ofNumber change.signal ++ " (".toList ++
    decimal change.signal ++ ") to ".toList ++
    (if change.isIgnored then "IGNORE" else "DEFAULT").toList ++
    (if isFixed then " (failure ignored)" else "").toList)

/-- Holds a signal back, or no longer. One that is held back for good is as good as ignored. -/
def hold (plan : EnvPlan) (signal : Nat) (isHeld : Bool) : Tool Unit := do
  if isHeld && signal ≠ 9 && signal ≠ 19 then
    let _ ← Program.setSignal signal .ignored
  plan.note ("signal ".toList ++ SignalName.ofNumber signal ++ " (".toList ++ decimal signal ++
    ") mask set to ".toList ++ (if isHeld then "BLOCK" else "UNBLOCK").toList)

/-- The signals that are ignored or held back, a line each. -/
def tellSignals (plan : EnvPlan) : Tool Unit := do
  for signal in SignalName.known do
    let isHeld : Bool := plan.holds.contains (signal, true) && signal ≠ 9 && signal ≠ 19
    let action ← Program.setSignal signal .standard
    let isIgnored : Bool := if isHeld then
        plan.signals.any fun change => change.signal = signal && change.isIgnored
      else action = .ignored
    if action = .ignored then
      let _ ← Program.setSignal signal .ignored
      let name := SignalName.ofNumber signal
      let number := decimal signal
      let state := (if isHeld then ["BLOCK".toList] else []) ++
        (if isIgnored then ["IGNORE".toList] else [])
      Tool.tell (name ++ List.replicate (10 - name.length) ' ' ++ " (".toList ++
        List.replicate (2 - number.length) ' ' ++ number ++ "): ".toList ++ join ',' state ++ ['\n'])

/-- Becomes the program at a path; a file that is no program is taken for a script. -/
def become (path : Text) (args : List Text) (environment : List (Text × Text)) : Tool Errno := do
  let e ← Program.execute path args environment
  if e = .notExecutable then
    let shell := "/bin/sh".toList
    return ← Program.execute shell (shell :: path :: args.tail) environment
  return e

/-- Tries the program in one directory after the other; a refusal counts if nothing better comes. -/
def search (args : List Text) (environment : List (Text × Text)) (name : Text) :
    List Text → Errno → Tool Errno
  | [], e => return e
  | dir :: rest, e => do
    let path := if dir.isEmpty then name else dir ++ '/' :: name
    let found ← become path args environment
    if found = .accessDenied then search args environment name rest found
    else if found = .noEntry ∨ found = .notDirectory then search args environment name rest e
    else return found

/-- Runs a command; the answer is why it cannot be run. -/
def run (args : List Text) (environment : List (Text × Text)) : Tool Errno := do
  let name := args.headD []
  if name.isEmpty then return .noEntry
  else if '/' ∈ name then become name args environment
  else
    let path := (environment.lookup "PATH".toList).getD "/bin:/usr/bin".toList
    search args environment name (pieces ':' path) .noEntry

/-- Tells what is about to be run. -/
def tellCommand (plan : EnvPlan) (command : List Text) : Tool Unit := do
  plan.note ("executing: ".toList ++ command.headD [])
  for (word, n) in command.zipIdx do
    plan.note ("   arg[".toList ++ decimal n ++ "]= ".toList ++ shownText word)

end EnvPlan

def runEnv (args : List Text) : Tool Nat := do
  modify fun bench => { bench with failure := EnvPlan.failure }
  let (plan, operands) ← EnvPlan.read (sumOf (args.map List.length) + 1) {} args
  let (isEmpty, operands) := if operands.head? = some ['-'] then (true, operands.tail)
    else (plan.isEmpty, operands)
  if isEmpty then plan.note "cleaning environ".toList
  let environment ← if isEmpty then pure []
    else plan.unset.foldlM plan.unsetIn (← get).environment
  let settings := operands.takeWhile fun operand => '=' ∈ operand
  let environment ← settings.foldlM plan.setIn environment
  match operands.drop settings.length with
  | [] =>
    if plan.dir.isSome then
      Tool.complain "must specify command with --chdir (-C)".toList
      Tool.usage EnvPlan.failure
    Tool.say (listing plan.lineEnd environment)
    return 0
  | command =>
    if plan.lineEnd ≠ '\n' then
      Tool.complain "cannot specify --null (-0) with command".toList
      Tool.usage EnvPlan.failure
    (plan.signals.mergeSort fun a b => a.signal ≤ b.signal).forM plan.changeSignal
    (plan.holds.mergeSort fun a b => a.1 ≤ b.1).forM fun (signal, isHeld) => plan.hold signal isHeld
    if plan.listsSignals then plan.tellSignals
    if let some dir := plan.dir then
      plan.note ("chdir:    ".toList ++ shownQuoted dir)
      if let .error e ← Program.changeDir dir then
        Tool.complainOf ("cannot change directory to ".toList ++ shownQuoted dir) e
        Tool.finish EnvPlan.failure
    plan.tellCommand command
    let e ← EnvPlan.run command environment
    let name := command.headD []
    Tool.complainOf (shownText name) e
    if e ≠ .noEntry then return 126
    if name.any isSpaceOctet then Tool.complain EnvPlan.shebangHint
    return 127

end LineShell.Utility
