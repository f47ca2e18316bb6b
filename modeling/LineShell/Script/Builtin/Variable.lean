import LineShell.Script.Field
import LineShell.Script.Search

/-! Commands of the language about variables, arguments, options and aliases. -/

namespace LineShell.Script

/-- The variables for which something holds, in the order of their names, each on a line. -/
def showSettings (front : Text) (isMeant : Setting → Bool) : Run Unit := do
  let meant := (← get).settings.filter fun entry => isMeant entry.2
  let sorted := meant.mergeSort fun a b => comesFirst a.1 b.1
  sorted.forM fun (name, setting) =>
    let value := match setting.value with
      | some value => '=' :: quotedText value
      | none => []
    Run.say (front ++ name ++ value ++ ['\n'])

/-- `export` and `readonly`. -/
def runMark (name : String) (exported readonly : Bool) (args : List Text) : Run Nat := do
  let (letters, operands) ← Run.readLetters ['p'] args
  if operands.isEmpty || !letters.isEmpty then
    showSettings (name.toList ++ [' ']) fun s => (exported && s.exported) || (readonly && s.readonly)
  else
    operands.forM fun operand => do
      match Run.nameAndValue operand with
      | (name, some value) => Run.assign name (some value) exported readonly
      | (name, none) =>
        match (← get).setting? name with
        | some before =>
          modify (·.putSetting name { before with
            exported := exported || before.exported, readonly := readonly || before.readonly })
        | none => Run.assign name none exported readonly
  return 0

def runLocal (args : List Text) : Run Nat := do
  if (← get).saved.isEmpty then Run.fail "not in a function".toList
  args.forM fun arg =>
    let (name, value) := Run.nameAndValue arg
    Run.assignLocal name value false
  return 0

def runUnset (args : List Text) : Run Nat := do
  let (letters, operands) ← Run.readLetters ['v', 'f'] args
  operands.forM fun operand => do
    if letters.getLast? = some 'f' then
      modify fun c => { c with functions := c.functions.filter (·.1 ≠ operand) }
    else Run.assign (operand.takeWhile (· ≠ '=')) none
  return 0

def runShift (args : List Text) : Run Nat := do
  let n ← match args with
    | [] => pure 1
    | arg :: _ => readNumber arg
  let c ← get
  if c.arguments.length < n then Run.fail "can't shift that many".toList
  set { c with arguments := c.arguments.drop n, scanned := 1, scannedLetters := none }
  return 0

/-! ### Options -/

/-- The options by letter and name; those without a letter have a blank. -/
def modeNames : List (Char × String) :=
  [('e', "errexit"), ('f', "noglob"), ('I', "ignoreeof"), ('i', "interactive"), ('m', "monitor"),
   ('n', "noexec"), ('s', "stdin"), ('x', "xtrace"), ('v', "verbose"), ('V', "vi"),
   ('E', "emacs"), ('C', "noclobber"), ('a', "allexport"), ('b', "notify"), ('u', "nounset"),
   ('p', "privileged"), ('L', "nolog"), ('D', "debug")]

/-- Options that have a name, but no letter by which they could be set. -/
def letterless : List Char := ['L', 'D']

def setMode (letter : Char) (on : Bool) : Run Unit := modify fun c =>
  let modes := c.modes.filter (· ≠ letter)
  let modes := if on && letter = 'V' then modes.filter (· ≠ 'E') else modes
  let modes := if on && letter = 'E' then modes.filter (· ≠ 'V') else modes
  { c with modes := if on then letter :: modes else modes }

/-- Sets an option by name, or tells of all. -/
def setModeNamed (name : Option Text) (on : Bool) : Run Unit := do
  match name with
  | some name =>
    match modeNames.find? fun entry => entry.2.toList = name with
    | some (letter, _) => setMode letter on
    | none => Run.fail ("Illegal option -o ".toList ++ name)
  | none =>
    let c ← get
    if on then Run.say "Current option settings\n".toList
    modeNames.forM fun (letter, name) =>
      let isOn : Bool := c.hasMode letter
      if on then
        Run.say (padRight 16 name.toList ++ (if isOn then "on" else "off").toList ++ ['\n'])
      else
        Run.say ("set ".toList ++ (if isOn then '-' else '+') :: "o ".toList ++ name.toList ++ ['\n'])

/-- The letters of an option word. `-o` takes the name behind the word. -/
def setLetters (on : Bool) : Text → List Text → Run (List Text)
  | [], rest => return rest
  | 'o' :: letters, rest => do
    setModeNamed rest.head? on
    setLetters on letters rest.tail
  | letter :: letters, rest => do
    if modeNames.any (·.1 = letter) && !letterless.contains letter then
      setMode letter on
      setLetters on letters rest
    else Run.fail ("Illegal option -".toList ++ [letter])

/-- The options in front of arguments; the answer is the arguments, and whether they were set off by
a double dash. -/
def setOptions : (bound : Nat) → List Text → Run (List Text × Bool)
  | 0, args => return (args, false)
  | bound + 1, args => do
    match args with
    | ['-'] :: rest =>
      setMode 'x' false
      setMode 'v' false
      return (rest, false)
    | ['-', '-'] :: rest => return (rest, true)
    | ('-' :: letters) :: rest => setOptions bound (← setLetters true letters rest)
    | ('+' :: letters) :: rest => setOptions bound (← setLetters false letters rest)
    | args => return (args, false)

def runSet (args : List Text) : Run Nat := do
  if args.isEmpty then
    showSettings [] fun s => s.value.isSome
    return 0
  let (arguments, isSetOff) ← setOptions (args.length + 1) args
  if !arguments.isEmpty || isSetOff then
    modify fun c => { c with arguments, scanned := 1, scannedLetters := none }
  return 0

/-! ### Scanning arguments -/

/-- Whether an option letter is known, and whether it takes a value. -/
def optionKind : Text → Char → Option Bool
  | [], _ => none
  | c :: rest, letter =>
    if c = letter && letter ≠ ':' then some (rest.head? = some ':')
    else optionKind rest letter

def runGetopts (args : List Text) : Run Nat := do
  let (_, operands) ← Run.readLetters [] args
  match operands with
  | letters :: target :: given =>
    let c ← get
    let words := if given.isEmpty then c.arguments else given
    let (index, offset) : Nat × Option Nat :=
      if words.length + 1 < c.scanned then (1, none) else (c.scanned, c.scannedLetters)
    let isQuiet : Bool := letters.head? = some ':'
    let old : Option Text := do
      let n ← offset
      if index ≤ 1 then none
      let word ← words[index - 2]?
      let rest := word.drop n
      if word.length < n || rest.isEmpty then none else some rest
    -- The letters that are left of the word, and how many words have been taken.
    let found : Option (Text × Nat) := match old with
      | some rest => some (rest, index - 1)
      | none =>
        match words[index - 1]? with
        | some ('-' :: letter :: rest) =>
          if letter = '-' && rest.isEmpty then none else some (letter :: rest, index)
        | _ => none
    let finish (index : Nat) (offset : Option Nat) (letter : Char) (status : Nat) : Run Nat := do
      Run.assign "OPTIND".toList (some (decimal index))
      Run.assign target (some [letter])
      modify fun c => { c with scanned := index, scannedLetters := offset }
      return status
    let unset : Run Unit := Run.assign "OPTARG".toList none
    match found with
    | none =>
      let isEnd : Bool := words[index - 1]? = some ['-', '-']
      finish (if isEnd && old.isNone then index + 1 else index) none '?' 1
    | some (text, taken) =>
      let letter := text.headD '?'
      let rest := text.tail
      let width := (words.getD (taken - 1) []).length
      let offset : Option Nat := some (width - rest.length)
      match optionKind letters letter with
      | none =>
        if isQuiet then Run.assign "OPTARG".toList (some [letter])
        else
          Run.tell ("Illegal option -".toList ++ [letter, '\n'])
          unset
        finish (taken + 1) offset '?' 0
      | some false =>
        Run.assign "OPTARG".toList (some [])
        finish (taken + 1) offset letter 0
      | some true =>
        if !rest.isEmpty then
          Run.assign "OPTARG".toList (some rest)
          finish (taken + 1) none letter 0
        else match words[taken]? with
          | some value =>
            Run.assign "OPTARG".toList (some value)
            finish (taken + 2) none letter 0
          | none =>
            if isQuiet then
              Run.assign "OPTARG".toList (some [letter])
              finish (taken + 1) none ':' 0
            else
              Run.tell ("No arg for -".toList ++ letter :: " option\n".toList)
              unset
              finish (taken + 1) none '?' 0
  | _ => Run.fail "Usage: getopts optstring var [arg...]".toList

/-! ### Reading lines -/

/-- The characters of a line, as stretches: those behind a backslash are not cut. The status tells
whether the line was ended. -/
def readStretches (keepsBackslash : Bool) : (bound : Nat) → (isEscaped : Bool) → (open_ : List Glyph) →
    List Stretch → Run (List Stretch × Nat)
  | 0, _, _, done => return (done.reverse, 1)
  | bound + 1, isEscaped, glyphs, done => do
    let close (glyphs : List Glyph) : List Stretch := ⟨glyphs.reverse, .loose⟩ :: done
    match ← Run.ask (Program.read 0 1) with
    | .error e =>
      if e = .interrupted then
        let signals ← Run.ask Program.takeSignals
        modify fun c => { c with pending := c.pending ++ signals }
        if !(← get).pending.isEmpty then return ((close glyphs).reverse, 1)
        readStretches keepsBackslash bound isEscaped glyphs done
      else return ((close glyphs).reverse, 1)
    | .ok [] => return ((close glyphs).reverse, 1)
    | .ok (b :: _) =>
      let c := Char.ofNat b.toNat
      if c = '\x00' then readStretches keepsBackslash bound isEscaped glyphs done
      else if isEscaped then
        let done := close glyphs
        if c = '\n' then readStretches keepsBackslash bound false [] done
        else readStretches keepsBackslash bound false [] (⟨[.char c true], .whole⟩ :: done)
      else if c = '\\' && !keepsBackslash then readStretches keepsBackslash bound true glyphs done
      else if c = '\n' then return ((close glyphs).reverse, 0)
      else readStretches keepsBackslash bound false (.char c false :: glyphs) done

def runRead (args : List Text) : Run Nat := do
  let (options, names) ←
    Run.readOptions [('p', true), ('r', false)] (sumOf (args.map List.length) + args.length + 1) args
  if names.isEmpty then Run.fail "arg count".toList
  let (stretches, status) ←
    readStretches (options.any (·.1 = 'r')) 1000000000 false [] []
  let separators := ((← get).value? "IFS".toList).getD standardSeparators
  let fields := fieldsOf separators (some names.length) stretches
  (List.range names.length).forM fun n =>
    Run.assign (names.getD n []) (some (Glyph.text (fields.getD n [])))
  return status

/-! ### Aliases -/

/-- Where an alias stands among the others. -/
def aliasBucket (name : Text) : Nat := Context.bucketOf name

def aliasLine (entry : Text × Text) : Text := entry.1 ++ '=' :: quotedText entry.2 ++ ['\n']

def runAlias (args : List Text) : Run Nat := do
  if args.isEmpty then
    let aliases := (← get).aliases
    let sorted := (List.range 39).flatMap fun n => aliases.filter fun a => aliasBucket a.1 = n
    sorted.forM fun entry => Run.say (aliasLine entry)
    return 0
  args.foldlM (fun status arg => do
    match (arg.drop 1).span (· ≠ '=') with
    | (rest, '=' :: value) =>
      let name := arg.take 1 ++ rest
      modify fun c =>
        { c with aliases := if c.aliases.any (·.1 = name)
            then c.aliases.map fun entry => if entry.1 = name then (name, value) else entry
            else c.aliases ++ [(name, value)] }
      return status
    | _ =>
      match (← get).aliases.lookup arg with
      | some value =>
        Run.say (aliasLine (arg, value))
        return status
      | none =>
        Run.tell ("alias: ".toList ++ arg ++ " not found\n".toList)
        return 1) 0

def runUnalias (args : List Text) : Run Nat := do
  let (letters, operands) ← Run.readLetters ['a'] args
  if letters.contains 'a' then
    modify fun c => { c with aliases := [] }
    return 0
  operands.foldlM (fun status name => do
    if (← get).aliases.any (·.1 = name) then
      modify fun c => { c with aliases := c.aliases.filter (·.1 ≠ name) }
      return status
    else
      Run.tell ("unalias: ".toList ++ name ++ " not found\n".toList)
      return 1) 0

end LineShell.Script
