import LineShell.Utility.LineOrder
import LineShell.Utility.Copying

/-! `sort`, which puts lines in order, merges files that are in order, or looks whether one is. -/

namespace LineShell.Utility

/-- What is done with the lines. -/
inductive SortTask
  | sort
  | merge
  | check
  | checkQuietly
  deriving Repr, DecidableEq

structure SortPlan where
  task : SortTask := .sort
  order : KeyOrder := {}
  keys : List Key := []
  separator : Option UInt8 := none
  isUnique : Bool := false
  isStable : Bool := false
  output : Option Text := none
  lineEnd : UInt8 := 10
  /-- The file that holds the names of the operands. -/
  namesFrom : Option Text := none
  /-- A program and a file that are named for nothing, but must not be named twice. -/
  compressor : Option Text := none
  source : Option Text := none

namespace SortPlan

/-- Ends the program with a complaint about a key. -/
def badKey {α : Type} (fault spec : Text) : Tool α :=
  Tool.die (fault ++ ": invalid field specification ".toList ++ shownText spec) 2

/-- A number in the text of a key, and what is behind it. -/
def keyNumber (fault text : Text) : Tool (Nat × Text) := do
  let unsigned := text.dropWhile isSpaceOctet
  let unsigned := if unsigned.head? = some '+' then unsigned.tail else unsigned
  let digits := unsigned.takeWhile Char.isDigit
  if digits.isEmpty then
    Tool.die (fault ++ ": invalid count at start of ".toList ++ shownText text) 2
  return (valueIn 10 digits, unsigned.drop digits.length)

/-- The letters of an order in front of a text, and what is behind them. -/
def keyLetters (start finish : Bool) : Text → KeyOrder → KeyOrder × Text
  | [], order => (order, [])
  | c :: rest, order =>
    match order.with? start finish c with
    | some order => keyLetters start finish rest order
    | none => (order, c :: rest)

/-- A key from its text. -/
def readKey (spec : Text) : Tool Key := do
  let (field, rest) ← keyNumber "invalid number at field start".toList spec
  if field = 0 then badKey "field number is zero".toList spec
  let (char, rest) ← match rest with
    | '.' :: rest => do
      let (char, rest) ← keyNumber "invalid number after '.'".toList rest
      if char = 0 then badKey "character offset is zero".toList spec
      pure (char - 1, rest)
    | rest => pure (0, rest)
  let (order, rest) := keyLetters true false rest {}
  let key : Key := { startField := field - 1, startChar := char, order }
  match rest with
  | [] => return key
  | ',' :: rest => do
    let (field, rest) ← keyNumber "invalid number after ','".toList rest
    if field = 0 then badKey "field number is zero".toList spec
    let (char, rest) ← match rest with
      | '.' :: rest => keyNumber "invalid number after '.'".toList rest
      | rest => pure (0, rest)
    let (order, rest) := keyLetters false true rest order
    if !rest.isEmpty then badKey "stray character in field spec".toList spec
    return { key with finish := some (field - 1, char), order }
  | _ => badKey "stray character in field spec".toList spec

/-- Keys in the old form: a number of fields that are left out, behind a plus sign; the next word may
tell where the key ends. -/
def oldKey? (operand : Text) (rest : List Text) : Option (Met × Bool) := do
  let '+' :: spec := operand | none
  let digits := spec.takeWhile Char.isDigit
  let behind := spec.drop digits.length
  let letters ← match behind with
    | '.' :: behind =>
      let offset := behind.takeWhile Char.isDigit
      if offset.isEmpty then none else some (behind.drop offset.length)
    | behind => some behind
  if digits.isEmpty || !(keyLetters true false letters {}).2.isEmpty then none
  match rest with
  | ('-' :: c :: finish) :: _ =>
    if c.isDigit then return (.option "+" (operand ++ '\x00' :: c :: finish), true)
    else return (.option "+" operand, false)
  | _ => return (.option "+" operand, false)

/-- A key from its old form. -/
def readOldKey (word : Text) : Tool Key := do
  let spec := (word.drop 1).takeWhile (· ≠ '\x00')
  let digits := spec.takeWhile Char.isDigit
  let behind := spec.drop digits.length
  let offset := if behind.head? = some '.' then behind.tail.takeWhile Char.isDigit else []
  let (order, _) := keyLetters true false (behind.drop (if offset.isEmpty then 0 else offset.length + 1)) {}
  let key : Key := { startField := valueIn 10 digits, startChar := valueIn 10 offset, order }
  match cut? '\x00' word with
  | none => return key
  | some (_, finish) =>
    let (field, rest) ← keyNumber "invalid number after '-'".toList finish
    let (char, rest) ← match rest with
      | '.' :: rest => keyNumber "invalid number after '.'".toList rest
      | rest => pure (0, rest)
    let (order, rest) := keyLetters false true rest order
    if !rest.isEmpty then badKey "stray character in field spec".toList ('-' :: finish)
    return { key with finish := some (if char = 0 then field - 1 else field, char), order }

/-! ### Numbers that only have to be right -/

/-- A number without a sign in front of a text, and what is behind it. -/
def leadingNumber? (text : Text) : Option (Nat × Text) :=
  let unsigned := text.dropWhile isSpaceOctet
  let unsigned := if unsigned.head? = some '+' then unsigned.tail else unsigned
  let digits := unsigned.takeWhile Char.isDigit
  if digits.isEmpty then none else some (valueIn 10 digits, unsigned.drop digits.length)

/-- Ends the program over the number of an option. -/
def badNumber {α : Type} (fault : SizeFault) (option text : Text) : Tool α :=
  match fault with
  | .invalid => Tool.die ("invalid ".toList ++ option ++ " argument '".toList ++ text ++ ['\'']) 2
  | .suffix =>
    Tool.die ("invalid suffix in ".toList ++ option ++ " argument '".toList ++ text ++ ['\'']) 2
  | .tooLarge => Tool.die (option ++ " argument '".toList ++ text ++ "' too large".toList) 2

/-- A number with nothing behind it. -/
def plainNumber (text : Text) : Except SizeFault Nat :=
  match leadingNumber? text with
  | none => .error .invalid
  | some (n, []) => if n < Nat.pow 2 64 then .ok n else .error .tooLarge
  | some (_, _ :: _) => .error .suffix

/-- How many files can be merged at once. -/
def greatestBatch : Nat := 1048573

/-- Looks whether a number of files that are merged at once is right. -/
def checkBatch (text : Text) : Tool Unit := do
  let option := "--batch-size".toList
  let tooLarge : Tool Unit := do
    Tool.complain (option ++ " argument ".toList ++ shownText text ++ " too large".toList)
    Tool.die ("maximum ".toList ++ option ++ " argument with current rlimit is ".toList ++
      decimal greatestBatch) 2
  match plainNumber text with
  | .ok n =>
    if n < 2 then
      Tool.complain ("invalid ".toList ++ option ++ " argument ".toList ++ shownText text)
      Tool.die ("minimum ".toList ++ option ++ " argument is '2'".toList) 2
    if greatestBatch < n then tooLarge
  | .error .tooLarge => tooLarge
  | .error fault => badNumber fault option text

/-- Looks whether a number of threads is right. -/
def checkThreads (text : Text) : Tool Unit := do
  match plainNumber text with
  | .ok 0 => Tool.die "number in parallel must be nonzero".toList 2
  | .ok _ | .error .tooLarge => return ()
  | .error fault => badNumber fault "--parallel".toList text

/-- Looks whether the size of a buffer is right: a number of kibibytes, or with another unit. -/
def checkBuffer (option text : Text) : Tool Unit := do
  let factor? (c : Char) : Option Nat :=
    if c ∈ "EgGkKmMPtTYZ".toList then
      sizeFactor 1024 (if c = 'g' then 'G' else if c = 't' then 'T' else c)
    else none
  let bare? : Option (Nat × Text) := match text with
    | c :: _ => if (factor? c).isSome then some (1, text) else none
    | [] => none
  match (leadingNumber? text).or bare? with
  | none => badNumber .invalid option text
  | some (n, rest) =>
    let found : Except SizeFault Nat := match rest with
      | [] => .ok (n * 1024)
      | [c] =>
        match factor? c with
        | some factor => .ok (n * factor)
        | none => if (c = 'b' || c = '%') && n < Nat.pow 2 64 then .ok 0 else .error .suffix
      | _ => .error .suffix
    match found with
    | .ok size => if Nat.pow 2 64 ≤ size then badNumber .tooLarge option text
    | .error fault => badNumber fault option text

/-- The separator from its text. -/
def readSeparator (plan : SortPlan) (text : Text) : Tool SortPlan := do
  let separator : Char ← match text with
    | [] => Tool.die "empty tab".toList 2
    | [c] => pure c
    | ['\\', '0'] => pure '\x00'
    | text => Tool.die ("multi-character tab ".toList ++ shownText text) 2
  let byte := UInt8.ofNat separator.toNat
  if plan.separator.any (· ≠ byte) then Tool.die "incompatible tabs".toList 2
  return { plan with separator := some byte }

def options : Options where
  key? := oldKey?
  letters := "bcCdfghimMnrRsuVz".toList.map (·, .nothing) ++
    "koStTy".toList.map (·, .something)
  long :=
    [("ignore-leading-blanks", .nothing, "b"), ("check", .perhaps, "check"),
     ("compress-program", .something, "compress"), ("debug", .nothing, "debug"),
     ("dictionary-order", .nothing, "d"), ("ignore-case", .nothing, "f"),
     ("files0-from", .something, "files"), ("general-numeric-sort", .nothing, "g"),
     ("ignore-nonprinting", .nothing, "i"), ("key", .something, "k"), ("merge", .nothing, "m"),
     ("month-sort", .nothing, "M"), ("numeric-sort", .nothing, "n"),
     ("human-numeric-sort", .nothing, "h"), ("version-sort", .nothing, "V"),
     ("random-sort", .nothing, "R"), ("random-source", .something, "source"),
     ("sort", .something, "sort"), ("output", .something, "o"), ("reverse", .nothing, "r"),
     ("stable", .nothing, "s"), ("batch-size", .something, "batch"), ("buffer-size", .something, "buffer"),
     ("field-separator", .something, "t"), ("temporary-directory", .something, "T"),
     ("unique", .nothing, "u"), ("zero-terminated", .nothing, "z"), ("parallel", .something, "parallel"),
     ("help", .nothing, "help"), ("version", .nothing, "version")]

/-- Words for the ways to compare, as far as they have a letter. -/
def sortWords : List (String × Char) :=
  [("general-numeric", 'g'), ("human-numeric", 'h'), ("month", 'M'), ("numeric", 'n'),
   ("random", 'R'), ("version", 'V')]

def withCheck (plan : SortPlan) (task : SortTask) : Tool SortPlan := do
  if plan.task ≠ task ∧ (plan.task = .check ∨ plan.task = .checkQuietly) then
    Tool.die "options '-cC' are incompatible".toList 2
  return { plan with task }

/-- The plan with an option. -/
def take (plan : SortPlan) (key : String) (argument : Option Text) : Tool SortPlan := do
  let text := argument.getD []
  match key with
  | "c" => plan.withCheck .check
  | "C" => plan.withCheck .checkQuietly
  | "check" =>
    match argument with
    | none => plan.withCheck .check
    | some word =>
      let kind ← Tool.readWord 1 "--check".toList
        [("quiet", 'C'), ("silent", 'C'), ("diagnose-first", 'c')] word
      plan.withCheck (if kind = 'c' then .check else .checkQuietly)
  | "sort" =>
    let letter ← Tool.readWord 1 "--sort".toList sortWords text
    return { plan with order := (plan.order.with? true true letter).getD plan.order }
  | "k" => return { plan with keys := plan.keys ++ [← readKey text] }
  | "+" => return { plan with keys := plan.keys ++ [← readOldKey text] }
  | "S" =>
    checkBuffer "-S".toList text
    return plan
  | "buffer" =>
    checkBuffer "--buffer-size".toList text
    return plan
  | "batch" =>
    checkBatch text
    return plan
  | "parallel" =>
    checkThreads text
    return plan
  | "compress" =>
    if plan.compressor.any (· ≠ text) then Tool.die "multiple compress programs specified".toList 2
    return { plan with compressor := some text }
  | "source" =>
    if plan.source.any (· ≠ text) then Tool.die "multiple random sources specified".toList 2
    return { plan with source := some text }
  | "files" => return { plan with namesFrom := some text }
  | "m" => return { plan with task := .merge }
  | "o" =>
    if plan.output.any (· ≠ text) then Tool.die "multiple output files specified".toList 2
    return { plan with output := some text }
  | "s" => return { plan with isStable := true }
  | "t" => plan.readSeparator text
  | "u" => return { plan with isUnique := true }
  | "z" => return { plan with lineEnd := 0 }
  | "help" | "version" => Tool.finish 0
  | key =>
    match key.toList with
    | [letter] =>
      if argument.isSome then return plan
      else return { plan with order := (plan.order.with? true true letter).getD plan.order }
    | _ => return plan

/-- The order of the lines. Keys that say nothing take over what is said for all of them. -/
def lineOrder (plan : SortPlan) : LineOrder :=
  let inherit (key : Key) : Key :=
    if key.order = {} then { key with order := plan.order } else key
  let keys := plan.keys.map inherit
  let keys := if keys.isEmpty && !plan.order.isDefault then [{ order := plan.order }] else keys
  { keys, separator := plan.separator, keysOnly := plan.isUnique || plan.isStable
    reverse := plan.order.reverse }

/-- Ends the program with a complaint that has a reason. -/
def fail {α : Type} (what operand : Text) (e : Errno) : Tool α := do
  Tool.complainOf (what ++ ": ".toList ++ shown operand) e
  Tool.finish 2

/-- The lines of some bytes without their ends. -/
def linesOf (lineEnd : UInt8) (bytes : Bytes) : List Bytes :=
  let step (b : UInt8) (lines : List Bytes) : List Bytes :=
    match lines with
    | line :: more => if b = lineEnd then [] :: line :: more else (b :: line) :: more
    | [] => if b = lineEnd then [[]] else [[b]]
  bytes.reverse.foldl (fun lines b => step b lines) []

/-- The lines of an operand. -/
def readLines (plan : SortPlan) (operand : Text) : Tool (List Bytes) := do
  match ← Tool.openOperand operand with
  | .error e => fail "open failed".toList operand e
  | .ok fd =>
    match ← Tool.readAll fd with
    | .error e => fail "read failed".toList operand e
    | .ok bytes =>
      Tool.closeOperand operand fd
      return linesOf plan.lineEnd bytes

/-- Two lists of lines merged. -/
def merge (le : Bytes → Bytes → Bool) (a b : List Bytes) : List Bytes := List.merge a b le

/-- Of lines that follow each other and are equal, the first. -/
def dropEqual (order : LineOrder) : List Bytes → List Bytes
  | [] => []
  | a :: rest => a :: go a rest
where
  go (last : Bytes) : List Bytes → List Bytes
    | [] => []
    | b :: rest => if order.compare last b = .eq then go last rest else b :: go b rest

/-- The first line that is out of order, with its number. -/
def disorder? (plan : SortPlan) (order : LineOrder) : List Bytes → Nat → Option (Nat × Bytes)
  | a :: b :: rest, n =>
    let relation := order.compare a b
    if relation = .gt ∨ (plan.isUnique ∧ relation = .eq) then some (n + 1, b)
    else disorder? plan order (b :: rest) (n + 1)
  | _, _ => none

/-- Looks whether an operand is in order. -/
def check (plan : SortPlan) (operand : Text) : Tool Nat := do
  match disorder? plan plan.lineOrder (← plan.readLines operand) 1 with
  | none => return 0
  | some (n, line) =>
    if plan.task = .check then
      Tool.tell ((← get).name ++ ": ".toList ++ operand ++ ':' :: decimal n ++ ": disorder: ".toList ++
        byteOctets line ++ ['\n'])
    return 1

/-- Writes lines. -/
def write (plan : SortPlan) (lines : List Bytes) : Tool Unit := do
  let name := plan.output.getD "standard output".toList
  match ← Tool.put (lines.flatMap (· ++ [plan.lineEnd])) with
  | .error e => fail "write failed".toList name e
  | .ok () =>
    match ← Tool.flush with
    | .error e => fail "fflush failed".toList name e
    | .ok () => return ()

/-- Opens the file for the output in place of standard output. -/
def openOutput (path : Text) (mode : OpenMode) : Tool Unit := do
  match ← Program.openFile path mode with
  | .error e => fail "open failed".toList path e
  | .ok fd =>
    let _ ← Program.redirect fd Tool.stdout
    Program.close fd

/-- The operands, which may have to be read from a file. -/
def operandsOf (plan : SortPlan) (operands : List Text) : Tool (List Text) := do
  match plan.namesFrom with
  | none => return inputs operands
  | some file =>
    if let first :: _ := operands then
      Tool.complain ("extra operand ".toList ++ shownQuoted first)
      Tool.tell "file operands cannot be combined with --files0-from\n".toList
      Tool.usage 2
    match ← Tool.openOperand file with
    | .error e => fail "open failed".toList file e
    | .ok fd =>
      match ← Tool.readAll fd with
      | .error _ => Tool.die ("cannot read file names from ".toList ++ shownQuoted file) 2
      | .ok bytes =>
        let names := namesIn bytes
        if names.isEmpty then Tool.die ("no input from ".toList ++ shownQuoted file) 2
        for (name, n) in names.zipIdx 1 do
          if name = ['-'] then
            Tool.die ("when reading file names from stdin, no file name of ".toList ++
              shownQuoted name ++ " allowed".toList) 2
          if name.isEmpty then
            Tool.die (shown file ++ ':' :: decimal n ++ ": invalid zero-length file name".toList) 2
        return names

def checkReadable (operand : Text) : Tool Unit := do
  if operand ≠ ['-'] then
    if !(← Program.permits operand .read) then
      match ← Program.statusAt operand with
      | .error e => fail "cannot read".toList operand e
      | .ok _ => fail "cannot read".toList operand .accessDenied

end SortPlan

def runSort (args : List Text) : Tool Nat := do
  modify fun bench => { bench with failure := 2 }
  let (plan, operands) ← Tool.withOptions SortPlan.options args 2 SortPlan.take {}
  let plan : SortPlan := plan
  let operands ← plan.operandsOf operands
  for key in plan.lineOrder.keys do
    if let some letters := key.order.conflict? then
      Tool.die ("options '-".toList ++ letters ++ "' are incompatible".toList) 2
  if plan.task = .check ∨ plan.task = .checkQuietly then
    if let extra :: _ := operands.tail then
      Tool.die ("extra operand ".toList ++ shownQuoted extra ++ " not allowed with -".toList ++
        [if plan.task = .check then 'c' else 'C']) 2
    if plan.output.isSome then
      Tool.die ("options '-".toList ++ [if plan.task = .check then 'c' else 'C'] ++
        "o' are incompatible".toList) 2
    plan.check (operands.headD ['-'])
  else
    operands.forM SortPlan.checkReadable
    if let some path := plan.output then
      SortPlan.openOutput path { writes := true, creates := true }
    let files ← operands.mapM plan.readLines
    let order := plan.lineOrder
    let le (a b : Bytes) : Bool := order.compare a b ≠ .gt
    let lines := if plan.task = .merge then files.foldl (SortPlan.merge le) []
      else files.flatten.mergeSort le
    let lines := if plan.isUnique then SortPlan.dropEqual order lines else lines
    -- The file is emptied only now, so that it could be read before.
    if let some path := plan.output then SortPlan.openOutput path .output
    plan.write lines
    return 0

end LineShell.Utility
