import LineShell.Utility.Copying
import LineShell.Utility.Number

/-! `chmod`, which changes what files permit. A mode is a number, or a list of changes, each for some
classes of users: add, take away or set some permissions, or those that another class has. -/

namespace LineShell.Utility

/-- Where the permissions of a change come from. -/
inductive ModeSource
  | bits
  /-- Those of the bits that the file has, for every class. -/
  | copy
  /-- Execution as well, if someone may execute the file already, or it is a directory. -/
  | perhapsExecute
  deriving Repr, DecidableEq

/-- A change of a mode. -/
structure ModeChange where
  sign : Char
  /-- The bits of the classes that are named; none of them are named if it is zero. -/
  affected : Nat
  value : Nat
  mentioned : Nat
  source : ModeSource := .bits
  deriving Repr, DecidableEq

namespace ModeChange

def allBits : Nat := 0o7777
def setIdBits : Nat := 0o6000

/-- A number as a change, unless it is too large. -/
def ofOctal? (digits : Text) : Option ModeChange :=
  let value := valueIn 8 digits
  if allBits < value then none
  else
    let mentioned := if digits.length < 5 then value &&& setIdBits ||| 0o1777 else allBits
    some ⟨'=', allBits, value, mentioned, .bits⟩

def classBits : Char → Nat
  | 'u' => 0o4700
  | 'g' => 0o2070
  | 'o' => 0o1007
  | _ => allBits

def letterBits : Char → Nat
  | 'r' => 0o444
  | 'w' => 0o222
  | 'x' => 0o111
  | 's' => setIdBits
  | 't' => 0o1000
  | _ => 0

def isSign (c : Char) : Bool := c = '=' || c = '+' || c = '-'

/-- The changes behind the classes: signs, and what goes with each of them. -/
def readSigns (affected : Nat) : (bound : Nat) → Text → Option (List ModeChange × Text)
  | 0, _ => none
  | bound + 1, text =>
    match text with
    | sign :: rest =>
      if !isSign sign then some ([], text)
      else do
        let (change, rest) ← match rest with
          | c :: more =>
            if isOctal c then
              let digits := rest.takeWhile isOctal
              let behind := rest.drop digits.length
              if affected ≠ 0 || !(behind.isEmpty || behind.head? = some ',') ||
                  allBits < valueIn 8 digits then none
              else some (⟨sign, allBits, valueIn 8 digits, allBits, .bits⟩, behind)
            else if c ∈ ['u', 'g', 'o'] then
              let value := classBits c &&& 0o777
              some (⟨sign, affected, value, if affected = 0 then value else affected &&& value, .copy⟩,
                more)
            else letters sign rest
          | [] => letters sign []
        let (changes, rest) ← readSigns affected bound rest
        return (change :: changes, rest)
    | [] => some ([], [])
where
  letters (sign : Char) (text : Text) : Option (ModeChange × Text) :=
    let letters := text.takeWhile (· ∈ ['r', 'w', 'x', 'X', 's', 't'])
    let value := letters.foldl (fun value c => value ||| letterBits c) 0
    let source : ModeSource := if 'X' ∈ letters then .perhapsExecute else .bits
    some (⟨sign, affected, value, if affected = 0 then value else affected &&& value, source⟩,
      text.drop letters.length)

/-- One part of a list of changes: classes, and what goes with them. -/
def readPart (text : Text) : Option (List ModeChange) := do
  let classes := text.takeWhile (· ∈ ['u', 'g', 'o', 'a'])
  let affected := classes.foldl (fun bits c => bits ||| classBits c) 0
  let rest := text.drop classes.length
  if !(rest.head?.any isSign) then none
  let (changes, rest) ← readSigns affected (rest.length + 1) rest
  if rest.isEmpty then some changes else none

/-- A mode as changes. -/
def ofText? (text : Text) : Option (List ModeChange) :=
  if text.head?.any isOctal then
    if text.all isOctal then (ofOctal? text).map ([·]) else none
  else ((pieces ',' text).mapM readPart).map List.flatten

/-- A mode after a change, for a process with a mask. -/
def apply (mask : Nat) (isDir : Bool) (mode : Nat) (c : ModeChange) : Nat :=
  let without (a b : Nat) : Nat := a &&& (allBits ^^^ (b &&& allBits))
  let spread (value : Nat) : Nat :=
    (if value &&& 0o444 ≠ 0 then 0o444 else 0) ||| (if value &&& 0o222 ≠ 0 then 0o222 else 0) |||
      (if value &&& 0o111 ≠ 0 then 0o111 else 0)
  let value := match c.source with
    | .bits => c.value
    | .copy => spread (c.value &&& mode) ||| (c.value &&& mode)
    | .perhapsExecute => if mode &&& 0o111 ≠ 0 || isDir then c.value ||| 0o111 else c.value
  let kept := if isDir then without setIdBits c.mentioned else 0
  let value := without (if c.affected ≠ 0 then value &&& c.affected else without value mask) kept
  if c.sign = '=' then
    let preserved := (if c.affected ≠ 0 then without allBits c.affected else 0) ||| kept
    (mode &&& preserved) ||| value
  else if c.sign = '+' then mode ||| value
  else without mode value

/-- A mode after all changes. -/
def applyAll (changes : List ModeChange) (mask : Nat) (isDir : Bool) (mode : Nat) : Nat :=
  changes.foldl (apply mask isDir) mode

end ModeChange

/-- A mode in letters, class after class. -/
def modeLetters (mode : Nat) : Text :=
  let group (shift special : Nat) (mark : Char) : Text :=
    let bits := mode / shift % 8
    let execute : Char := if mode / special % 2 = 1 then
        if bits % 2 = 1 then mark else mark.toUpper
      else if bits % 2 = 1 then 'x' else '-'
    [if bits / 4 % 2 = 1 then 'r' else '-', if bits / 2 % 2 = 1 then 'w' else '-', execute]
  group 64 0o4000 's' ++ group 8 0o2000 's' ++ group 1 0o1000 't'

def modeDigits (mode : Nat) : Text :=
  let digits := Nat.toDigits 8 mode
  List.replicate (4 - digits.length) '0' ++ digits

/-- How much is told of what is done. -/
inductive Verbosity
  | nothing
  | changes
  | everything
  deriving Repr, DecidableEq

structure ModePlan where
  modes : List Text := []
  changes : List ModeChange := []
  mask : Nat := 0
  recurses : Bool := false
  verbosity : Verbosity := .nothing
  isSilent : Bool := false
  reference : Option Text := none

namespace ModePlan

def options : Options where
  letters := "Rcfv".toList.map (·, .nothing) ++ "rwxXstugoa,+=01234567".toList.map (·, .perhaps)
  long :=
    [("changes", .nothing, "c"), ("recursive", .nothing, "R"), ("no-preserve-root", .nothing, "root"),
     ("preserve-root", .nothing, "root"), ("quiet", .nothing, "f"), ("reference", .something, "reference"),
     ("silent", .nothing, "f"), ("verbose", .nothing, "v"), ("help", .nothing, "help"),
     ("version", .nothing, "version")]

def take (plan : ModePlan) (key : String) (argument : Option Text) : Tool ModePlan := do
  match key with
  | "R" => return { plan with recurses := true }
  | "c" => return { plan with verbosity := .changes }
  | "f" => return { plan with isSilent := true }
  | "v" => return { plan with verbosity := .everything }
  | "root" => return plan
  | "reference" => return { plan with reference := argument }
  | "help" | "version" => Tool.finish 0
  | letter => return { plan with modes := plan.modes ++ ['-' :: letter.toList ++ argument.getD []] }

/-- Tells what has become of a mode. -/
def describe (plan : ModePlan) (path : Text) (before after : Nat) (isDone : Bool) : Tool Unit := do
  let shownMode (mode : Nat) : Text := modeDigits mode ++ " (".toList ++ modeLetters mode ++ [')']
  let change := " from ".toList ++ shownMode before ++ " to ".toList ++ shownMode after ++ ['\n']
  if !isDone then
    if plan.verbosity = .everything then
      Tool.say ("failed to change mode of ".toList ++ shownQuoted path ++ change)
  else if before ≠ after then
    if plan.verbosity ≠ .nothing then
      Tool.say ("mode of ".toList ++ shownQuoted path ++ " changed".toList ++ change)
  else if plan.verbosity = .everything then
    Tool.say ("mode of ".toList ++ shownQuoted path ++ " retained as ".toList ++ shownMode before ++
      ['\n'])

/-- Tells why nothing was done with a file. -/
def describeOther (plan : ModePlan) (text : Text) : Tool Unit := do
  if plan.verbosity = .everything then Tool.say (text ++ ['\n'])

def complain (plan : ModePlan) (text : Text) : Tool Unit :=
  if plan.isSilent then pure () else Tool.complain text

/-- Changes the mode of a file whose status is known; the answer tells whether all went well. -/
def change (plan : ModePlan) (path : Text) (status : FileStatus) : Tool Bool := do
  let before := status.attributes.mode
  let isDir : Bool := status.kind = .directory
  let after := ModeChange.applyAll plan.changes plan.mask isDir before
  match ← Program.setMode path after with
  | .error e =>
    plan.complain ("changing permissions of ".toList ++ shownQuoted path ++ ": ".toList ++ e.text)
    plan.describe path before after false
    return false
  | .ok () =>
    plan.describe path before after true
    -- A mode that looks like an option is not meant to be cut by the mask.
    let expected := ModeChange.applyAll plan.changes 0 isDir before
    if !plan.modes.isEmpty && after &&& (0o7777 ^^^ expected) ≠ 0 then
      Tool.complain (shown path ++ ": new permissions are ".toList ++ modeLetters after ++
        ", not ".toList ++ modeLetters expected)
      return false
    return true

/-- Changes a file and, if that is asked for, everything below it. -/
def visit (plan : ModePlan) : (depth : Nat) → (isTop : Bool) → Text → Tool Bool
  | 0, _, _ => return true
  | depth + 1, isTop, path => do
    match ← Program.statusAt path isTop with
    | .error e =>
      match isTop, ← Program.statusAt path false with
      | true, .ok _ =>
        plan.complain ("cannot operate on dangling symlink ".toList ++ shownQuoted path)
      | _, _ =>
        plan.complain ("cannot access ".toList ++ shownQuoted path ++ ": ".toList ++ e.text)
      plan.describeOther (shownQuoted path ++ " could not be accessed".toList)
      return false
    | .ok status =>
      if status.kind = .link then
        plan.describeOther ("neither symbolic link ".toList ++ shownQuoted path ++
          " nor referent has been changed".toList)
        return true
      let isFine ← plan.change path status
      if !(plan.recurses && status.kind = .directory) then return isFine
      match ← Program.list path with
      | .error e =>
        plan.complain ("cannot read directory ".toList ++ shownQuoted path ++ ": ".toList ++ e.text)
        return false
      | .ok names =>
        names.foldlM (fun isFine name => do
          let inner := if path.getLast? = some '/' then path ++ name else path ++ '/' :: name
          return (← visit plan depth false inner) && isFine) isFine

end ModePlan

/-- How deep directories are followed. -/
def depthBound : Nat := 2000

def runChmod (args : List Text) : Tool Nat := do
  let (plan, operands) ← Tool.withOptions ModePlan.options args 1 ModePlan.take {}
  let plan : ModePlan := plan
  if plan.reference.isSome && !plan.modes.isEmpty then
    Tool.complain "cannot combine mode and --reference options".toList
    Tool.usage 1
  let isGiven : Bool := plan.reference.isSome || !plan.modes.isEmpty
  let (mode, files) := if isGiven then (join ',' plan.modes, operands)
    else (operands.headD [], operands.tail)
  if files.isEmpty then
    Tool.complain (if isGiven || operands.isEmpty then "missing operand".toList
      else "missing operand after ".toList ++ shownText mode)
    Tool.usage 1
  let changes ← match plan.reference with
    | some file =>
      match ← Program.statusAt file with
      | .error e =>
        Tool.complainOf ("failed to get attributes of ".toList ++ shownQuoted file) e
        Tool.finish 1
      | .ok status =>
        pure [⟨'=', ModeChange.allBits, status.attributes.mode, ModeChange.allBits, .bits⟩]
    | none =>
      match ModeChange.ofText? mode with
      | some changes => pure changes
      | none =>
        Tool.complain ("invalid mode: ".toList ++ shownText mode)
        Tool.usage 1
  let mask ← Program.setMask 0
  let plan := { plan with changes, mask }
  files.foldlM (fun status file => do
    return if ← plan.visit depthBound true file then status else 1) 0

end LineShell.Utility
