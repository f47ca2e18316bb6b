import LineShell.Utility.Conversion
import LineShell.Utility.Tool

/-! Formats: text with escapes and conversions, which is written again and again until all arguments
have been used. What is wrong with an argument is told at once; what is wrong with the format ends
the program. -/

namespace LineShell.Utility

namespace Format

/-- The character for the letter of a short escape. -/
def simpleEscape? (c : Char) : Option Char :=
  [('"', '"'), ('\\', '\\'), ('a', '\x07'), ('b', '\x08'), ('e', '\x1b'), ('f', '\x0c'),
   ('n', '\n'), ('r', '\r'), ('t', '\t'), ('v', '\x0b')].lookup c

/-- What an escape stands for, and how many characters behind the backslash it takes. -/
inductive Escape
  | text (octets : Text) (length : Nat)
  /-- Nothing more is written. -/
  | stop
  | fault (text : Text)
  deriving Repr, DecidableEq

def octet (n : Nat) : Char := Char.ofNat (n % 256)

/-- A character given by its number. Only those that are plain ASCII can be written; of the others
the number is. -/
def universal (mark : Char) (digits : Text) : Escape :=
  let size := if mark = 'u' then 4 else 8
  let number := valueIn 16 digits
  if digits.length < size then .fault "missing hexadecimal number in escape".toList
  else if (number ≤ 0x9f ∧ number ≠ 0x24 ∧ number ≠ 0x40 ∧ number ≠ 0x60) ∨
      (0xd800 ≤ number ∧ number ≤ 0xdfff) then
    .fault ("invalid universal character name \\".toList ++ mark :: digits.map Char.toLower)
  else if number < 128 then .text [Char.ofNat number] (size + 1)
  else
    let hex := (Nat.toDigits 16 number).map Char.toUpper
    let width := if number < 0x10000 then 4 else 8
    .text (['\\', if number < 0x10000 then 'u' else 'U'] ++ List.replicate (width - hex.length) '0' ++ hex)
      (size + 1)

/-- The escape behind a backslash. In an argument an octal number may have a zero more in front. -/
def escape (inArgument : Bool) : Text → Escape
  | [] => .text ['\\'] 0
  | 'x' :: rest =>
    let digits := (rest.take 2).takeWhile fun c => (hexDigit? c).isSome
    if digits.isEmpty then .fault "missing hexadecimal number in escape".toList
    else .text [octet (valueIn 16 digits)] (digits.length + 1)
  | c :: rest =>
    if isOctal c then
      let skipped := if inArgument && c = '0' then 1 else 0
      let digits := (((c :: rest).drop skipped).take 3).takeWhile isOctal
      .text [octet (valueIn 8 digits)] (skipped + digits.length)
    else if c = 'c' then .stop
    else if c = 'u' || c = 'U' then
      universal c ((rest.take (if c = 'u' then 4 else 8)).takeWhile fun c => (hexDigit? c).isSome)
    else match simpleEscape? c with
      | some plain => .text [plain] 1
      | none => .text ['\\', c] 1

/-- The flags a conversion can have, and the letters that go with each. -/
def fits (flags : Text) (hasPrecision : Bool) (letter : Char) : Bool :=
  let refused : Text :=
    (if '\'' ∈ flags || 'I' ∈ flags then "aAceEosxX".toList else []) ++
    (if '#' ∈ flags then "cdisu".toList else []) ++
    (if '0' ∈ flags then "cs".toList else []) ++
    (if hasPrecision then "c".toList else [])
  letter ∈ "aAcdeEfFgGiosuxX".toList && letter ∉ refused

/-- What is left of the arguments, whether any was used, and the status so far. -/
structure Progress where
  args : List Text
  isUsed : Bool := false
  status : Nat := 0

/-- The next argument, and the progress without it. -/
def Progress.next (p : Progress) : Option Text × Progress :=
  match p.args with
  | [] => (none, p)
  | arg :: args => (some arg, { p with args, isUsed := true })

/-- What is told of a number that was read from an argument: how much of it was taken, and whether
it fitted. -/
def judge (p : Progress) (arg : Text) (length : Nat) (isOutOfRange : Bool) : Tool Progress := do
  let failed := { p with status := 1 }
  if isOutOfRange then
    Tool.complainOf (shownText arg) .rangeExceeded
    return failed
  else if length < arg.length then
    Tool.complain (shownText arg ++ (if length = 0 then ": expected a numeric value".toList
      else ": value not completely converted".toList))
    return failed
  else return p

/-- The character behind a quote, if an argument is given that way, whose number is meant. -/
def quoted? (arg : Text) : Tool (Option Nat) := do
  match arg with
  | q :: c :: more =>
    if q = '\'' || q = '"' then
      let isStrict := (← get).environment.any fun entry => entry.1 = "POSIXLY_CORRECT".toList
      if !more.isEmpty && !isStrict then
        Tool.complain ("warning: ".toList ++ more ++
          ": character(s) following character constant have been ignored".toList)
      return some c.toNat
    else return none
  | _ => return none

/-- An argument as a whole number between bounds. A negative number that is meant to have no sign
counts down from the top. -/
def whole (p : Progress) (arg : Text) (isSigned : Bool) : Tool (Int × Progress) := do
  if let some n ← quoted? arg then return (n, p)
  let reading := Reading.ofText arg
  let least : Int := if isSigned then -Int.pow 2 63 else -(Int.pow 2 64 - 1)
  let greatest : Int := if isSigned then Int.pow 2 63 - 1 else Int.pow 2 64 - 1
  let isOutOfRange := decide (reading.value < least ∨ greatest < reading.value)
  let value := if reading.value < least then (if isSigned then least else greatest)
    else min greatest reading.value
  return (if isSigned then value else value % Int.pow 2 64, ← judge p arg reading.length isOutOfRange)

/-- An argument as a number with a fraction. -/
def fractional (p : Progress) (arg : Text) : Tool (Binary × Progress) := do
  if let some n ← quoted? arg then return (.finite false n 0, p)
  let reading := BinaryReading.ofText .extended arg
  return (reading.value, ← judge p arg reading.length reading.isOutOfRange)

/-- A text with its escapes written out; it may end the program. -/
def unescape : (bound : Nat) → Text → Tool Unit
  | 0, _ => pure ()
  | _, [] => pure ()
  | bound + 1, '\\' :: rest => do
    match escape true rest with
    | .stop => Tool.finish 0
    | .fault text => Tool.die text 1
    | .text octets length =>
      Tool.say octets
      unescape bound (rest.drop length)
  | bound + 1, c :: rest => do
    Tool.say [c]
    unescape bound rest

/-- The greatest width. -/
def widthLimit : Int := Int.pow 2 31 - 1

/-- A width or precision that is written out or taken from an argument. -/
def size (p : Progress) (text : Text) : Tool (Option Int × Text × Text × Progress) := do
  match text with
  | '*' :: rest =>
    match p.next with
    | (none, p) => return (some 0, rest, [], p)
    | (some arg, p) =>
      let (n, p) ← whole p arg true
      return (some n, rest, arg, p)
  | text =>
    let digits := text.takeWhile Char.isDigit
    return (if digits.isEmpty then none else some (valueIn 10 digits), text.drop digits.length, [], p)

/-- Writes one conversion, whose text behind the percent sign is given; the answer is the text
behind the conversion. -/
def convert (p : Progress) (text : Text) : Tool (Text × Progress) := do
  let flags := text.takeWhile (· ∈ ['I', '\'', '-', '+', ' ', '#', '0'])
  let shape : Shape := flags.foldl Shape.withFlag {}
  let (width, rest, arg, p) ← size p (text.drop flags.length)
  if width.any fun w => w < -Int.pow 2 31 ∨ widthLimit < w then
    Tool.die ("invalid field width: ".toList ++ shownText arg) 1
  let shape := shape.withWidth (width.getD 0)
  let (precision, rest, p) : Option Nat × Text × Progress ← match rest with
    | '.' :: rest =>
      let (n, rest, arg, p) ← size p rest
      if n.any (widthLimit < ·) then
        Tool.die ("invalid precision: ".toList ++ shownText arg) 1
      let n := n.getD 0
      pure (if n < 0 then none else some n.toNat, rest, p)
    | rest => pure (none, rest, p)
  let hasPoint : Bool := '.' ∈ text.take (text.length - rest.length)
  let shape := { shape with precision }
  let rest := rest.dropWhile (· ∈ ['l', 'L', 'h', 'j', 't', 'z'])
  let letter := rest.headD '\x00'
  if !fits flags hasPoint letter then
    let taken := text.take (text.length - rest.length) ++ rest.take 1
    Tool.die ('%' :: taken ++ ": invalid conversion specification".toList) 1
  let (arg, p) := p.next
  let arg := arg.getD []
  let p ← match letter with
    | 's' => Tool.say (shape.ofText arg); pure p
    | 'c' => Tool.say (shape.pad (arg ++ ['\x00'] |>.take 1)); pure p
    | 'd' | 'i' =>
      let (n, p) ← whole p arg true
      Tool.say (shape.signed n)
      pure p
    | 'u' | 'o' | 'x' | 'X' =>
      let (n, p) ← whole p arg false
      Tool.say (shape.unsigned letter n.toNat)
      pure p
    | _ =>
      let (n, p) ← fractional p arg
      Tool.say (shape.ofBinary Precision.extended.bits letter n)
      pure p
  return (rest.tail, p)

/-- The format written once. -/
def pass : (bound : Nat) → Text → Progress → Tool Progress
  | 0, _, p => return p
  | _, [], p => return p
  | bound + 1, '\\' :: rest, p => do
    match escape false rest with
    | .stop => Tool.finish 0
    | .fault text => Tool.die text 1
    | .text octets length =>
      Tool.say octets
      pass bound (rest.drop length) p
  | bound + 1, '%' :: '%' :: rest, p => do
    Tool.say ['%']
    pass bound rest p
  | bound + 1, '%' :: 'b' :: rest, p => do
    let (arg, p) := p.next
    let arg := arg.getD []
    unescape arg.length arg
    pass bound rest p
  | bound + 1, '%' :: 'q' :: rest, p => do
    let (arg, p) := p.next
    if let some arg := arg then Tool.say (if arg.isEmpty then ['\'', '\''] else shown arg)
    pass bound rest p
  | bound + 1, '%' :: rest, p => do
    let (rest, p) ← convert p rest
    pass bound rest p
  | bound + 1, c :: rest, p => do
    Tool.say [c]
    pass bound rest p

/-- The format written until no argument is left, or none is used any more. -/
def passes (format : Text) : (bound : Nat) → Progress → Tool Progress
  | 0, p => return p
  | bound + 1, p => do
    let p ← pass format.length format { p with isUsed := false }
    if p.isUsed && !p.args.isEmpty then passes format bound p else return p

end Format

/-- Writes a format with its arguments. -/
def runPrintf (args : List Text) : Tool Nat := do
  match (if args.head? = some ['-', '-'] then args.tail else args) with
  | [] =>
    Tool.complain "missing operand".toList
    Tool.usage 1
  | format :: args =>
    let p ← Format.passes format (args.length + 1) { args }
    if let some arg := p.args.head? then
      Tool.complain ("warning: ignoring excess arguments, starting with ".toList ++ shownText arg)
    return p.status

end LineShell.Utility
