import LineShell.Script.Search
import LineShell.Utility.Conversion

/-! Commands of the language that write text: `echo` and `printf`. Escapes are written out in both
of them. -/

namespace LineShell.Script
open Utility

/-- A text behind a backslash as one character, and what is behind that. -/
def escaped : Text → Char × Text
  | [] => ('\\', [])
  | c :: rest =>
    if isOctal c then
      let digits := ((c :: rest).take 3).takeWhile isOctal
      (Char.ofNat (valueIn 8 digits % 256), (c :: rest).drop digits.length)
    else
      let plain : List (Char × Char) :=
        [('\\', '\\'), ('a', '\x07'), ('b', '\x08'), ('f', '\x0c'), ('n', '\n'), ('r', '\r'),
         ('t', '\t'), ('v', '\x0b')]
      match plain.lookup c with
      | some d => (d, rest)
      | none => ('\\', c :: rest)

/-- A text with its escapes written out, and whether it says that nothing more follows. -/
def unescaped : (bound : Nat) → Text → Text → Text × Bool
  | 0, _, out => (out.reverse, false)
  | _, [], out => (out.reverse, false)
  | bound + 1, '\\' :: rest, out =>
    match rest with
    | 'c' :: _ => (out.reverse, true)
    | '0' :: d :: more =>
      let (c, rest) := escaped (if isOctal d then d :: more else '0' :: d :: more)
      unescaped bound rest (c :: out)
    | rest =>
      let (c, rest) := escaped rest
      unescaped bound rest (c :: out)
  | bound + 1, c :: rest, out => unescaped bound rest (c :: out)

/-- The words of `echo` with blanks between them. -/
def echoed : List Text → Text × Bool
  | [] => ([], false)
  | word :: rest =>
    match unescaped (word.length + 1) word [], rest with
    | (text, true), _ => (text, true)
    | (text, false), [] => (text, false)
    | (text, false), rest =>
      let (more, stopped) := echoed rest
      (text ++ ' ' :: more, stopped)

def runEcho (args : List Text) : Run Nat := do
  let isOpen : Bool := args.head? = some ['-', 'n']
  let (text, stopped) := echoed (if isOpen then args.tail else args)
  Run.say (if stopped || isOpen then text else text ++ ['\n'])
  return 0

/-! ### Formats -/

/-- A format while it is written: the arguments that are left, and the status. -/
structure Writer where
  args : List Text
  status : Nat := 0

abbrev Write := StateT Writer Run

namespace Write

def nextArgument : Write (Option Text) := do
  match (← get).args with
  | [] => return none
  | arg :: rest =>
    modify fun w => { w with args := rest }
    return some arg

/-- An argument that is not what it should be. -/
def complain (text : Text) : Write Unit := do
  Run.warn text
  modify fun w => { w with status := 1 }

/-- A number has been read from an argument, `length` characters long. -/
def judge (arg : Text) (length : Nat) (isOutOfRange : Bool) : Write Unit := do
  if length < arg.length then
    if length = 0 then complain (arg ++ ": expected numeric value".toList)
    else complain (arg ++ ": not completely converted".toList)
  else if isOutOfRange then complain (arg ++ ": ".toList ++ Errno.rangeExceeded.text)

/-- The next argument as a whole number. -/
def whole (isSigned : Bool) : Write Int := do
  match ← nextArgument with
  | none => return 0
  | some arg =>
    match arg with
    | '"' :: rest | '\'' :: rest => return (rest.headD '\x00').toNat
    | arg =>
      let reading := Reading.ofText arg
      let least : Int := if isSigned then -Int.pow 2 63 else -(Int.pow 2 64 - 1)
      let greatest : Int := if isSigned then Int.pow 2 63 - 1 else Int.pow 2 64 - 1
      let isOutOfRange := decide (reading.value < least ∨ greatest < reading.value)
      judge arg reading.length isOutOfRange
      let value := if reading.value < least then (if isSigned then least else greatest)
        else min greatest reading.value
      return if isSigned then value else value % Int.pow 2 64

/-- The next argument as a number with a fraction. -/
def fractional : Write Binary := do
  match ← nextArgument with
  | none => return .finite false 0 0
  | some arg =>
    match arg with
    | '"' :: rest | '\'' :: rest => return .finite false (rest.headD '\x00').toNat 0
    | arg =>
      let reading := BinaryReading.ofText .double arg
      judge arg reading.length reading.isOutOfRange
      return reading.value

/-- A width or precision at the start of a text, and the text behind it. -/
def size (text : Text) : Write (Option Int × Text) := do
  match text with
  | '*' :: rest => return (some (← whole true), rest)
  | text =>
    let digits := text.takeWhile fun c => c = '*' || c.isDigit
    let number := digits.takeWhile Char.isDigit
    return (if number.isEmpty then none else some (valueIn 10 number), text.drop digits.length)

/-- Writes one conversion, whose text behind the percent sign is given; the answer is the text
behind it, and whether nothing more is to be written. -/
def convert (text : Text) : Write (Text × Bool) := do
  let flags := text.takeWhile (· ∈ ['#', '-', '+', ' ', '0'])
  let shape : Shape := flags.foldl Shape.withFlag {}
  let (width, rest) ← size (text.drop flags.length)
  let shape := shape.withWidth (width.getD 0)
  let (precision, rest) : Option Nat × Text ← match rest with
    | '.' :: rest =>
      let (n, rest) ← size rest
      let n := n.getD 0
      pure (if n < 0 then none else some n.toNat, rest)
    | rest => pure (none, rest)
  let shape := { shape with precision }
  let say (text : Text) : Write (Text × Bool) := do
    Run.say text
    return (rest.tail, false)
  match rest.head? with
  | none => Run.fail "missing format character".toList
  | some letter =>
    match letter with
    | 'b' =>
      let arg := (← nextArgument).getD []
      let (text, stopped) := unescaped (arg.length + 1) arg []
      Run.say (shape.ofText text)
      return (rest.tail, stopped)
    | 'c' => say (shape.pad (((← nextArgument).getD [] ++ ['\x00']).take 1))
    | 's' => say (shape.ofText ((← nextArgument).getD []))
    | 'd' | 'i' => say (shape.signed (← whole true))
    | 'o' | 'u' | 'x' | 'X' => say (shape.unsigned letter (← whole false).toNat)
    | 'a' | 'A' | 'e' | 'E' | 'f' | 'F' | 'g' | 'G' =>
      say (shape.ofBinary Precision.double.bits letter (← fractional))
    | _ =>
      let taken := text.take (text.length - rest.length + 1)
      Run.fail ('%' :: taken ++ ": invalid directive".toList)

/-- The format written once; the answer tells whether nothing more is to be written. -/
def pass : (bound : Nat) → Text → Write Bool
  | 0, _ => return true
  | _, [] => return false
  | bound + 1, '\\' :: rest => do
    let (c, rest) := escaped rest
    Run.say [c]
    pass bound rest
  | bound + 1, '%' :: '%' :: rest => do
    Run.say ['%']
    pass bound rest
  | bound + 1, '%' :: rest => do
    let (rest, stopped) ← convert rest
    if stopped then return true
    pass bound rest
  | bound + 1, c :: rest => do
    let text := (c :: rest).takeWhile fun c => c ≠ '\\' && c ≠ '%'
    Run.say text
    pass bound ((c :: rest).drop text.length)

/-- The format written until no argument is left, or none is used any more. -/
def passes (format : Text) : (bound : Nat) → Write Unit
  | 0 => pure ()
  | bound + 1 => do
    let before := (← get).args.length
    if ← pass (format.length + 1) format then return
    let after := (← get).args.length
    if after < before && 0 < after then passes format bound

end Write

def runPrintf (args : List Text) : Run Nat := do
  let (_, operands) ← Run.readLetters [] args
  match operands with
  | [] => Run.fail "usage: printf format [arg ...]".toList
  | format :: args =>
    let ((), writer) ← (Write.passes format (args.length + 2)).run { args }
    return writer.status

end LineShell.Script
