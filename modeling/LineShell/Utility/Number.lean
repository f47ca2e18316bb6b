import LineShell.Text.Numeral

/-! Numbers as programs read them from their arguments. A numeral is read as far as it goes; how
much of the text it takes, and whether it fits, is part of the answer. Numbers with a fraction are
kept exactly, as a mantissa times a power of two, once they have been rounded to the bits that a
program computes with. -/

namespace LineShell.Utility

/-- White space in front of a numeral. -/
def isSpaceOctet (c : Char) : Bool := c = ' ' || ('\t' ≤ c && c ≤ '\r')

def hexDigit? (c : Char) : Option Nat :=
  if '0' ≤ c ∧ c ≤ '9' then some (c.toNat - 48)
  else if 'a' ≤ c ∧ c ≤ 'f' then some (c.toNat - 87)
  else if 'A' ≤ c ∧ c ≤ 'F' then some (c.toNat - 55)
  else none

def isOctal (c : Char) : Bool := '0' ≤ c && c ≤ '7'

/-- The value of digits in a base. -/
def valueIn (base : Nat) (digits : Text) : Nat :=
  digits.foldl (fun n c => base * n + (hexDigit? c).getD 0) 0

/-- A whole number in front of a text: its value, and how many characters it takes; none of them if
there is no number. -/
structure Reading where
  value : Int
  length : Nat
  deriving Repr, DecidableEq

/-- Reads a whole number in base ten, in base sixteen behind `0x` and in base eight behind `0`. -/
def Reading.ofText (text : Text) : Reading :=
  let blanks := text.takeWhile isSpaceOctet
  let rest := text.drop blanks.length
  let (negative, rest, taken) : Bool × Text × Nat := match rest with
    | '-' :: rest => (true, rest, blanks.length + 1)
    | '+' :: rest => (false, rest, blanks.length + 1)
    | rest => (false, rest, blanks.length)
  let (magnitude, length) : Nat × Nat := match rest with
    | '0' :: x :: more =>
      let digits := more.takeWhile fun c => (hexDigit? c).isSome
      if (x = 'x' || x = 'X') && !digits.isEmpty then (valueIn 16 digits, digits.length + 2)
      else
        let digits := (x :: more).takeWhile isOctal
        (valueIn 8 digits, digits.length + 1)
    | rest =>
      let digits := rest.takeWhile Char.isDigit
      (valueIn 10 digits, digits.length)
  if length = 0 then ⟨0, 0⟩
  else ⟨if negative then -Int.ofNat magnitude else Int.ofNat magnitude, taken + length⟩

/-- Why a size is refused. -/
inductive SizeFault
  | invalid
  /-- It has a unit that is not known. -/
  | suffix
  | tooLarge
  deriving Repr, DecidableEq

/-- The factor a letter stands for, as a power of a base or by itself. -/
def sizeFactor (base : Nat) : Char → Option Nat
  | 'b' => some 512
  | 'k' | 'K' => some base
  | 'm' | 'M' => some (base.pow 2)
  | 'G' => some (base.pow 3)
  | 'T' => some (base.pow 4)
  | 'P' => some (base.pow 5)
  | 'E' => some (base.pow 6)
  | 'Z' => some (base.pow 7)
  | 'Y' => some (base.pow 8)
  | _ => none

/-- A count with a unit behind it: `k` is 1024, `kB` is 1000, `kiB` is 1024 again, and so on. -/
def size? (text : Text) : Except SizeFault Nat :=
  let text := text.dropWhile isSpaceOctet
  let unsigned := match text with
    | '+' :: rest => rest
    | rest => rest
  let digits := unsigned.takeWhile Char.isDigit
  let rest := unsigned.drop digits.length
  let hasUnit : Bool := match text with
    | c :: _ => (sizeFactor 1024 c).isSome
    | [] => false
  if digits.isEmpty && !hasUnit then .error .invalid
  else
    let number := if digits.isEmpty then 1 else valueIn 10 digits
    let scaled : Option (Nat × Text) := match (if digits.isEmpty then text else rest) with
      | [] => some (number, [])
      | 'b' :: rest => some (number * 512, rest)
      | c :: 'i' :: 'B' :: rest => (sizeFactor 1024 c).map fun f => (number * f, rest)
      | c :: 'B' :: rest => (sizeFactor 1000 c).map fun f => (number * f, rest)
      | c :: rest => (sizeFactor 1024 c).map fun f => (number * f, rest)
    match scaled with
    | none => .error .suffix
    | some (_, _ :: _) => .error .suffix
    | some (n, []) => if n < Nat.pow 2 64 then .ok n else .error .tooLarge

/-! ### Numbers with a fraction -/

/-- A number as a program computes with it. -/
inductive Binary
  | finite (negative : Bool) (mantissa : Nat) (exponent : Int)
  | infinite (negative : Bool)
  | undefined (negative : Bool)
  deriving Repr, DecidableEq

/-- How many bits a mantissa has, and between which powers of two its last bit lies. -/
structure Precision where
  bits : Nat
  least : Int
  greatest : Int
  deriving Repr, DecidableEq

namespace Precision

def double : Precision := ⟨53, -1074, 971⟩
def extended : Precision := ⟨64, -16445, 16320⟩

end Precision

/-- A quotient rounded to the nearest whole number; of two that are equally near, to the even
one. -/
def roundQuotient (a b : Nat) : Nat :=
  let q := a / b
  let r := a % b
  if 2 * r < b then q else if b < 2 * r then q + 1 else if q % 2 = 0 then q else q + 1

/-- A quotient of whole numbers rounded to a precision, and whether it does not fit. -/
def Binary.ofQuotient (precision : Precision) (negative : Bool) (a b : Nat) : Binary × Bool :=
  if a = 0 then (.finite negative 0 0, false)
  else
    -- The power of two by which the mantissa has the right number of bits, give or take one.
    let guess : Int := Int.ofNat a.log2 - Int.ofNat b.log2 - Int.ofNat precision.bits
    let scaled (e : Int) : Nat :=
      if 0 ≤ e then roundQuotient a (b * Nat.pow 2 e.toNat)
      else roundQuotient (a * Nat.pow 2 (-e).toNat) b
    let e := if scaled guess < Nat.pow 2 precision.bits then guess else guess + 1
    let e := max e precision.least
    let m := scaled e
    let (m, e) := if m = Nat.pow 2 precision.bits then (m / 2, e + 1) else (m, e)
    if precision.greatest < e then (.infinite negative, true)
    else (.finite negative m e, e = precision.least && m < Nat.pow 2 (precision.bits - 1) && m * b ≠ a)

/-- A number in front of a text. -/
structure BinaryReading where
  value : Binary
  length : Nat
  isOutOfRange : Bool := false

/-- An exponent behind its letter: its value and how many characters it takes. -/
def exponentOf : Text → Int × Nat
  | '-' :: rest =>
    let digits := rest.takeWhile Char.isDigit
    if digits.isEmpty then (0, 0) else (-Int.ofNat (valueIn 10 digits), digits.length + 2)
  | '+' :: rest =>
    let digits := rest.takeWhile Char.isDigit
    if digits.isEmpty then (0, 0) else (valueIn 10 digits, digits.length + 2)
  | rest =>
    let digits := rest.takeWhile Char.isDigit
    if digits.isEmpty then (0, 0) else (valueIn 10 digits, digits.length + 1)

/-- Exponents beyond this are no longer told apart. -/
def exponentBound : Int := 20000

/-- `digits · base ^ exponent`, rounded. -/
def Binary.scaled (precision : Precision) (negative : Bool) (digits base : Nat) (exponent : Int) :
    Binary × Bool :=
  let exponent := max (-exponentBound) (min exponentBound exponent)
  if 0 ≤ exponent then Binary.ofQuotient precision negative (digits * base.pow exponent.toNat) 1
  else Binary.ofQuotient precision negative digits (base.pow (-exponent).toNat)

/-- Whether a text begins with a word, in letters of either size. -/
def beginsWith (word text : Text) : Bool := (text.take word.length).map Char.toLower = word

/-- Reads a number in front of a text, with a fraction and an exponent if there are any. -/
def BinaryReading.ofText (precision : Precision) (text : Text) : BinaryReading :=
  let blanks := text.takeWhile isSpaceOctet
  let rest := text.drop blanks.length
  let (negative, rest, taken) : Bool × Text × Nat := match rest with
    | '-' :: rest => (true, rest, blanks.length + 1)
    | '+' :: rest => (false, rest, blanks.length + 1)
    | rest => (false, rest, blanks.length)
  let isHex : Bool := beginsWith ['0', 'x'] rest &&
    match rest.drop 2 with
    | '.' :: c :: _ => (hexDigit? c).isSome
    | c :: _ => (hexDigit? c).isSome
    | [] => false
  if beginsWith "infinity".toList rest then ⟨.infinite negative, taken + 8, false⟩
  else if beginsWith "inf".toList rest then ⟨.infinite negative, taken + 3, false⟩
  else if beginsWith "nan".toList rest then ⟨.undefined negative, taken + 3, false⟩
  else
    let isDigit (c : Char) : Bool := if isHex then (hexDigit? c).isSome else c.isDigit
    let start := if isHex then rest.drop 2 else rest
    let whole := start.takeWhile isDigit
    let behind := start.drop whole.length
    let fraction := match behind with
      | '.' :: more => more.takeWhile isDigit
      | _ => []
    if whole.isEmpty && fraction.isEmpty then ⟨.finite false 0 0, 0, false⟩
    else
      let point := match behind with
        | '.' :: _ => 1
        | _ => 0
      let behind := behind.drop (point + fraction.length)
      let (exponent, size) : Int × Nat := match behind with
        | c :: more =>
          if c.toLower = (if isHex then 'p' else 'e') then exponentOf more else (0, 0)
        | [] => (0, 0)
      let length := taken + (if isHex then 2 else 0) + whole.length + point + fraction.length + size
      let base := if isHex then 16 else 10
      let digits := valueIn base (whole ++ fraction)
      let (value, isOutOfRange) :=
        if isHex then
          Binary.scaled precision negative digits 2 (exponent - 4 * Int.ofNat fraction.length)
        else Binary.scaled precision negative digits 10 (exponent - Int.ofNat fraction.length)
      ⟨value, length, isOutOfRange⟩

end LineShell.Utility
