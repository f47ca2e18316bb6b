import LineShell.Utility.Number

/-! How a number or a text is written at a width: the conversions of formats. A number with a
fraction is written exactly, and rounded to the digits that are asked for, a half to the even
digit. -/

namespace LineShell.Utility

/-- Flags, width and precision of a conversion. -/
structure Shape where
  left : Bool := false
  zero : Bool := false
  plus : Bool := false
  blank : Bool := false
  alternative : Bool := false
  width : Nat := 0
  precision : Option Nat := none
  deriving Repr, DecidableEq

namespace Shape

/-- The shape with a flag. -/
def withFlag (shape : Shape) : Char → Shape
  | '-' => { shape with left := true }
  | '0' => { shape with zero := true }
  | '+' => { shape with plus := true }
  | ' ' => { shape with blank := true }
  | '#' => { shape with alternative := true }
  | _ => shape

/-- The shape with a width; a negative one asks for blanks on the right. -/
def withWidth (shape : Shape) (width : Int) : Shape :=
  if width < 0 then { shape with left := true, width := width.natAbs }
  else { shape with width := width.toNat }

/-- A text at its width. -/
def pad (shape : Shape) (text : Text) : Text :=
  if shape.left then padRight shape.width text else padLeft shape.width text

/-- A text cut to the precision, at its width. -/
def ofText (shape : Shape) (text : Text) : Text :=
  shape.pad (match shape.precision with
    | some n => text.take n
    | none => text)

/-- A sign or a mark of the base, and digits behind it, at their width. -/
def withFront (shape : Shape) (front digits : Text) (fills : Bool) : Text :=
  if fills && shape.zero && !shape.left then
    front ++ List.replicate (shape.width - front.length - digits.length) '0' ++ digits
  else shape.pad (front ++ digits)

def sign (shape : Shape) (negative : Bool) : Text :=
  if negative then ['-'] else if shape.plus then ['+'] else if shape.blank then [' '] else []

/-- Digits with as many zeros in front as the precision asks for; nothing for a zero without any
digits. -/
def digits (shape : Shape) (base n : Nat) : Text :=
  let text := if n = 0 && shape.precision = some 0 then [] else Nat.toDigits base n
  match shape.precision with
  | some p => List.replicate (p - text.length) '0' ++ text
  | none => text

def signed (shape : Shape) (n : Int) : Text :=
  shape.withFront (shape.sign (decide (n < 0))) (shape.digits 10 n.natAbs) shape.precision.isNone

/-- A number without a sign, by the letter of its conversion. -/
def unsigned (shape : Shape) (letter : Char) (n : Nat) : Text :=
  match letter with
  | 'o' =>
    let digits := shape.digits 8 n
    let digits := if shape.alternative && digits.head? ≠ some '0' then '0' :: digits else digits
    shape.withFront [] digits shape.precision.isNone
  | 'x' =>
    shape.withFront (if shape.alternative && n ≠ 0 then ['0', 'x'] else []) (shape.digits 16 n)
      shape.precision.isNone
  | 'X' =>
    shape.withFront (if shape.alternative && n ≠ 0 then ['0', 'X'] else [])
      ((shape.digits 16 n).map Char.toUpper) shape.precision.isNone
  | _ => shape.withFront [] (shape.digits 10 n) shape.precision.isNone

/-! ### Numbers with a fraction -/

/-- `mantissa · 2 ^ exponent · 10 ^ places`, rounded to a whole number. -/
def scaled (mantissa : Nat) (exponent places : Int) : Nat :=
  let num := mantissa * (if 0 ≤ exponent then Nat.pow 2 exponent.toNat else 1) *
    (if 0 ≤ places then Nat.pow 10 places.toNat else 1)
  let den := (if 0 ≤ exponent then 1 else Nat.pow 2 (-exponent).toNat) *
    (if 0 ≤ places then 1 else Nat.pow 10 (-places).toNat)
  roundQuotient num den

/-- Digits with a point before the last `places` of them. -/
def pointed (alternative : Bool) (places n : Nat) : Text :=
  let text := decimal n
  let text := List.replicate (places + 1 - text.length) '0' ++ text
  let whole := text.take (text.length - places)
  if places = 0 then whole ++ (if alternative then ['.'] else [])
  else whole ++ '.' :: text.drop (text.length - places)

/-- The digits of a number in front of its power of ten, `count` of them, and that power. -/
def leadingDigits (count mantissa : Nat) (exponent : Int) : Nat × Int :=
  if mantissa = 0 then (0, 0)
  else
    -- A first guess at the power of ten, which is at most one too small.
    let bits : Int := Int.ofNat mantissa.log2 + exponent
    let guess : Int := (bits * 30103).fdiv 100000 - 1
    let isTooSmall (power : Int) : Bool :=
      let digits := scaled mantissa exponent (Int.ofNat count - 1 - power)
      Nat.pow 10 count ≤ digits
    let power := if isTooSmall guess then guess + 1 else guess
    let power := if isTooSmall power then power + 1 else power
    let power := if isTooSmall power then power + 1 else power
    (scaled mantissa exponent (Int.ofNat count - 1 - power), power)

/-- A power of ten, with a sign and two digits at least. -/
def powerText (letter : Char) (power : Int) : Text :=
  let digits := decimal power.natAbs
  letter :: (if power < 0 then '-' else '+') ::
    (List.replicate (2 - digits.length) '0' ++ digits)

/-- One digit before the point, `places` behind it, and a power of ten. -/
def scientific (alternative : Bool) (letter : Char) (places mantissa : Nat) (exponent : Int) :
    Text :=
  let (digits, power) := leadingDigits (places + 1) mantissa exponent
  pointed alternative places digits ++ powerText letter power

/-- A text without the zeros, and then the point, at its end. -/
def stripZeros (text : Text) : Text :=
  if '.' ∈ text then
    let stripped := (text.reverse.dropWhile (· = '0')).reverse
    dropTrailing '.' stripped
  else text

/-- Either form, whichever suits the size of the number. -/
def general (alternative : Bool) (letter : Char) (precision mantissa : Nat) (exponent : Int) :
    Text :=
  let precision := max precision 1
  let (digits, power) := leadingDigits precision mantissa exponent
  if power < -4 ∨ Int.ofNat precision ≤ power then
    let text := pointed alternative (precision - 1) digits
    (if alternative then text else stripZeros text) ++ powerText letter power
  else
    let places := (Int.ofNat precision - 1 - power).toNat
    let text := pointed alternative places (scaled mantissa exponent places)
    if alternative then text else stripZeros text

/-- A number in base sixteen with a power of two; a mantissa of `bits` bits has one digit before
the point. -/
def hexadecimal (alternative : Bool) (bits : Nat) (precision : Option Nat) (mantissa : Nat)
    (exponent : Int) : Text :=
  let places := (bits - 1) / 4
  -- The bits in front of the point.
  let front := bits - 4 * places
  let (mantissa, exponent) : Nat × Int :=
    if mantissa = 0 then (0, -(4 * Int.ofNat places))
    else
      let shift := bits - 1 - mantissa.log2
      (mantissa * Nat.pow 2 shift, exponent - Int.ofNat shift)
  let power := exponent + 4 * Int.ofNat places
  let (mantissa, places) : Nat × Nat := match precision with
    | some p =>
      if p < places then (roundQuotient mantissa (Nat.pow 16 (places - p)), p)
      else (mantissa * Nat.pow 16 (p - places), p)
    | none => (mantissa, places)
  let (mantissa, power) : Nat × Int :=
    if Nat.pow 2 (front + 4 * places) ≤ mantissa ∧ front = 4 then (mantissa / 16, power + 4)
    else (mantissa, power)
  let text := Nat.toDigits 16 mantissa
  let text := List.replicate (places + 1 - text.length) '0' ++ text
  let whole := text.take (text.length - places)
  let fraction := text.drop (text.length - places)
  let fraction := if precision.isNone then (fraction.reverse.dropWhile (· = '0')).reverse
    else fraction
  let power := if mantissa = 0 then 0 else power
  whole ++ (if fraction.isEmpty && !alternative then [] else '.' :: fraction) ++
    'p' :: (if power < 0 then '-' else '+') :: decimal power.natAbs

/-- A number by the letter of its conversion. -/
def ofBinary (shape : Shape) (bits : Nat) (letter : Char) (n : Binary) : Text :=
  let isUpper : Bool := letter.isUpper
  let sized (text : Text) : Text := if isUpper then text.map Char.toUpper else text
  match n with
  | .infinite negative => shape.withFront (shape.sign negative) (sized "inf".toList) false
  | .undefined negative => shape.withFront (shape.sign negative) (sized "nan".toList) false
  | .finite negative mantissa exponent =>
    let precision := shape.precision.getD 6
    let front := shape.sign negative
    match letter.toLower with
    | 'f' =>
      shape.withFront front (pointed shape.alternative precision (scaled mantissa exponent precision))
        true
    | 'e' =>
      shape.withFront front (sized (scientific shape.alternative 'e' precision mantissa exponent)) true
    | 'g' =>
      shape.withFront front (sized (general shape.alternative 'e' precision mantissa exponent)) true
    | _ =>
      shape.withFront (front ++ sized ['0', 'x'])
        (sized (hexadecimal shape.alternative bits shape.precision mantissa exponent)) true

end Shape
end LineShell.Utility
