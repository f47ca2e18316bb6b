import LineShell.Text

/-! Decimal numerals. Reading takes an optional sign and then ASCII digits only, and refuses a
value that does not fit: a status fits 32 signed bits, a count fits 64 bits. -/

namespace LineShell

/-- The sum of some counts. -/
def sumOf (counts : List Nat) : Nat := counts.foldr (· + ·) 0

/-- The decimal digits of a number. -/
def decimal (n : Nat) : Text := Nat.toDigits 10 n

def decimalInt (n : Int) : Text :=
  if n < 0 then '-' :: decimal n.natAbs else decimal n.natAbs

def digit? (c : Char) : Option Nat :=
  if '0' ≤ c ∧ c ≤ '9' then some (c.toNat - '0'.toNat) else none

/-- The value of a nonempty run of digits. -/
def digits? (text : Text) : Option Nat :=
  if text.isEmpty then none
  else text.foldlM (fun value c => (digit? c).map (10 * value + ·)) 0

/-- A signed number of 32 bits, with an optional sign. -/
def int32? (text : Text) : Option Int :=
  let value : Option Int := match text with
    | '+' :: digits => (digits? digits).map Int.ofNat
    | '-' :: digits => (digits? digits).map fun n => -Int.ofNat n
    | digits => (digits? digits).map Int.ofNat
  value.filter fun n => -Int.pow 2 31 ≤ n ∧ n < Int.pow 2 31

/-- An unsigned number of 64 bits, with an optional plus sign. -/
def word64? (text : Text) : Option Nat :=
  let value := match text with
    | '+' :: digits => digits? digits
    | digits => digits? digits
  value.filter (· < Nat.pow 2 64)

end LineShell
