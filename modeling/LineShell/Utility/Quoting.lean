import LineShell.Text.Utf8

/-! Names of files as the programs of the machine show them in messages: bare where a shell would
read the name as one word, else between quotes. Names are given as octets. A byte that is no printable ASCII character is
shown in octal, in a part of its own between `$'` and `'`. -/

namespace LineShell.Utility.Quoting

def isPrintableByte (b : UInt8) : Bool := 32 ≤ b && b < 127

/-- Characters that a shell reads specially wherever they stand. -/
def special : List Char :=
  [' ', '!', '"', '$', '&', '\'', '(', ')', '*', ';', '<', '=', '>', '?', '[', '\\', '^', '\x60', '|']

/-- Characters that a shell reads specially also between double quotes, or that do not stand for
themselves there. -/
def unfitForDouble : List Char :=
  ['!', '"', '$', '&', '(', ')', '*', ';', '<', '=', '>', '?', '[', '\\', '^', '\x60', '|']

def isOneOf (chars : List Char) (b : UInt8) : Bool := chars.any fun c => c.toNat = b.toNat

/-- Whether a name can be shown bare. -/
def isBare (name : Bytes) : Bool :=
  match name with
  | [] => false
  | first :: rest =>
    !isOneOf ['#', '~'] first && !(rest.isEmpty && isOneOf ['\x7b', '\x7d'] first) &&
      name.all fun b => isPrintableByte b && !isOneOf (':' :: special) b

def octal (b : UInt8) : Text :=
  let digit (n : Nat) : Char := Char.ofNat ('0'.toNat + n)
  ['\\', digit (b.toNat / 64), digit (b.toNat / 8 % 8), digit (b.toNat % 8)]

/-- The short name of a control character behind a backslash. -/
def control? (b : UInt8) : Option Char :=
  [(7, 'a'), (8, 'b'), (9, 't'), (10, 'n'), (11, 'v'), (12, 'f'), (13, 'r')].lookup b.toNat

/-- One byte between single quotes, and whether a part in octal is open after it. -/
def step (state : Text × Bool) (b : UInt8) : Text × Bool :=
  let (text, isOpen) := state
  let opened := if isOpen then text else text ++ ['\'', '$', '\'']
  match control? b with
  | some c => (opened ++ ['\\', c], true)
  | none =>
    if !isPrintableByte b then (opened ++ octal b, true)
    else
      let closed := if isOpen then text ++ ['\'', '\''] else text
      let c := Char.ofNat b.toNat
      (closed ++ (if c = '\'' then ['\'', '\\', '\'', '\''] else [c]), false)

/-- A name between quotes: double ones if it holds a single quote and nothing that double quotes
would not keep, else single ones. -/
def enclosed (name : Bytes) : Text :=
  if name.any (isOneOf ['\'']) then
    if name.all fun b => isPrintableByte b && !isOneOf unfitForDouble b then
      '"' :: name.map (fun b => Char.ofNat b.toNat) ++ ['"']
    else '\'' :: (name.foldl step ([], false)).1 ++ ['\'']
  else '\'' :: (name.foldl step ([], false)).1 ++ ['\'']

end Quoting

/-- A name as it is shown in front of a reason. -/
def shown (name : Text) : Text :=
  if Quoting.isBare (octetBytes name) then name else Quoting.enclosed (octetBytes name)

/-- A text that was not understood, as it is shown: with a backslash before a backslash or a single
quote. -/
def shownText (text : Text) : Text :=
  let step (b : UInt8) : Text :=
    match Quoting.control? b with
    | some c => ['\\', c]
    | none =>
      if !Quoting.isPrintableByte b then Quoting.octal b
      else if b = 39 || b = 92 then ['\\', Char.ofNat b.toNat]
      else [Char.ofNat b.toNat]
  '\'' :: (octetBytes text).flatMap step ++ ['\'']

/-- A name as it is shown inside a sentence. -/
def shownQuoted (name : Text) : Text := Quoting.enclosed (octetBytes name)

end LineShell.Utility
