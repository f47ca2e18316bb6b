import LineShell.Text.GraphemeExtend
import LineShell.Text.Printable

/-! Text shown between double quotes so that every character can be seen: the usual short escapes,
and `\u{…}` with the number in hexadecimal for a character that cannot be shown or that would
melt into the one before it. A single quote stands for itself. -/

namespace LineShell

/-- One character as it is shown between double quotes. -/
def quotedChar (c : Char) : List Char :=
  if c = '\x00' then ['\\', '0']
  else if c = '\t' then ['\\', 't']
  else if c = '\n' then ['\\', 'n']
  else if c = '\r' then ['\\', 'r']
  else if c = '"' ∨ c = '\\' then ['\\', c]
  else if isGraphemeExtend c || !isPrintable c then
    ['\\', 'u', '\x7b'] ++ Nat.toDigits 16 c.toNat ++ ['\x7d']
  else [c]

def quoted (text : List Char) : List Char := '"' :: text.flatMap quotedChar ++ ['"']

end LineShell
