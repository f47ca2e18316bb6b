import LineShell.Text

/-! Texts as bytes. Files, pipes and standard streams hold bytes; a text enters and leaves them
in UTF-8. Decoding is a fold over the bytes: a byte goes on with the character that has been begun,
or begins another one, and what has been begun and cannot go on is no character. -/

namespace LineShell

abbrev Bytes := List UInt8

/-- The bytes of a text in UTF-8. -/
def encode (text : Text) : Bytes := text.flatMap String.utf8EncodeChar

namespace Utf8

/-- A character that has been begun: its number so far, the least and the greatest byte that may
come next, and how many bytes have to come after that one. -/
structure Begun where
  number : Nat
  least : UInt8
  greatest : UInt8
  after : Nat
  deriving Repr, DecidableEq

/-- The characters so far, the latest first, with `none` for what is no character; and the one
that has been begun. -/
structure Decoder where
  characters : List (Option Char) := []
  begun : Option Begun := none

def Decoder.emit (d : Decoder) (c : Option Char) : Decoder := ⟨c :: d.characters, none⟩

/-- A byte at the beginning of a character. The bytes that may follow the first one are limited so
that every character has one form only, and that none is a surrogate or too large. -/
def Decoder.first (d : Decoder) (b : UInt8) : Decoder :=
  let begin (bits : UInt8) (least greatest : UInt8) (after : Nat) : Decoder :=
    { d with begun := some ⟨(b &&& bits).toNat, least, greatest, after⟩ }
  if b < 0x80 then d.emit (some (Char.ofNat b.toNat))
  else if 0xC2 ≤ b && b ≤ 0xDF then begin 0x1F 0x80 0xBF 0
  else if b = 0xE0 then begin 0x0F 0xA0 0xBF 1
  else if b = 0xED then begin 0x0F 0x80 0x9F 1
  else if 0xE1 ≤ b && b ≤ 0xEF then begin 0x0F 0x80 0xBF 1
  else if b = 0xF0 then begin 0x07 0x90 0xBF 2
  else if 0xF1 ≤ b && b ≤ 0xF3 then begin 0x07 0x80 0xBF 2
  else if b = 0xF4 then begin 0x07 0x80 0x8F 2
  else d.emit none

def Decoder.step (d : Decoder) (b : UInt8) : Decoder :=
  match d.begun with
  | none => d.first b
  | some c =>
    if c.least ≤ b && b ≤ c.greatest then
      let number := 64 * c.number + (b &&& 0x3F).toNat
      match c.after with
      | 0 => d.emit (some (Char.ofNat number))
      | after + 1 => { d with begun := some ⟨number, 0x80, 0xBF, after⟩ }
    else (d.emit none).first b

/-- The characters of some bytes, with `none` for every part that is no character. -/
def characters (bytes : Bytes) : List (Option Char) :=
  let d := bytes.foldl Decoder.step {}
  (if d.begun.isSome then none :: d.characters else d.characters).reverse

end Utf8

/-- The text with the given bytes, if they are well-formed UTF-8. -/
def decode? (bytes : Bytes) : Option Text := (Utf8.characters bytes).mapM id

/-- The text with the given bytes; U+FFFD stands for every part that is no character. -/
def decodeLossy (bytes : Bytes) : Text := (Utf8.characters bytes).map (·.getD '\uFFFD')

/-! ### Octets -/

/-- The characters that stand for some bytes, one for each. -/
def byteOctets (bytes : Bytes) : Text := bytes.map fun b => Char.ofNat b.toNat

/-- A text as the bytes of it are seen: one character for each byte. -/
def octets (text : Text) : Text := byteOctets (encode text)

/-- The bytes of a text that has one character for each byte. -/
def octetBytes (octets : Text) : Bytes := octets.map fun c => UInt8.ofNat c.toNat

/-- The text that is written with the given octets. -/
def ofOctets (octets : Text) : Text :=
  if octets.all fun c => c.toNat < 128 then octets else decodeLossy (octetBytes octets)

end LineShell
