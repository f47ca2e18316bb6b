import LineShell.Script.Syntax

/-! Patterns, and what they match. A pattern is a list of characters, each of which stands for
itself or is special; among the special ones are the star, the question mark and what opens and
closes a set of characters. A set may hold single characters, ranges and named classes. -/

namespace LineShell.Script

/-- A character of a pattern. -/
structure Sign where
  char : Char
  isLiteral : Bool := false
  deriving Repr, DecidableEq

abbrev Pattern := List Sign

namespace Pattern

/-- The special character `c`. -/
def special (c : Char) : Sign := ⟨c, false⟩

/-- The pattern of a text in which every character is special that can be; a backslash takes that
from the character behind it. -/
def ofSigns : Pattern → Pattern
  | ⟨'\\', false⟩ :: sign :: rest => ⟨sign.char, true⟩ :: ofSigns rest
  | [⟨'\\', false⟩] => [⟨'\\', true⟩]
  | sign :: rest => sign :: ofSigns rest
  | [] => []

/-- The order of characters in ranges. -/
def rank (c : Char) : Int := if c.toNat < 128 then c.toNat else c.toNat - 256

/-- The named classes of characters. -/
def classes : List (String × (Char → Bool)) :=
  let isPrinted (c : Char) : Bool := ' ' ≤ c && c ≤ '~'
  let isBlank (c : Char) : Bool := c = ' ' || c = '\t'
  [("alnum", Char.isAlphanum), ("alpha", Char.isAlpha), ("blank", isBlank),
   ("cntrl", fun c => c.toNat < 32 || c.toNat = 127), ("digit", Char.isDigit),
   ("graph", fun c => isPrinted c && c ≠ ' '), ("lower", Char.isLower), ("print", isPrinted),
   ("punct", fun c => isPrinted c && c ≠ ' ' && !c.isAlphanum),
   ("space", fun c => c = ' ' || ('\t' ≤ c && c ≤ '\r')), ("upper", Char.isUpper),
   ("xdigit", fun c => c.isDigit || c.toLower ∈ ['a', 'b', 'c', 'd', 'e', 'f'])]

/-- The class that is named behind an opening bracket, and the pattern behind it. -/
def className? : Pattern → Option ((Char → Bool) × Pattern)
  | ⟨':', false⟩ :: rest => do
    let name := (rest.takeWhile fun sign => sign ≠ special ':').map (·.char)
    match rest.drop name.length with
    | ⟨':', false⟩ :: ⟨']', false⟩ :: behind =>
      let (_, has) ← classes.find? fun entry => entry.1.toList = name
      some (has, behind)
    | _ => none
  | _ => none

/-- Whether a set holds a character, and the pattern behind it. The first part of the set may be a
closing bracket; a set that is not closed is none. -/
def set? (c : Char) : (bound : Nat) → (isFirst found : Bool) → Pattern → Option (Bool × Pattern)
  | 0, _, _, _ => none
  | _, _, _, [] => none
  | bound + 1, isFirst, found, sign :: rest =>
    if sign = special ']' && !isFirst then some (found, rest)
    else match (if sign = special '[' then className? rest else none) with
      | some (has, behind) => set? c bound false (found || has c) behind
      | none =>
        match rest with
        | ⟨'-', false⟩ :: last :: behind =>
          if last = special ']' then set? c bound false (found || c = sign.char) rest
          else
            let isIn : Bool := rank sign.char ≤ rank c && rank c ≤ rank last.char
            set? c bound false (found || isIn) behind
        | rest => set? c bound false (found || c = sign.char) rest

/-- The text itself and everything that is left of it when something is taken off its front. -/
def endings : Text → List Text
  | [] => [[]]
  | c :: rest => (c :: rest) :: endings rest

/-- Whether a pattern matches a whole text. -/
def fits : (bound : Nat) → Pattern → Text → Bool
  | 0, _, _ => false
  | _, [], text => text.isEmpty
  | bound + 1, ⟨'*', false⟩ :: rest, text =>
    if rest.isEmpty then true else (endings text).any (fits bound rest ·)
  | bound + 1, ⟨'?', false⟩ :: rest, text => !text.isEmpty && fits bound rest text.tail
  | bound + 1, ⟨'[', false⟩ :: rest, text =>
    match text with
    | [] => false
    | c :: more =>
      let (isOther, parts) : Bool × Pattern := match rest with
        | ⟨'!', false⟩ :: parts => (true, parts)
        | parts => (false, parts)
      match set? c parts.length true false parts with
      | some (found, behind) => found ≠ isOther && fits bound behind more
      | none => c = '[' && fits bound rest more
  | bound + 1, sign :: rest, text =>
    match text with
    | [] => false
    | c :: more => c = sign.char && fits bound rest more

/-- Whether a pattern matches a text. -/
def doesMatch (pattern : Pattern) (text : Text) : Bool := fits (pattern.length + 1) pattern text

/-- The text less the shortest or longest part at its start that a pattern matches. -/
def cutStart (pattern : Pattern) (longest : Bool) (text : Text) : Text :=
  let lengths := List.range (text.length + 1)
  let lengths := if longest then lengths.reverse else lengths
  match lengths.find? fun n => pattern.doesMatch (text.take n) with
  | some n => text.drop n
  | none => text

/-- The text less the shortest or longest part at its end that a pattern matches. -/
def cutEnd (pattern : Pattern) (longest : Bool) (text : Text) : Text :=
  let lengths := List.range (text.length + 1)
  let lengths := if longest then lengths else lengths.reverse
  match lengths.find? fun n => pattern.doesMatch (text.drop n) with
  | some n => text.take n
  | none => text

/-- Whether a pattern has anything in it that may match more than one text. -/
def isOpen : Pattern → Bool
  | [] => false
  | sign :: rest =>
    sign = special '*' || sign = special '?' ||
      (sign = special '[' && hasEnd rest) || isOpen rest
where
  /-- A set that is opened is closed before the next slash, and not at once. -/
  hasEnd (rest : Pattern) : Bool :=
    let parts := if rest.head? = some (special '!') then rest.tail else rest
    let body := parts.takeWhile fun sign => sign.char ≠ '/'
    (body.drop 1).any (· = special ']')

end Pattern
end LineShell.Script
