import LineShell.LineError
import LineShell.Text.Blank

/-! The words of a line. Blanks separate words; `'…'` keeps all it holds, `"…"` keeps all but a
backslash before `"` or `\`, and outside quotes a backslash takes the next character as it is.
A word keeps whether any of it was quoted, because a quoted operator is an ordinary word.

Reading is a fold over the characters: a line can be wrong only in the way it ends, and `finish`
tells how from the mode in which the fold stopped. -/

namespace LineShell

structure Token where
  text : Text
  quoted : Bool
  deriving Repr, DecidableEq

/-- The bare word `operator`. -/
def Token.isOperator (token : Token) (operator : Text) : Bool :=
  !token.quoted && token.text = operator

namespace Token

/-- Where a reader stands: outside quotes, behind a backslash there, inside `'…'`, inside `"…"`,
or behind a backslash inside `"…"`. -/
inductive Mode
  | bare
  | escape
  | single
  | double
  | doubleEscape
  deriving Repr, DecidableEq

/-- A reader holds the finished words and the letters of the open one, each the latest first. -/
structure Reader where
  words : List Token
  letters : Option (Text × Bool)
  mode : Mode
  deriving Repr, DecidableEq

namespace Reader

def start : Reader := ⟨[], none, .bare⟩

/-- A letter that stands for itself. -/
def plain (r : Reader) (c : Char) : Reader :=
  match r.letters with
  | none => { r with letters := some ([c], false) }
  | some (letters, quoted) => { r with letters := some (c :: letters, quoted) }

/-- The open word, which is quoted from here on; it may still be empty. -/
def quote (r : Reader) : Reader :=
  match r.letters with
  | none => { r with letters := some ([], true) }
  | some (letters, _) => { r with letters := some (letters, true) }

/-- The end of the open word, if there is one. -/
def close (r : Reader) : Reader :=
  match r.letters with
  | none => r
  | some (letters, quoted) => { r with words := ⟨letters.reverse, quoted⟩ :: r.words, letters := none }

def step (r : Reader) (c : Char) : Reader :=
  match r.mode with
  | .bare =>
    if c = '\'' then { r.quote with mode := .single }
    else if c = '"' then { r.quote with mode := .double }
    else if c = '\\' then { r with mode := .escape }
    else if isSeparator c then r.close
    else r.plain c
  | .escape => { r.quote.plain c with mode := .bare }
  | .single => if c = '\'' then { r with mode := .bare } else r.plain c
  | .double =>
    if c = '"' then { r with mode := .bare }
    else if c = '\\' then { r with mode := .doubleEscape }
    else r.plain c
  | .doubleEscape =>
    if c = '"' ∨ c = '\\' then { r.plain c with mode := .double }
    else { (r.plain '\\').plain c with mode := .double }

def finish (r : Reader) : Except LineError (List Token) :=
  match r.mode with
  | .bare => .ok r.close.words.reverse
  | .escape => .error .trailingEscape
  | .single => .error (.unterminatedQuote .single)
  | .double | .doubleEscape => .error (.unterminatedQuote .double)

end Reader
end Token

def tokenize (line : Text) : Except LineError (List Token) :=
  (line.foldl Token.Reader.step .start).finish

end LineShell
