import LineShell.Text

/-! Names of variables: an ASCII letter or underscore, then letters, digits and underscores. -/

namespace LineShell

def isNameStart (c : Char) : Bool := c = '_' || c.isAlpha

def isNameChar (c : Char) : Bool := isNameStart c || c.isDigit

def isIdentifier : Text → Bool
  | [] => false
  | c :: rest => isNameStart c && rest.all isNameChar

/-- The longest identifier at the front of a text; empty when there is none. -/
def leadingIdentifier : Text → Text
  | [] => []
  | c :: rest => if isNameStart c then c :: rest.takeWhile isNameChar else []

theorem leadingIdentifier_eq_nil_or (text : Text) :
    leadingIdentifier text = [] ∨ isIdentifier (leadingIdentifier text) = true := by
  cases text with
  | nil => exact .inl rfl
  | cons c rest =>
    by_cases h : isNameStart c = true
    · refine .inr ?_
      have hall : (rest.takeWhile isNameChar).all isNameChar = true := by simp
      simp [leadingIdentifier, isIdentifier, h, hall]
    · exact .inl (by simp [leadingIdentifier, h])

/-- The name before the first `=` and the value after it, when that name is an identifier. -/
def assignment? (word : Text) : Option (Text × Text) :=
  (cut? '=' word).filter fun (name, _) => isIdentifier name

end LineShell
