import LineShell.Text

/-! Two notions of blank. Words of a line are separated by the five ASCII blanks only; whether a
line is worth keeping, and where a line of a file begins and ends, is decided by the Unicode
property White_Space. `isSpace_of_isSeparator` says that the first is part of the second. -/

namespace LineShell

/-- Space, tab, line feed, form feed, carriage return. -/
def isSeparator (c : Char) : Bool :=
  c = ' ' || c = '\t' || c = '\n' || c = '\x0c' || c = '\r'

/-- The characters with the Unicode property White_Space. -/
def isSpace (c : Char) : Bool :=
  let n := c.toNat
  (9 ≤ n && n ≤ 13) || n = 0x20 || n = 0x85 || n = 0xA0 || n = 0x1680 ||
    (0x2000 ≤ n && n ≤ 0x200A) || n = 0x2028 || n = 0x2029 || n = 0x202F || n = 0x205F ||
    n = 0x3000

theorem isSpace_of_isSeparator {c : Char} (h : isSeparator c = true) : isSpace c = true := by
  simp only [isSeparator, Bool.or_eq_true, decide_eq_true_eq] at h
  rcases h with (((rfl | rfl) | rfl) | rfl) | rfl <;> decide

/-- Nothing but white space. -/
def isBlank (text : Text) : Bool := text.all isSpace

/-- The text without the white space at both ends. -/
def trim (text : Text) : Text :=
  ((text.dropWhile isSpace).reverse.dropWhile isSpace).reverse

theorem trim_eq_nil_iff (text : Text) : trim text = [] ↔ isBlank text = true := by
  have drop_nil : ∀ l : Text, l.dropWhile isSpace = [] ↔ l.all isSpace = true := by
    intro l
    induction l with
    | nil => simp
    | cons c rest ih => by_cases h : isSpace c = true <;> simp [h, ih]
  have kept : ∀ l : Text, (l.dropWhile isSpace).all isSpace = l.all isSpace := by
    intro l
    induction l with
    | nil => simp
    | cons c rest ih => by_cases h : isSpace c = true <;> simp [h, ih]
  simp only [trim, List.reverse_eq_nil_iff, drop_nil, List.all_reverse, kept, isBlank]

end LineShell
