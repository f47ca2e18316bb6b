/-! Text as the shell sees it: a list of characters. A line, a word, a path and a message are
all texts, so that statements about them go by induction on a list. The module holds the cuts
and joins that several layers share; `join_pieces` says that cutting loses nothing. -/

namespace LineShell

abbrev Text := List Char

/-- Everything up to the first `c`, and everything after it. -/
def cut? (c : Char) : Text → Option (Text × Text)
  | [] => none
  | x :: rest =>
    if x = c then some ([], rest)
    else (cut? c rest).map fun (before, after) => (x :: before, after)

theorem cut?_eq_some {c : Char} {text before after : Text} (h : cut? c text = some (before, after)) :
    text = before ++ c :: after ∧ c ∉ before := by
  induction text generalizing before with
  | nil => simp [cut?] at h
  | cons x rest ih =>
    by_cases hx : x = c
    · simp only [cut?, hx, if_true, Option.some.injEq, Prod.mk.injEq] at h
      obtain ⟨rfl, rfl⟩ := h
      simp [hx]
    · simp only [cut?, hx, if_false, Option.map_eq_some_iff, Prod.mk.injEq] at h
      obtain ⟨⟨front, back⟩, hcut, rfl, rfl⟩ := h
      obtain ⟨rfl, hfront⟩ := ih hcut
      exact ⟨rfl, by simp [hfront, Ne.symm hx]⟩

theorem cut?_eq_none {c : Char} {text : Text} : cut? c text = none ↔ c ∉ text := by
  induction text with
  | nil => simp [cut?]
  | cons x rest ih =>
    by_cases hx : x = c
    · simp [cut?, hx]
    · simp [cut?, hx, ih, Ne.symm hx]

/-- The pieces between the occurrences of `c`; there is one more piece than there are `c`s. -/
def pieces (c : Char) : Text → List Text
  | [] => [[]]
  | x :: rest =>
    if x = c then [] :: pieces c rest
    else match pieces c rest with
      | [] => [[x]]
      | piece :: more => (x :: piece) :: more

/-- The texts with one `c` between each two. -/
def join (c : Char) : List Text → Text
  | [] => []
  | [piece] => piece
  | piece :: next :: more => piece ++ c :: join c (next :: more)

theorem pieces_ne_nil (c : Char) (text : Text) : pieces c text ≠ [] := by
  cases text with
  | nil => simp [pieces]
  | cons x rest => unfold pieces; split <;> (try split) <;> simp

theorem join_pieces (c : Char) (text : Text) : join c (pieces c text) = text := by
  induction text with
  | nil => rfl
  | cons x rest ih =>
    have hne := pieces_ne_nil c rest
    unfold pieces
    split
    · next hx =>
      match hp : pieces c rest with
      | [] => exact absurd hp hne
      | piece :: more => rw [hp] at ih; simp [join, ih, hx]
    · match hp : pieces c rest with
      | [] => exact absurd hp hne
      | [piece] => rw [hp] at ih; simp_all [join]
      | piece :: next :: more => rw [hp] at ih; simp_all [join]

/-- The lines of a text: a line break ends a line, and one at the very end opens no further line. -/
def lines (text : Text) : List Text :=
  match (pieces '\n' text).reverse with
  | [] :: front => front.reverse
  | _ => pieces '\n' text

/-- The text with one trailing `c` less, if it has one. -/
def dropTrailing (c : Char) (text : Text) : Text :=
  if text.getLast? = some c then text.dropLast else text

/-- `text`, and blanks after it up to `width` characters. -/
def padRight (width : Nat) (text : Text) : Text :=
  text ++ List.replicate (width - text.length) ' '

/-- Blanks up to `width` characters, and `text` after them. -/
def padLeft (width : Nat) (text : Text) : Text :=
  List.replicate (width - text.length) ' ' ++ text

/-- The text before the first occurrence of `mark`, or all of it. -/
def before (mark : Text) : Text → Text
  | [] => []
  | c :: rest => if mark.isPrefixOf (c :: rest) then [] else c :: before mark rest

end LineShell
