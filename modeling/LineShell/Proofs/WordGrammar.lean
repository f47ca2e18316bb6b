import LineShell.Token
import Mathlib.Data.List.Induction

/-! The quoting grammar of a line, apart from the reader that recognizes it: a line is words
with blanks around them, a word is parts, and a part is a letter, an escaped character or a
quoted run. `exists_broken` is a fact of the grammar alone: every text is a complete line, perhaps
with one thing unfinished behind it. `tokenize_line` and `tokenize_unfinished` run the reader, and
`tokenize_iff_line_or_unfinished` puts them together. -/

namespace LineShell.WordGrammar
open Token

/-- A character that stands for itself outside quotes. -/
def isPlain (c : Char) : Bool := !isSeparator c && c ≠ '\'' && c ≠ '"' && c ≠ '\\'

/-- One step inside `"…"`; a backslash before any other character stays with it. -/
inductive Piece
  | mark
  | backslash
  | kept (c : Char) (other : c ≠ '"' ∧ c ≠ '\\')
  | char (c : Char) (other : c ≠ '"' ∧ c ≠ '\\')

namespace Piece

def source : Piece → Text
  | mark => ['\\', '"']
  | backslash => ['\\', '\\']
  | kept c _ => ['\\', c]
  | char c _ => [c]

def value : Piece → Text
  | mark => ['"']
  | backslash => ['\\']
  | kept c _ => ['\\', c]
  | char c _ => [c]

end Piece

inductive Part
  | plain (c : Char) (self : isPlain c = true)
  | escaped (c : Char)
  | single (body : Text) (free : '\'' ∉ body)
  | double (body : List Piece)

namespace Part

def source : Part → Text
  | plain c _ => [c]
  | escaped c => ['\\', c]
  | single body _ => '\'' :: body ++ ['\'']
  | double body => '"' :: body.flatMap Piece.source ++ ['"']

def value : Part → Text
  | plain c _ => [c]
  | escaped c => [c]
  | single body _ => body
  | double body => body.flatMap Piece.value

def isQuoted : Part → Bool
  | plain _ _ => false
  | _ => true

end Part

structure Word where
  parts : List Part
  nonempty : parts ≠ []

namespace Word

def source (w : Word) : Text := w.parts.flatMap Part.source

def token (w : Word) : Token := ⟨w.parts.flatMap Part.value, w.parts.any Part.isQuoted⟩

def snoc (w : Word) (p : Part) : Word := ⟨w.parts ++ [p], by simp⟩

end Word

/-- A run of blanks, which may be empty. -/
abbrev Gap := { text : Text // text.all isSeparator = true }

abbrev noGap : Gap := ⟨[], rfl⟩

/-- Words, each with the gap before it, do not touch: only the first gap may be empty. -/
def Apart (words : List (Gap × Word)) : Prop := ∀ entry ∈ words.tail, entry.1.val ≠ []

/-- A complete line: its words with the gaps before them, and the gap behind the last one. -/
structure Line where
  words : List (Gap × Word)
  last : Gap
  apart : Apart words

namespace Line

def source (l : Line) : Text :=
  l.words.flatMap (fun entry => entry.1.val ++ entry.2.source) ++ l.last.val

def tokens (l : Line) : List Token := l.words.map fun entry => entry.2.token

end Line

/-- What stands behind a complete line when the line breaks off. -/
inductive Unfinished
  | single (body : Text) (free : '\'' ∉ body)
  /-- With `cut` the line breaks off right behind a backslash. -/
  | double (body : List Piece) (cut : Bool)
  | escape

namespace Unfinished

def source : Unfinished → Text
  | single body _ => '\'' :: body
  | double body cut => '"' :: body.flatMap Piece.source ++ if cut then ['\\'] else []
  | escape => ['\\']

def error : Unfinished → LineError
  | single _ _ => .unterminatedQuote .single
  | double _ _ => .unterminatedQuote .double
  | escape => .trailingEscape

end Unfinished

/-! Every text is a complete line or one that breaks off. -/

theorem Apart.snoc {words : List (Gap × Word)} (h : Apart words) (gap : Gap) (word : Word)
    (first : words = [] ∨ gap.val ≠ []) : Apart (words ++ [(gap, word)]) := by
  cases words with
  | nil => simp [Apart]
  | cons head more =>
    intro entry hm
    rw [List.cons_append, List.tail_cons, List.mem_append, List.mem_singleton] at hm
    rcases hm with hm | rfl
    · exact h entry hm
    · exact first.resolve_left (List.cons_ne_nil head more)

theorem Apart.dropLast {words : List (Gap × Word)} (h : Apart words) : Apart words.dropLast := by
  intro entry hm
  rw [List.tail_dropLast] at hm
  exact h entry (List.dropLast_subset _ hm)

theorem Apart.last {front : List (Gap × Word)} {gap : Gap} {word : Word}
    (h : Apart (front ++ [(gap, word)])) : front = [] ∨ gap.val ≠ [] := by
  cases front with
  | nil => exact .inl rfl
  | cons head more => exact .inr (h (gap, word) (by simp))

namespace Line

def empty : Line := ⟨[], noGap, by simp [Apart]⟩

/-- A part behind the line: it goes to the last word unless a gap stands between. -/
def push (l : Line) (p : Part) : Line :=
  match hw : l.words.getLast? with
  | none => ⟨[(l.last, ⟨[p], by simp⟩)], noGap, by simp [Apart]⟩
  | some (gap, word) =>
    if hl : l.last.val = [] then
      ⟨l.words.dropLast ++ [(gap, word.snoc p)], noGap, l.apart.dropLast.snoc gap _ (by
        obtain ⟨front, hf⟩ := List.getLast?_eq_some_iff.mp hw
        have apart := l.apart
        rw [hf] at apart ⊢
        rw [List.dropLast_concat]
        exact apart.last)⟩
    else
      ⟨l.words ++ [(l.last, ⟨[p], by simp⟩)], noGap, l.apart.snoc l.last _ (.inr hl)⟩

theorem source_push (l : Line) (p : Part) : (l.push p).source = l.source ++ p.source := by
  unfold push
  split
  · next hw =>
    rw [List.getLast?_eq_none_iff] at hw
    simp [source, hw, Word.source]
  · next gap word hw =>
    obtain ⟨front, hf⟩ := List.getLast?_eq_some_iff.mp hw
    split
    · next hl => simp [source, hf, hl, Word.source, Word.snoc]
    · simp [source, Word.source]

/-- A blank behind the line. -/
def space (l : Line) (c : Char) (blank : isSeparator c = true) : Line :=
  ⟨l.words, ⟨l.last.val ++ [c], by simpa [blank] using l.last.property⟩, l.apart⟩

theorem source_space (l : Line) (c : Char) (blank : isSeparator c = true) :
    (l.space c blank).source = l.source ++ [c] := by
  simp [source, space]

end Line

/-- The text of a complete line, and of what stands unfinished behind it if anything does. -/
def broken (l : Line) (rest : Option Unfinished) : Text :=
  l.source ++ (rest.map Unfinished.source).getD []

theorem broken_none (l : Line) : broken l none = l.source := by simp [broken]

theorem broken_some (l : Line) (u : Unfinished) : broken l (some u) = l.source ++ u.source := rfl

theorem exists_broken_snoc (l : Line) (rest : Option Unfinished) (c : Char) :
    ∃ l' rest', broken l rest ++ [c] = broken l' rest' := by
  match rest with
  | none =>
    by_cases hs : c = '\''
    · exact ⟨l, some (.single [] (by simp)), by simp [broken, Unfinished.source, hs]⟩
    by_cases hd : c = '"'
    · exact ⟨l, some (.double [] false), by simp [broken, Unfinished.source, hd]⟩
    by_cases he : c = '\\'
    · exact ⟨l, some .escape, by simp [broken, Unfinished.source, he]⟩
    by_cases hb : isSeparator c = true
    · exact ⟨l.space c hb, none, by simp [broken, Line.source_space]⟩
    · have self : isPlain c = true := by simp [isPlain, hs, hd, he, hb]
      exact ⟨l.push (.plain c self), none, by simp [broken, Line.source_push, Part.source]⟩
  | some (.single body free) =>
    by_cases hs : c = '\''
    · exact ⟨l.push (.single body free), none, by
        simp [broken, Line.source_push, Part.source, Unfinished.source, hs]⟩
    · exact ⟨l, some (.single (body ++ [c]) (by simp [free, Ne.symm hs])), by
        simp [broken, Unfinished.source]⟩
  | some (.double body false) =>
    by_cases hd : c = '"'
    · exact ⟨l.push (.double body), none, by
        simp [broken, Line.source_push, Part.source, Unfinished.source, hd]⟩
    by_cases he : c = '\\'
    · exact ⟨l, some (.double body true), by simp [broken, Unfinished.source, he]⟩
    · exact ⟨l, some (.double (body ++ [.char c ⟨hd, he⟩]) false), by
        simp [broken, Unfinished.source, Piece.source]⟩
  | some (.double body true) =>
    by_cases hd : c = '"'
    · exact ⟨l, some (.double (body ++ [.mark]) false), by
        simp [broken, Unfinished.source, Piece.source, hd]⟩
    by_cases he : c = '\\'
    · exact ⟨l, some (.double (body ++ [.backslash]) false), by
        simp [broken, Unfinished.source, Piece.source, he]⟩
    · exact ⟨l, some (.double (body ++ [.kept c ⟨hd, he⟩]) false), by
        simp [broken, Unfinished.source, Piece.source]⟩
  | some .escape =>
    exact ⟨l.push (.escaped c), none, by
      simp [broken, Line.source_push, Part.source, Unfinished.source]⟩

theorem exists_broken (line : Text) : ∃ l rest, line = broken l rest := by
  -- From the front, since what a character means depends on what stands before it.
  induction line using List.reverseRecOn with
  | nil => exact ⟨.empty, none, rfl⟩
  | append_singleton front c ih =>
    obtain ⟨l, rest, rfl⟩ := ih
    exact exists_broken_snoc l rest c

/-! Reading a text that the grammar describes. -/

/-- A reader outside quotes whose open word is `t`. -/
def holding (words : List Token) (t : Token) : Reader :=
  ⟨words, some (t.text.reverse, t.quoted), .bare⟩

/-- A token with a part behind it. -/
def extend (t : Token) (p : Part) : Token := ⟨t.text ++ p.value, t.quoted || p.isQuoted⟩

theorem foldl_single (words : List Token) (text : Text) (quoted : Bool) {body : Text}
    (free : '\'' ∉ body) :
    body.foldl Reader.step ⟨words, some (text, quoted), .single⟩ =
      ⟨words, some (body.reverse ++ text, quoted), .single⟩ := by
  induction body generalizing text with
  | nil => rfl
  | cons c rest ih =>
    simp only [List.mem_cons, not_or] at free
    rw [List.foldl_cons]
    simp only [Reader.step, Ne.symm free.1, if_false, Reader.plain]
    rw [ih _ free.2]
    simp

theorem foldl_piece (words : List Token) (text : Text) (quoted : Bool) (p : Piece) :
    p.source.foldl Reader.step ⟨words, some (text, quoted), .double⟩ =
      ⟨words, some (p.value.reverse ++ text, quoted), .double⟩ := by
  cases p with
  | mark => rfl
  | backslash => rfl
  | kept c other => simp [Piece.source, Piece.value, Reader.step, Reader.plain, other]
  | char c other => simp [Piece.source, Piece.value, Reader.step, Reader.plain, other]

theorem foldl_pieces (words : List Token) (text : Text) (quoted : Bool) (body : List Piece) :
    (body.flatMap Piece.source).foldl Reader.step ⟨words, some (text, quoted), .double⟩ =
      ⟨words, some ((body.flatMap Piece.value).reverse ++ text, quoted), .double⟩ := by
  induction body generalizing text with
  | nil => rfl
  | cons p rest ih => simp [List.foldl_append, foldl_piece, ih]

theorem foldl_part (words : List Token) (t : Token) (p : Part) :
    p.source.foldl Reader.step (holding words t) = holding words (extend t p) := by
  cases p with
  | plain c self =>
    simp only [isPlain, Bool.and_eq_true, Bool.not_eq_true', decide_eq_true_eq] at self
    obtain ⟨⟨⟨blank, hs⟩, hd⟩, he⟩ := self
    simp [Part.source, Part.value, Part.isQuoted, holding, extend, Reader.step, Reader.plain,
      hs, hd, he, blank]
  | escaped c =>
    simp [Part.source, Part.value, Part.isQuoted, holding, extend, Reader.step, Reader.plain,
      Reader.quote]
  | single body free =>
    simp only [Part.source, List.cons_append, List.foldl_cons, List.foldl_append, List.foldl_nil]
    simp only [holding, Reader.step, Reader.quote, if_true, foldl_single _ _ _ free]
    simp [extend, Part.value, Part.isQuoted]
  | double body =>
    simp only [Part.source, List.cons_append, List.foldl_cons, List.foldl_append, List.foldl_nil]
    have opened :
        Reader.step (holding words t) '"' = ⟨words, some (t.text.reverse, true), .double⟩ := rfl
    rw [opened, foldl_pieces]
    simp [holding, extend, Part.value, Part.isQuoted, Reader.step]

theorem foldl_parts (words : List Token) (t : Token) (parts : List Part) :
    (parts.flatMap Part.source).foldl Reader.step (holding words t) =
      holding words ⟨t.text ++ parts.flatMap Part.value, t.quoted || parts.any Part.isQuoted⟩ := by
  induction parts generalizing t with
  | nil => simp
  | cons p rest ih => simp [List.foldl_append, foldl_part, ih, extend, Bool.or_assoc]

/-- Opening a word is reading its first part as if an empty word stood open. -/
theorem foldl_first (words : List Token) (p : Part) :
    p.source.foldl Reader.step ⟨words, none, .bare⟩ =
      p.source.foldl Reader.step (holding words ⟨[], false⟩) := by
  cases p with
  | plain c self =>
    simp only [isPlain, Bool.and_eq_true, Bool.not_eq_true', decide_eq_true_eq] at self
    obtain ⟨⟨⟨blank, hs⟩, hd⟩, he⟩ := self
    simp [Part.source, holding, Reader.step, Reader.plain, hs, hd, he, blank]
  | escaped c => simp [Part.source, holding, Reader.step, Reader.plain, Reader.quote]
  | single body free => rfl
  | double body => rfl

theorem foldl_word (words : List Token) (w : Word) :
    w.source.foldl Reader.step ⟨words, none, .bare⟩ = holding words w.token := by
  match hw : w.parts with
  | [] => exact absurd hw w.nonempty
  | p :: rest =>
    simp only [Word.source, Word.token, hw, List.flatMap_cons, List.foldl_append, foldl_first,
      foldl_part, foldl_parts]
    simp [extend]

theorem close_close (r : Reader) : r.close.close = r.close := by
  obtain ⟨words, letters, mode⟩ := r
  cases letters <;> rfl

theorem close_mode (r : Reader) : r.close.mode = r.mode := by
  obtain ⟨words, letters, mode⟩ := r
  cases letters <;> rfl

theorem close_letters (r : Reader) : r.close.letters = none := by
  obtain ⟨words, letters, mode⟩ := r
  cases letters <;> rfl

theorem unmarked_of_space {c : Char} (space : isSpace c = true) :
    c ≠ '\'' ∧ c ≠ '"' ∧ c ≠ '\\' := by
  refine ⟨?_, ?_, ?_⟩ <;>
  · rintro rfl
    exact absurd space (by decide)

theorem foldl_gap {r : Reader} (bare : r.mode = .bare) (gap : Gap) :
    gap.val.foldl Reader.step r = if gap.val = [] then r else r.close := by
  obtain ⟨gap, blank⟩ := gap
  induction gap generalizing r with
  | nil => rfl
  | cons c rest ih =>
    simp only [List.all_cons, Bool.and_eq_true] at blank
    obtain ⟨hs, hd, he⟩ := unmarked_of_space (isSpace_of_isSeparator blank.1)
    have closed : r.step c = r.close := by simp [Reader.step, bare, hs, hd, he, blank.1]
    have rest_closed := ih (by rw [close_mode, bare]) blank.2
    simp only [List.foldl_cons, closed, rest_closed]
    simp [close_close]

theorem close_of_bare {r : Reader} (bare : r.mode = .bare) :
    r.close = ⟨r.close.words, none, .bare⟩ := by
  rw [← close_letters r, ← bare, ← close_mode r]

theorem foldl_entry {r : Reader} (bare : r.mode = .bare) (gap : Gap) (w : Word)
    (apart : r.letters = none ∨ gap.val ≠ []) :
    (gap.val ++ w.source).foldl Reader.step r = holding r.close.words w.token := by
  have closed : gap.val.foldl Reader.step r = r.close := by
    rw [foldl_gap bare]
    split
    · next empty =>
      have open_none := apart.resolve_right (fun h => h empty)
      simp [Reader.close, open_none]
    · rfl
  rw [List.foldl_append, closed, close_of_bare bare, foldl_word]

theorem foldl_words {words : List (Gap × Word)} {r : Reader} (bare : r.mode = .bare)
    (apart : Apart words) (first : r.letters = none ∨ ∀ entry ∈ words.head?, entry.1.val ≠ []) :
    let s := (words.flatMap fun entry => entry.1.val ++ entry.2.source).foldl Reader.step r
    s.mode = .bare ∧
      s.close.words = (words.map fun entry => entry.2.token).reverse ++ r.close.words := by
  induction words generalizing r with
  | nil => exact ⟨bare, rfl⟩
  | cons entry rest ih =>
    obtain ⟨gap, w⟩ := entry
    have read := foldl_entry bare gap w (first.imp_right fun h => h _ rfl)
    -- The reader stops inside `w`, so the word behind it needs the blank that `Apart` gives.
    have inner : Apart rest := fun entry hm => apart entry (List.mem_of_mem_tail hm)
    have next := ih (r := holding r.close.words w.token) rfl inner
      (.inr fun entry hm => apart entry (List.mem_of_mem_head? hm))
    rw [List.flatMap_cons, List.foldl_append, read]
    refine ⟨next.1, next.2.trans ?_⟩
    simp [holding, Reader.close]

theorem foldl_line (l : Line) :
    (l.source.foldl Reader.step .start).mode = .bare ∧
      (l.source.foldl Reader.step .start).close.words = l.tokens.reverse := by
  have words := foldl_words (r := .start) rfl l.apart (.inl rfl)
  rw [Line.source, List.foldl_append, foldl_gap words.1]
  split
  · exact ⟨words.1, by simpa [Reader.start, Reader.close, Line.tokens] using words.2⟩
  · rw [close_mode, close_close]
    exact ⟨words.1, by simpa [Reader.start, Reader.close, Line.tokens] using words.2⟩

theorem tokenize_line (l : Line) : tokenize l.source = .ok l.tokens := by
  obtain ⟨bare, words⟩ := foldl_line l
  rw [tokenize, Reader.finish, bare]
  simp [words]

/-- Only the mode a reader stops in matters to a line that breaks off. -/
theorem finish_unfinished {r : Reader} (bare : r.mode = .bare) (u : Unfinished) :
    (u.source.foldl Reader.step r).finish = .error u.error := by
  obtain ⟨words, letters, mode⟩ := r
  obtain rfl : mode = .bare := bare
  cases u with
  | single body free =>
    have opened : Reader.step ⟨words, letters, .bare⟩ '\'' =
        ⟨words, some ((letters.map Prod.fst).getD [], true), .single⟩ := by
      cases letters <;> rfl
    rw [Unfinished.source, List.foldl_cons, opened, foldl_single _ _ _ free]
    rfl
  | double body cut =>
    have opened : Reader.step ⟨words, letters, .bare⟩ '"' =
        ⟨words, some ((letters.map Prod.fst).getD [], true), .double⟩ := by
      cases letters <;> rfl
    rw [Unfinished.source, List.cons_append, List.foldl_cons, opened, List.foldl_append,
      foldl_pieces]
    cases cut <;> rfl
  | escape => rfl

theorem tokenize_unfinished (l : Line) (u : Unfinished) :
    tokenize (l.source ++ u.source) = .error u.error := by
  rw [tokenize, List.foldl_append, finish_unfinished (foldl_line l).1]

theorem tokenize_eq_ok_iff {text : Text} {tokens : List Token} :
    tokenize text = .ok tokens ↔ ∃ l : Line, text = l.source ∧ l.tokens = tokens := by
  constructor
  · intro h
    obtain ⟨l, rest, rfl⟩ := exists_broken text
    match rest with
    | none =>
      rw [broken_none, tokenize_line] at h
      exact ⟨l, broken_none l, Except.ok.inj h⟩
    | some u =>
      rw [broken_some, tokenize_unfinished] at h
      contradiction
  · rintro ⟨l, rfl, rfl⟩
    exact tokenize_line l

theorem tokenize_eq_error_iff {text : Text} {error : LineError} :
    tokenize text = .error error ↔
      ∃ (l : Line) (u : Unfinished), text = l.source ++ u.source ∧ u.error = error := by
  constructor
  · intro h
    obtain ⟨l, rest, rfl⟩ := exists_broken text
    match rest with
    | none =>
      rw [broken_none, tokenize_line] at h
      contradiction
    | some u =>
      rw [broken_some, tokenize_unfinished] at h
      exact ⟨l, u, broken_some l u, Except.error.inj h⟩
  · rintro ⟨l, u, rfl, rfl⟩
    exact tokenize_unfinished l u

/-- A text is read as words exactly when the grammar describes it, and then as the words it
describes. Every other text is a complete line with one thing unfinished behind it, and the
error names that thing. -/
theorem tokenize_iff_line_or_unfinished (text : Text) :
    (∀ tokens, tokenize text = .ok tokens ↔ ∃ l : Line, text = l.source ∧ l.tokens = tokens) ∧
    (∀ error, tokenize text = .error error ↔
      ∃ (l : Line) (u : Unfinished), text = l.source ++ u.source ∧ u.error = error) ∧
    ((¬ ∃ l : Line, text = l.source) →
      ∃! error, ∃ (l : Line) (u : Unfinished), text = l.source ++ u.source ∧ u.error = error) := by
  refine ⟨fun _ => tokenize_eq_ok_iff, fun _ => tokenize_eq_error_iff, fun incomplete => ?_⟩
  match read : tokenize text with
  | .ok tokens =>
    obtain ⟨l, same, _⟩ := tokenize_eq_ok_iff.mp read
    exact absurd ⟨l, same⟩ incomplete
  | .error error =>
    refine ⟨error, tokenize_eq_error_iff.mp read, fun other h => ?_⟩
    rw [tokenize_eq_error_iff.mpr h] at read
    exact Except.error.inj read

end LineShell.WordGrammar
