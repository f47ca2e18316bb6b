import LineShell.Proofs.ReferenceReading
import LineShell.Proofs.WordGrammar

/-! What stands for itself between double quotes: a text without `"`, without two backslashes in a
row and without one at the end, and without references. No other text is read there as it is, for
each step of the reader gives one character more at most: a quote that closes gives none, and a
backslash that escapes is lost (`Token.Reader.keeps_of_weight`). -/

namespace LineShell

namespace Expansion

/-- No part of the text is a reference. -/
def Referenceless (text : Text) : Prop := ∀ r : Reference, ¬ r.source <:+: text

variable {lookup : Text → Option Text} {text : Text}

theorem prefix_of_foreign {part rest : Text} {c : Char} (front : Text) (absent : c ∉ part)
    (first : part <+: front ++ c :: rest) : part <+: front := by
  have whole : front ++ [c] <+: front ++ c :: rest := ⟨rest, by simp⟩
  rcases List.prefix_or_prefix_of_prefix first whole with short | long
  · rcases List.prefix_concat_iff.mp short with rfl | inside
    · simp at absent
    · exact inside
  · exact absurd (long.subset (by simp)) absent

/-- A character that it does not hold divides the places where a part can be. -/
theorem infix_of_foreign {part front rest : Text} {c : Char} (absent : c ∉ part)
    (inside : part <:+: front ++ c :: rest) : part <:+: front ∨ part <:+: rest := by
  induction front with
  | nil =>
    rcases List.infix_cons_iff.mp inside with first | later
    · exact .inl (prefix_of_foreign [] absent first).isInfix
    · exact .inr later
  | cons d front ih =>
    rcases List.infix_cons_iff.mp inside with first | later
    · exact .inl (prefix_of_foreign (d :: front) absent first).isInfix
    · exact (ih later).imp_left List.infix_cons

theorem substitute_of_referenceless (free : Referenceless text) : substitute lookup text = text := by
  obtain ⟨pieces, reads, values⟩ := exists_reads lookup text
  rw [values]
  clear values
  induction reads with
  | nil => rfl
  | char _ _ ih =>
    rw [List.flatMap_cons, ih fun r inside => free r (List.infix_cons inside)]
    rfl
  | @reference r rest _ _ _ _ => exact absurd (List.prefix_append r.source rest).isInfix (free r)

/-- If the text holds references, it becomes shorter when they are replaced. -/
def Shrinks (lookup : Text → Option Text) (text : Text) : Prop :=
  text.length ≤ (substitute lookup text).length → Referenceless text

/-- Where no variable has a value a text does not grow. -/
theorem length_substitute (text : Text) : (substitute (fun _ => none) text).length ≤ text.length ∧
    Shrinks (fun _ => none) text := by
  obtain ⟨pieces, reads, values⟩ := exists_reads (fun _ => none) text
  rw [Shrinks, values]
  clear values
  induction reads with
  | nil =>
    refine ⟨Nat.le_refl _, fun _ r inside => ?_⟩
    exact source_ne_nil (.reference r) (List.infix_nil.mp inside)
  | @char c rest pieces ordinary _ ih =>
    obtain ⟨short, free⟩ := ih
    simp only [List.flatMap_cons, Piece.value, List.singleton_append, List.length_cons,
      Nat.add_le_add_iff_right]
    refine ⟨short, fun long r inside => ?_⟩
    rcases List.infix_cons_iff.mp inside with first | later
    · exact ordinary r first
    · exact free long r later
  | @reference r rest pieces _ _ ih =>
    have some_char := List.length_pos_iff.mpr (source_ne_nil (.reference r))
    have nothing : (Piece.reference r).value (fun _ => none) = [] := rfl
    rw [List.flatMap_cons, nothing, List.nil_append, List.length_append]
    have some_char : 0 < r.source.length := some_char
    exact ⟨by omega, fun long => absurd ih.1 (by omega)⟩

instance : Decidable (Referenceless text) :=
  decidable_of_iff (expand? (fun _ => none) text = some text) <| by
    rw [expand?_eq_substitute, Option.some.injEq]
    exact ⟨fun same => (length_substitute text).2 (Nat.le_of_eq (congrArg List.length same.symm)),
      substitute_of_referenceless⟩

theorem substitute_append {front : Text} (free : '$' ∉ front) (rest : Text) :
    substitute lookup (front ++ rest) = front ++ substitute lookup rest := by
  induction front with
  | nil => rfl
  | cons c front ih =>
    obtain ⟨plain, later⟩ := not_or.mp (mt List.mem_cons.mpr free)
    rw [List.cons_append, substitute_plain lookup (Ne.symm plain), ih later, List.cons_append]

theorem dollar_mem_source (r : Reference) : '$' ∈ r.source := by
  rw [Reference.source]
  split <;> simp

theorem not_mem_source (r : Reference) {c : Char} (foreign : isNameChar c = false)
    (other : c ∉ ['$', '{', '}']) : c ∉ r.source := by
  have outside := not_mem_of_isIdentifier r.named foreign
  simp only [List.mem_cons, List.not_mem_nil, or_false, not_or] at other
  rw [Reference.source]
  split <;> simp [other, outside]

/-- A character that is in no reference divides a line: what stands on either side of it is read as
if it stood alone, an unfinished reference too. -/
theorem Reads.append_cons {front rest : Text} {before behind : List Piece} {c : Char}
    (foreign : isNameChar c = false) (other : c ∉ ['$', '{', '}']) (reads : Reads front before)
    (later : Reads rest behind) : Reads (front ++ c :: rest) (before ++ .char c :: behind) := by
  induction reads with
  | nil => exact .char (not_source_prefix_cons · (by rintro rfl; simp at other) rest) later
  | char ordinary _ ih =>
    refine .char (fun r first => ordinary r ?_) ih
    exact prefix_of_foreign (_ :: _) (not_mem_source r foreign other) first
  | @reference r text _ longest _ ih =>
    rw [List.append_assoc]
    refine .reference (fun s first => longest s ?_) ih
    rw [← List.append_assoc] at first
    exact prefix_of_foreign (r.source ++ text) (not_mem_source s foreign other) first

theorem substitute_append_cons {c : Char} (foreign : isNameChar c = false)
    (other : c ∉ ['$', '{', '}']) (front rest : Text) :
    substitute lookup (front ++ c :: rest) =
      substitute lookup front ++ c :: substitute lookup rest := by
  obtain ⟨before, reads, values⟩ := exists_reads lookup front
  obtain ⟨behind, later, others⟩ := exists_reads lookup rest
  rw [substitute_of_reads lookup (reads.append_cons foreign other later), values, others,
    List.flatMap_append, List.flatMap_cons]
  rfl

theorem Referenceless.concat (free : Referenceless text) : Referenceless (text ++ ['"']) := by
  intro r inside
  have foreign : '"' ∉ r.source := not_mem_source r (by decide) (by decide)
  rcases infix_of_foreign foreign inside with there | nothing
  · exact free r there
  · exact source_ne_nil (.reference r) (List.infix_nil.mp nothing)

/-- Between quotes, behind a text without `$`, there is no reference but those of the text there. -/
theorem Referenceless.quoted {front : Text} (free : Referenceless text) (plain : '$' ∉ front) :
    Referenceless (front ++ '"' :: (text ++ ['"'])) := by
  intro r inside
  have foreign : '"' ∉ r.source := not_mem_source r (by decide) (by decide)
  rcases infix_of_foreign foreign inside with before | behind
  · exact plain (before.subset (dollar_mem_source r))
  · exact free.concat r behind

end Expansion

/-! The reader inside double quotes. -/

namespace Token.Reader

/-- The number of letters that a reader holds. -/
def held (r : Reader) : Nat :=
  (r.words.flatMap Token.text).length + (r.letters.map (·.1.length)).getD 0

/-- A reader behind a backslash has one more letter, or has lost one, when it knows what follows. -/
def weight (r : Reader) : Nat :=
  r.held + if r.mode = .escape ∨ r.mode = .doubleEscape then 1 else 0

section

variable (r : Reader) (c : Char) (mode : Mode)

@[simp] theorem held_plain : (r.plain c).held = r.held + 1 := by
  rcases r with ⟨words, _ | ⟨letters, quoted⟩, mode⟩ <;> simp [plain, held, Nat.add_assoc]

@[simp] theorem held_quote : r.quote.held = r.held := by
  rcases r with ⟨words, _ | ⟨letters, quoted⟩, mode⟩ <;> simp [quote, held]

@[simp] theorem held_close : r.close.held = r.held := by
  rcases r with ⟨words, _ | ⟨letters, quoted⟩, mode⟩ <;> simp [close, held, Nat.add_comm]

@[simp] theorem held_inMode : { r with mode }.held = r.held := rfl

@[simp] theorem mode_plain : (r.plain c).mode = r.mode := by
  rcases r with ⟨words, _ | ⟨letters, quoted⟩, mode⟩ <;> rfl

theorem words_plain : (r.plain c).words = r.words := by
  rcases r with ⟨words, _ | ⟨letters, quoted⟩, mode⟩ <;> rfl

theorem words_quote : r.quote.words = r.words := by
  rcases r with ⟨words, _ | ⟨letters, quoted⟩, mode⟩ <;> rfl

/-- No character counts for more than one letter. -/
theorem weight_step_le : (r.step c).weight ≤ r.weight + 1 := by
  cases mode : r.mode with
  | bare =>
    simp only [step, mode]
    split_ifs <;> simp [weight, mode, WordGrammar.close_mode]
  | escape => simp [step, mode, weight]
  | single =>
    simp only [step, mode]
    split_ifs <;> simp [weight, mode]
  | double =>
    simp only [step, mode]
    split_ifs <;> simp [weight, mode]
  | doubleEscape =>
    simp only [step, mode]
    split_ifs <;> simp [weight, mode]

theorem weight_foldl_le (text : Text) : (text.foldl step r).weight ≤ r.weight + text.length := by
  induction text generalizing r with
  | nil => exact Nat.le_refl _
  | cons c rest ih =>
    have first := weight_step_le r c
    have later := ih (r.step c)
    rw [List.foldl_cons, List.length_cons]
    omega

theorem words_close : r.words <:+ r.close.words := by
  rcases r with ⟨words, _ | ⟨letters, quoted⟩, mode⟩ <;> simp [close]

/-- A quote behind which the reader stands outside of quotes is lost, or was paid for. -/
theorem weight_step_mark (outside : (r.step '"').mode = .bare) :
    (r.step '"').weight ≤ r.weight := by
  cases mode : r.mode with
  | bare | single | doubleEscape => simp [step, mode] at outside
  | escape | double => simp [step, mode, weight]

/-- Inside double quotes the reader stays there until a quote closes them. -/
theorem step_inside (inside : r.mode = .double ∨ r.mode = .doubleEscape) :
    (r.mode = .double ∧ c = '"') ∨
      ((r.step c).mode = .double ∨ (r.step c).mode = .doubleEscape) := by
  rcases inside with mode | mode
  · by_cases closes : c = '"'
    · exact .inl ⟨mode, closes⟩
    · right
      simp only [step, mode, if_neg closes]
      split_ifs <;> simp [mode]
  · right
    left
    simp only [step, mode]
    split_ifs <;> rfl

/-- To come out of double quotes costs a character. -/
theorem weight_of_inside {text : Text} (inside : r.mode = .double ∨ r.mode = .doubleEscape)
    (outside : (text.foldl step r).mode = .bare) :
    (text.foldl step r).weight + 1 ≤ r.weight + text.length := by
  induction text generalizing r with
  | nil =>
    rw [List.foldl_nil] at outside
    simp [outside] at inside
  | cons c rest ih =>
    rw [List.foldl_cons, List.length_cons]
    rcases step_inside r c inside with ⟨mode, rfl⟩ | still
    · have same : (r.step '"').weight = r.weight := by simp [step, mode, weight]
      have later := weight_foldl_le (r.step '"') rest
      omega
    · have later := ih (r.step c) still outside
      have first := weight_step_le r c
      omega

end

/-- Behind some words there is a quoted one that begins with a text; it may still be open. -/
def Begun (r : Reader) (words : List Token) (text : Text) : Prop :=
  (r.words = words ∧ ∃ more, r.letters = some (more ++ text.reverse, true)) ∨
    ∃ more later, r.words = later ++ ⟨text ++ more, true⟩ :: words

section

variable {r : Reader} {words : List Token} {text : Text}

theorem Begun.plain (begun : r.Begun words text) (c : Char) : (r.plain c).Begun words text := by
  rcases begun with ⟨same, more, letters⟩ | ⟨more, later, finished⟩
  · exact .inl ⟨by rw [words_plain, same], c :: more, by simp [Reader.plain, letters]⟩
  · exact .inr ⟨more, later, by rw [words_plain, finished]⟩

theorem Begun.quote (begun : r.Begun words text) : r.quote.Begun words text := by
  rcases begun with ⟨same, more, letters⟩ | ⟨more, later, finished⟩
  · exact .inl ⟨by rw [words_quote, same], more, by simp [Reader.quote, letters]⟩
  · exact .inr ⟨more, later, by rw [words_quote, finished]⟩

theorem Begun.close (begun : r.Begun words text) :
    ∃ more later, r.close.words = later ++ ⟨text ++ more, true⟩ :: words := by
  rcases begun with ⟨same, more, letters⟩ | ⟨more, later, finished⟩
  · exact ⟨more.reverse, [], by simp [Reader.close, letters, same]⟩
  · obtain ⟨further, grown⟩ := words_close r
    exact ⟨more, further ++ later, by rw [← grown, finished, List.append_assoc]⟩

theorem Begun.step (begun : r.Begun words text) (c : Char) : (r.step c).Begun words text := by
  cases mode : r.mode with
  | bare =>
    simp only [Reader.step, mode]
    split_ifs
    exacts [begun.quote, begun.quote, begun, .inr begun.close, begun.plain c]
  | escape =>
    simp only [Reader.step, mode]
    exact begun.quote.plain c
  | single =>
    simp only [Reader.step, mode]
    split_ifs
    exacts [begun, begun.plain c]
  | double =>
    simp only [Reader.step, mode]
    split_ifs
    exacts [begun, begun, begun.plain c]
  | doubleEscape =>
    simp only [Reader.step, mode]
    split_ifs
    exacts [begun.plain c, (begun.plain '\\').plain c]

theorem Begun.foldl (begun : r.Begun words text) (rest : Text) :
    (rest.foldl Reader.step r).Begun words text := by
  induction rest generalizing r with
  | nil => exact begun
  | cons c rest ih => exact ih (begun.step c)

end

/-- When a line is done, its words hold all the letters. -/
theorem weight_of_finish {r : Reader} {tokens : List Token} (done : r.finish = .ok tokens) :
    r.mode = .bare ∧ tokens = r.close.words.reverse ∧
      (tokens.flatMap Token.text).length = r.weight := by
  rw [finish] at done
  cases mode : r.mode with
  | bare =>
    rw [mode] at done
    obtain rfl := Except.ok.inj done
    refine ⟨rfl, rfl, ?_⟩
    have all : r.close.held = r.weight := by simp [weight, mode]
    rw [← all, held, WordGrammar.close_letters]
    exact ((List.reverse_perm r.close.words).flatMap_right Token.text).length_eq
  | escape | single | double | doubleEscape => simp [mode] at done

/-- Where a reader stands inside double quotes. -/
def quotedMode (escaped : Bool) : Mode := if escaped then .doubleEscape else .double

/-- Whether all characters count that are read inside double quotes, perhaps behind a backslash. -/
def keeps : (escaped : Bool) → Text → Bool
  | escaped, [] => !escaped
  | escaped, c :: rest => c ≠ '"' && !(escaped && c = '\\') && keeps (!escaped && c = '\\') rest

theorem foldl_of_keeps (words : List Token) (letters : Text) (quoted : Bool) {escaped : Bool}
    {text : Text} (kept : keeps escaped text = true) :
    text.foldl step ⟨words, some (letters, quoted), quotedMode escaped⟩ =
      ⟨words, some (text.reverse ++ (if escaped then ['\\'] else []) ++ letters, quoted),
        .double⟩ := by
  induction text generalizing letters escaped with
  | nil =>
    obtain rfl : escaped = false := by simpa [keeps] using kept
    rfl
  | cons c rest ih =>
    simp only [keeps, Bool.and_eq_true, decide_eq_true_eq] at kept
    obtain ⟨⟨mark, single⟩, kept⟩ := kept
    rw [List.foldl_cons]
    cases escaped with
    | true =>
      have other : c ≠ '\\' := by simpa using single
      simp only [Bool.not_true, Bool.false_and] at kept
      have read : step ⟨words, some (letters, quoted), quotedMode true⟩ c =
          ⟨words, some (c :: '\\' :: letters, quoted), quotedMode false⟩ := by
        simp [step, quotedMode, plain, mark, other]
      rw [read, ih _ kept]
      simp
    | false =>
      by_cases slash : c = '\\'
      · have read : step ⟨words, some (letters, quoted), quotedMode false⟩ c =
            ⟨words, some (letters, quoted), quotedMode true⟩ := by
          simp [step, quotedMode, slash]
        simp only [slash, Bool.not_false, Bool.true_and, decide_true] at kept
        rw [read, ih _ kept, slash]
        simp
      · have read : step ⟨words, some (letters, quoted), quotedMode false⟩ c =
            ⟨words, some (c :: letters, quoted), quotedMode false⟩ := by
          simp [step, quotedMode, plain, mark, slash]
        simp only [slash, Bool.not_false, Bool.true_and, decide_false] at kept
        rw [read, ih _ kept]
        simp

/-- When all characters have counted but the quote that ends the text, they were all kept. -/
theorem keeps_of_weight {r : Reader} {escaped : Bool} {text : Text} (mode : r.mode = quotedMode escaped)
    (outside : ((text ++ ['"']).foldl step r).mode = .bare)
    (counted : r.weight + text.length ≤ ((text ++ ['"']).foldl step r).weight) :
    keeps escaped text = true := by
  induction text generalizing r escaped with
  | nil =>
    cases escaped with
    | false => rfl
    | true =>
      have mode : r.mode = .doubleEscape := mode
      simp [step, mode] at outside
  | cons c rest ih =>
    -- a step that counts for nothing leaves too little, for the last quote counts for nothing
    have some_gain : r.weight < (r.step c).weight := by
      by_contra lost
      rw [List.foldl_append] at outside counted
      have last := weight_step_mark _ outside
      have most := weight_foldl_le (r.step c) rest
      simp only [List.foldl_cons, List.foldl_nil, List.length_cons] at last counted most
      omega
    have first := weight_step_le r c
    have counted : (r.step c).weight + rest.length ≤
        ((rest ++ ['"']).foldl step (r.step c)).weight := by
      rw [List.length_cons] at counted
      exact Nat.le_trans (by omega) counted
    have further (escaped : Bool) (mode : (r.step c).mode = quotedMode escaped) :
        keeps escaped rest = true := ih mode outside counted
    cases escaped with
    | false =>
      have mode : r.mode = .double := mode
      by_cases mark : c = '"'
      · simp [step, mode, mark, weight] at some_gain
      by_cases slash : c = '\\'
      · simpa [keeps, mark, slash] using further true (by simp [step, mode, slash, quotedMode])
      · simpa [keeps, mark, slash] using
          further false (by simp [step, mode, mark, slash, quotedMode])
    | true =>
      have mode : r.mode = .doubleEscape := mode
      by_cases mark : c = '"'
      · simp [step, mode, mark, weight] at some_gain
      by_cases slash : c = '\\'
      · simp [step, mode, slash, weight] at some_gain
      · simpa [keeps, mark, slash] using
          further false (by simp [step, mode, mark, slash, quotedMode])

end Token.Reader

/-- No quote, no two backslashes in a row, and no backslash at the end. -/
structure Unescaped (text : Text) : Prop where
  mark : '"' ∉ text
  pair : ¬ ['\\', '\\'] <:+: text
  last : text.getLast? ≠ some '\\'

namespace Unescaped

variable {c : Char} {rest : Text}

theorem nil : Unescaped [] := ⟨by simp, by simp, by simp⟩

theorem tail (whole : Unescaped (c :: rest)) : Unescaped rest where
  mark := fun there => whole.mark (List.mem_cons_of_mem c there)
  pair := fun there => whole.pair (List.infix_cons there)
  last := by
    intro last
    obtain ⟨front, rfl⟩ := List.getLast?_eq_some_iff.mp last
    exact whole.last (by simp [List.getLast?_cons])

theorem cons (mark : c ≠ '"') (slash : c ≠ '\\') (unescaped : Unescaped rest) :
    Unescaped (c :: rest) where
  mark := by simp [Ne.symm mark, unescaped.mark]
  pair := by
    intro there
    rcases List.infix_cons_iff.mp there with first | later
    · exact slash (List.cons_prefix_cons.mp first).1.symm
    · exact unescaped.pair later
  last := by
    cases rest with
    | nil => simpa using slash
    | cons d rest => simpa [List.getLast?_cons_cons] using unescaped.last

theorem slash_cons (mark : c ≠ '"') (slash : c ≠ '\\') (unescaped : Unescaped rest) :
    Unescaped ('\\' :: c :: rest) where
  mark := by simp [Ne.symm mark, unescaped.mark]
  pair := by
    intro there
    rcases List.infix_cons_iff.mp there with first | later
    · exact slash (List.cons_prefix_cons.mp (List.cons_prefix_cons.mp first).2).1.symm
    · exact (cons mark slash unescaped).pair later
  last := by
    rw [List.getLast?_cons_cons]
    exact (cons mark slash unescaped).last

end Unescaped

/-- The reader keeps a text as it is just when nothing in it is an escape. -/
theorem Token.Reader.keeps_iff (escaped : Bool) (text : Text) : keeps escaped text = true ↔
    Unescaped ((if escaped then ['\\'] else []) ++ text) := by
  induction text generalizing escaped with
  | nil =>
    cases escaped with
    | false => simp [keeps, Unescaped.nil]
    | true =>
      simp only [keeps, Bool.not_true, Bool.false_eq_true, false_iff]
      exact fun unescaped => unescaped.last rfl
  | cons c rest ih =>
    by_cases mark : c = '"'
    · simp only [keeps, mark, ne_eq, not_true_eq_false, decide_false, Bool.false_and,
        Bool.false_eq_true, false_iff]
      exact fun unescaped => unescaped.mark (by simp)
    cases escaped with
    | false =>
      by_cases slash : c = '\\'
      · simpa [keeps, mark, slash] using ih true
      · simp only [keeps, mark, slash, ne_eq, not_false_eq_true, decide_true, decide_false,
          Bool.and_false, Bool.not_false, Bool.and_true, Bool.true_and]
        rw [ih false]
        exact ⟨.cons mark slash, .tail⟩
    | true =>
      by_cases slash : c = '\\'
      · simp only [keeps, slash, decide_true, Bool.and_true, Bool.not_true, Bool.and_false,
          Bool.false_and, Bool.false_eq_true, false_iff]
        exact fun unescaped => unescaped.pair ⟨[], rest, rfl⟩
      · simp only [keeps, mark, slash, ne_eq, not_false_eq_true, decide_true, decide_false,
          Bool.and_false, Bool.not_false, Bool.and_true, Bool.true_and, Bool.not_true]
        rw [ih false]
        exact ⟨.slash_cons mark slash, fun unescaped => unescaped.tail.tail⟩

instance (text : Text) : Decidable (Unescaped text) :=
  decidable_of_iff (Token.Reader.keeps false text = true) (Token.Reader.keeps_iff false text)

/-- What stands for itself between double quotes. -/
structure Verbatim (text : Text) : Prop where
  unescaped : Unescaped text
  referenceless : Expansion.Referenceless text

instance (text : Text) : Decidable (Verbatim text) :=
  decidable_of_iff (Unescaped text ∧ Expansion.Referenceless text)
    ⟨fun ⟨unescaped, free⟩ => ⟨unescaped, free⟩, fun ⟨unescaped, free⟩ => ⟨unescaped, free⟩⟩

example : Verbatim "C:\\dir $ 'x'".toList ∧ ¬ Verbatim "a\"b".toList ∧
    ¬ Verbatim "end\\".toList ∧ ¬ Verbatim "$HOME/x".toList := by decide +kernel

end LineShell
