import LineShell.Proofs.Substitution

/-! The references of a line, apart from the pass that finds them. A reference is `$NAME` or
`${NAME}`, and a line is read from left to right: where references begin the longest of them is
taken, and any other character stands for itself. A line is read in one way only (`reads_unique`),
which does not depend on the variables, and `substitute_of_reads` says that replacing the
references gives the values of what was read, one after the other. -/

namespace LineShell.Expansion

structure Reference where
  name : Text
  braced : Bool
  named : isIdentifier name = true

def Reference.source (r : Reference) : Text :=
  if r.braced then '$' :: '{' :: r.name ++ ['}'] else '$' :: r.name

inductive Piece
  | char (c : Char)
  | reference (r : Reference)

namespace Piece

def source : Piece → Text
  | char c => [c]
  | reference r => r.source

def value (lookup : Text → Option Text) : Piece → Text
  | char c => [c]
  | reference r => (lookup r.name).getD []

end Piece

/-- No reference at the front of a text is longer than `r`. -/
def Longest (r : Reference) (text : Text) : Prop :=
  ∀ other : Reference, other.source <+: text → other.source.length ≤ r.source.length

/-- What a line is read as. -/
inductive Reads : Text → List Piece → Prop
  | nil : Reads [] []
  | char {c : Char} {rest : Text} {pieces : List Piece}
      (ordinary : ∀ r : Reference, ¬ r.source <+: c :: rest) (reads : Reads rest pieces) :
      Reads (c :: rest) (.char c :: pieces)
  | reference {r : Reference} {rest : Text} {pieces : List Piece}
      (longest : Longest r (r.source ++ rest)) (reads : Reads rest pieces) :
      Reads (r.source ++ rest) (.reference r :: pieces)

theorem source_flatMap_of_reads {line : Text} {pieces : List Piece} (reads : Reads line pieces) :
    pieces.flatMap Piece.source = line := by
  induction reads with
  | nil => rfl
  | char _ _ ih => rw [List.flatMap_cons, ih]; rfl
  | reference _ _ ih => rw [List.flatMap_cons, ih]; rfl

/-! Which references begin behind a `$`. -/

theorem source_prefix_iff {r : Reference} {rest : Text} : r.source <+: '$' :: rest ↔
    (if r.braced then '{' :: r.name ++ ['}'] else r.name) <+: rest := by
  rw [Reference.source]
  split <;> simp [List.cons_prefix_cons]

theorem not_source_prefix_cons (r : Reference) {c : Char} (plain : c ≠ '$') (rest : Text) :
    ¬ r.source <+: c :: rest := by
  rw [Reference.source]
  split <;> simp [List.cons_prefix_cons, Ne.symm plain]

theorem isNameChar_of_isIdentifier {name : Text} (named : isIdentifier name = true) :
    ∀ c ∈ name, isNameChar c = true := by
  cases name with
  | nil => simp
  | cons c rest =>
    simp only [isIdentifier, Bool.and_eq_true, List.all_eq_true] at named
    simp only [List.mem_cons, forall_eq_or_imp]
    exact ⟨by simp [isNameChar, named.1], named.2⟩

theorem not_mem_of_isIdentifier {name : Text} (named : isIdentifier name = true) {c : Char}
    (foreign : isNameChar c = false) : c ∉ name := by
  intro member
  simp [isNameChar_of_isIdentifier named c member] at foreign

theorem head?_ne_of_isIdentifier {name rest : Text} (named : isIdentifier name = true)
    (front : name <+: rest) : rest.head? ≠ some '{' := by
  obtain ⟨behind, rfl⟩ := front
  cases name with
  | nil => contradiction
  | cons c more =>
    rw [List.cons_append, List.head?_cons, ne_eq, Option.some.injEq]
    rintro rfl
    exact not_mem_of_isIdentifier named (c := '{') (by decide) (by simp)

theorem cut?_append {c : Char} {front : Text} (absent : c ∉ front) (after : Text) :
    cut? c (front ++ c :: after) = some (front, after) := by
  induction front with
  | nil => simp [cut?]
  | cons d rest ih =>
    obtain ⟨ne, others⟩ := not_or.mp (mt List.mem_cons.mpr absent)
    rw [List.cons_append, cut?, if_neg (Ne.symm ne), ih others]
    rfl

/-- An identifier in braces ends at the first closing brace. -/
theorem cut?_identifier {name after : Text} (named : isIdentifier name = true) :
    cut? '}' (name ++ '}' :: after) = some (name, after) :=
  cut?_append (not_mem_of_isIdentifier named (by decide)) after

/-- An identifier at the front of a text is at the front of the longest one. -/
theorem prefix_leadingIdentifier {name text : Text} (named : isIdentifier name = true)
    (front : name <+: text) : name <+: leadingIdentifier text := by
  obtain ⟨behind, rfl⟩ := front
  cases name with
  | nil => contradiction
  | cons c rest =>
    simp only [isIdentifier, Bool.and_eq_true, List.all_eq_true] at named
    rw [List.cons_append, leadingIdentifier, if_pos named.1, List.cons_prefix_cons,
      List.takeWhile_append_of_pos named.2]
    exact ⟨rfl, List.prefix_append _ _⟩

theorem braced_prefix_iff {r : Reference} {braced : Text} : r.source <+: '$' :: '{' :: braced ↔
    r.braced = true ∧ ∃ after, cut? '}' braced = some (r.name, after) := by
  rw [source_prefix_iff]
  constructor
  · intro front
    split at front
    · next marks =>
      rw [List.cons_append, List.cons_prefix_cons] at front
      obtain ⟨after, rfl⟩ := front.2
      exact ⟨marks, after, by simpa using cut?_identifier r.named⟩
    · exact absurd rfl (head?_ne_of_isIdentifier r.named front)
  · rintro ⟨marks, after, cut⟩
    obtain ⟨rfl, -⟩ := cut?_eq_some cut
    rw [if_pos marks]
    exact ⟨after, by simp⟩

theorem bare_prefix_iff {r : Reference} {rest : Text} (bare : rest.head? ≠ some '{') :
    r.source <+: '$' :: rest ↔ r.braced = false ∧ r.name <+: rest := by
  rw [source_prefix_iff]
  split
  · next marks =>
    simp only [marks, Bool.true_eq_false, false_and, iff_false]
    rintro ⟨after, rfl⟩
    exact bare rfl
  · next unmarked => simp [unmarked]

theorem ordinary_of_splitReference? {rest : Text} (none_there : splitReference? rest = none)
    (r : Reference) : ¬ r.source <+: '$' :: rest := by
  intro front
  by_cases brace : rest.head? = some '{'
  · obtain ⟨braced, rfl⟩ := List.head?_eq_some_iff.mp brace
    obtain ⟨-, after, cut⟩ := braced_prefix_iff.mp front
    rw [splitReference?, cut] at none_there
    simp [Option.filter, r.named] at none_there
  · obtain ⟨-, name_front⟩ := (bare_prefix_iff brace).mp front
    rw [splitReference?_of_ne brace] at none_there
    split at none_there
    · next empty =>
      have longest := prefix_leadingIdentifier r.named name_front
      rw [empty, List.prefix_nil] at longest
      have named := r.named
      rw [longest] at named
      contradiction
    · contradiction

theorem longest_of_splitReference? {rest name after : Text}
    (found : splitReference? rest = some (name, after)) :
    ∃ r : Reference, r.name = name ∧ r.source ++ after = '$' :: rest ∧ Longest r ('$' :: rest) := by
  by_cases brace : rest.head? = some '{'
  · obtain ⟨braced, rfl⟩ := List.head?_eq_some_iff.mp brace
    obtain ⟨cut, named⟩ := Option.filter_eq_some_iff.mp found
    refine ⟨⟨name, true, named⟩, rfl, ?_, fun other front => ?_⟩
    · obtain ⟨rfl, -⟩ := cut?_eq_some cut
      simp [Reference.source]
    · obtain ⟨marks, behind, same⟩ := braced_prefix_iff.mp front
      obtain ⟨names, -⟩ := Prod.mk.inj (Option.some.inj (cut.symm.trans same))
      simp [Reference.source, marks, names]
  · rw [splitReference?_of_ne brace] at found
    split at found
    · contradiction
    · next some_name =>
      obtain ⟨rfl, rfl⟩ := Prod.mk.inj (Option.some.inj found)
      have named := (leadingIdentifier_eq_nil_or rest).resolve_left some_name
      refine ⟨⟨leadingIdentifier rest, false, named⟩, rfl, ?_, fun other front => ?_⟩
      · exact congrArg ('$' :: ·) (leadingIdentifier_append_drop rest)
      · obtain ⟨unmarked, name_front⟩ := (bare_prefix_iff brace).mp front
        have shorter := (prefix_leadingIdentifier other.named name_front).length_le
        simpa [Reference.source, unmarked] using shorter

/-! One reading of every line. -/

theorem Reference.source_injective {r s : Reference} (same : r.source = s.source) : r = s := by
  obtain ⟨name, braced, named⟩ := r
  obtain ⟨other, marks, othered⟩ := s
  have no_brace {text rest : Text} (named : isIdentifier text = true) : text ≠ '{' :: rest := by
    rintro rfl
    exact head?_ne_of_isIdentifier named (List.prefix_refl _) rfl
  cases braced with
  | false =>
    cases marks with
    | false => simpa [Reference.source] using same
    | true => exact absurd (by simpa [Reference.source] using same) (no_brace named)
  | true =>
    cases marks with
    | false => exact absurd (by simpa [Reference.source] using same.symm) (no_brace othered)
    | true => simpa [Reference.source] using same

theorem exists_reads (lookup : Text → Option Text) (line : Text) : ∃ pieces, Reads line pieces ∧
    substitute lookup line = pieces.flatMap (Piece.value lookup) := by
  induction line using substitute.induct with
  | case1 => exact ⟨[], .nil, by simp [substitute]⟩
  | case2 rest none_there ih =>
    obtain ⟨pieces, reads, values⟩ := ih
    refine ⟨.char '$' :: pieces, .char (ordinary_of_splitReference? none_there) reads, ?_⟩
    rw [substitute_dollar, none_there, List.flatMap_cons, ← values]
    rfl
  | case3 rest name after found ih =>
    obtain ⟨pieces, reads, values⟩ := ih
    obtain ⟨r, rfl, same, longest⟩ := longest_of_splitReference? found
    refine ⟨.reference r :: pieces, same ▸ .reference (same ▸ longest) reads, ?_⟩
    rw [substitute_dollar, found, List.flatMap_cons, ← values]
    rfl
  | case4 c rest plain ih =>
    obtain ⟨pieces, reads, values⟩ := ih
    refine ⟨.char c :: pieces, .char (not_source_prefix_cons · plain rest) reads, ?_⟩
    rw [substitute_plain lookup plain, List.flatMap_cons, ← values]
    rfl

/-- A piece at the front of a reading is what stands at the front of the line. -/
def Begins (line : Text) : Piece → Prop
  | .char c => [c] <+: line ∧ ∀ r : Reference, ¬ r.source <+: line
  | .reference r => r.source <+: line ∧ Longest r line

theorem begins_of_reads {line : Text} {piece : Piece} {more : List Piece}
    (reads : Reads line (piece :: more)) :
    Begins line piece ∧ ∃ rest, line = piece.source ++ rest ∧ Reads rest more := by
  cases reads with
  | char ordinary reads => exact ⟨⟨by simp, ordinary⟩, _, rfl, reads⟩
  | reference longest reads => exact ⟨⟨List.prefix_append _ _, longest⟩, _, rfl, reads⟩

theorem begins_unique {line : Text} {p q : Piece} (hp : Begins line p) (hq : Begins line q) :
    p = q := by
  match p, q, hp, hq with
  | .char c, .char d, ⟨here, _⟩, ⟨there, _⟩ =>
    have same := (List.prefix_of_prefix_length_le here there (Nat.le_refl _)).eq_of_length rfl
    rw [(List.cons.inj same).1]
  | .char _, .reference r, ⟨_, ordinary⟩, ⟨front, _⟩ => exact absurd front (ordinary r)
  | .reference r, .char _, ⟨front, _⟩, ⟨_, ordinary⟩ => exact absurd front (ordinary r)
  | .reference r, .reference s, ⟨here, longest⟩, ⟨there, other_longest⟩ =>
    have length := Nat.le_antisymm (other_longest r here) (longest s there)
    have same := (List.prefix_of_prefix_length_le here there (Nat.le_of_eq length)).eq_of_length length
    rw [Reference.source_injective same]

theorem source_ne_nil (p : Piece) : p.source ≠ [] := by
  cases p with
  | char c => simp [Piece.source]
  | reference r => cases marks : r.braced <;> simp [Piece.source, Reference.source, marks]

theorem reads_unique {line : Text} {a b : List Piece} (ha : Reads line a) (hb : Reads line b) :
    a = b := by
  induction a generalizing line b with
  | nil =>
    have empty := source_flatMap_of_reads ha
    have same := source_flatMap_of_reads hb
    rw [← empty, List.flatMap_nil, List.flatMap_eq_nil_iff] at same
    exact (List.eq_nil_iff_forall_not_mem.mpr fun p hp => source_ne_nil p (same p hp)).symm
  | cons p more ih =>
    obtain ⟨first, rest, cut, reads⟩ := begins_of_reads ha
    cases b with
    | nil =>
      have empty := source_flatMap_of_reads hb
      rw [cut, List.flatMap_nil] at empty
      exact absurd (List.append_eq_nil_iff.mp empty.symm).1 (source_ne_nil p)
    | cons q others =>
      obtain ⟨other_first, behind, other_cut, other_reads⟩ := begins_of_reads hb
      obtain rfl := begins_unique first other_first
      obtain rfl := List.append_cancel_left (cut.symm.trans other_cut)
      rw [ih reads other_reads]

theorem substitute_of_reads (lookup : Text → Option Text) {line : Text} {pieces : List Piece}
    (reads : Reads line pieces) : substitute lookup line = pieces.flatMap (Piece.value lookup) := by
  obtain ⟨found, found_reads, values⟩ := exists_reads lookup line
  rw [values, reads_unique reads found_reads]

theorem value_congr {f g : Text → Option Text}
    (agree : ∀ name, isIdentifier name = true → f name = g name) : Piece.value f = Piece.value g := by
  funext p
  cases p with
  | char c => rfl
  | reference r => rw [Piece.value, Piece.value, agree r.name r.named]

/-- A line is read in exactly one way, whatever the variables are. Replacing its references gives
its characters and the values of its references in order, and asks for the values of identifiers
only. -/
theorem expand_eq_values (line : Text) :
    (∃! pieces, Reads line pieces) ∧
    (∀ pieces, Reads line pieces → pieces.flatMap Piece.source = line ∧
      ∀ lookup, expand? lookup line = some (pieces.flatMap (Piece.value lookup))) ∧
    ∀ f g : Text → Option Text, (∀ name, isIdentifier name = true → f name = g name) →
      expand? f line = expand? g line := by
  obtain ⟨found, found_reads, -⟩ := exists_reads (fun _ => none) line
  refine ⟨⟨found, found_reads, fun _ reads => reads_unique reads found_reads⟩, ?_, ?_⟩
  · intro pieces reads
    refine ⟨source_flatMap_of_reads reads, fun lookup => ?_⟩
    rw [expand?_eq_substitute, substitute_of_reads lookup reads]
  · intro f g agree
    rw [expand?_eq_substitute, expand?_eq_substitute, substitute_of_reads f found_reads,
      substitute_of_reads g found_reads, value_congr agree]

end LineShell.Expansion
