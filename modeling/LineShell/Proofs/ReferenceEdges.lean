import LineShell.Proofs.BetweenQuotes

/-! Where references end. Braces around every name of a line change nothing in how it is read: what
is put in begins with a `$`, and no `$` is part of a reference that has begun before it, so that
neither a `$` that stands for itself nor an open brace can take anything of it (`Reads.braced`). And
a character is read apart from all that stands on either side of it just when it is in no reference
(`expand_apart_iff`). -/

namespace LineShell.Expansion

variable {lookup : Text → Option Text} {line : Text} {pieces : List Piece}

/-- Every name stands for the reference to it in braces. -/
def bracing (name : Text) : Option Text := some ('$' :: '{' :: name ++ ['}'])

def Reference.inBraces (r : Reference) : Reference := { r with braced := true }

namespace Piece

def inBraces : Piece → Piece
  | char c => char c
  | reference r => reference r.inBraces

theorem inBraces_inBraces (p : Piece) : p.inBraces.inBraces = p.inBraces := by
  cases p <;> rfl

theorem value_inBraces (p : Piece) : p.inBraces.value lookup = p.value lookup := by
  cases p <;> rfl

theorem value_bracing (p : Piece) : p.value bracing = p.inBraces.source := by
  cases p <;> rfl

end Piece

/-- A reading as a text, with braces around every name. -/
def bracedText (pieces : List Piece) : Text := (pieces.map Piece.inBraces).flatMap Piece.source

theorem bracedText_cons (p : Piece) (more : List Piece) :
    bracedText (p :: more) = p.inBraces.source ++ bracedText more := rfl

theorem Reference.exists_source (r : Reference) : ∃ tail, r.source = '$' :: tail ∧ '$' ∉ tail := by
  have absent := not_mem_of_isIdentifier r.named (c := '$') (by decide)
  rw [source]
  split
  · exact ⟨_, rfl, by simp [absent]⟩
  · exact ⟨_, rfl, absent⟩

/-- Up to the first reference the braced text is the line itself. -/
theorem prefix_of_bracedText (reads : Reads line pieces) {part : Text} (free : '$' ∉ part)
    (front : part <+: bracedText pieces) : part <+: line := by
  induction reads generalizing part with
  | nil => exact front
  | @char c rest pieces _ _ ih =>
    cases part with
    | nil => exact List.nil_prefix
    | cons d part =>
      obtain ⟨rfl, further⟩ := List.cons_prefix_cons.mp front
      exact List.cons_prefix_cons.mpr ⟨rfl, ih (List.not_mem_of_not_mem_cons free) further⟩
  | reference _ _ _ =>
    cases part with
    | nil => exact List.nil_prefix
    | cons d part =>
      obtain ⟨rfl, -⟩ := List.cons_prefix_cons.mp front
      exact absurd List.mem_cons_self free

theorem longest_inBraces (r : Reference) (rest : Text) :
    Longest r.inBraces (r.inBraces.source ++ rest) := by
  have source : r.inBraces.source ++ rest = '$' :: '{' :: (r.name ++ '}' :: rest) := by
    simp [Reference.inBraces, Reference.source]
  intro other front
  rw [source] at front
  obtain ⟨marks, after, cut⟩ := braced_prefix_iff.mp front
  obtain ⟨same, -⟩ := Prod.mk.inj (Option.some.inj ((cut?_identifier r.named).symm.trans cut))
  simp [Reference.inBraces, Reference.source, marks, same]

/-- The braced text is read as the line is, with the same references in the same places. -/
theorem Reads.braced (reads : Reads line pieces) :
    Reads (bracedText pieces) (pieces.map Piece.inBraces) := by
  induction reads with
  | nil => exact .nil
  | @char c rest pieces ordinary reads ih =>
    refine .char (fun r front => ordinary r ?_) ih
    obtain ⟨tail, source, free⟩ := r.exists_source
    rw [source] at front ⊢
    obtain ⟨rfl, further⟩ := List.cons_prefix_cons.mp front
    exact List.cons_prefix_cons.mpr ⟨rfl, prefix_of_bracedText reads free further⟩
  | reference _ _ ih => exact .reference (longest_inBraces _ _) ih

theorem substitute_bracing (reads : Reads line pieces) :
    substitute bracing line = bracedText pieces := by
  rw [substitute_of_reads bracing reads, bracedText, List.flatMap_map]
  exact congrArg (pieces.flatMap ·) (funext Piece.value_bracing)

theorem bracedText_inBraces (pieces : List Piece) :
    bracedText (pieces.map Piece.inBraces) = bracedText pieces := by
  rw [bracedText, List.map_map]
  exact congrArg (fun f => (pieces.map f).flatMap Piece.source) (funext Piece.inBraces_inBraces)

/-- Braces can be put around the names of all references of a line. What comes of it is read as the
same characters and the same references in the same order, so that it has the same expansion
whatever the variables are; and putting the braces in once more changes nothing. -/
theorem expand_braced (line : Text) : ∃ braced pieces,
    expand? bracing line = some braced ∧
    Reads line pieces ∧ Reads braced (pieces.map Piece.inBraces) ∧
    (∀ lookup, expand? lookup braced = expand? lookup line) ∧
    expand? bracing braced = some braced := by
  obtain ⟨pieces, reads, -⟩ := exists_reads bracing line
  refine ⟨bracedText pieces, pieces, ?_, reads, reads.braced, fun lookup => ?_, ?_⟩
  · rw [expand?_eq_substitute, substitute_bracing reads]
  · rw [expand?_eq_substitute, expand?_eq_substitute, substitute_of_reads lookup reads,
      substitute_of_reads lookup reads.braced, List.flatMap_map]
    exact congrArg (fun f => some (pieces.flatMap f)) (funext Piece.value_inBraces)
  · rw [expand?_eq_substitute, substitute_bracing reads.braced, bracedText_inBraces]

/-- References beside what looks like one. -/
example : expand? bracing "$$A ${$A} ${$A ${x$A} $9${A}$A_1}".toList =
    some "$${A} ${${A}} ${${A} ${x${A}} $9${A}${A_1}}".toList := by decide +kernel

/-! Characters that are in no reference. -/

theorem exists_mem_source_iff (c : Char) :
    (∃ r : Reference, c ∈ r.source) ↔ isNameChar c = true ∨ c ∈ ['$', '{', '}'] := by
  constructor
  · rintro ⟨r, inside⟩
    by_contra outside
    obtain ⟨foreign, other⟩ := not_or.mp outside
    exact not_mem_source r (Bool.not_eq_true _ ▸ foreign) other inside
  · rintro (named | mark)
    · have identifier : isIdentifier ['_', c] = true := by simp [isIdentifier, isNameStart, named]
      exact ⟨⟨['_', c], false, identifier⟩, by simp [Reference.source]⟩
    · refine ⟨⟨['_'], true, rfl⟩, ?_⟩
      simp only [List.mem_cons, List.not_mem_nil, or_false] at mark
      rcases mark with rfl | rfl | rfl <;> decide

/-- A reference by itself is read as such. -/
theorem reads_source (r : Reference) : Reads r.source [.reference r] := by
  have alone : Longest r (r.source ++ []) := fun other front => by
    rw [List.append_nil] at front
    exact front.length_le
  simpa using Reads.reference alone .nil

/-- A character is copied, and what stands on either side of it is expanded by itself, in every line
and whatever the variables are, just when no reference can hold it: when it is no letter, digit or
underscore, no `$` and no brace. What is unfinished before it stays so, though the brace that is
missing stands behind it. -/
theorem expand_apart_iff (c : Char) :
    (∀ lookup front rest, ∃ a b, expand? lookup front = some a ∧ expand? lookup rest = some b ∧
      expand? lookup (front ++ c :: rest) = some (a ++ c :: b)) ↔
    isNameChar c = false ∧ c ∉ ['$', '{', '}'] := by
  constructor
  · intro apart
    rw [← Bool.not_eq_true, ← not_or, ← exists_mem_source_iff]
    rintro ⟨r, inside⟩
    -- where no variable has a value, nothing of a reference is left
    obtain ⟨front, rest, cut⟩ := List.append_of_mem inside
    obtain ⟨a, b, -, -, whole⟩ := apart (fun _ => none) front rest
    rw [← cut, expand?_eq_substitute, substitute_of_reads _ (reads_source r)] at whole
    simp [Piece.value] at whole
  · rintro ⟨foreign, other⟩ lookup front rest
    refine ⟨_, _, expand?_eq_substitute lookup front, expand?_eq_substitute lookup rest, ?_⟩
    rw [expand?_eq_substitute, substitute_append_cons foreign other]

/-- The brace behind the blank closes nothing. -/
example : expand? bracing "$A${B }$ {B}".toList = some "${A}${B }$ {B}".toList := by
  decide +kernel

end LineShell.Expansion
