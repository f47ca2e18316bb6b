import LineShell.Path
import Mathlib.Data.List.Basic

/-! The names on a path. Cutting at the slashes and joining with slashes undo each other on names
that hold none (`parts_ofNames`), so a path from the root and the list of its names say the same.
Folding leaves nothing but names that lead down (`plain_of_mem_fold`); what `lexicalJoin` makes of
an absolute path is therefore normal (`isNormal_lexicalJoin`), and no part of it stays in place or
turns back. -/

namespace LineShell

theorem pieces_eq_splitOn (c : Char) (text : Text) : pieces c text = text.splitOn c := by
  induction text with
  | nil => rw [pieces, List.splitOn_nil]
  | cons x rest ih =>
    rw [pieces, List.splitOn_cons_eq_if_modifyHead, ← ih]
    obtain ⟨first, more, cut⟩ := List.exists_cons_of_ne_nil (pieces_ne_nil c rest)
    by_cases same : x = c <;> simp [cut, same]

theorem join_eq_intercalate (c : Char) (texts : List Text) :
    join c texts = [c].intercalate texts := by
  induction texts with
  | nil => rfl
  | cons text more ih =>
    cases more with
    | nil => simp [join]
    | cons next more =>
      rw [join, ih, List.intercalate_cons_cons, List.append_assoc, List.singleton_append]

theorem not_mem_of_mem_pieces {c : Char} {text piece : Text} (h : piece ∈ pieces c text) :
    c ∉ piece := by
  induction text generalizing piece with
  | nil => simp_all [pieces]
  | cons x rest ih =>
    rw [pieces] at h
    split at h
    · rcases List.mem_cons.mp h with rfl | h
      · exact List.not_mem_nil
      · exact ih h
    · next other =>
      obtain ⟨first, more, cut⟩ := List.exists_cons_of_ne_nil (pieces_ne_nil c rest)
      rw [cut] at h ih
      rcases List.mem_cons.mp h with rfl | h
      · have : c ∉ first := ih List.mem_cons_self
        simp [Ne.symm other, this]
      · exact ih (List.mem_cons_of_mem _ h)

theorem pieces_append_cons (c : Char) (a b : Text) :
    pieces c (a ++ c :: b) = pieces c a ++ pieces c b := by
  simp only [pieces_eq_splitOn, List.splitOn_append_cons_self]

theorem pieces_join {c : Char} {texts : List Text} (ne : texts ≠ []) (h : ∀ text ∈ texts, c ∉ text) :
    pieces c (join c texts) = texts := by
  rw [pieces_eq_splitOn, join_eq_intercalate, List.splitOn_intercalate c h ne]

theorem not_mem_join {c x : Char} {texts : List Text} (other : x ≠ c)
    (h : ∀ text ∈ texts, x ∉ text) : x ∉ join c texts := by
  induction texts with
  | nil => exact List.not_mem_nil
  | cons text more ih =>
    have clear : x ∉ text := h text List.mem_cons_self
    cases more with
    | nil => exact clear
    | cons next more =>
      have later := ih fun text there => h text (List.mem_cons_of_mem _ there)
      simp [join, clear, other, later]

theorem mem_pieces_of_mem {c x : Char} {text : Text} (other : x ≠ c) (h : x ∈ text) :
    ∃ piece ∈ pieces c text, x ∈ piece := by
  by_contra absent
  have clear : ∀ piece ∈ pieces c text, x ∉ piece := fun piece there held =>
    absent ⟨piece, there, held⟩
  have joined := not_mem_join other clear
  rw [join_pieces] at joined
  exact joined h

theorem join_ne_nil {c : Char} {text : Text} (h : text ≠ []) (more : List Text) :
    join c (text :: more) ≠ [] := by
  cases more <;> simp [join, h]

theorem getLast?_join_ne {c : Char} {texts : List Text}
    (h : ∀ text ∈ texts, text ≠ [] ∧ c ∉ text) : (join c texts).getLast? ≠ some c := by
  induction texts with
  | nil => simp [join]
  | cons text more ih =>
    obtain ⟨-, clear⟩ := h text List.mem_cons_self
    cases more with
    | nil => exact fun last => clear (List.mem_of_getLast? last)
    | cons next more =>
      have later := ih fun text there => h text (List.mem_cons_of_mem _ there)
      have held : join c (next :: more) ≠ [] := join_ne_nil (h next (by simp)).1 more
      rwa [join, List.getLast?_append_of_ne_nil _ (List.cons_ne_nil _ _),
        List.getLast?_cons_of_ne_nil held]

namespace Path

/-- A part of a path that leads down, to something of that name. -/
structure IsPlain (part : Text) : Prop where
  ne_nil : part ≠ []
  no_slash : '/' ∉ part
  ne_dot : part ≠ ['.']
  ne_dots : part ≠ ['.', '.']

/-- An absolute path without `.` and `..`. -/
def IsDirect (path : Text) : Prop :=
  isAbsolute path ∧ ∀ part ∈ parts path, part ≠ ['.'] ∧ part ≠ ['.', '.']

@[simp] theorem isAbsolute_ofNames (names : List Text) : isAbsolute (ofNames names) := rfl

theorem isAbsolute_push {base : Text} (h : isAbsolute base) (path : Text) :
    isAbsolute (push base path) := by
  have first : base.head? = some '/' := by simpa [isAbsolute] using h
  obtain ⟨rest, rfl⟩ : ∃ rest, base = '/' :: rest := by
    cases base with
    | nil => simp at first
    | cons c rest => exact ⟨rest, by simpa using first⟩
  unfold push
  split
  · assumption
  · split <;> rfl

theorem no_slash_of_mem_parts {path part : Text} (h : part ∈ parts path) : '/' ∉ part :=
  not_mem_of_mem_pieces (List.mem_of_mem_filter h)

theorem ne_nil_of_mem_parts {path part : Text} (h : part ∈ parts path) : part ≠ [] := by
  simpa using List.of_mem_filter h

/-- What is on a path besides its slashes is in its parts. -/
theorem mem_parts_of_mem {x : Char} {path : Text} (other : x ≠ '/') (h : x ∈ path) :
    ∃ part ∈ parts path, x ∈ part := by
  obtain ⟨piece, there, held⟩ := mem_pieces_of_mem other h
  have nonempty : piece ≠ [] := List.ne_nil_of_mem held
  exact ⟨piece, List.mem_filter.mpr ⟨there, by simpa using nonempty⟩, held⟩

theorem parts_join {texts : List Text} (h : ∀ text ∈ texts, text ≠ [] ∧ '/' ∉ text) :
    parts (join '/' texts) = texts := by
  cases texts with
  | nil => rfl
  | cons text more =>
    have whole : pieces '/' (join '/' (text :: more)) = text :: more :=
      pieces_join (List.cons_ne_nil _ _) fun text there => (h text there).2
    rw [parts, whole]
    exact List.filter_eq_self.mpr fun text there => by simpa using (h text there).1

theorem parts_ofNames {names : List Text} (plain : ∀ name ∈ names, IsPlain name) :
    parts (ofNames names) = names := by
  have slash : parts (ofNames names) = parts (join '/' names) := by simp [ofNames, parts, pieces]
  rw [slash, parts_join fun name there => ⟨(plain name there).ne_nil, (plain name there).no_slash⟩]

theorem isDirect_ofNames {names : List Text} (plain : ∀ name ∈ names, IsPlain name) :
    IsDirect (ofNames names) := by
  refine ⟨rfl, fun part there => ?_⟩
  rw [parts_ofNames plain] at there
  exact ⟨(plain part there).ne_dot, (plain part there).ne_dots⟩

theorem plain_descend {above : List Text} {part : Text} (plain : ∀ name ∈ above, IsPlain name)
    (ne_nil : part ≠ []) (no_slash : '/' ∉ part) : ∀ name ∈ descend above part, IsPlain name := by
  unfold descend
  split
  · exact plain
  · next ne_dot =>
    split
    · exact fun name there => plain name (List.mem_of_mem_tail there)
    · next ne_dots =>
      intro name there
      rcases List.mem_cons.mp there with rfl | there
      · exact ⟨ne_nil, no_slash, ne_dot, ne_dots⟩
      · exact plain name there

theorem plain_foldl_descend {above taken : List Text} (plain : ∀ name ∈ above, IsPlain name)
    (h : ∀ part ∈ taken, part ≠ [] ∧ '/' ∉ part) :
    ∀ name ∈ taken.foldl descend above, IsPlain name := by
  -- a `..` only takes a name away, so what is plain stays so whatever comes next
  induction taken generalizing above with
  | nil => exact plain
  | cons part rest ih =>
    obtain ⟨ne_nil, no_slash⟩ := h part List.mem_cons_self
    exact ih (plain_descend plain ne_nil no_slash) fun part there =>
      h part (List.mem_cons_of_mem _ there)

theorem plain_of_mem_fold {path name : Text} (h : name ∈ fold path) : IsPlain name := by
  have nothing : ∀ name ∈ ([] : List Text), IsPlain name := fun _ there =>
    absurd there List.not_mem_nil
  have taken : ∀ part ∈ parts path, part ≠ [] ∧ '/' ∉ part := fun _ there =>
    ⟨ne_nil_of_mem_parts there, no_slash_of_mem_parts there⟩
  exact plain_foldl_descend nothing taken name (List.mem_reverse.mp h)

theorem lexicalJoin_of_isAbsolute {base : Text} (h : isAbsolute base) (target : Text) :
    lexicalJoin base target = ofNames (fold (push base target)) := by
  simp [lexicalJoin, isAbsolute_push h target]

theorem push_of_isAbsolute {path : Text} (absolute : isAbsolute path) (base : Text) :
    push base path = path := if_pos absolute

theorem push_ne_nil {base path : Text} (held : path ≠ []) : push base path ≠ [] := by
  unfold push
  split
  · exact held
  · split <;> simp [held]

theorem parts_push {path : Text} (relative : ¬ isAbsolute path) (base : Text) :
    parts (push base path) = parts base ++ parts path := by
  rw [push, if_neg relative]
  split
  · next ends =>
    rcases List.eq_nil_or_concat base with rfl | ⟨front, last, rfl⟩
    · rfl
    · obtain rfl : last = '/' := by simpa using ends
      simp [parts, pieces_append_cons, pieces]
  · simp [parts, pieces_append_cons]

theorem foldl_descend_of_plain {names : List Text} (plain : ∀ name ∈ names, IsPlain name)
    (above : List Text) : names.foldl descend above = names.reverse ++ above := by
  induction names generalizing above with
  | nil => rfl
  | cons name more ih =>
    have first := plain name List.mem_cons_self
    rw [List.foldl_cons, descend, if_neg first.ne_dot, if_neg first.ne_dots,
      ih fun name there => plain name (List.mem_cons_of_mem _ there)]
    simp

theorem lexicalJoin_ofNames_dot {names : List Text} (plain : ∀ name ∈ names, IsPlain name) :
    lexicalJoin (ofNames names) ['.'] = ofNames names := by
  have dot : parts ['.'] = [['.']] := rfl
  have folded : fold (push (ofNames names) ['.']) = names := by
    rw [fold, parts_push (by decide), parts_ofNames plain, dot, List.foldl_append,
      foldl_descend_of_plain plain]
    simp [descend]
  rw [lexicalJoin_of_isAbsolute (isAbsolute_ofNames names), folded]

/-- A path from the root in which each name is met once. -/
def IsNormal (path : Text) : Prop :=
  ∃ names, (∀ name ∈ names, IsPlain name) ∧ path = ofNames names

theorem isNormal_lexicalJoin {base : Text} (absolute : isAbsolute base) (target : Text) :
    IsNormal (lexicalJoin base target) :=
  ⟨_, fun _ => plain_of_mem_fold, lexicalJoin_of_isAbsolute absolute target⟩

theorem IsNormal.isDirect {path : Text} (normal : IsNormal path) : IsDirect path := by
  obtain ⟨names, plain, rfl⟩ := normal
  exact isDirect_ofNames plain

/-- An absolute path stays one, and its `.` and `..` are gone, whatever is joined to it. -/
theorem isDirect_lexicalJoin {base : Text} (h : isAbsolute base) (target : Text) :
    IsDirect (lexicalJoin base target) :=
  (isNormal_lexicalJoin h target).isDirect

/-- Nothing is left to fold in a normal path. -/
theorem IsNormal.lexicalJoin {path base : Text} (normal : IsNormal path)
    (absolute : isAbsolute base) : lexicalJoin base path = path := by
  obtain ⟨names, plain, rfl⟩ := normal
  rw [lexicalJoin_of_isAbsolute absolute, push_of_isAbsolute (isAbsolute_ofNames names), fold,
    parts_ofNames plain, foldl_descend_of_plain plain, List.append_nil, List.reverse_reverse]

end Path
end LineShell
