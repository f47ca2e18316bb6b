import LineShell.Proofs.PathNames

/-! What paths do to one another. A normal path says which names lead down from the root; any other
path, joined to it, leads from there to a normal path again. A path made of two does what the two do
one after the other (`lexicalJoin_lexicalJoin`), whatever each of them takes back of what is before
it, so `lexicalJoin` is told by what it makes of single parts (`lexicalJoin_acts`). -/

namespace LineShell.Path

variable {base first second : Text} {names taken : List Text}

theorem not_isAbsolute_join {texts : List Text} (h : ∀ text ∈ texts, text ≠ [] ∧ '/' ∉ text) :
    ¬ isAbsolute (join '/' texts) := by
  cases texts with
  | nil => decide
  | cons text more =>
    obtain ⟨held, clear⟩ := h text List.mem_cons_self
    obtain ⟨c, rest, rfl⟩ := List.exists_cons_of_ne_nil held
    have other : c ≠ '/' := fun same => clear (same ▸ List.mem_cons_self)
    cases more <;> simpa [isAbsolute, join] using other

theorem not_isAbsolute_push (h : ¬ isAbsolute first) (relative : ¬ isAbsolute second) :
    ¬ isAbsolute (push first second) := by
  rw [push, if_neg relative]
  cases first with
  | nil => exact relative
  | cons c rest => split <;> exact h

/-- To the parts of three paths it makes no difference which two are joined first. -/
theorem parts_push_push (base first second : Text) :
    parts (push (push base first) second) = parts (push base (push first second)) := by
  by_cases absolute : isAbsolute second
  · rw [push_of_isAbsolute absolute, push_of_isAbsolute absolute, push_of_isAbsolute absolute]
  by_cases leads : isAbsolute first
  · rw [push_of_isAbsolute leads, push_of_isAbsolute (isAbsolute_push leads second)]
  · rw [parts_push absolute, parts_push leads, parts_push (not_isAbsolute_push leads absolute),
      parts_push absolute, List.append_assoc]

/-- A relative path is taken from where the names before it lead to. -/
theorem fold_push (plain : ∀ name ∈ names, IsPlain name) (relative : ¬ isAbsolute second) :
    fold (push (ofNames names) second) = ((parts second).foldl descend names.reverse).reverse := by
  rw [fold, parts_push relative, parts_ofNames plain, List.foldl_append,
    foldl_descend_of_plain plain, List.append_nil]

/-- What is before a path may be folded first. A `..` that finds no name to take back there finds
none either when the whole is folded at once. -/
theorem fold_push_fold (base second : Text) :
    fold (push (ofNames (fold base)) second) = fold (push base second) := by
  by_cases absolute : isAbsolute second
  · rw [push_of_isAbsolute absolute, push_of_isAbsolute absolute]
  · calc fold (push (ofNames (fold base)) second)
        = ((parts second).foldl descend (fold base).reverse).reverse :=
          fold_push (fun _ => plain_of_mem_fold) absolute
      _ = ((parts base ++ parts second).foldl descend []).reverse := by
          rw [fold, List.reverse_reverse, List.foldl_append]
      _ = fold (push base second) := by rw [fold, parts_push absolute]

theorem lexicalJoin_lexicalJoin (absolute : isAbsolute base) (first second : Text) :
    lexicalJoin (lexicalJoin base first) second = lexicalJoin base (push first second) := by
  rw [lexicalJoin_of_isAbsolute absolute, lexicalJoin_of_isAbsolute (isAbsolute_ofNames _),
    lexicalJoin_of_isAbsolute absolute, fold_push_fold, fold, parts_push_push, ← fold]

theorem lexicalJoin_join (plain : ∀ name ∈ names, IsPlain name)
    (h : ∀ part ∈ taken, part ≠ [] ∧ '/' ∉ part) :
    lexicalJoin (ofNames names) (join '/' taken) =
      ofNames (taken.foldl descend names.reverse).reverse := by
  rw [lexicalJoin_of_isAbsolute (isAbsolute_ofNames names), fold_push plain (not_isAbsolute_join h),
    parts_join h]

theorem foldl_descend_dots (above : List Text) (count : Nat) :
    (List.replicate count ['.', '.']).foldl descend above = above.drop count := by
  induction count generalizing above with
  | zero => rfl
  | succ count ih =>
    rw [List.replicate_succ, List.foldl_cons, descend, if_neg (by decide), if_pos rfl, ih,
      List.drop_tail]

/-- A name leads down to it. -/
theorem lexicalJoin_name (plain : ∀ name ∈ names, IsPlain name) {name : Text}
    (isPlain : IsPlain name) :
    lexicalJoin (ofNames names) name = ofNames (names ++ [name]) := by
  have part : ∀ part ∈ [name], part ≠ [] ∧ '/' ∉ part := by
    simpa using ⟨isPlain.ne_nil, isPlain.no_slash⟩
  have one := lexicalJoin_join plain part
  rwa [foldl_descend_of_plain (by simpa using isPlain), List.reverse_append, List.reverse_reverse,
    List.reverse_reverse] at one

/-- Each `..` takes back a name, as long as there are any. -/
theorem lexicalJoin_dots (plain : ∀ name ∈ names, IsPlain name) (count : Nat) :
    lexicalJoin (ofNames names) (join '/' (List.replicate count ['.', '.'])) =
      ofNames (names.take (names.length - count)) := by
  have dots : ∀ part ∈ List.replicate count ['.', '.'], part ≠ [] ∧ '/' ∉ part := by
    intro part there
    rw [List.eq_of_mem_replicate there]
    decide
  rw [lexicalJoin_join plain dots, foldl_descend_dots, List.drop_reverse, List.reverse_reverse]

theorem lexicalJoin_dot_of_isNormal {path : Text} (normal : IsNormal path) :
    lexicalJoin path ['.'] = path := by
  obtain ⟨names, plain, rfl⟩ := normal
  exact lexicalJoin_ofNames_dot plain

/-- Joined to an absolute path, paths lead to normal paths, and a path made of two leads where the
second leads from where the first does. With that go the single steps: `.` stays where it is, a name
leads down, each `..` leads up, where the root is its own parent, and an absolute path leads where
it leads from the root. -/
theorem lexicalJoin_acts (absolute : isAbsolute base) :
    (∀ target, IsNormal (lexicalJoin base target)) ∧
    (∀ path, IsNormal path → lexicalJoin path ['.'] = path) ∧
    (∀ first second,
      lexicalJoin (lexicalJoin base first) second = lexicalJoin base (push first second)) ∧
    (∀ names, (∀ name ∈ names, IsPlain name) →
      (∀ name, IsPlain name → lexicalJoin (ofNames names) name = ofNames (names ++ [name])) ∧
      ∀ count, lexicalJoin (ofNames names) (join '/' (List.replicate count ['.', '.'])) =
        ofNames (names.take (names.length - count))) ∧
    ∀ target, isAbsolute target → lexicalJoin base target = lexicalJoin ['/'] target := by
  refine ⟨isNormal_lexicalJoin absolute, fun _ => lexicalJoin_dot_of_isNormal,
    lexicalJoin_lexicalJoin absolute, fun names plain => ?_, fun target whole => ?_⟩
  · exact ⟨fun _ => lexicalJoin_name plain, lexicalJoin_dots plain⟩
  · rw [lexicalJoin_of_isAbsolute absolute, lexicalJoin_of_isAbsolute rfl,
      push_of_isAbsolute whole, push_of_isAbsolute whole]

/-- The first path climbs past the root, and the second climbs on before it leads down. -/
theorem lexicalJoin_acts_past_root :
    let base := "/a//b/./c/..".toList
    let first := "d/../../../..".toList
    let second := "../e/".toList
    isAbsolute base ∧ lexicalJoin base first = ['/'] ∧
      lexicalJoin (lexicalJoin base first) second = lexicalJoin base (push first second) ∧
      lexicalJoin base (push first second) = "/e".toList := by
  intro base first second
  have absolute : isAbsolute base := by decide
  exact ⟨absolute, by decide, (lexicalJoin_acts absolute).2.2.1 first second, by decide⟩

end LineShell.Path
