import LineShell.Expansion
import Mathlib.Tactic.Common

/-! Replacing references by recursion on the characters of a line. The pass over byte offsets
gives the same text: `run_eq_substitute` carries the text copied so far, the literal read since
then and the rest, and the offsets of the pass are the sizes of the first two. -/

namespace LineShell.Expansion

/-- The reference behind a `$`: its name, and the text behind it. -/
def splitReference? : Text → Option (Text × Text)
  | '{' :: braced => (cut? '}' braced).filter fun (name, _) => isIdentifier name
  | text =>
    let name := leadingIdentifier text
    if name = [] then none else some (name, text.drop name.length)

theorem leadingIdentifier_append_drop (text : Text) :
    leadingIdentifier text ++ text.drop (leadingIdentifier text).length = text := by
  apply List.prefix_iff_eq_append.mp
  cases text with
  | nil => exact List.prefix_rfl
  | cons c rest =>
    by_cases start : isNameStart c = true
    · have front := List.takeWhile_prefix (l := rest) isNameChar
      rw [leadingIdentifier, if_pos start]
      exact (List.prefix_cons_inj c).mpr front
    · rw [leadingIdentifier, if_neg start]
      exact List.nil_prefix

theorem splitReference?_of_ne {text : Text} (bare : text.head? ≠ some '{') :
    splitReference? text = if leadingIdentifier text = [] then none
      else some (leadingIdentifier text, text.drop (leadingIdentifier text).length) := by
  match text with
  | [] => rfl
  | c :: rest =>
    simp only [List.head?_cons, ne_eq, Option.some.injEq] at bare
    unfold splitReference?
    split
    · next h => exact absurd (List.cons.inj h).1 bare
    · rfl

/-- What follows a reference is the end of what follows its `$`. -/
theorem splitReference?_suffix {text name rest : Text}
    (h : splitReference? text = some (name, rest)) : ∃ used, text = used ++ rest := by
  by_cases brace : text.head? = some '{'
  · obtain ⟨braced, rfl⟩ := List.head?_eq_some_iff.mp brace
    obtain ⟨hcut, -⟩ := Option.filter_eq_some_iff.mp h
    obtain ⟨rfl, -⟩ := cut?_eq_some hcut
    exact ⟨'{' :: name ++ ['}'], by simp⟩
  · rw [splitReference?_of_ne brace] at h
    split at h
    · contradiction
    · obtain ⟨-, rfl⟩ := Prod.mk.inj (Option.some.inj h)
      exact ⟨leadingIdentifier text, (leadingIdentifier_append_drop text).symm⟩

/-- The line with its references replaced, read from left to right. -/
def substitute (lookup : Text → Option Text) : Text → Text
  | [] => []
  | c :: rest =>
    if c = '$' then
      match _h : splitReference? rest with
      | none => c :: substitute lookup rest
      | some (name, after) => (lookup name).getD [] ++ substitute lookup after
    else c :: substitute lookup rest
termination_by line => line.length
decreasing_by
  · simp
  · obtain ⟨used, rfl⟩ := splitReference?_suffix _h
    simp only [List.length_cons, List.length_append]
    omega
  · simp

theorem substitute_plain (lookup : Text → Option Text) {c : Char} (plain : c ≠ '$') (rest : Text) :
    substitute lookup (c :: rest) = c :: substitute lookup rest := by
  rw [substitute, if_neg plain]

theorem substitute_dollar (lookup : Text → Option Text) (rest : Text) :
    substitute lookup ('$' :: rest) = match splitReference? rest with
      | none => '$' :: substitute lookup rest
      | some (name, after) => (lookup name).getD [] ++ substitute lookup after := by
  rw [substitute, if_pos rfl]
  split <;> simp_all

theorem offsetOf?_eq (c : Char) (text : Text) :
    offsetOf? c text = (cut? c text).map fun parts => byteSize parts.1 := by
  induction text with
  | nil => rfl
  | cons x rest ih =>
    by_cases h : x = c
    · simp [offsetOf?, cut?, h, byteSize]
    · simp only [offsetOf?, cut?, h, if_false, ih, Option.map_map]
      rfl

theorem byteSize_append_cons (a rest : Text) (c : Char) :
    byteSize (a ++ c :: rest) = byteSize a + c.utf8Size + byteSize rest := by
  simp only [byteSize_append, byteSize]
  omega

theorem byteSize_eq_zero_iff {text : Text} : byteSize text = 0 ↔ text = [] := by
  cases text with
  | nil => simp [byteSize]
  | cons c rest =>
    have hc := c.utf8Size_pos
    simp only [byteSize, reduceCtorEq, iff_false]
    omega

/-- An offset inside a character is no edge. -/
theorem dropBytes?_inside (a rest : Text) (c : Char) {n : Nat} (low : 0 < n)
    (high : n < c.utf8Size) : dropBytes? (a ++ c :: rest) (byteSize a + n) = none := by
  induction a with
  | nil =>
    obtain ⟨m, rfl⟩ : ∃ m, n = m + 1 := ⟨n - 1, by omega⟩
    rw [List.nil_append, byteSize, Nat.zero_add, dropBytes?, if_neg (by omega)]
  | cons x a ih =>
    have hx := x.utf8Size_pos
    obtain ⟨m, hm⟩ : ∃ m, byteSize (x :: a) + n = m + 1 := ⟨byteSize (x :: a) + n - 1, by omega⟩
    have rest_size : m + 1 - x.utf8Size = byteSize a + n := by simp only [byteSize] at hm; omega
    have whole : x.utf8Size ≤ m + 1 := by simp only [byteSize] at hm; omega
    rw [hm, List.cons_append, dropBytes?, if_pos whole, rest_size, ih]

theorem reference?_of_ne {line rest : Text} {start : Nat} (here : dropBytes? line start = some rest)
    (bare : rest.head? ≠ some '{') :
    reference? line start = if leadingIdentifier rest = [] then some none
      else (takeBytes? rest (byteSize (leadingIdentifier rest))).map fun name =>
        some (name, start + byteSize (leadingIdentifier rest)) := by
  rw [reference?, here, Option.bind_eq_bind, Option.bind_some]
  split
  · next braced => exact absurd rfl bare
  · simp only [byteSize_eq_zero_iff]
    split
    · rfl
    · rw [Option.map_eq_bind]
      rfl

theorem reference?_byteSize (a b : Text) :
    reference? (a ++ b) (byteSize a) = some ((splitReference? b).map fun (name, rest) =>
      (name, byteSize (a ++ b) - byteSize rest)) := by
  by_cases brace : b.head? = some '{'
  · obtain ⟨braced, rfl⟩ := List.head?_eq_some_iff.mp brace
    cases hcut : cut? '}' braced with
    | none => simp [reference?, dropBytes?_byteSize, splitReference?, offsetOf?_eq, hcut]
    | some parts =>
      obtain ⟨name, rest⟩ := parts
      obtain ⟨rfl, -⟩ := cut?_eq_some hcut
      have brace_size : '{'.utf8Size = 1 := rfl
      have close_size : '}'.utf8Size = 1 := rfl
      have stop : byteSize a + byteSize name + 2 =
          byteSize (a ++ '{' :: (name ++ '}' :: rest)) - byteSize rest := by
        simp only [byteSize_append, byteSize, brace_size, close_size]
        omega
      by_cases named : isIdentifier name = true
      · simp [reference?, dropBytes?_byteSize, splitReference?, offsetOf?_eq, hcut,
          takeBytes?_byteSize, Option.filter, named, stop]
      · simp [reference?, dropBytes?_byteSize, splitReference?, offsetOf?_eq, hcut,
          takeBytes?_byteSize, Option.filter, named]
  · have parts := leadingIdentifier_append_drop b
    have stop : byteSize a + byteSize (leadingIdentifier b) =
        byteSize (a ++ b) - byteSize (b.drop (leadingIdentifier b).length) := by
      have size := congrArg byteSize parts
      rw [byteSize_append] at size
      rw [byteSize_append]
      omega
    have name_bytes :
        takeBytes? b (byteSize (leadingIdentifier b)) = some (leadingIdentifier b) := by
      conv_lhs => arg 1; rw [← parts]
      exact takeBytes?_byteSize _ _
    rw [splitReference?_of_ne brace, reference?_of_ne (dropBytes?_byteSize a b) brace]
    split
    · rfl
    · rw [name_bytes, Option.map_some, Option.map_some, stop]

theorem turn_of_ne {lookup : Text → Option Text} {a b : Text} {pass : Pass}
    (here : pass.reading = byteSize a) (plain : b.head? ≠ some '$') :
    turn lookup (a ++ b) pass = some { pass with reading := pass.reading + 1 } := by
  rw [turn, here, dropBytes?_byteSize]
  split
  · next h => simp [Option.some.inj h] at plain
  · rfl

theorem turn_inside {lookup : Text → Option Text} {a rest : Text} {c : Char} {pass : Pass} {n : Nat}
    (here : pass.reading = byteSize a + n) (low : 0 < n) (high : n < c.utf8Size) :
    turn lookup (a ++ c :: rest) pass = some { pass with reading := pass.reading + 1 } := by
  rw [turn, here, dropBytes?_inside a rest c low high]

theorem turn_dollar (lookup : Text → Option Text) (a rest : Text) (copied : Nat) (output : Text) :
    turn lookup (a ++ '$' :: rest) ⟨copied, byteSize a, output⟩ =
      match splitReference? rest with
      | none => some ⟨copied, byteSize a + 1, output⟩
      | some (name, after) =>
        let stop := byteSize (a ++ '$' :: rest) - byteSize after
        (slice? (a ++ '$' :: rest) copied (byteSize a)).map fun literal =>
          ⟨stop, stop, output ++ literal ++ (lookup name).getD []⟩ := by
  have behind := reference?_byteSize (a ++ ['$']) rest
  have edge : byteSize (a ++ ['$']) = byteSize a + 1 := by rw [byteSize_append]; rfl
  rw [List.append_assoc, List.singleton_append, edge] at behind
  rw [turn, dropBytes?_byteSize]
  simp only [behind, Option.bind_eq_bind, Option.bind_some]
  cases splitReference? rest with
  | none => rfl
  | some parts =>
    simp only [Option.map_eq_bind]
    rfl

theorem run_done {lookup : Text → Option Text} {line : Text} {pass : Pass}
    (done : byteSize line ≤ pass.reading) (turns : Nat) :
    run lookup line turns pass =
      (slice? line pass.copied (byteSize line)).map (pass.output ++ ·) := by
  cases turns <;> exact if_pos done

theorem run_succ {lookup : Text → Option Text} {line : Text} {pass : Pass}
    (more : pass.reading < byteSize line) (turns : Nat) :
    run lookup line (turns + 1) pass = (turn lookup line pass).bind (run lookup line turns) :=
  if_neg (Nat.not_le.mpr more)

/-- The pass goes over an ordinary character a byte at a time. -/
theorem run_char {lookup : Text → Option Text} {a rest : Text} {c : Char} (plain : c ≠ '$')
    (copied : Nat) (output : Text) (turns : Nat) :
    run lookup (a ++ c :: rest) (turns + c.utf8Size) ⟨copied, byteSize a, output⟩ =
      run lookup (a ++ c :: rest) turns ⟨copied, byteSize a + c.utf8Size, output⟩ := by
  suffices step : ∀ n ≤ c.utf8Size,
      run lookup (a ++ c :: rest) (turns + n) ⟨copied, byteSize a + c.utf8Size - n, output⟩ =
        run lookup (a ++ c :: rest) turns ⟨copied, byteSize a + c.utf8Size, output⟩ by
    have whole := step c.utf8Size (Nat.le_refl _)
    rwa [Nat.add_sub_cancel] at whole
  intro n hn
  induction n with
  | zero => rfl
  | succ n ih =>
    have more : byteSize a + c.utf8Size - (n + 1) < byteSize (a ++ c :: rest) := by
      simp only [byteSize_append, byteSize]
      omega
    rw [← ih (by omega), ← Nat.add_assoc, run_succ more]
    · have moved : turn lookup (a ++ c :: rest) ⟨copied, byteSize a + c.utf8Size - (n + 1), output⟩ =
          some ⟨copied, byteSize a + c.utf8Size - n, output⟩ := by
        have further : byteSize a + c.utf8Size - (n + 1) + 1 = byteSize a + c.utf8Size - n := by
          omega
        by_cases first : n + 1 = c.utf8Size
        · rw [turn_of_ne (by simp only; omega) (by simpa using plain), further]
        · rw [turn_inside (n := c.utf8Size - (n + 1)) (by simp only; omega) (by omega) (by omega),
            further]
      rw [moved, Option.bind_some]

/-- From an edge on, the pass copies the literal read so far and substitutes in the rest. -/
theorem run_eq_substitute (lookup : Text → Option Text) (a literal b : Text) (output : Text)
    (turns : Nat) (enough : byteSize b ≤ turns) :
    run lookup (a ++ literal ++ b) turns ⟨byteSize a, byteSize (a ++ literal), output⟩ =
      some (output ++ literal ++ substitute lookup b) := by
  have dollar_size : '$'.utf8Size = 1 := rfl
  -- The literal stays a variable: a dollar without a reference joins it instead of ending it.
  induction b using substitute.induct generalizing a literal output turns with
  | case1 =>
    have whole : slice? (a ++ literal ++ []) (byteSize a) (byteSize (a ++ literal ++ [])) =
        some literal := by
      simpa [byteSize_append, byteSize] using slice?_byteSize a literal []
    rw [run_done (by simp), whole]
    simp [substitute]
  | case2 rest split ih =>
    obtain ⟨turns, rfl⟩ : ∃ k, turns = k + 1 :=
      ⟨turns - 1, by simp only [byteSize] at enough; omega⟩
    have more : byteSize (a ++ literal) < byteSize (a ++ literal ++ '$' :: rest) := by
      rw [byteSize_append_cons]
      omega
    have edge : byteSize (a ++ literal) + 1 = byteSize (a ++ (literal ++ ['$'])) := by
      simp only [byteSize_append, byteSize]
      omega
    have next := ih a (literal ++ ['$']) output turns
      (by simp only [byteSize] at enough; omega)
    rw [run_succ more, turn_dollar, substitute_dollar, split]
    simp only [Option.bind_some, edge]
    simpa using next
  | case3 rest name after split ih =>
    obtain ⟨used, rfl⟩ := splitReference?_suffix split
    obtain ⟨turns, rfl⟩ : ∃ k, turns = k + 1 :=
      ⟨turns - 1, by simp only [byteSize] at enough; omega⟩
    have more : byteSize (a ++ literal) < byteSize (a ++ literal ++ '$' :: (used ++ after)) := by
      rw [byteSize_append_cons]
      omega
    have edge : byteSize (a ++ literal ++ '$' :: (used ++ after)) - byteSize after =
        byteSize (a ++ literal ++ '$' :: used) := by
      simp only [byteSize_append, byteSize]
      omega
    have copied : slice? (a ++ literal ++ '$' :: (used ++ after)) (byteSize a)
        (byteSize (a ++ literal)) = some literal := by
      rw [byteSize_append, slice?_byteSize]
    have next := ih (a ++ literal ++ '$' :: used) [] (output ++ literal ++ (lookup name).getD [])
      turns (by simp only [byteSize, byteSize_append] at enough; omega)
    rw [run_succ more, turn_dollar, substitute_dollar, split]
    simp only [copied, edge, Option.map_some, Option.bind_some]
    simpa using next
  | case4 c rest plain ih =>
    obtain ⟨turns, rfl⟩ : ∃ k, turns = k + c.utf8Size :=
      ⟨turns - c.utf8Size, by simp only [byteSize] at enough; omega⟩
    have edge : byteSize (a ++ literal) + c.utf8Size = byteSize (a ++ (literal ++ [c])) := by
      simp only [byteSize_append, byteSize]
      omega
    have next := ih a (literal ++ [c]) output turns
      (by simp only [byteSize] at enough; omega)
    rw [run_char plain, edge, substitute_plain lookup plain]
    simpa using next

/-- The pass over byte offsets always ends well, and it substitutes. -/
theorem expand?_eq_substitute (lookup : Text → Option Text) (line : Text) :
    expand? lookup line = some (substitute lookup line) := by
  simpa [expand?, byteSize] using run_eq_substitute lookup [] [] line [] _ (Nat.le_refl _)

end LineShell.Expansion
