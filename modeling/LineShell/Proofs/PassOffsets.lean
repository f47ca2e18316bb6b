import LineShell.Proofs.Octets

/-! The offsets of a pass over a line. A pass goes on a byte at a time and looks at octets, so that
it reads inside characters too; but it slices only where it has seen a `$`, a brace or a name, and
these are characters of one octet. `Slices` lists the slices that a pass asks for, and a turn fails
just when one of them cannot be taken (`turn_eq_none_iff`). Wherever a pass comes to, every slice
that it asks for can be taken and every turn reads further, so that it ends
(`safe_until_end`). -/

namespace LineShell.Expansion

variable {lookup : Text → Option Text} {line name after : Text} {pass next : Pass}
  {n start stop turns : Nat}

theorem isEdge_dollar (dollar : (octets line)[n]? = some '$') :
    IsEdge line n ∧ IsEdge line (n + 1) :=
  isEdge_of_ascii (by decide) dollar

/-! A reference, octet by octet. -/

/-- Behind a brace the name goes up to the first octet that closes, and the reference over it. -/
theorem reference?_braced (edge : IsEdge line start) (brace : (octets line)[start]? = some '{') :
    reference? line start =
      some (((cut? '}' ((octets line).drop (start + 1))).filter fun (name, _) =>
        isIdentifier name).map fun (name, _) => (name, start + name.length + 2)) := by
  obtain ⟨front, rest, rfl, rfl⟩ := edge
  rw [← List.head?_drop, octets_drop, head?_octets (by decide)] at brace
  obtain ⟨inside, rfl⟩ := List.head?_eq_some_iff.mp brace
  have behind : (octets (front ++ '{' :: inside)).drop (byteSize front + 1) = octets inside := by
    rw [← List.drop_drop, octets_drop, octets_cons, octets_ascii (by decide)]
    rfl
  rw [reference?_byteSize, splitReference?, behind, cut?_octets (by decide)]
  cases cut : cut? '}' inside with
  | none => rfl
  | some parts =>
    obtain ⟨name, after⟩ := parts
    obtain ⟨rfl, -⟩ := cut?_eq_some cut
    simp only [Option.map_some, Option.filter_some, isIdentifier_octets]
    split
    · next named =>
      have ends : byteSize (front ++ '{' :: (name ++ '}' :: after)) - byteSize after =
          byteSize front + name.length + 2 := by
        have open_size : '{'.utf8Size = 1 := rfl
        have close_size : '}'.utf8Size = 1 := rfl
        have size := byteSize_of_isIdentifier named
        simp only [byteSize_append, byteSize, open_size, close_size]
        omega
      rw [octets_of_ascii (toNat_lt_of_isIdentifier named), Option.map_some, Option.map_some, ends]
    · rfl

/-- Without a brace the reference is the octets of the identifier. -/
theorem reference?_bare (edge : IsEdge line start) (bare : (octets line)[start]? ≠ some '{')
    (named : leadingIdentifier ((octets line).drop start) = name) :
    reference? line start =
      some (if name = [] then none else some (name, start + name.length)) := by
  obtain ⟨front, rest, rfl, rfl⟩ := edge
  rw [← List.head?_drop, octets_drop, ne_eq, head?_octets (by decide)] at bare
  rw [octets_drop, leadingIdentifier_octets] at named
  have taken : takeBytes? rest (byteSize name) = some name := by
    conv_lhs => rw [← leadingIdentifier_append_drop rest, named]
    exact takeBytes?_byteSize name _
  rw [reference?_of_ne (dropBytes?_byteSize front rest) bare, named, taken, ← named,
    byteSize_leadingIdentifier]
  split <;> rfl

/-- The brace that closes has an edge on either side, whatever stands before it. -/
theorem isEdge_close (close : cut? '}' ((octets line).drop start) = some (name, after)) :
    IsEdge line (start + name.length) ∧ IsEdge line (start + name.length + 1) := by
  obtain ⟨shape, -⟩ := cut?_eq_some close
  have seen : (octets line)[start + name.length]? = some '}' := by
    rw [← List.getElem?_drop, shape, List.getElem?_append_right (Nat.le_refl _), Nat.sub_self]
    rfl
  exact isEdge_of_ascii (by decide) seen

theorem isEdge_behind_close
    (close : cut? '}' ((octets line).drop (start + 1)) = some (name, after)) :
    IsEdge line (start + name.length + 2) := by
  have behind := (isEdge_close close).2
  rwa [Nat.add_right_comm start 1 name.length] at behind

/-- A name has an edge behind it, whatever follows it. -/
theorem isEdge_identifier (edge : IsEdge line start)
    (named : leadingIdentifier ((octets line).drop start) = name) :
    IsEdge line (start + name.length) := by
  obtain ⟨front, rest, rfl, rfl⟩ := edge
  rw [octets_drop, leadingIdentifier_octets] at named
  refine ⟨front ++ name, rest.drop name.length, ?_, ?_⟩
  · rw [List.append_assoc, ← named, leadingIdentifier_append_drop]
  · rw [byteSize_append, ← named, byteSize_leadingIdentifier]

theorem exists_reference? (edge : IsEdge line start) :
    ∃ found, reference? line start = some found := by
  obtain ⟨front, rest, rfl, rfl⟩ := edge
  exact ⟨_, reference?_byteSize front rest⟩

theorem isEdge_reference? (edge : IsEdge line start)
    (found : reference? line start = some (some (name, stop))) :
    start < stop ∧ IsEdge line stop := by
  by_cases brace : (octets line)[start]? = some '{'
  · rw [reference?_braced edge brace, Option.some.injEq] at found
    obtain ⟨⟨inside, after⟩, filtered, same⟩ := Option.map_eq_some_iff.mp found
    obtain ⟨rfl, rfl⟩ := Prod.mk.inj same
    obtain ⟨close, -⟩ := Option.filter_eq_some_iff.mp filtered
    exact ⟨by omega, isEdge_behind_close close⟩
  · rw [reference?_bare edge brace rfl, Option.some.injEq] at found
    split at found
    · contradiction
    · next given =>
      obtain ⟨rfl, rfl⟩ := Prod.mk.inj (Option.some.inj found)
      have := List.length_pos_iff.mpr given
      exact ⟨by omega, isEdge_identifier edge rfl⟩

/-! The slices. -/

/-- The slices by which a reference is read, given the offset behind its `$`. -/
inductive Reading (line : Text) (start : Nat) : Nat → Nat → Prop
  | behindDollar : Reading line start start (byteSize line)
  | behindBrace (brace : (octets line)[start]? = some '{') :
      Reading line start (start + 1) (byteSize line)
  | braced {name after : Text} (brace : (octets line)[start]? = some '{')
      (close : cut? '}' ((octets line).drop (start + 1)) = some (name, after)) :
      Reading line start (start + 1) (start + 1 + name.length)
  | bare {name : Text} (unbraced : (octets line)[start]? ≠ some '{')
      (named : leadingIdentifier ((octets line).drop start) = name) (given : name ≠ []) :
      Reading line start start (start + name.length)

/-- The slices that a pass asks for in a turn, and the last one, when the whole line is read. -/
inductive Slices (line : Text) (pass : Pass) : Nat → Nat → Prop
  | reference {start stop : Nat} (dollar : (octets line)[pass.reading]? = some '$')
      (reading : Reading line (pass.reading + 1) start stop) : Slices line pass start stop
  | literal {name : Text} {stop : Nat} (dollar : (octets line)[pass.reading]? = some '$')
      (found : reference? line (pass.reading + 1) = some (some (name, stop))) :
      Slices line pass pass.copied pass.reading
  | last (done : byteSize line ≤ pass.reading) : Slices line pass pass.copied (byteSize line)

theorem Reading.sliceable (edge : IsEdge line n) (reading : Reading line n start stop) :
    Sliceable line start stop := by
  have to_end {n : Nat} (edge : IsEdge line n) : Sliceable line n (byteSize line) :=
    ⟨edge.le, edge, isEdge_byteSize line⟩
  cases reading with
  | behindDollar => exact to_end edge
  | behindBrace brace => exact to_end (isEdge_of_ascii (by decide) brace).2
  | braced brace close =>
    exact ⟨Nat.le_add_right _ _, (isEdge_of_ascii (by decide) brace).2, (isEdge_close close).1⟩
  | bare _ named _ => exact ⟨Nat.le_add_right _ _, edge, isEdge_identifier edge named⟩

/-! One turn. -/

theorem turn_plain (plain : (octets line)[pass.reading]? ≠ some '$') :
    turn lookup line pass = some { pass with reading := pass.reading + 1 } := by
  rw [turn]
  split
  · next rest seen =>
    obtain ⟨front, rfl, size⟩ := dropBytes?_eq_some seen
    exact absurd ((getElem?_octets_ascii (by decide)).mpr ⟨front, rest, rfl, size⟩) plain
  · rfl

theorem turn_at_dollar (lookup : Text → Option Text)
    (dollar : (octets line)[pass.reading]? = some '$') :
    ∃ found, reference? line (pass.reading + 1) = some found ∧ turn lookup line pass =
      match found with
      | none => some { pass with reading := pass.reading + 1 }
      | some (name, stop) => (slice? line pass.copied pass.reading).map fun literal =>
          ⟨stop, stop, pass.output ++ literal ++ (lookup name).getD []⟩ := by
  obtain ⟨found, read⟩ := exists_reference? (isEdge_dollar dollar).2
  obtain ⟨front, rest, rfl, size⟩ := (getElem?_octets_ascii (by decide)).mp dollar
  refine ⟨found, read, ?_⟩
  rw [turn, ← size, dropBytes?_byteSize]
  simp only [size, read, Option.bind_eq_bind, Option.bind_some]
  cases found with
  | none => rfl
  | some parts =>
    simp only [Option.map_eq_bind]
    rfl

/-- A turn fails just when a slice that it asks for cannot be taken. -/
theorem turn_eq_none_iff (more : pass.reading < byteSize line) : turn lookup line pass = none ↔
    ∃ start stop, Slices line pass start stop ∧ ¬ Sliceable line start stop := by
  constructor
  · intro failed
    by_cases dollar : (octets line)[pass.reading]? = some '$'
    · obtain ⟨found, read, outcome⟩ := turn_at_dollar lookup dollar
      rw [failed] at outcome
      cases found with
      | none => contradiction
      | some parts =>
        refine ⟨_, _, .literal dollar read, fun sliceable => ?_⟩
        have sliced := isSome_slice?_iff.mpr sliceable
        rw [Option.map_eq_none_iff.mp outcome.symm] at sliced
        contradiction
    · rw [turn_plain dollar] at failed
      contradiction
  · rintro ⟨start, stop, slices, refused⟩
    -- what is sliced to read a reference is there in every pass, so that only the literal is left
    cases slices with
    | reference dollar reading =>
      exact absurd (reading.sliceable (isEdge_dollar dollar).2) refused
    | literal dollar found =>
      obtain ⟨_, read, outcome⟩ := turn_at_dollar lookup dollar
      obtain rfl := Option.some.inj (found.symm.trans read)
      have failed : slice? line pass.copied pass.reading = none :=
        Option.not_isSome_iff_eq_none.mp (mt isSome_slice?_iff.mp refused)
      rw [outcome, failed]
      rfl
    | last done => exact absurd more (Nat.not_lt.mpr done)

/-- What every turn keeps: the line is copied up to an edge, which is not behind the offset that is
read at. That one may cut a character. -/
structure Ordered (line : Text) (pass : Pass) : Prop where
  edge : IsEdge line pass.copied
  forward : pass.copied ≤ pass.reading
  inside : pass.reading ≤ byteSize line

theorem Ordered.initial (line : Text) : Ordered line ⟨0, 0, []⟩ where
  edge := ⟨[], line, rfl, rfl⟩
  forward := Nat.le_refl 0
  inside := Nat.zero_le _

theorem Ordered.sliceable (ordered : Ordered line pass) (slices : Slices line pass start stop) :
    Sliceable line start stop := by
  cases slices with
  | reference dollar reading => exact reading.sliceable (isEdge_dollar dollar).2
  | literal dollar _ =>
    exact ⟨ordered.forward, ordered.edge, (isEdge_dollar dollar).1⟩
  | last _ => exact ⟨ordered.edge.le, ordered.edge, isEdge_byteSize line⟩

theorem Ordered.exists_turn (lookup : Text → Option Text) (ordered : Ordered line pass)
    (more : pass.reading < byteSize line) : ∃ next, turn lookup line pass = some next := by
  apply Option.ne_none_iff_exists'.mp
  rw [ne_eq, turn_eq_none_iff more]
  rintro ⟨start, stop, slices, refused⟩
  exact refused (ordered.sliceable slices)

theorem Ordered.turn (ordered : Ordered line pass) (more : pass.reading < byteSize line)
    (turned : turn lookup line pass = some next) :
    Ordered line next ∧ pass.reading < next.reading := by
  have further : Ordered line { pass with reading := pass.reading + 1 } :=
    ⟨ordered.edge, Nat.le_succ_of_le ordered.forward, more⟩
  by_cases dollar : (octets line)[pass.reading]? = some '$'
  · obtain ⟨found, read, outcome⟩ := turn_at_dollar lookup dollar
    rw [outcome] at turned
    cases found with
    | none =>
      obtain rfl := Option.some.inj turned
      exact ⟨further, Nat.lt_succ_self _⟩
    | some parts =>
      obtain ⟨literal, -, rfl⟩ := Option.map_eq_some_iff.mp turned
      obtain ⟨behind, edge⟩ := isEdge_reference? (isEdge_dollar dollar).2 read
      exact ⟨⟨edge, Nat.le_refl _, edge.le⟩, Nat.lt_of_succ_lt behind⟩
  · rw [turn_plain dollar] at turned
    obtain rfl := Option.some.inj turned
    exact ⟨further, Nat.lt_succ_self _⟩

/-! The turns of a pass. -/

/-- What the turns over a line come to, with their number. -/
inductive Reached (lookup : Text → Option Text) (line : Text) : (turns : Nat) → Pass → Prop
  | start : Reached lookup line 0 ⟨0, 0, []⟩
  | turn {turns : Nat} {pass next : Pass} (reached : Reached lookup line turns pass)
      (more : pass.reading < byteSize line) (turned : turn lookup line pass = some next) :
      Reached lookup line (turns + 1) next

theorem Reached.ordered (reached : Reached lookup line turns pass) :
    Ordered line pass ∧ turns ≤ pass.reading := by
  induction reached with
  | start => exact ⟨.initial line, Nat.le_refl 0⟩
  | turn _ more turned ih =>
    obtain ⟨ordered, read⟩ := ih
    obtain ⟨next_ordered, further⟩ := ordered.turn more turned
    exact ⟨next_ordered, Nat.lt_of_le_of_lt read further⟩

/-- The turns over a line end with an output: the whole line is read, and what is left of it is
copied. -/
def EndsWith (lookup : Text → Option Text) (line output : Text) : Prop :=
  ∃ turns last rest, Reached lookup line turns last ∧ last.reading = byteSize line ∧
    slice? line last.copied (byteSize line) = some rest ∧ output = last.output ++ rest

theorem Reached.run_done (reached : Reached lookup line n pass)
    (done : byteSize line ≤ pass.reading) (turns : Nat) :
    ∃ output, run lookup line turns pass = some output ∧ EndsWith lookup line output := by
  obtain ⟨ordered, -⟩ := reached.ordered
  have whole : pass.reading = byteSize line := Nat.le_antisymm ordered.inside done
  have sliceable := isSome_slice?_iff.mpr (ordered.sliceable (.last done))
  obtain ⟨rest, sliced⟩ := Option.isSome_iff_exists.mp sliceable
  refine ⟨pass.output ++ rest, ?_, n, pass, rest, reached, whole, sliced, rfl⟩
  rw [Expansion.run_done done, sliced]
  rfl

theorem Reached.run (reached : Reached lookup line n pass)
    (enough : byteSize line ≤ pass.reading + turns) :
    ∃ output, run lookup line turns pass = some output ∧ EndsWith lookup line output := by
  induction turns generalizing n pass with
  | zero => exact reached.run_done enough 0
  | succ turns ih =>
    by_cases done : byteSize line ≤ pass.reading
    · exact reached.run_done done (turns + 1)
    · have more := Nat.not_le.mp done
      obtain ⟨ordered, -⟩ := reached.ordered
      obtain ⟨next, turned⟩ := ordered.exists_turn lookup more
      have further := (ordered.turn more turned).2
      rw [run_succ more, turned, Option.bind_some]
      -- the turn has read at least a byte, so that one turn less is enough for the rest
      exact ih (.turn reached more turned) (by omega)

/-- The offsets of a pass are safe. A slice that it asks for lies between two edges of the line that
are in order. There is an edge behind a brace that closes, whatever the braces hold, and behind
every reference. And where the line goes on, a turn reads further. -/
structure Safe (lookup : Text → Option Text) (line : Text) (pass : Pass) : Prop where
  forward : pass.copied ≤ pass.reading ∧ pass.reading ≤ byteSize line
  slices : ∀ start stop, Slices line pass start stop →
    Sliceable line start stop ∧ stop ≤ byteSize line
  closing : ∀ name after, (octets line)[pass.reading]? = some '$' →
    (octets line)[pass.reading + 1]? = some '{' →
    cut? '}' ((octets line).drop (pass.reading + 2)) = some (name, after) →
    pass.reading + 1 + name.length + 2 ≤ byteSize line ∧
      IsEdge line (pass.reading + 1 + name.length + 2)
  references : ∀ name stop, (octets line)[pass.reading]? = some '$' →
    reference? line (pass.reading + 1) = some (some (name, stop)) →
    pass.reading + 1 < stop ∧ stop ≤ byteSize line ∧ IsEdge line stop
  turns : pass.reading < byteSize line →
    ∃ next, turn lookup line pass = some next ∧ pass.reading < next.reading

theorem Ordered.safe (lookup : Text → Option Text) (ordered : Ordered line pass) :
    Safe lookup line pass where
  forward := ⟨ordered.forward, ordered.inside⟩
  slices start stop slices := by
    have sliceable := ordered.sliceable slices
    exact ⟨sliceable, sliceable.le⟩
  closing name after _ _ close := by
    have edge : IsEdge line (pass.reading + 1 + name.length + 2) := isEdge_behind_close close
    exact ⟨edge.le, edge⟩
  references name stop dollar found := by
    obtain ⟨behind, edge⟩ := isEdge_reference? (isEdge_dollar dollar).2 found
    exact ⟨behind, edge.le, edge⟩
  turns more := by
    obtain ⟨next, turned⟩ := ordered.exists_turn lookup more
    exact ⟨next, turned, (ordered.turn more turned).2⟩

/-- Whatever the line and the variables are, a turn can fail only at a slice that cannot be taken;
but wherever the pass over the line comes to, its offsets are safe; and after no more turns than
there are bytes it ends with an output. -/
theorem safe_until_end (lookup : Text → Option Text) (line : Text) :
    (∀ pass, pass.reading < byteSize line → (turn lookup line pass = none ↔
      ∃ start stop, Slices line pass start stop ∧ ¬ Sliceable line start stop)) ∧
    (∀ turns pass, Reached lookup line turns pass →
      Safe lookup line pass ∧ turns ≤ pass.reading) ∧
    ∃ output, expand? lookup line = some output ∧ EndsWith lookup line output := by
  refine ⟨fun pass => turn_eq_none_iff, ?_, ?_⟩
  · intro turns pass reached
    obtain ⟨ordered, read⟩ := reached.ordered
    exact ⟨ordered.safe lookup, read⟩
  · exact Reached.run .start (Nat.le_add_left _ _)

/-- Characters of several bytes behind a `$`, between braces and on either side of a reference. -/
example : expand? (fun _ => some ['✓']) "$é$\x7bé\x7d$A✓$\x7bAé\x7d✓$\x7bA\x7dé$".toList =
    some "$é$\x7bé\x7d✓✓$\x7bAé\x7d✓✓é$".toList := by decide +kernel

end LineShell.Expansion
