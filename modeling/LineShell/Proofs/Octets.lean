import LineShell.Proofs.ReferenceReading
import LineShell.Text.Utf8

/-! A text as its bytes show it. A character is one octet below `0x80`, itself, or an octet from
`0xC0` on with octets between the two behind it (`octets_char`). So an ASCII character is seen on
the octets just where it stands in the text, and a cut at one and the identifier at the front are
found on the octets as they are on the characters. An offset is an edge if it cuts no character,
which the octet behind it tells (`isEdge_iff_octet`); a text can be sliced between edges, and only
there (`isSome_slice?_iff`). -/

namespace LineShell

variable {text : Text} {c o : Char} {n start stop : Nat}

/-- An octet that goes on with a character that has been begun. -/
def Continues (o : Char) : Prop := 0x80 ≤ o.toNat ∧ o.toNat < 0xC0

theorem octets_append (a b : Text) : octets (a ++ b) = octets a ++ octets b := by
  rw [octets, encode, List.flatMap_append, byteOctets, List.map_append]
  rfl

theorem octets_cons (c : Char) (rest : Text) : octets (c :: rest) = octets [c] ++ octets rest :=
  octets_append [c] rest

theorem octets_singleton (c : Char) :
    octets [c] = (String.utf8EncodeChar c).map fun b => Char.ofNat b.toNat := by
  simp [octets, encode, byteOctets]

theorem length_octets (text : Text) : (octets text).length = byteSize text := by
  induction text with
  | nil => rfl
  | cons c rest ih =>
    rw [octets_cons, List.length_append, ih, octets_singleton, List.length_map,
      String.length_utf8EncodeChar, byteSize]

theorem toNat_octet {m : Nat} (fits : m < 256) : (Char.ofNat (UInt8.ofNat m).toNat).toNat = m := by
  have valid : m.isValidChar := .inl (by omega)
  rw [UInt8.toNat_ofNat', Nat.mod_eq_of_lt fits, Char.ofNat, dif_pos valid]
  rfl

theorem continues_octet (m : Nat) : Continues (Char.ofNat (UInt8.ofNat (m % 64 + 128)).toNat) := by
  rw [Continues, toNat_octet (by omega)]
  omega

theorem octets_char (c : Char) : (c.toNat < 0x80 ∧ octets [c] = [c]) ∨
    0x80 ≤ c.toNat ∧ ∃ lead tail, octets [c] = lead :: tail ∧ 0xC0 ≤ lead.toNat ∧
      ∀ o ∈ tail, Continues o := by
  have code : c.val.toNat = c.toNat := rfl
  rw [octets_singleton]
  fun_cases String.utf8EncodeChar c with
  | case1 v one =>
    have same : Char.ofNat (UInt8.ofNat v).toNat = c :=
      Char.toNat_inj.mp (toNat_octet (by omega))
    exact .inl ⟨by omega, congrArg ([·]) same⟩
  | case2 | case3 | case4 =>
    -- the first octet has the length in its upper bits, every other one six bits of the number
    refine .inr ⟨by omega, _, _, rfl, ?_, ?_⟩
    · rw [toNat_octet (by omega)]
      omega
    · simp only [List.forall_mem_cons, List.map_cons, List.map_nil, continues_octet,
        List.not_mem_nil, false_implies, implies_true, and_true]

/-! ASCII characters. -/

theorem octets_ascii (ascii : c.toNat < 0x80) : octets [c] = [c] := by
  rcases octets_char c with ⟨-, same⟩ | ⟨high, -⟩
  · exact same
  · omega

/-- An octet below `0x80` is a whole character. -/
theorem eq_of_mem_octets (ascii : o.toNat < 0x80) (inside : o ∈ octets [c]) : o = c := by
  rcases octets_char c with ⟨-, same⟩ | ⟨-, lead, tail, shape, high, continued⟩
  · rwa [same, List.mem_singleton] at inside
  · rw [shape] at inside
    rcases List.mem_cons.mp inside with rfl | behind
    · omega
    · have := (continued o behind).1
      omega

theorem mem_octets_iff (ascii : c.toNat < 0x80) : c ∈ octets text ↔ c ∈ text := by
  induction text with
  | nil => rfl
  | cons d rest ih =>
    rw [octets_cons, List.mem_append, List.mem_cons, ih]
    refine or_congr_left ⟨eq_of_mem_octets ascii, ?_⟩
    rintro rfl
    rw [octets_ascii ascii]
    exact List.mem_singleton_self c

theorem cut?_octets (ascii : c.toNat < 0x80) (text : Text) : cut? c (octets text) =
    (cut? c text).map fun (before, after) => (octets before, octets after) := by
  cases cut : cut? c text with
  | none => exact cut?_eq_none.mpr (mt (mem_octets_iff ascii).mp (cut?_eq_none.mp cut))
  | some parts =>
    obtain ⟨before, after⟩ := parts
    obtain ⟨rfl, absent⟩ := cut?_eq_some cut
    rw [octets_append, octets_cons, octets_ascii ascii]
    exact Expansion.cut?_append (mt (mem_octets_iff ascii).mp absent) (octets after)

/-- Characters of a kind that is ASCII only are the same run of octets. -/
theorem takeWhile_octets {p : Char → Bool} (ascii : ∀ c, p c = true → c.toNat < 0x80)
    (text : Text) : (octets text).takeWhile p = text.takeWhile p := by
  have refuse (c : Char) (high : 0x80 ≤ c.toNat) : ¬ p c = true := fun taken => by
    have := ascii c taken
    omega
  induction text with
  | nil => rfl
  | cons c rest ih =>
    rw [octets_cons]
    rcases octets_char c with ⟨-, same⟩ | ⟨high, lead, tail, shape, lead_high, -⟩
    · rw [same, List.singleton_append, List.takeWhile_cons, List.takeWhile_cons, ih]
    · rw [shape, List.cons_append, List.takeWhile_cons_of_neg (refuse lead (by omega)),
        List.takeWhile_cons_of_neg (refuse c high)]

theorem toNat_lt_of_isNameChar (named : isNameChar c = true) : c.toNat < 0x80 := by
  simp only [isNameChar, isNameStart, Bool.or_eq_true, decide_eq_true_eq] at named
  have code : c.val.toNat = c.toNat := rfl
  rcases named with (rfl | letter) | digit
  · decide
  · rcases (Bool.or_eq_true _ _).mp letter with upper | lower
    · have range : 'A'.val ≤ c.val ∧ c.val ≤ 'Z'.val := of_decide_eq_true upper
      have low : c.val.toNat ≤ 90 := UInt32.le_iff_toNat_le.mp range.2
      omega
    · have last : c.val ≤ 'z'.val := of_decide_eq_true ((Bool.and_eq_true _ _).mp lower).2
      have low : c.val.toNat ≤ 122 := UInt32.le_iff_toNat_le.mp last
      omega
  · have low : c.toNat ≤ 57 := (Char.isDigit_iff_toNat.mp digit).2
    omega

theorem leadingIdentifier_octets (text : Text) :
    leadingIdentifier (octets text) = leadingIdentifier text := by
  have refuse (c : Char) (high : 0x80 ≤ c.toNat) : ¬ isNameStart c = true := fun start => by
    have := toNat_lt_of_isNameChar (c := c) (by rw [isNameChar, start, Bool.true_or])
    omega
  cases text with
  | nil => rfl
  | cons c rest =>
    rw [octets_cons]
    rcases octets_char c with ⟨-, same⟩ | ⟨high, lead, tail, shape, lead_high, -⟩
    · rw [same, List.singleton_append, leadingIdentifier, leadingIdentifier,
        takeWhile_octets (fun _ => toNat_lt_of_isNameChar)]
    · rw [shape, List.cons_append, leadingIdentifier, leadingIdentifier,
        if_neg (refuse lead (by omega)), if_neg (refuse c high)]

theorem head?_octets (ascii : c.toNat < 0x80) :
    (octets text).head? = some c ↔ text.head? = some c := by
  cases text with
  | nil => rfl
  | cons d rest =>
    rw [octets_cons, List.head?_cons]
    rcases octets_char d with ⟨-, same⟩ | ⟨high, lead, tail, shape, lead_high, -⟩
    · rw [same]
      rfl
    · rw [shape, List.cons_append, List.head?_cons, Option.some.injEq, Option.some.injEq]
      constructor <;> (rintro rfl; omega)

theorem octets_of_ascii (ascii : ∀ c ∈ text, c.toNat < 0x80) : octets text = text := by
  induction text with
  | nil => rfl
  | cons c rest ih =>
    obtain ⟨first, others⟩ := List.forall_mem_cons.mp ascii
    rw [octets_cons, octets_ascii first, ih others]
    rfl

theorem octets_of_ascii_octets (ascii : ∀ o ∈ octets text, o.toNat < 0x80) :
    octets text = text := by
  refine octets_of_ascii fun c inside => ?_
  rcases octets_char c with ⟨low, -⟩ | ⟨-, lead, tail, shape, high, -⟩
  · exact low
  · obtain ⟨front, back, rfl⟩ := List.append_of_mem inside
    have here : lead ∈ octets (front ++ c :: back) := by
      rw [octets_append, octets_cons, shape]
      simp
    have := ascii lead here
    omega

theorem toNat_lt_of_isIdentifier (named : isIdentifier text = true) :
    ∀ c ∈ text, c.toNat < 0x80 := fun c inside =>
  toNat_lt_of_isNameChar (Expansion.isNameChar_of_isIdentifier named c inside)

theorem isIdentifier_octets (text : Text) : isIdentifier (octets text) = isIdentifier text := by
  rw [Bool.eq_iff_iff]
  constructor
  · intro named
    rwa [octets_of_ascii_octets (toNat_lt_of_isIdentifier named)] at named
  · intro named
    rwa [octets_of_ascii (toNat_lt_of_isIdentifier named)]

theorem byteSize_of_isIdentifier (named : isIdentifier text = true) :
    byteSize text = text.length := by
  rw [← length_octets, octets_of_ascii (toNat_lt_of_isIdentifier named)]

theorem byteSize_leadingIdentifier (text : Text) :
    byteSize (leadingIdentifier text) = (leadingIdentifier text).length := by
  rcases leadingIdentifier_eq_nil_or text with empty | named
  · rw [empty]
    rfl
  · exact byteSize_of_isIdentifier named

/-! Edges. -/

/-- An offset that cuts no character: it is the size of what stands before it. -/
def IsEdge (text : Text) (n : Nat) : Prop :=
  ∃ front back, text = front ++ back ∧ byteSize front = n

theorem IsEdge.le (edge : IsEdge text n) : n ≤ byteSize text := by
  obtain ⟨front, back, rfl, rfl⟩ := edge
  rw [byteSize_append]
  exact Nat.le_add_right _ _

theorem isEdge_byteSize (text : Text) : IsEdge text (byteSize text) :=
  ⟨text, [], (List.append_nil text).symm, rfl⟩

theorem octets_drop (front back : Text) :
    (octets (front ++ back)).drop (byteSize front) = octets back := by
  rw [octets_append, ← length_octets, List.drop_left]

/-- An octet of a text is an octet of one of its characters. -/
theorem exists_char_of_octet (there : (octets text)[n]? = some o) : ∃ front c back k,
    text = front ++ c :: back ∧ n = byteSize front + k ∧ (octets [c])[k]? = some o := by
  induction text generalizing n with
  | nil => contradiction
  | cons c rest ih =>
    rw [octets_cons, List.getElem?_append] at there
    split at there
    · exact ⟨[], c, rest, n, rfl, (Nat.zero_add n).symm, there⟩
    · next beyond =>
      obtain ⟨front, d, back, k, rfl, offset, seen⟩ := ih there
      refine ⟨c :: front, d, back, k, rfl, ?_, seen⟩
      rw [length_octets, byteSize, byteSize] at beyond offset
      rw [byteSize]
      omega

/-- An ASCII octet is at the edge of the character it is. -/
theorem getElem?_octets_ascii (ascii : c.toNat < 0x80) : (octets text)[n]? = some c ↔
    ∃ front back, text = front ++ c :: back ∧ byteSize front = n := by
  constructor
  · intro there
    obtain ⟨front, d, back, k, rfl, rfl, seen⟩ := exists_char_of_octet there
    obtain rfl := eq_of_mem_octets ascii (List.mem_of_getElem? seen)
    rw [octets_ascii ascii] at seen
    cases k with
    | zero => exact ⟨front, back, rfl, rfl⟩
    | succ k => contradiction
  · rintro ⟨front, back, rfl, rfl⟩
    rw [← List.head?_drop, octets_drop, head?_octets ascii, List.head?_cons]

/-- An ASCII octet has an edge on either side. -/
theorem isEdge_of_ascii (ascii : c.toNat < 0x80) (seen : (octets text)[n]? = some c) :
    IsEdge text n ∧ IsEdge text (n + 1) := by
  obtain ⟨front, rest, rfl, rfl⟩ := (getElem?_octets_ascii ascii).mp seen
  refine ⟨⟨front, c :: rest, rfl, rfl⟩, front ++ [c], rest, List.append_cons .., ?_⟩
  rw [byteSize_append, ← length_octets [c], octets_ascii ascii, List.length_singleton]

/-- The octet behind an offset tells whether the offset is an edge: it is one at the end, and where
no octet stands that goes on with a character. -/
theorem isEdge_iff_octet : IsEdge text n ↔
    n = byteSize text ∨ ∃ o, (octets text)[n]? = some o ∧ ¬ Continues o := by
  constructor
  · rintro ⟨front, back, rfl, rfl⟩
    cases back with
    | nil => exact .inl (by rw [List.append_nil])
    | cons c rest =>
      rw [← List.head?_drop, octets_drop, octets_cons]
      rcases octets_char c with ⟨low, same⟩ | ⟨-, lead, tail, shape, high, -⟩
      · exact .inr ⟨c, by rw [same]; rfl, fun continued => Nat.not_lt.mpr continued.1 low⟩
      · exact .inr ⟨lead, by rw [shape]; rfl, fun continued => Nat.not_lt.mpr high continued.2⟩
  · rintro (rfl | ⟨o, there, fresh⟩)
    · exact isEdge_byteSize text
    obtain ⟨front, c, back, k, rfl, rfl, seen⟩ := exists_char_of_octet there
    cases k with
    | zero => exact ⟨front, c :: back, rfl, rfl⟩
    | succ k =>
      rcases octets_char c with ⟨-, same⟩ | ⟨-, lead, tail, shape, -, continued⟩
      · rw [same] at seen
        contradiction
      · rw [shape, List.getElem?_cons_succ] at seen
        exact absurd (continued o (List.mem_of_getElem? seen)) fresh

/-! Slices. -/

theorem dropBytes?_eq_some {back : Text} (dropped : dropBytes? text n = some back) :
    ∃ front, text = front ++ back ∧ byteSize front = n := by
  fun_induction dropBytes? text n with
  | case1 text => exact ⟨[], Option.some.inj dropped, rfl⟩
  | case2 => contradiction
  | case3 c rest n fits ih =>
    obtain ⟨front, rfl, size⟩ := ih dropped
    exact ⟨c :: front, rfl, by rw [byteSize]; omega⟩
  | case4 => contradiction

theorem takeBytes?_eq_some {front : Text} (taken : takeBytes? text n = some front) :
    ∃ back, text = front ++ back ∧ byteSize front = n := by
  fun_induction takeBytes? text n generalizing front with
  | case1 text =>
    obtain rfl := Option.some.inj taken
    exact ⟨text, rfl, rfl⟩
  | case2 => contradiction
  | case3 c rest n fits ih =>
    obtain ⟨part, behind, rfl⟩ := Option.map_eq_some_iff.mp taken
    obtain ⟨back, rfl, size⟩ := ih behind
    exact ⟨back, rfl, by rw [byteSize]; omega⟩
  | case4 => contradiction

/-- Two offsets between which a text can be sliced. -/
structure Sliceable (text : Text) (start stop : Nat) : Prop where
  forward : start ≤ stop
  start_edge : IsEdge text start
  stop_edge : IsEdge text stop

theorem Sliceable.le (sliceable : Sliceable text start stop) : stop ≤ byteSize text :=
  sliceable.stop_edge.le

theorem isSome_slice?_iff : (slice? text start stop).isSome ↔ Sliceable text start stop := by
  constructor
  · intro sliced
    rw [slice?] at sliced
    split at sliced
    · next forward =>
      obtain ⟨part, sliced⟩ := Option.isSome_iff_exists.mp sliced
      obtain ⟨back, dropped, taken⟩ := Option.bind_eq_some_iff.mp sliced
      obtain ⟨front, rfl, rfl⟩ := dropBytes?_eq_some dropped
      obtain ⟨rest, rfl, size⟩ := takeBytes?_eq_some taken
      refine ⟨forward, ⟨front, part ++ rest, rfl, rfl⟩, front ++ part, rest, ?_, ?_⟩
      · rw [List.append_assoc]
      · rw [byteSize_append]
        omega
    · contradiction
  · rintro ⟨forward, ⟨front, back, rfl, rfl⟩, ⟨longer, rest, same, rfl⟩⟩
    obtain ⟨part, rfl, rfl⟩ : ∃ part, longer = front ++ part ∧ back = part ++ rest := by
      rcases List.append_eq_append_iff.mp same with ahead | ⟨part, rfl, rfl⟩
      · exact ahead
      · rw [byteSize_append] at forward
        obtain rfl := Expansion.byteSize_eq_zero_iff.mp (show byteSize part = 0 by omega)
        exact ⟨[], by simp, rfl⟩
    rw [byteSize_append, ← List.append_assoc, slice?_byteSize]
    rfl

end LineShell
