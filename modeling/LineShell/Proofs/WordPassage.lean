import LineShell.Proofs.AtomicStep

/-! The way of one word into its slot, while a pass is at work and may have interrupted another. As
long as no pass starts while another one holds the word, each step brings it forward or leaves it
where it is (`Stage.step`). -/

namespace LineShell.Atomic

variable {p i : Nat} {m : Memory} {pc : Pc}

/-- The pass has the word of a child, and the slot of the child does not say so yet. -/
def Pc.Holds (pid : Nat) : Pc → Prop
  | .take _ q (some _) _ => q = pid
  | .matchPhase q _ _ | .matchPid q _ _ | .claim q _ _ => q = pid
  | _ => False

instance Pc.decidableHolds (pid : Nat) (pc : Pc) : Decidable (pc.Holds pid) := by
  unfold Pc.Holds
  split <;> infer_instance

/-- Slot `i` belongs to the job `p`, and no other slot shows it. -/
structure Clear (p i : Nat) (m : Memory) : Prop where
  inside : i < m.size
  own : (m.cells i).pid = p
  others : ∀ k < m.size, k ≠ i → (m.cells k).pid = p →
    (m.cells k).phase = .free ∨ (m.cells k).phase = .claimed
  quiet : m.foreground = 0
  distinct : m.children.Distinct

theorem Clear.ne (clear : Clear p i m) {k : Nat} (foreign : (m.cells k).pid ≠ p) : k ≠ i := by
  rintro rfl
  exact foreign clear.own

theorem Clear.foreign (clear : Clear p i m) {k : Nat} (inside : k < m.size) (elsewhere : k ≠ i)
    (free : (m.cells k).phase ≠ .free) (claimed : (m.cells k).phase ≠ .claimed) :
    (m.cells k).pid ≠ p :=
  fun same => not_or.mpr ⟨free, claimed⟩ (clear.others k inside elsewhere same)

theorem Clear.withChildren (clear : Clear p i m) {children : ChildTable}
    (distinct : children.Distinct) : Clear p i (m.withChildren children) :=
  ⟨clear.inside, clear.own, clear.others, clear.quiet, distinct⟩

theorem Clear.setOwn (clear : Clear p i m) {x : Cell} (own : x.pid = p) :
    Clear p i (m.setCell i x) := by
  refine ⟨clear.inside, ?_, fun k inside elsewhere => ?_, clear.quiet, clear.distinct⟩
  · rw [cells_setCell, if_pos rfl, own]
  · rw [cells_setCell, if_neg elsewhere]
    exact clear.others k inside elsewhere

theorem Clear.setOther (clear : Clear p i m) {k : Nat} (elsewhere : k ≠ i) {x : Cell}
    (hidden : x.pid = p → x.phase = .free ∨ x.phase = .claimed) : Clear p i (m.setCell k x) := by
  refine ⟨clear.inside, ?_, fun j inside other => ?_, clear.quiet, clear.distinct⟩
  · rw [cells_setCell, if_neg (Ne.symm elsewhere)]
    exact clear.own
  · rw [cells_setCell]
    split
    · exact hidden
    · exact clear.others j inside other

/-- The pass does not have the word of `p`, and does not write into slot `i`. -/
def Clean (p i : Nat) (m : Memory) : Pc → Prop
  | .loadPid j => j ≠ i → (m.cells j).pid ≠ p
  | .ask j q => (j = i ↔ q = p) ∧ (j ≠ i → (m.cells j).pid ≠ p)
  | .seekPhase j q k => (j = i ↔ q = p) ∧ (j ≠ i → (m.cells j).pid ≠ p) ∧
    (j = i → k ≤ i ∧ (m.cells i).phase = .done)
  | .seekPid j q k => (j = i ↔ q = p) ∧ (j ≠ i → (m.cells j).pid ≠ p) ∧
    (j = i → k ≤ i ∧ (m.cells i).phase = .done ∧ (k ≠ i → (m.cells k).pid ≠ p))
  | .take j q _ _ => (m.cells j).pid ≠ p ∧ q ≠ p
  | .giveBack j | .fill j _ _ | .close j _ | .putWord _ j | .putDone j => (m.cells j).pid ≠ p
  | .matchPhase q _ _ | .matchPid q _ _ | .claim q _ _ => q ≠ p
  | .putPid q _ j => j ≠ i ∧ q ≠ p
  | .loadPhase _ | .loadForeground | .sweep | .finished => True

theorem clean_back (m : Memory) (back : Back) : Clean p i m back.pc := by
  cases back <;> trivial

/-- What a clean pass counts on no other pass takes away. -/
theorem Clean.keep {n : Memory} (clean : Clean p i m pc)
    (foreign : ∀ k, (m.cells k).pid ≠ p → (n.cells k).pid ≠ p)
    (done : (m.cells i).phase = .done → (n.cells i).phase = .done) : Clean p i n pc := by
  cases pc with
  | loadPid j => exact fun elsewhere => foreign j (clean elsewhere)
  | ask j q => exact ⟨clean.1, fun elsewhere => foreign j (clean.2 elsewhere)⟩
  | seekPhase j q k =>
    obtain ⟨same, elsewhere, here⟩ := clean
    refine ⟨same, fun other => foreign j (elsewhere other), fun own => ?_⟩
    exact ⟨(here own).1, done (here own).2⟩
  | seekPid j q k =>
    obtain ⟨same, elsewhere, here⟩ := clean
    refine ⟨same, fun other => foreign j (elsewhere other), fun own => ?_⟩
    obtain ⟨bound, shown, before⟩ := here own
    exact ⟨bound, done shown, fun other => foreign k (before other)⟩
  | take j q word back => exact ⟨foreign j clean.1, clean.2⟩
  | giveBack j => exact foreign j clean
  | fill j word back => exact foreign j clean
  | close j back => exact foreign j clean
  | putWord word j => exact foreign j clean
  | putDone j => exact foreign j clean
  | _ => exact clean

theorem Clean.not_holds (clean : Clean p i m pc) : ¬ pc.Holds p := by
  cases pc with
  | take j q word back =>
    cases word with
    | none => exact id
    | some w => exact clean.2
  | matchPhase q word j => exact clean
  | matchPid q word j => exact clean
  | claim q word j => exact clean
  | _ => exact id

/-- A write of a clean pass is into another slot, and does not show `p` there. -/
theorem Clean.write (clean : Clean p i m pc) (clear : Clear p i m)
    (taken : (m.cells i).phase ≠ .free) {k : Nat} {x : Cell} (write : Write m pc k x) :
    k ≠ i ∧ (x.pid = p → x.phase = .claimed) ∧ ((m.cells k).pid ≠ p → x.pid ≠ p) := by
  cases write with
  | giveBack => exact ⟨clear.ne clean, fun own => absurd own clean, id⟩
  | take => exact ⟨clear.ne clean.1, fun own => absurd own clean.1, id⟩
  | fill => exact ⟨clear.ne clean, fun own => absurd own clean, id⟩
  | close => exact ⟨clear.ne clean, fun own => absurd own clean, id⟩
  | claim free =>
    refine ⟨?_, fun _ => rfl, id⟩
    rintro rfl
    exact taken free
  | putPid => exact ⟨clean.1, fun own => absurd own clean.2, fun _ => clean.2⟩
  | putWord => exact ⟨clear.ne clean, fun own => absurd own clean, id⟩
  | putDone => exact ⟨clear.ne clean, fun own => absurd own clean, id⟩

theorem Clean.memory (clean : Clean p i m pc) (clear : Clear p i m)
    (taken : (m.cells i).phase ≠ .free) :
    Clear p i (pc.step m).1 ∧ (pc.step m).1.cells i = m.cells i ∧
      ∀ k, (m.cells k).pid ≠ p → ((pc.step m).1.cells k).pid ≠ p := by
  rcases step_cases m clear.distinct pc with
    same | ⟨q, word, -, -, collected⟩ | ⟨k, x, write, written⟩
  · rw [same]
    exact ⟨clear, rfl, fun _ => id⟩
  · rw [collected]
    exact ⟨clear.withChildren (clear.distinct.setStatus q .collected), rfl, fun _ => id⟩
  · obtain ⟨elsewhere, hidden, foreign⟩ := clean.write clear taken write
    rw [written]
    refine ⟨clear.setOther elsewhere fun own => .inr (hidden own), ?_, fun j other => ?_⟩
    · rw [cells_setCell, if_neg (Ne.symm elsewhere)]
    · rw [cells_setCell]
      split
      · next here => exact foreign (here ▸ other)
      · exact other

/-- The pass has loaded nothing of slot `i` that it goes on from, and does not write it. -/
def Leaves (i : Nat) : Pc → Prop
  | .loadPid j | .ask j _ | .seekPhase j _ _ | .seekPid j _ _ | .giveBack j | .fill j _ _
  | .close j _ | .putPid _ _ j | .putWord _ j | .putDone j => j ≠ i
  | _ => True

/-- The pass has the word of `p`, and goes on to slot `i` with it. -/
def Holding (p i : Nat) (word : StatusWord) (m : Memory) : Pc → Prop
  | .take j q w _ => j = i ∧ q = p ∧ w = some word
  | .matchPhase q w k => q = p ∧ w = word ∧ k ≤ i
  | .matchPid q w k => q = p ∧ w = word ∧ k ≤ i ∧ (k ≠ i → (m.cells k).pid ≠ p)
  | _ => False

theorem Clean.load {j : Nat} (clear : Clear p i m) :
    Clean p i m (Pc.step m (.loadPhase j)).2 := by
  rw [Pc.step]
  split
  · next inside =>
    split
    · next running =>
      exact fun elsewhere => clear.foreign inside elsewhere (by simp [running]) (by simp [running])
    · trivial
  · trivial

theorem Clean.ask {j q : Nat} (clean : Clean p i m (.ask j q))
    (known : m.children.status? p ≠ none)
    (shown : m.children.status? p = some .collected →
      (m.cells i).phase = .done ∨ Leaves i (.ask j q))
    (same : (Pc.step m (.ask j q)).1.children.status? p = m.children.status? p) :
    Clean p i m (Pc.step m (.ask j q)).2 := by
  obtain ⟨own, elsewhere⟩ := clean
  cases status : m.children.status? q with
  | none =>
    rw [Pc.step, ChildTable.collect_of_gone (.inr status)]
    exact ⟨own, elsewhere, fun here => absurd (own.mp here ▸ status) known⟩
  | some now =>
    cases now with
    | running =>
      rw [Pc.step, ChildTable.collect.eq_def, status]
      trivial
    | ended word =>
      have other : q ≠ p := by
        rintro rfl
        rw [Pc.step, ChildTable.collect_of_ended status] at same
        exact collected_ne status same
      rw [Pc.step, ChildTable.collect_of_ended status]
      exact ⟨elsewhere fun here => other (own.mp here), other⟩
    | collected =>
      -- Only a pass that has put the word into slot `i` has collected `p` by now.
      rw [Pc.step, ChildTable.collect_of_gone (.inl status)]
      refine ⟨own, elsewhere, fun here => ⟨Nat.zero_le i, ?_⟩⟩
      exact (shown (own.mp here ▸ status)).resolve_right fun leaves => leaves here

theorem Clean.seekPhase {j q k : Nat} (clean : Clean p i m (.seekPhase j q k))
    (clear : Clear p i m) : Clean p i m (Pc.step m (.seekPhase j q k)).2 := by
  obtain ⟨own, elsewhere, here⟩ := clean
  rw [Pc.step]
  split
  · next inside =>
    split
    · next finished =>
      refine ⟨own, elsewhere, fun same => ⟨(here same).1, (here same).2, fun other => ?_⟩⟩
      exact clear.foreign inside other (by simp [finished]) (by simp [finished])
    · next unfinished =>
      refine ⟨own, elsewhere, fun same => ⟨?_, (here same).2⟩⟩
      obtain ⟨bound, finished⟩ := here same
      have ne : k ≠ i := by
        rintro rfl
        exact unfinished finished
      omega
  · next outside =>
    -- A search for `p` ends in slot `i` at the latest, so this is one for another job.
    have other : j ≠ i := fun same => outside (Nat.lt_of_le_of_lt (here same).1 clear.inside)
    exact ⟨elsewhere other, fun same => other (own.mpr same)⟩

theorem Clean.seekPid {j q k : Nat} (clean : Clean p i m (.seekPid j q k))
    (clear : Clear p i m) : Clean p i m (Pc.step m (.seekPid j q k)).2 := by
  obtain ⟨own, elsewhere, here⟩ := clean
  rw [Pc.step]
  split
  · next found =>
    split
    · trivial
    · next apart =>
      refine elsewhere fun same => ?_
      subst same
      exact (here rfl).2.2 apart (found.trans (own.mp rfl))
  · next missed =>
    refine ⟨own, elsewhere, fun same => ⟨?_, (here same).2.1⟩⟩
    have ne : k ≠ i := by
      rintro rfl
      exact missed (clear.own.trans (own.mp same).symm)
    have bound := (here same).1
    omega

theorem Clean.sweep (distinct : m.children.Distinct)
    (same : (Pc.step m .sweep).1.children.status? p = m.children.status? p) :
    Clean p i m (Pc.step m .sweep).2 := by
  cases list : m.children.ended with
  | nil =>
    rw [Pc.step, list]
    trivial
  | cons child others =>
    obtain ⟨q, word⟩ := child
    have ended : m.children.status? q = some (.ended word) :=
      (ChildTable.mem_ended_iff distinct).mp (by simp [list])
    have other : q ≠ p := by
      rintro rfl
      rw [Pc.step, list] at same
      exact collected_ne ended same
    rw [Pc.step, list]
    exact other

/-- A clean pass that leaves the child `p` alone stays clean. -/
theorem Clean.stay (clean : Clean p i m pc) (clear : Clear p i m)
    (taken : (m.cells i).phase ≠ .free) (known : m.children.status? p ≠ none)
    (shown : m.children.status? p = some .collected → (m.cells i).phase = .done ∨ Leaves i pc)
    (same : (pc.step m).1.children.status? p = m.children.status? p) :
    Clean p i (pc.step m).1 (pc.step m).2 := by
  obtain ⟨-, cell_eq, foreign⟩ := clean.memory clear taken
  have done (h : (m.cells i).phase = .done) : ((pc.step m).1.cells i).phase = .done := by
    rw [cell_eq, h]
  have keep {next : Pc} (clean : Clean p i m next) : Clean p i (pc.step m).1 next :=
    clean.keep foreign done
  cases pc with
  | loadPhase j => exact keep (.load clear)
  | loadPid j =>
    refine keep ⟨⟨?_, fun own => ?_⟩, clean⟩
    · rintro rfl
      exact clear.own
    · by_contra elsewhere
      exact clean elsewhere own
  | ask j q => exact keep (clean.ask known shown same)
  | seekPhase j q k => exact keep (clean.seekPhase clear)
  | seekPid j q k => exact keep (clean.seekPid clear)
  | giveBack j => trivial
  | take j q word back =>
    refine keep ?_
    rw [Pc.step]
    split
    · exact clean.1
    · exact clean_back m back
  | fill j word back => exact keep clean
  | close j back => exact clean_back _ back
  | loadForeground =>
    rw [Pc.step]
    split <;> trivial
  | sweep => exact keep (.sweep clear.distinct same)
  | matchPhase q word j =>
    refine keep ?_
    rw [Pc.step]
    split
    · split <;> exact clean
    · exact clean
  | matchPid q word j =>
    refine keep ?_
    rw [Pc.step]
    split
    · next found => exact ⟨found ▸ clean, clean⟩
    · exact clean
  | claim q word j =>
    refine keep ?_
    rw [Pc.step]
    split
    · split
      · next free =>
        refine ⟨?_, clean⟩
        rintro rfl
        exact taken free
      · exact clean
    · trivial
  | putPid q word j =>
    -- The number in the slot is new, so nothing is kept of the old one.
    have stored : ((Pc.step m (.putPid q word j)).1.cells j).pid = q := by
      simp [Pc.step, Memory.setPid, cells_setCell]
    exact fun own => clean.2 (stored.symm.trans own)
  | putWord word j => exact keep clean
  | putDone j => trivial
  | finished => trivial

theorem Clean.next (clean : Clean p i m pc) (clear : Clear p i m)
    (taken : (m.cells i).phase ≠ .free) (known : m.children.status? p ≠ none)
    (shown : m.children.status? p = some .collected → (m.cells i).phase = .done ∨ Leaves i pc) :
    ((pc.step m).1.children.status? p = m.children.status? p ∧
      Clean p i (pc.step m).1 (pc.step m).2) ∨
    ∃ word, m.children.status? p = some (.ended word) ∧
      (pc.step m).1.children.status? p = some .collected ∧
      Holding p i word (pc.step m).1 (pc.step m).2 := by
  rcases status_step clear.distinct p pc with same | ⟨word, ended, collected, collect⟩
  · exact .inl ⟨same, clean.stay clear taken known shown same⟩
  · refine .inr ⟨word, ended, collected, ?_⟩
    generalize (pc.step m).2 = next at collect ⊢
    cases collect with
    | ask j => exact ⟨clean.1.mpr rfl, rfl, rfl⟩
    | sweep => exact ⟨rfl, rfl, Nat.zero_le i⟩

/-- A pass that leaves slot `i` does not come back to it before the slot is free or runs. -/
theorem Leaves.next (leaves : Leaves i pc) (idle : (m.cells i).phase ≠ .running)
    (taken : (m.cells i).phase ≠ .free) : Leaves i (pc.step m).2 := by
  have back (b : Back) : Leaves i b.pc := by
    cases b <;> trivial
  cases pc with
  | loadPhase j =>
    rw [Pc.step]
    split
    · split
      · next running =>
        rintro rfl
        exact idle running
      · trivial
    · trivial
  | ask j q =>
    rw [Pc.step]
    split
    · trivial
    · trivial
    · exact leaves
  | seekPhase j q k =>
    rw [Pc.step]
    split
    · split <;> exact leaves
    · trivial
  | seekPid j q k =>
    rw [Pc.step]
    split
    · split
      · trivial
      · exact leaves
    · exact leaves
  | take j q word b =>
    rw [Pc.step]
    split
    · next running =>
      rintro rfl
      exact idle running
    · exact back b
  | close j b => exact back b
  | loadForeground =>
    rw [Pc.step]
    split <;> trivial
  | sweep =>
    rw [Pc.step]
    split <;> trivial
  | matchPhase q word j =>
    rw [Pc.step]
    split
    · split <;> trivial
    · trivial
  | matchPid q word j =>
    rw [Pc.step]
    split <;> trivial
  | claim q word j =>
    rw [Pc.step]
    split
    · split
      · next free =>
        rintro rfl
        exact taken free
      · trivial
    · trivial
  | giveBack j => trivial
  | putDone j => trivial
  | finished => trivial
  | loadPid j => exact leaves
  | fill j word b => exact leaves
  | putPid q word j => exact leaves
  | putWord word j => exact leaves

theorem Leaves.cell (leaves : Leaves i pc) (distinct : m.children.Distinct)
    (idle : (m.cells i).phase ≠ .running) (taken : (m.cells i).phase ≠ .free) :
    (pc.step m).1.cells i = m.cells i := by
  rcases step_cases m distinct pc with same | ⟨q, word, -, -, collected⟩ | ⟨k, x, write, written⟩
  · rw [same]
  · rw [collected]
    rfl
  · have elsewhere : i ≠ k := by
      rintro rfl
      cases write with
      | take running => exact idle running
      | claim free => exact taken free
      | _ => exact leaves rfl
    rw [written, cells_setCell, if_neg elsewhere]

/-- The pass has taken slot `i` and puts the word into it. -/
def Filling (i : Nat) (word : Option StatusWord) (m : Memory) : Pc → Prop
  | .fill j w _ => j = i ∧ w = word
  | .close j _ => j = i ∧ (m.cells i).word = word
  | _ => False

theorem Holding.next {word : StatusWord} (holding : Holding p i word m pc) (clear : Clear p i m)
    (running : (m.cells i).phase = .running) :
    ((pc.step m).1 = m ∧ Holding p i word m (pc.step m).2) ∨
    ((pc.step m).1 = m.setPhase i .finishing ∧
      Filling i (some word) (m.setPhase i .finishing) (pc.step m).2) := by
  cases pc with
  | take j q w back =>
    obtain ⟨rfl, -, rfl⟩ := holding
    rw [Pc.step, if_pos running]
    exact .inr ⟨rfl, rfl, rfl⟩
  | matchPhase q w k =>
    obtain ⟨own, told, bound⟩ := holding
    have inside : k < m.size := Nat.lt_of_le_of_lt bound clear.inside
    rw [Pc.step, if_pos inside]
    refine .inl ?_
    split
    · next busy =>
      refine ⟨rfl, own, told, bound, fun elsewhere => ?_⟩
      exact clear.foreign inside elsewhere (by simp [busy]) (by simp [busy])
    · next idle =>
      have elsewhere : k ≠ i := by
        rintro rfl
        exact idle running
      exact ⟨rfl, own, told, by omega⟩
  | matchPid q w k =>
    obtain ⟨own, told, bound, foreign⟩ := holding
    rw [Pc.step]
    refine .inl ?_
    split
    · next found =>
      refine ⟨rfl, ?_, own, congrArg some told⟩
      by_contra elsewhere
      exact foreign elsewhere (found.trans own)
    · next missed =>
      have elsewhere : k ≠ i := by
        rintro rfl
        exact missed (clear.own.trans own.symm)
      exact ⟨rfl, own, told, by omega⟩
  | _ => exact holding.elim

theorem Filling.next {word : Option StatusWord} (filling : Filling i word m pc) :
    ((pc.step m).1 = m.setWord i word ∧ Filling i word (m.setWord i word) (pc.step m).2) ∨
    ((pc.step m).1 = m.setPhase i .done ∧ (m.cells i).word = word ∧
      ∃ back : Back, (pc.step m).2 = back.pc) := by
  cases pc with
  | fill j w back =>
    obtain ⟨rfl, rfl⟩ := filling
    exact .inl ⟨rfl, rfl, by rw [setWord_self]⟩
  | close j back =>
    obtain ⟨rfl, filled⟩ := filling
    exact .inr ⟨rfl, filled, back, rfl⟩
  | _ => exact filling.elim

theorem Filling.keep {n : Memory} {word : Option StatusWord} (filling : Filling i word m pc)
    (cell_eq : n.cells i = m.cells i) : Filling i word n pc := by
  cases pc with
  | fill j w back => exact filling
  | close j back => exact ⟨filling.1, cell_eq ▸ filling.2⟩
  | _ => exact filling.elim

/-- How a child stands that nobody has collected. -/
def standing : Option StatusWord → ChildStatus
  | none => .running
  | some word => .ended word

/-- Where the word of `p` is, with the pass at work and the pass it has interrupted. -/
inductive Stage (p i : Nat) : Option StatusWord → Memory → Pc → Option Pc → Prop
  /-- With the system, or the child still runs. -/
  | waiting {word : Option StatusWord} {m : Memory} {pc : Pc} {rest : Option Pc}
      (phase : (m.cells i).phase = .running)
      (status : m.children.status? p = some (standing word)) (clean : Clean p i m pc)
      (others : ∀ b ∈ rest, Clean p i m b) : Stage p i word m pc rest
  /-- With the pass at work. -/
  | held {word : StatusWord} {m : Memory} {pc : Pc} {rest : Option Pc}
      (phase : (m.cells i).phase = .running)
      (status : m.children.status? p = some .collected) (holding : Holding p i word m pc)
      (others : ∀ b ∈ rest, Clean p i m b) : Stage p i (some word) m pc rest
  /-- On its way into the slot. -/
  | filling {word : StatusWord} {m : Memory} {pc : Pc} {rest : Option Pc}
      (phase : (m.cells i).phase = .finishing)
      (status : m.children.status? p = some .collected) (filling : Filling i (some word) m pc)
      (others : ∀ b ∈ rest, Clean p i m b) : Stage p i (some word) m pc rest
  /-- On its way into the slot, by the pass that is interrupted. -/
  | paused {word : StatusWord} {m : Memory} {pc b : Pc}
      (phase : (m.cells i).phase = .finishing)
      (status : m.children.status? p = some .collected) (clean : Clean p i m pc)
      (leaves : Leaves i pc) (filling : Filling i (some word) m b) :
      Stage p i (some word) m pc (some b)
  /-- In the slot. -/
  | settled {word : StatusWord} {m : Memory} {pc : Pc} {rest : Option Pc}
      (phase : (m.cells i).phase = .done) (filled : (m.cells i).word = some word)
      (status : m.children.status? p = some .collected) (clean : Clean p i m pc)
      (others : ∀ b ∈ rest, Clean p i m b) : Stage p i (some word) m pc rest

theorem Stage.step {word : Option StatusWord} {rest : Option Pc} (stage : Stage p i word m pc rest)
    (clear : Clear p i m) :
    Clear p i (pc.step m).1 ∧ Stage p i word (pc.step m).1 (pc.step m).2 rest := by
  cases stage with
  | waiting phase status clean others =>
    have taken : (m.cells i).phase ≠ .free := by simp [phase]
    obtain ⟨still_clear, cell_eq, foreign⟩ := clean.memory clear taken
    have still_phase : ((pc.step m).1.cells i).phase = .running := by rw [cell_eq, phase]
    have still_others : ∀ b ∈ rest, Clean p i (pc.step m).1 b := fun b hb =>
      (others b hb).keep foreign (by simp [phase])
    -- The step collects `p`, and then the pass has its word, or it leaves `p` alone.
    have uncollected : m.children.status? p ≠ some .collected := by
      rw [status]
      cases word <;> simp [standing]
    refine ⟨still_clear, ?_⟩
    rcases clean.next clear taken (by simp [status]) (fun gone => absurd gone uncollected) with
      ⟨same, still_clean⟩ | ⟨w, ended, collected, holding⟩
    · exact .waiting still_phase (same.trans status) still_clean still_others
    · obtain rfl : word = some w := by
        rw [status, Option.some.injEq] at ended
        cases word with
        | none => simp [standing] at ended
        | some v => rw [ChildStatus.ended.inj ended]
      exact .held still_phase collected holding still_others
  | @held w _ _ _ phase status holding others =>
    rcases holding.next clear phase with ⟨same, still_holding⟩ | ⟨written, filling⟩
    · rw [same]
      exact ⟨clear, .held phase status still_holding others⟩
    · rw [written]
      refine ⟨clear.setOwn clear.own, .filling ?_ status filling fun b hb => ?_⟩
      · rw [setPhase_self]
      · exact (others b hb).keep (fun k => by simp [pid_setPhase]) (by simp [phase])
  | @filling w _ _ _ phase status filling others =>
    rcases filling.next with ⟨written, still_filling⟩ | ⟨written, filled, back, next⟩
    · rw [written]
      refine ⟨clear.setOwn clear.own, .filling ?_ status still_filling fun b hb => ?_⟩
      · rw [setWord_self, phase]
      · exact (others b hb).keep (fun k => by simp [pid_setWord]) (by simp [phase])
    · rw [written, next]
      refine ⟨clear.setOwn clear.own, .settled ?_ ?_ status (clean_back _ back) fun b hb => ?_⟩
      · rw [setPhase_self]
      · rw [setPhase_self, filled]
      · exact (others b hb).keep (fun k => by simp [pid_setPhase]) (by simp [phase])
  | paused phase status clean leaves filling =>
    have taken : (m.cells i).phase ≠ .free := by simp [phase]
    have idle : (m.cells i).phase ≠ .running := by simp [phase]
    obtain ⟨still_clear, cell_eq, -⟩ := clean.memory clear taken
    refine ⟨still_clear, ?_⟩
    rcases clean.next clear taken (by simp [status]) (fun _ => .inr leaves) with
      ⟨same, still_clean⟩ | ⟨w, ended, -, -⟩
    · exact .paused (by rw [cell_eq, phase]) (same.trans status) still_clean
        (leaves.next idle taken) (filling.keep cell_eq)
    · simp [status] at ended
  | settled phase filled status clean others =>
    have taken : (m.cells i).phase ≠ .free := by simp [phase]
    obtain ⟨still_clear, cell_eq, foreign⟩ := clean.memory clear taken
    refine ⟨still_clear, ?_⟩
    rcases clean.next clear taken (by simp [status]) (fun _ => .inl phase) with
      ⟨same, still_clean⟩ | ⟨w, ended, -, -⟩
    · refine .settled (by rw [cell_eq, phase]) (by rw [cell_eq, filled]) (same.trans status)
        still_clean fun b hb => ?_
      exact (others b hb).keep foreign (by rw [cell_eq]; exact id)
    · simp [status] at ended

theorem Holding.holds {word : StatusWord} (holding : Holding p i word m pc) : pc.Holds p := by
  cases pc with
  | take j q w back =>
    obtain ⟨-, own, rfl⟩ := holding
    exact own
  | matchPhase q w k => exact holding.1
  | matchPid q w k => exact holding.1
  | _ => exact holding.elim

theorem Filling.not_holds {word : Option StatusWord} (filling : Filling i word m pc) :
    ¬ pc.Holds p := by
  cases pc with
  | fill j w back => exact id
  | close j back => exact id
  | _ => exact filling.elim

theorem Stage.signal {word : Option StatusWord} (stage : Stage p i word m pc none)
    (free : ¬ pc.Holds p) : Stage p i word m .start (some pc) := by
  have only {b : Pc} (mem : b ∈ some pc) (clean : Clean p i m pc) : Clean p i m b :=
    Option.some.inj mem ▸ clean
  cases stage with
  | waiting phase status clean => exact .waiting phase status trivial fun b mem => only mem clean
  | held phase status holding => exact absurd holding.holds free
  | filling phase status filling => exact .paused phase status trivial trivial filling
  | settled phase filled status clean =>
    exact .settled phase filled status trivial fun b mem => only mem clean

theorem Stage.resume {word : Option StatusWord} {b : Pc}
    (stage : Stage p i word m .finished (some b)) : Stage p i word m b none := by
  cases stage with
  | waiting phase status clean others => exact .waiting phase status (others b rfl) (by simp)
  | held phase status holding => exact holding.elim
  | filling phase status filling => exact filling.elim
  | paused phase status clean leaves filling => exact .filling phase status filling (by simp)
  | settled phase filled status clean others =>
    exact .settled phase filled status (others b rfl) (by simp)

theorem Stage.ends {word : Option StatusWord} {rest : Option Pc} (stage : Stage p i word m pc rest)
    {q : Nat} (alive : m.children.status? q = some .running) (w : StatusWord) :
    Stage p i (if q = p then some w else word) (m.withChildren (m.children.finish q w)) pc
      rest := by
  have status_eq := ChildTable.status?_finish alive w p
  have keep {b : Pc} (clean : Clean p i m b) :
      Clean p i (m.withChildren (m.children.finish q w)) b := clean.keep (fun _ => id) id
  have other (collected : m.children.status? p = some .collected) : q ≠ p ∧
      (m.children.finish q w).status? p = some .collected := by
    have ne : q ≠ p := by
      rintro rfl
      simp [alive] at collected
    exact ⟨ne, by rw [status_eq, if_neg (Ne.symm ne), collected]⟩
  cases stage with
  | waiting phase status clean others =>
    refine .waiting phase ?_ (keep clean) fun b mem => keep (others b mem)
    refine status_eq.trans ?_
    by_cases own : q = p
    · rw [if_pos own.symm, if_pos own]
      rfl
    · rw [if_neg (Ne.symm own), if_neg own, status]
  | held phase status holding others =>
    obtain ⟨ne, collected⟩ := other status
    rw [if_neg ne]
    refine .held phase collected ?_ fun b mem => keep (others b mem)
    cases pc <;> exact holding
  | filling phase status filling others =>
    obtain ⟨ne, collected⟩ := other status
    rw [if_neg ne]
    exact .filling phase collected (filling.keep rfl) fun b mem => keep (others b mem)
  | paused phase status clean leaves filling =>
    obtain ⟨ne, collected⟩ := other status
    rw [if_neg ne]
    exact .paused phase collected (keep clean) leaves (filling.keep rfl)
  | settled phase filled status clean others =>
    obtain ⟨ne, collected⟩ := other status
    rw [if_neg ne]
    exact .settled phase filled collected (keep clean) fun b mem => keep (others b mem)

/-- A child that has a word does not run. -/
theorem Stage.not_running {word : StatusWord} {rest : Option Pc}
    (stage : Stage p i (some word) m pc rest) : m.children.status? p ≠ some .running := by
  cases stage with
  | waiting phase status => simp [status, standing]
  | held phase status => simp [status]
  | filling phase status => simp [status]
  | paused phase status => simp [status]
  | settled phase filled status => simp [status]

end LineShell.Atomic
