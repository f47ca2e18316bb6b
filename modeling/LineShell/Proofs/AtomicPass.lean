import LineShell.Proofs.Reaping
import Mathlib.Logic.Function.Basic

/-! A reaping pass one operation at a time. A slot is three words of memory, and each step of a pass
is at most one load, store or exchange on them or one question to the system. A pass that nobody
interrupts comes to `JobTable.reap` (`reaches_reap`). -/

namespace LineShell.Atomic
open JobTable

/-- The first word of a slot. -/
inductive Phase
  | free
  | claimed
  | running
  | finishing
  | done
  deriving Repr, DecidableEq

structure Cell where
  phase : Phase := .free
  pid : Nat := 0
  /-- `none` is the mark of a job whose word was given to someone else. -/
  word : Option StatusWord := none
  deriving Repr, DecidableEq

/-- A slot as others find it. -/
def Cell.slot (x : Cell) : Slot :=
  match x.phase with
  | .free | .claimed => .free
  | .running | .finishing => .running x.pid
  | .done => .done x.pid x.word

/-- What the passes share: the slots, the number of guards held, and the children. -/
structure Memory where
  size : Nat
  cells : Nat → Cell
  foreground : Nat := 0
  children : ChildTable := {}

namespace Memory

def table (m : Memory) : JobTable where
  slots := (List.range m.size).map fun i => (m.cells i).slot
  foreground := m.foreground

def setCell (m : Memory) (i : Nat) (x : Cell) : Memory :=
  { m with cells := Function.update m.cells i x }

def setPhase (m : Memory) (i : Nat) (phase : Phase) : Memory :=
  m.setCell i { m.cells i with phase }

def setPid (m : Memory) (i pid : Nat) : Memory := m.setCell i { m.cells i with pid }

def setWord (m : Memory) (i : Nat) (word : Option StatusWord) : Memory :=
  m.setCell i { m.cells i with word }

def withChildren (m : Memory) (children : ChildTable) : Memory := { m with children }

end Memory

/-- Where a pass goes on when it is through with a slot. -/
inductive Back
  | loop (i : Nat)
  | sweep
  deriving Repr, DecidableEq

/-- What a pass does next, with the values it has loaded so far. -/
inductive Pc
  | loadPhase (i : Nat)
  | loadPid (i : Nat)
  /-- Asks the system for the child of a slot. -/
  | ask (i pid : Nat)
  /-- Looks in slot `j` for a job that is done, to settle slot `i`. -/
  | seekPhase (i pid j : Nat)
  | seekPid (i pid j : Nat)
  /-- Frees a slot that another slot reports for. -/
  | giveBack (i : Nat)
  /-- Exchanges running for finishing. -/
  | take (i pid : Nat) (word : Option StatusWord) (back : Back)
  | fill (i : Nat) (word : Option StatusWord) (back : Back)
  | close (i : Nat) (back : Back)
  | loadForeground
  /-- Asks the system for any child that has ended. -/
  | sweep
  /-- Looks in slot `j` for the running job of a swept child. -/
  | matchPhase (pid : Nat) (word : StatusWord) (j : Nat)
  | matchPid (pid : Nat) (word : StatusWord) (j : Nat)
  /-- Exchanges free for claimed. -/
  | claim (pid : Nat) (word : StatusWord) (j : Nat)
  | putPid (pid : Nat) (word : StatusWord) (j : Nat)
  | putWord (word : StatusWord) (j : Nat)
  | putDone (j : Nat)
  | finished
  deriving Repr, DecidableEq

def Back.pc : Back → Pc
  | loop i => .loadPhase i
  | sweep => .sweep

namespace Pc

def start : Pc := loadPhase 0

def step (m : Memory) : Pc → Memory × Pc
  | loadPhase i =>
    if i < m.size then
      if (m.cells i).phase = .running then (m, loadPid i) else (m, loadPhase (i + 1))
    else (m, loadForeground)
  | loadPid i => (m, ask i (m.cells i).pid)
  | ask i pid =>
    match m.children.collect pid with
    | (.pending, _) => (m, loadPhase (i + 1))
    | (.status word, children) => (m.withChildren children, take i pid (some word) (.loop (i + 1)))
    | (.noChild, _) => (m, seekPhase i pid 0)
  | seekPhase i pid j =>
    if j < m.size then
      if (m.cells j).phase = .done then (m, seekPid i pid j) else (m, seekPhase i pid (j + 1))
    else (m, take i pid none (.loop (i + 1)))
  | seekPid i pid j =>
    if (m.cells j).pid = pid then
      if j = i then (m, loadPhase (i + 1)) else (m, giveBack i)
    else (m, seekPhase i pid (j + 1))
  | giveBack i => (m.setPhase i .free, loadPhase (i + 1))
  | take i _ word back =>
    if (m.cells i).phase = .running then (m.setPhase i .finishing, fill i word back)
    else (m, back.pc)
  | fill i word back => (m.setWord i word, close i back)
  | close i back => (m.setPhase i .done, back.pc)
  | loadForeground => if 0 < m.foreground then (m, finished) else (m, sweep)
  | sweep =>
    match m.children.ended with
    | [] => (m, finished)
    | (pid, word) :: _ =>
      (m.withChildren (m.children.setStatus pid .collected), matchPhase pid word 0)
  | matchPhase pid word j =>
    if j < m.size then
      if (m.cells j).phase = .running then (m, matchPid pid word j)
      else (m, matchPhase pid word (j + 1))
    else (m, claim pid word 0)
  | matchPid pid word j =>
    if (m.cells j).pid = pid then (m, take j pid (some word) .sweep)
    else (m, matchPhase pid word (j + 1))
  | claim pid word j =>
    if j < m.size then
      if (m.cells j).phase = .free then (m.setPhase j .claimed, putPid pid word j)
      else (m, claim pid word (j + 1))
    else (m, sweep)
  | putPid pid word j => (m.setPid j pid, putWord word j)
  | putWord word j => (m.setWord j (some word), putDone j)
  | putDone j => (m.setPhase j .done, sweep)
  | finished => (m, finished)

end Pc

/-- Any number of steps of one pass, with nothing in between. -/
def Reaches : Memory × Pc → Memory × Pc → Prop :=
  Relation.ReflTransGen fun s t => t = s.2.step s.1

theorem reaches_step {m : Memory} {pc : Pc} {t : Memory × Pc} (turn : pc.step m = t) :
    Reaches (m, pc) t :=
  .single turn.symm

namespace Memory

theorem length_table (m : Memory) : m.table.slots.length = m.size := by
  simp [table]

theorem slot_table (m : Memory) {i : Nat} (inside : i < m.size) :
    m.table.slot i = (m.cells i).slot := by
  simp [table, slot, List.getD_eq_getElem?_getD, inside]

theorem table_setCell (m : Memory) (i : Nat) (x : Cell) :
    (m.setCell i x).table = m.table.setSlot i x.slot := by
  simp only [table, setCell, setSlot, JobTable.mk.injEq, and_true]
  refine List.ext_getElem (by simp) fun j hj _ => ?_
  by_cases here : i = j
  · simp [here]
  · simp [here, Function.update_of_ne (Ne.symm here)]

/-- No pass is at work on a slot. -/
def Stable (m : Memory) : Prop :=
  ∀ i, (m.cells i).phase ≠ .claimed ∧ (m.cells i).phase ≠ .finishing

theorem Stable.setCell {m : Memory} (stable : m.Stable) {x : Cell} (claimed : x.phase ≠ .claimed)
    (finishing : x.phase ≠ .finishing) (i : Nat) : (m.setCell i x).Stable := by
  intro j
  by_cases here : j = i
  · simpa [Memory.setCell, here] using ⟨claimed, finishing⟩
  · simpa [Memory.setCell, here] using stable j

end Memory

open Memory

/-- A search from the first slot on stops at the first slot that it is after. -/
theorem reaches_search {m : Memory} {f g : Nat → Pc} {miss : Pc} (p : Slot → Bool)
    (hit : ∀ j < m.size, p (m.table.slot j) = true → Reaches (m, f j) (m, g j))
    (next : ∀ j < m.size, p (m.table.slot j) = false → Reaches (m, f j) (m, f (j + 1)))
    (stop : Reaches (m, f m.size) (m, miss)) :
    Reaches (m, f 0) (m, (m.table.slots.findIdx? p).elim miss g) := by
  -- By induction on the slots that have been passed.
  have walk : ∀ k ≤ m.size, (∀ j < k, p (m.table.slot j) = false) →
      Reaches (m, f 0) (m, f k) := by
    intro k
    induction k with
    | zero => exact fun _ _ => .refl
    | succ k ih =>
      intro inside missed
      have before := ih (by omega) fun j hj => missed j (by omega)
      exact before.trans (next k (by omega) (missed k (by omega)))
  cases outcome : m.table.slots.findIdx? p with
  | none =>
    have missed : ∀ j < m.size, p (m.table.slot j) = false := fun j hj =>
      findIdx?_eq_none outcome (by rwa [length_table])
    exact (walk m.size (Nat.le_refl _) missed).trans stop
  | some k =>
    obtain ⟨bound, here⟩ := findIdx?_eq_some outcome
    obtain ⟨_, _, before⟩ := List.findIdx?_eq_some_iff_getElem.mp outcome
    have inside : k < m.size := by rwa [length_table] at bound
    have missed : ∀ j < k, p (m.table.slot j) = false := by
      intro j less
      rw [slot, List.getD_eq_getElem _ _ (Nat.lt_trans less bound)]
      exact Bool.not_eq_true _ ▸ before j less
    exact (walk k (Nat.le_of_lt inside) missed).trans (hit k inside here)

theorem isDoneWith_slot (x : Cell) (pid : Nat) :
    x.slot.isDoneWith pid = true ↔ x.phase = .done ∧ x.pid = pid := by
  obtain ⟨phase, p, word⟩ := x
  cases phase <;> simp [Cell.slot, Slot.isDoneWith]

theorem isRunningWith_slot {x : Cell} (settled : x.phase ≠ .finishing) (pid : Nat) :
    x.slot.isRunningWith pid = true ↔ x.phase = .running ∧ x.pid = pid := by
  obtain ⟨phase, p, word⟩ := x
  cases phase <;> simp_all [Cell.slot, Slot.isRunningWith]

theorem slot_eq_free {x : Cell} (settled : x.phase ≠ .claimed) :
    x.slot = .free ↔ x.phase = .free := by
  obtain ⟨phase, p, word⟩ := x
  cases phase <;> simp_all [Cell.slot]

theorem slot_eq_running {x : Cell} (settled : x.phase ≠ .finishing) {pid : Nat} :
    x.slot = .running pid ↔ x.phase = .running ∧ x.pid = pid := by
  obtain ⟨phase, p, word⟩ := x
  cases phase <;> simp_all [Cell.slot]

theorem reaches_take {m : Memory} {i : Nat} (running : (m.cells i).phase = .running) (pid : Nat)
    (word : Option StatusWord) (back : Back) :
    Reaches (m, .take i pid word back)
      (m.setCell i ⟨.done, (m.cells i).pid, word⟩, back.pc) := by
  have exchanged :
      Pc.step m (.take i pid word back) = (m.setPhase i .finishing, .fill i word back) :=
    if_pos running
  refine (reaches_step exchanged).trans ((reaches_step rfl).trans (reaches_step ?_))
  simp [Pc.step, setPhase, setWord, setCell]

/-- A search that loads the phase of a slot, and then the number of the job if the phase fits. -/
theorem reaches_lookup {m : Memory} {f g h : Nat → Pc} {miss : Pc} {phase : Phase} {pid : Nat}
    {p : Slot → Bool}
    (shown : ∀ j, p (m.cells j).slot = true ↔ (m.cells j).phase = phase ∧ (m.cells j).pid = pid)
    (load : ∀ j, (f j).step m = if j < m.size then
      if (m.cells j).phase = phase then (m, h j) else (m, f (j + 1)) else (m, miss))
    (compare : ∀ j, (h j).step m = if (m.cells j).pid = pid then (m, g j) else (m, f (j + 1))) :
    Reaches (m, f 0) (m, (m.table.slots.findIdx? p).elim miss g) := by
  refine reaches_search p ?_ ?_ ?_
  · intro j inside hit
    rw [slot_table m inside, shown] at hit
    have loaded : (f j).step m = (m, h j) := by rw [load, if_pos inside, if_pos hit.1]
    refine (reaches_step loaded).trans (reaches_step ?_)
    rw [compare, if_pos hit.2]
  · intro j inside missed
    rw [slot_table m inside, Bool.eq_false_iff, ne_eq, shown, not_and] at missed
    by_cases fits : (m.cells j).phase = phase
    · have loaded : (f j).step m = (m, h j) := by rw [load, if_pos inside, if_pos fits]
      refine (reaches_step loaded).trans (reaches_step ?_)
      rw [compare, if_neg (missed fits)]
    · refine reaches_step ?_
      rw [load, if_pos inside, if_neg fits]
  · refine reaches_step ?_
    rw [load, if_neg (Nat.lt_irrefl _)]

theorem reaches_seek {m : Memory} (i pid : Nat) :
    Reaches (m, .seekPhase i pid 0) (m, (m.table.doneSlot? pid).elim
      (.take i pid none (.loop (i + 1)))
      fun j => if j = i then .loadPhase (i + 1) else .giveBack i) := by
  refine reaches_lookup (f := fun j => .seekPhase i pid j) (h := fun j => .seekPid i pid j)
    (fun j => isDoneWith_slot (m.cells j) pid) (fun j => rfl) fun j => ?_
  rw [Pc.step]
  split
  · split <;> rfl
  · rfl

/-- The pass comes to `pc` with these tables, and leaves no slot half written. -/
def Comes (s : Memory × Pc) (tables : JobTable × ChildTable) (pc : Pc) : Prop :=
  ∃ m, Reaches s (m, pc) ∧ m.Stable ∧ (m.table, m.children) = tables

theorem Comes.after {s t : Memory × Pc} {tables : JobTable × ChildTable} {pc : Pc}
    (steps : Reaches s t) (comes : Comes t tables pc) : Comes s tables pc := by
  obtain ⟨m, reaches, rest⟩ := comes
  exact ⟨m, steps.trans reaches, rest⟩

theorem comes_settle {m : Memory} (stable : m.Stable) {i pid : Nat} (inside : i < m.size)
    (running : (m.cells i).phase = .running) (own : (m.cells i).pid = pid) :
    Comes (m, .seekPhase i pid 0) (m.table.settle i pid, m.children) (.loadPhase (i + 1)) := by
  have held : m.table.slot i = .running pid := by
    rw [slot_table m inside]
    exact (slot_eq_running (stable i).2).mpr ⟨running, own⟩
  refine .after (reaches_seek i pid) ?_
  rw [settle]
  cases outcome : m.table.doneSlot? pid with
  | none =>
    refine ⟨_, reaches_take running pid none (.loop (i + 1)), ?_, ?_⟩
    · exact stable.setCell (by simp) (by simp) i
    · simp only [table_setCell, finish_of_running held, ← own]
      rfl
  | some j =>
    simp only [Option.elim_some]
    split
    · exact ⟨m, .refl, stable, rfl⟩
    · refine ⟨m.setPhase i .free, reaches_step rfl, stable.setCell (by simp) (by simp) i, ?_⟩
      simp only [setPhase, table_setCell]
      rfl

theorem comes_poll {m : Memory} (stable : m.Stable) {i : Nat} (inside : i < m.size) :
    Comes (m, .loadPhase i) (poll (m.table, m.children) i) (.loadPhase (i + 1)) := by
  have slot_eq := slot_table m inside
  by_cases running : (m.cells i).phase = .running
  · have held := slot_eq.trans ((slot_eq_running (stable i).2).mpr ⟨running, rfl⟩)
    have loaded : Pc.step m (.loadPhase i) = (m, .loadPid i) := by
      rw [Pc.step, if_pos inside, if_pos running]
    refine .after ((reaches_step loaded).trans (reaches_step rfl)) ?_
    rw [poll_of_running held]
    match status : m.children.status? (m.cells i).pid with
    | some .running =>
      refine ⟨m, reaches_step ?_, stable, rfl⟩
      rw [Pc.step, ChildTable.collect.eq_def, status]
    | some (.ended word) =>
      let mid := m.withChildren (m.children.setStatus (m.cells i).pid .collected)
      have asked : Pc.step m (.ask i (m.cells i).pid) =
          (mid, .take i (m.cells i).pid (some word) (.loop (i + 1))) := by
        rw [Pc.step, ChildTable.collect_of_ended status]
      have taken := @reaches_take mid i running (m.cells i).pid (some word) (.loop (i + 1))
      have mid_stable : mid.Stable := stable
      refine .after (reaches_step asked) ⟨_, taken, mid_stable.setCell (by simp) (by simp) i, ?_⟩
      rw [table_setCell]
      rfl
    | some .collected =>
      have asked : Pc.step m (.ask i (m.cells i).pid) = (m, .seekPhase i (m.cells i).pid 0) := by
        rw [Pc.step, ChildTable.collect_of_gone (.inl status)]
      exact .after (reaches_step asked) (comes_settle stable inside running rfl)
    | none =>
      have asked : Pc.step m (.ask i (m.cells i).pid) = (m, .seekPhase i (m.cells i).pid 0) := by
        rw [Pc.step, ChildTable.collect_of_gone (.inr status)]
      exact .after (reaches_step asked) (comes_settle stable inside running rfl)
  · have idle : ∀ pid, m.table.slot i ≠ .running pid := fun pid held =>
      running ((slot_eq_running (stable i).2).mp (slot_eq.symm.trans held)).1
    rw [poll_of_not_running idle]
    refine ⟨m, reaches_step ?_, stable, rfl⟩
    rw [Pc.step, if_pos inside, if_neg running]

theorem length_foldl_poll (l : List Nat) (s : JobTable × ChildTable) :
    (l.foldl poll s).1.slots.length = s.1.slots.length := by
  have kept : ∀ {s t : JobTable × ChildTable}, Move s t → t.1.slots.length = s.1.slots.length := by
    intro s t move
    cases move <;> simp
  exact (polls_moves l s).keep (P := fun t => t.1.slots.length = s.1.slots.length)
    (fun move before => (kept move).trans before) rfl

theorem comes_polls {m : Memory} (stable : m.Stable) {n : Nat} (inside : n ≤ m.size) :
    Comes (m, .start) ((List.range n).foldl poll (m.table, m.children)) (.loadPhase n) := by
  induction n with
  | zero => exact ⟨m, .refl, stable, rfl⟩
  | succ n ih =>
    obtain ⟨mid, reaches, mid_stable, tables⟩ := ih (by omega)
    have size : mid.size = m.size := by
      rw [← length_table, ← length_table, ← length_foldl_poll (List.range n) (m.table, m.children),
        ← tables]
    rw [List.range_succ, List.foldl_append, ← tables]
    exact .after reaches (comes_poll mid_stable (by omega))

theorem reaches_match {m : Memory} (stable : m.Stable) (pid : Nat) (word : StatusWord) :
    Reaches (m, .matchPhase pid word 0) (m, (m.table.runningSlot? pid).elim (.claim pid word 0)
      fun j => .take j pid (some word) .sweep) :=
  reaches_lookup (f := fun j => .matchPhase pid word j) (h := fun j => .matchPid pid word j)
    (fun j => isRunningWith_slot (stable j).2 pid) (fun _ => rfl) fun _ => rfl

theorem reaches_claim {m : Memory} (stable : m.Stable) (pid : Nat) (word : StatusWord) :
    Reaches (m, .claim pid word 0) ((m.table.freeSlot?).elim m
      fun j => m.setCell j ⟨.done, pid, some word⟩, .sweep) := by
  have search : Reaches (m, .claim pid word 0) (m, (m.table.freeSlot?).elim .sweep
      fun j => .claim pid word j) := by
    refine reaches_search (fun x => decide (x = .free)) (f := fun j => .claim pid word j) ?_ ?_ ?_
    · exact fun j _ _ => .refl
    · intro j inside missed
      rw [slot_table m inside, decide_eq_false_iff_not, slot_eq_free (stable j).1] at missed
      refine reaches_step ?_
      rw [Pc.step, if_pos inside, if_neg missed]
    · refine reaches_step ?_
      rw [Pc.step, if_neg (Nat.lt_irrefl _)]
  refine search.trans ?_
  cases outcome : m.table.freeSlot? with
  | none => exact .refl
  | some j =>
    obtain ⟨inside, open_slot⟩ := freeSlot?_eq_some outcome
    rw [length_table] at inside
    have free : (m.cells j).phase = .free := by
      rwa [slot_table m inside, slot_eq_free (stable j).1] at open_slot
    have claimed : Pc.step m (.claim pid word j) = (m.setPhase j .claimed, .putPid pid word j) := by
      rw [Pc.step, if_pos inside, if_pos free]
    refine (reaches_step claimed).trans ((reaches_step rfl).trans ((reaches_step rfl).trans
      (reaches_step ?_)))
    simp [Pc.step, setPhase, setPid, setWord, setCell]

theorem comes_record {m : Memory} (stable : m.Stable) (pid : Nat) (word : StatusWord) :
    Comes (m, .matchPhase pid word 0) (m.table.record pid word, m.children) .sweep := by
  refine .after (reaches_match stable pid word) ?_
  rw [record]
  cases tracked : m.table.runningSlot? pid with
  | some j =>
    have held := runningSlot?_eq_some tracked
    have inside := inside_of_running held
    rw [length_table] at inside
    have running := (slot_eq_running (stable j).2).mp ((slot_table m inside).symm.trans held)
    refine ⟨_, reaches_take running.1 pid (some word) .sweep, ?_, ?_⟩
    · exact stable.setCell (by simp) (by simp) j
    · simp only [table_setCell, finish_of_running held, running.2]
      rfl
  | none =>
    refine ⟨_, reaches_claim stable pid word, ?_, ?_⟩
    · cases m.table.freeSlot? with
      | none => exact stable
      | some j => exact stable.setCell (by simp) (by simp) j
    · cases m.table.freeSlot? with
      | none => rfl
      | some j =>
        simp only [Option.elim_some, table_setCell]
        rfl

theorem comes_sweep {m : Memory} (stable : m.Stable) (distinct : m.children.Distinct) :
    Comes (m, .sweep) (sweep (m.table, m.children)) .finished := by
  induction list : m.children.ended generalizing m with
  | nil =>
    rw [sweep_of_ended_eq_nil list]
    refine ⟨m, reaches_step ?_, stable, rfl⟩
    rw [Pc.step, list]
  | cons child others ih =>
    obtain ⟨pid, word⟩ := child
    have swept : Pc.step m .sweep =
        (m.withChildren (m.children.setStatus pid .collected), .matchPhase pid word 0) := by
      rw [Pc.step, list]
    have swept_stable : (m.withChildren (m.children.setStatus pid .collected)).Stable := stable
    obtain ⟨mid, reaches, mid_stable, tables⟩ := comes_record swept_stable pid word
    obtain ⟨table, children⟩ := Prod.mk.inj tables
    have fewer : mid.children.ended = others := by
      rw [children]
      exact ChildTable.ended_setStatus distinct list
    have still_distinct : mid.children.Distinct := by
      rw [children]
      exact distinct.setStatus pid .collected
    have rest := ih mid_stable still_distinct fewer
    rw [tables] at rest
    rw [sweep_cons distinct list]
    exact .after ((reaches_step swept).trans reaches) rest

/-- A pass that nobody interrupts does what `JobTable.reap` does. -/
theorem reaches_reap {m : Memory} (stable : m.Stable) (distinct : m.children.Distinct) :
    Comes (m, .start) (m.table.reap m.children) .finished := by
  obtain ⟨mid, reaches, mid_stable, tables⟩ := comes_polls stable (Nat.le_refl m.size)
  have polls := polls_moves (List.range m.size) (m.table, m.children)
  rw [← tables] at polls
  have mid_distinct : mid.children.Distinct := polls.keep Move.distinct distinct
  have size : mid.size = m.size := by
    rw [← length_table, ← length_table,
      ← length_foldl_poll (List.range m.size) (m.table, m.children), ← tables]
  have left : Pc.step mid (.loadPhase m.size) = (mid, .loadForeground) := by
    rw [Pc.step, size, if_neg (Nat.lt_irrefl _)]
  refine .after (reaches.trans (reaches_step left)) ?_
  rw [reap, length_table, ← tables]
  split
  · next quiet =>
    have quiet : mid.foreground = 0 := quiet
    have loaded : Pc.step mid .loadForeground = (mid, .sweep) := by
      rw [Pc.step, quiet, if_neg (Nat.lt_irrefl _)]
    exact .after (reaches_step loaded) (comes_sweep mid_stable mid_distinct)
  · next guarded =>
    have guarded : 0 < mid.foreground := Nat.pos_of_ne_zero guarded
    refine ⟨mid, reaches_step ?_, mid_stable, rfl⟩
    rw [Pc.step, if_pos guarded]

end LineShell.Atomic
