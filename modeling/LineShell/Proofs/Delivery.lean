import LineShell.Proofs.Foreground

/-! No word of a child is told twice, whatever is tracked and waited for, and in whichever order. A
word leaves the system once, and from then on it is in a slot, in a report of a drain or in the
answer of a wait; so the three counts together never exceed what the system has given out
(`Accounted.balance`). An answer that is not `reaped` comes from a word, and a word is only ever
stored under the number of the child that it belongs to. -/

namespace LineShell

/-- The slot keeps the word of the child for the next drain. -/
def Slot.keepsWordOf (pid : Nat) : Slot → Bool
  | .done p (some _) => p = pid
  | _ => false

/-- How many times the system has given out the word of the child. -/
def ChildTable.handed (t : ChildTable) (pid : Nat) : Nat :=
  if t.status? pid = some .collected then 1 else 0

theorem ChildTable.handed_collect {t : ChildTable} {pid : Nat} {word : StatusWord}
    (ended : t.status? pid = some (.ended word)) (other : Nat) :
    (t.setStatus pid .collected).handed other = t.handed other + if pid = other then 1 else 0 := by
  rw [handed, handed, status?_collected ended]
  by_cases same : other = pid
  · simp [same, ended]
  · simp [same, Ne.symm same]

/-- What happens to a child changes nothing of this as long as nobody collects it. -/
theorem ChildTable.handed_congr {t t' : ChildTable} {pid : Nat}
    (same : t'.status? pid = some .collected ↔ t.status? pid = some .collected) :
    t'.handed pid = t.handed pid := by
  simp only [handed, same]

namespace JobTable

/-- How many slots keep the word of the child. -/
def kept (jobs : JobTable) (pid : Nat) : Nat := jobs.slots.countP (Slot.keepsWordOf pid)

theorem kept_setSlot {jobs : JobTable} {i : Nat} (inside : i < jobs.slots.length) {pid : Nat}
    (wordless : (jobs.slot i).keepsWordOf pid = false) (x : Slot) :
    (jobs.setSlot i x).kept pid = jobs.kept pid + if x.keepsWordOf pid then 1 else 0 := by
  rw [slot, List.getD_eq_getElem _ _ inside] at wordless
  rw [kept, slots_setSlot, List.countP_set inside, wordless]
  rfl

/-- Where no word was kept and none comes to be kept, the account stays as it was. -/
theorem kept_setSlot_wordless {jobs : JobTable} {i : Nat} (inside : i < jobs.slots.length)
    {x : Slot} {pid : Nat} (before : (jobs.slot i).keepsWordOf pid = false)
    (after : x.keepsWordOf pid = false) : (jobs.setSlot i x).kept pid = jobs.kept pid := by
  simp [kept_setSlot inside before, after]

/-- A move puts no more into the slots than it takes from the system. -/
theorem Move.kept_le {s t : JobTable × ChildTable} (move : Move s t) (pid : Nat) :
    t.1.kept pid + s.2.handed pid ≤ s.1.kept pid + t.2.handed pid := by
  cases move with
  | deliver held ended =>
    rw [kept_setSlot (inside_of_running held) (by rw [held]; rfl),
      ChildTable.handed_collect ended]
    simp only [Slot.keepsWordOf, decide_eq_true_eq]
    omega
  | vanish held gone _ =>
    rw [kept_setSlot_wordless (inside_of_running held) (by rw [held]; rfl) rfl]
  | release held gone _ =>
    rw [kept_setSlot_wordless (inside_of_running held) (by rw [held]; rfl) rfl]
  | store _ inside open_slot _ ended =>
    rw [kept_setSlot inside (by rw [open_slot]; rfl), ChildTable.handed_collect ended]
    simp only [Slot.keepsWordOf, decide_eq_true_eq]
    omega
  | lose _ _ _ ended =>
    rw [ChildTable.handed_collect ended]
    exact Nat.add_le_add_left (Nat.le_add_right _ _) _

theorem kept_reap_le (jobs : JobTable) {children : ChildTable} (distinct : children.Distinct)
    (pid : Nat) : (jobs.reap children).1.kept pid + children.handed pid ≤
      jobs.kept pid + (jobs.reap children).2.handed pid :=
  (reap_moves jobs distinct).keep
    (P := fun t => t.1.kept pid + children.handed pid ≤ jobs.kept pid + t.2.handed pid)
    (fun move before => by have := move.kept_le pid; omega) (Nat.le_refl _)

theorem kept_track (jobs : JobTable) (pid other : Nat) :
    (jobs.track pid).2.kept other = jobs.kept other := by
  rcases track_cases jobs pid with
    ⟨_, _, _, answer⟩ | ⟨i, inside, open_slot, _, answer⟩ | ⟨_, answer⟩
  · rw [answer]
  · rw [answer]
    exact kept_setSlot_wordless inside (by rw [open_slot]; rfl) rfl
  · rw [answer]

theorem kept_drain (jobs : JobTable) (pid : Nat) : jobs.drain.2.kept pid = 0 := by
  rw [kept, drain, List.countP_eq_zero]
  intro x listed
  obtain ⟨before, -, rfl⟩ := List.mem_map.mp listed
  cases before <;> simp [report?, Slot.keepsWordOf]

end JobTable

namespace Supervision
open JobTable

/-- How often the word of a child is told; that it was given to someone else tells nothing of it. -/
def told (answers : List (Nat × ChildState)) (pid : Nat) : Nat :=
  answers.countP fun answer => answer.1 = pid ∧ answer.2 ≠ .reaped

theorem told_append (answers more : List (Nat × ChildState)) (pid : Nat) :
    told (answers ++ more) pid = told answers pid + told more pid :=
  List.countP_append

theorem told_pos {answers : List (Nat × ChildState)} {pid : Nat} {state : ChildState}
    (answer : (pid, state) ∈ answers) (real : state ≠ .reaped) : 0 < told answers pid :=
  List.countP_pos_iff.mpr ⟨_, answer, by simpa using real⟩

/-- A drain tells just the words that the slots keep. -/
theorem told_drain (jobs : JobTable) (pid : Nat) : told jobs.drain.1 pid = jobs.kept pid := by
  rw [told, drain, List.countP_filterMap, kept]
  refine List.countP_congr fun x _ => ?_
  cases x with
  | free => simp [report?, Slot.keepsWordOf]
  | running p => simp [report?, Slot.keepsWordOf]
  | done p word => cases word <;> simp [report?, Slot.keepsWordOf, ofWord_ne_reaped]

/-- What is told of a child is its own word. -/
def Own (events : List Event) (pid : Nat) (state : ChildState) : Prop :=
  state ≠ .reaped → ∃ word, .ends pid word ∈ events ∧ state = .ofWord word

/-- The words that the slots keep are those their children have ended with. -/
def Stored (events : List Event) (jobs : JobTable) : Prop :=
  ∀ i pid word, jobs.slot i = .done pid (some word) → .ends pid word ∈ events

/-- How the words that the system has given out are accounted for. -/
structure Accounted (events : List Event) (s : State) : Prop where
  balance : ∀ pid,
    s.jobs.kept pid + told s.drained pid + told s.waited pid ≤ s.children.handed pid
  stored : Stored events s.jobs
  answered : ∀ pid state, (pid, state) ∈ s.drained ++ s.waited → Own events pid state

theorem Accounted.start : Accounted [] {} where
  balance pid := by
    have nothing : JobTable.empty.kept pid = 0 := by
      rw [kept, List.countP_eq_zero]
      intro x listed
      simp [List.eq_of_mem_replicate listed, Slot.keepsWordOf]
    simp [nothing, told]
  stored i pid word held := by simp [slot_empty] at held
  answered pid state answer := by simp at answer

theorem Accounted.snoc {events : List Event} {s : State} (accounted : Accounted events s)
    (e : Event) : Accounted (events ++ [e]) s where
  balance := accounted.balance
  stored i pid word held := List.mem_append_left _ (accounted.stored i pid word held)
  answered pid state answer real := by
    obtain ⟨word, ended, rfl⟩ := accounted.answered pid state answer real
    exact ⟨word, List.mem_append_left _ ended, rfl⟩

/-- The children go on, and nobody collects one. -/
theorem Accounted.children {events : List Event} {s : State} (accounted : Accounted events s)
    {children : ChildTable} (same : ∀ pid,
      children.status? pid = some .collected ↔ s.children.status? pid = some .collected) :
    Accounted events { s with children } where
  balance pid := (accounted.balance pid).trans_eq (ChildTable.handed_congr (same pid)).symm
  stored := accounted.stored
  answered := accounted.answered

theorem Accounted.fork {events : List Event} {s : State} (accounted : Accounted events s)
    {pid : Nat} (fresh : s.children.status? pid = none) :
    Accounted events (s.act (.fork pid)) := by
  refine accounted.children fun other => ?_
  rw [ChildTable.status?_start fresh]
  split
  · next same => simp [same, fresh]
  · rfl

theorem Accounted.ends {events : List Event} {s : State} (accounted : Accounted events s)
    {pid : Nat} (alive : s.children.status? pid = some .running) (word : StatusWord) :
    Accounted events (s.act (.ends pid word)) := by
  refine accounted.children fun other => ?_
  rw [ChildTable.status?_finish alive]
  split
  · next same => simp [same, alive]
  · rfl

theorem Stored.setSlot {events : List Event} {jobs : JobTable} (stored : Stored events jobs)
    {i : Nat} (inside : i < jobs.slots.length) {x : Slot}
    (own : ∀ pid word, x = .done pid (some word) → .ends pid word ∈ events) :
    Stored events (jobs.setSlot i x) := by
  intro j pid word held
  rw [slot_setSlot jobs inside] at held
  split at held
  · exact own pid word held
  · exact stored j pid word held

theorem Stored.move {events : List Event} {s t : JobTable × ChildTable} (stored : Stored events s.1)
    (known : Known events s.2) (move : Move s t) : Stored events t.1 := by
  cases move with
  | deliver held ended =>
    refine stored.setSlot (inside_of_running held) fun pid word same => ?_
    cases same
    exact known.word _ _ ended
  | vanish held => exact stored.setSlot (inside_of_running held) (by simp)
  | release held => exact stored.setSlot (inside_of_running held) (by simp)
  | store _ inside _ _ ended =>
    refine stored.setSlot inside fun pid word same => ?_
    cases same
    exact known.word _ _ ended
  | lose => exact stored

theorem Accounted.reap {events : List Event} {s : State} (accounted : Accounted events s)
    (known : Known events s.children) : Accounted events (s.act .reap) where
  balance pid := by
    have before := accounted.balance pid
    have gained := kept_reap_le s.jobs known.distinct pid
    simp only [State.act]
    omega
  stored := by
    have reaped := (reap_moves s.jobs known.distinct).keep
      (P := fun t => Known events t.2 ∧ Stored events t.1)
      (fun move before => ⟨before.1.move move, before.2.move before.1 move⟩)
      ⟨known, accounted.stored⟩
    exact reaped.2
  answered := accounted.answered

theorem Accounted.track {events : List Event} {s : State} (accounted : Accounted events s)
    (pid : Nat) : Accounted events (s.act (.track pid)) where
  balance other := by
    simp only [State.act, kept_track]
    exact accounted.balance other
  stored := by
    rcases track_cases s.jobs pid with
      ⟨_, _, _, answer⟩ | ⟨_, inside, _, _, answer⟩ | ⟨_, answer⟩ <;> rw [State.act, answer]
    · exact accounted.stored
    · exact accounted.stored.setSlot inside (by simp)
    · exact accounted.stored
  answered := accounted.answered

theorem Accounted.drain {events : List Event} {s : State} (accounted : Accounted events s) :
    Accounted events (s.act .drain) where
  balance pid := by
    have before := accounted.balance pid
    simp only [State.act, told_append, told_drain, kept_drain]
    omega
  stored i pid word held := by
    have running := (slot_drain_eq_some (pid?_of_done held)).1
    rw [State.act] at held
    rw [held] at running
    contradiction
  answered pid state answer real := by
    rcases List.mem_append.mp answer with drained | waited
    · rcases List.mem_append.mp drained with before | now
      · exact accounted.answered pid state (List.mem_append_left _ before) real
      · obtain ⟨i, _ | word, held, rfl⟩ := mem_reports_iff.mp now
        · contradiction
        · exact ⟨word, accounted.stored i pid word held, rfl⟩
    · exact accounted.answered pid state (List.mem_append_right _ waited) real

/-- The children are as they were, and a wait has had an answer that tells no word. -/
theorem Accounted.wait_gone {events : List Event} {s : State} (accounted : Accounted events s)
    (pid : Nat) : Accounted events { s with waited := s.waited ++ [(pid, .reaped)] } where
  balance other := by
    have nothing : told [(pid, ChildState.reaped)] other = 0 := by simp [told]
    simp only [told_append, nothing]
    exact accounted.balance other
  stored := accounted.stored
  answered other state answer real := by
    have answer : (other, state) ∈ (s.drained ++ s.waited) ++ [(pid, .reaped)] := by
      rwa [List.append_assoc]
    rcases List.mem_append.mp answer with before | last
    · exact accounted.answered other state before real
    · cases List.mem_singleton.mp last
      contradiction

theorem Accounted.wait_ended {events : List Event} {s : State} (accounted : Accounted events s)
    (known : Known events s.children) {pid : Nat} {word : StatusWord}
    (ended : s.children.status? pid = some (.ended word)) :
    Accounted events { s with
      children := s.children.setStatus pid .collected
      waited := s.waited ++ [(pid, .ofWord word)] } where
  balance other := by
    have before := accounted.balance other
    have once : told [(pid, ChildState.ofWord word)] other = if pid = other then 1 else 0 := by
      simp [told, List.countP_cons, ofWord_ne_reaped]
    simp only [told_append, once, ChildTable.handed_collect ended]
    omega
  stored := accounted.stored
  answered other state answer real := by
    have answer : (other, state) ∈ (s.drained ++ s.waited) ++ [(pid, .ofWord word)] := by
      rwa [List.append_assoc]
    rcases List.mem_append.mp answer with before | last
    · exact accounted.answered other state before real
    · cases List.mem_singleton.mp last
      exact ⟨word, known.word pid word ended, rfl⟩

theorem Accounted.wait {events : List Event} {s : State} (accounted : Accounted events s)
    (known : Known events s.children) {pid : Nat} (allowed : s.Allows (.wait pid)) :
    Accounted events (s.act (.wait pid)) := by
  cases status : s.children.status? pid with
  | none =>
    rw [State.act, ChildTable.collect_of_gone (.inr status)]
    exact accounted.wait_gone pid
  | some now =>
    cases now with
    | running => exact absurd status allowed
    | collected =>
      rw [State.act, ChildTable.collect_of_gone (.inl status)]
      exact accounted.wait_gone pid
    | ended word =>
      rw [State.act, ChildTable.collect_of_ended status]
      exact accounted.wait_ended known status

/-- What is true of a history is true of it with one more event. -/
theorem Accounted.act {events : List Event} {s : State} (accounted : Accounted events s)
    (known : Known events s.children) {e : Event} (allowed : s.Allows e) :
    Accounted events (s.act e) := by
  cases e with
  | fork pid => exact accounted.fork allowed
  | ends pid word => exact accounted.ends allowed word
  | track pid => exact accounted.track pid
  | reap => exact accounted.reap known
  | drain => exact accounted.drain
  | enter => exact ⟨accounted.balance, accounted.stored, accounted.answered⟩
  | leave => exact ⟨accounted.balance, accounted.stored, accounted.answered⟩
  | wait pid => exact accounted.wait known allowed

theorem Run.accounted {events : List Event} {s : State} (run : Run events s) :
    Accounted events s := by
  induction run with
  | start => exact .start
  | @step events s e run allowed ih => exact (ih.act run.known allowed).snoc e

/-! Once the word of a child has been given out it stays so. -/

theorem collected_of_move {s t : JobTable × ChildTable} (move : Move s t) {pid : Nat}
    (collected : s.2.status? pid = some .collected) : t.2.status? pid = some .collected := by
  cases move with
  | deliver _ ended => rw [ChildTable.status?_collected ended, collected, ite_self]
  | vanish => exact collected
  | release => exact collected
  | store _ _ _ _ ended => rw [ChildTable.status?_collected ended, collected, ite_self]
  | lose _ _ _ ended => rw [ChildTable.status?_collected ended, collected, ite_self]

theorem collected_act {events : List Event} {s : State} (run : Run events s) {e : Event}
    (allowed : s.Allows e) {pid : Nat} (collected : s.children.status? pid = some .collected) :
    (s.act e).children.status? pid = some .collected := by
  cases e with
  | fork other =>
    have fresh : s.children.status? other = none := allowed
    have ne : pid ≠ other := by
      rintro rfl
      simp [fresh] at collected
    rw [State.act, ChildTable.status?_start fresh, if_neg ne, collected]
  | ends other word =>
    have alive : s.children.status? other = some .running := allowed
    have ne : pid ≠ other := by
      rintro rfl
      simp [alive] at collected
    rw [State.act, ChildTable.status?_finish alive, if_neg ne, collected]
  | reap =>
    exact (reap_moves s.jobs run.known.distinct).keep
      (P := fun t => t.2.status? pid = some .collected) (fun move => collected_of_move move)
      collected
  | wait other => exact ChildTable.collected_collect collected
  | track other => exact collected
  | drain => exact collected
  | enter => exact collected
  | leave => exact collected

theorem collected_later {events more : List Event} {s : State} (run : Run events s)
    (allowed : s.AllowsAll more) {pid : Nat}
    (collected : s.children.status? pid = some .collected) :
    (more.foldl State.act s).children.status? pid = some .collected := by
  induction more generalizing events s with
  | nil => exact collected
  | cons e rest ih =>
    obtain ⟨here, later⟩ := allowed
    exact ih (run.step here) later (collected_act run here collected)

theorem Accounted.collected {events : List Event} {s : State} (accounted : Accounted events s)
    {pid : Nat} (one : 0 < told (s.drained ++ s.waited) pid) :
    s.children.status? pid = some .collected := by
  have balance := accounted.balance pid
  rw [told_append] at one
  by_contra uncollected
  rw [ChildTable.handed, if_neg uncollected] at balance
  omega

/-- Over all drains and waits the word of a child is told at most once, and whatever is told is the
word of the very child that it is told of; after that, whatever else happens, a wait for the child
does not block and answers that its word was given to someone else. -/
theorem told_once {events : List Event} {s : State} (run : Run events s) (pid : Nat) :
    told (s.drained ++ s.waited) pid ≤ 1 ∧
    ∀ state, (pid, state) ∈ s.drained ++ s.waited → state ≠ .reaped →
      (∃ word, .ends pid word ∈ events ∧ state = .ofWord word) ∧
      ∀ more, s.AllowsAll more → (more.foldl State.act s).Allows (.wait pid) ∧
        ((more.foldl State.act s).act (.wait pid)).waited =
          (more.foldl State.act s).waited ++ [(pid, .reaped)] := by
  have accounted := run.accounted
  refine ⟨?_, fun state answer real => ⟨accounted.answered pid state answer real, ?_⟩⟩
  · have balance := accounted.balance pid
    have once : s.children.handed pid ≤ 1 := by
      rw [ChildTable.handed]
      split <;> omega
    rw [told_append]
    omega
  · intro more allowed
    have collected := collected_later run allowed (accounted.collected (told_pos answer real))
    refine ⟨by simp [State.Allows, collected], ?_⟩
    rw [State.act, ChildTable.collect_of_gone (.inl collected)]
    rfl

/-- A child is tracked twice and waited for before it is tracked again, another is tracked twice and
reaped, and a third number belongs to no child. -/
def undisciplinedHistory : List Event :=
  [.fork 7, .track 7, .track 7, .fork 8, .track 8, .track 99, .track 8, .ends 7 0x300, .wait 7,
    .track 7, .ends 8 9, .enter, .reap, .track 8, .drain, .leave, .reap, .track 8, .reap, .drain]

theorem told_once_undisciplinedHistory :
    let s := undisciplinedHistory.foldl State.act {}
    Run undisciplinedHistory s ∧ s.waited = [(7, .exited 3)] ∧ (8, .signaled 9) ∈ s.drained ∧
      (8, .reaped) ∈ s.drained ∧ told (s.drained ++ s.waited) 8 ≤ 1 ∧
      (s.act (.wait 7)).waited = [(7, .exited 3), (7, .reaped)] := by
  have run : Run undisciplinedHistory (undisciplinedHistory.foldl State.act {}) :=
    Run.start.extend (by decide)
  have later := (told_once run 7).2 (.exited 3) (by decide) (by decide)
  exact ⟨run, by decide, by decide, by decide, (told_once run 8).1, (later.2 [] trivial).2⟩

end Supervision
end LineShell
