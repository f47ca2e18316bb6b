import LineShell.JobTable
import LineShell.Proofs.Children
import Mathlib.Data.List.GetD
import Mathlib.Logic.Relation

/-! What reaping does to the job table and the children. A pass is a chain of moves
(`reap_moves`), and each of the five moves concerns one child and at most one slot, so a fact
about reaping is a fact about the moves. After a pass every job that runs in the table has a child
that runs (`reap_lively`). -/

namespace LineShell.JobTable

@[simp] theorem slots_setSlot (jobs : JobTable) (i : Nat) (x : Slot) :
    (jobs.setSlot i x).slots = jobs.slots.set i x := rfl

@[simp] theorem foreground_setSlot (jobs : JobTable) (i : Nat) (x : Slot) :
    (jobs.setSlot i x).foreground = jobs.foreground := rfl

theorem slot_setSlot (jobs : JobTable) {i : Nat} (inside : i < jobs.slots.length) (x : Slot)
    (j : Nat) : (jobs.setSlot i x).slot j = if j = i then x else jobs.slot j := by
  rw [slot, slot, slots_setSlot, List.getD_eq_getElem?_getD, List.getElem?_set,
    List.getD_eq_getElem?_getD]
  by_cases same : j = i
  · simp [same, inside]
  · simp [same, Ne.symm same]

/-- Behind the last slot every slot counts as free. -/
theorem inside_of_slot_ne {jobs : JobTable} {i : Nat} (held : jobs.slot i ≠ .free) :
    i < jobs.slots.length := by
  by_contra outside
  exact held (List.getD_eq_default _ _ (Nat.not_lt.mp outside))

theorem inside_of_running {jobs : JobTable} {i pid : Nat} (held : jobs.slot i = .running pid) :
    i < jobs.slots.length :=
  inside_of_slot_ne (by simp [held])

theorem findIdx?_eq_some {slots : List Slot} {p : Slot → Bool} {i : Nat}
    (h : slots.findIdx? p = some i) : i < slots.length ∧ p (slots.getD i .free) = true := by
  obtain ⟨inside, hit, -⟩ := List.findIdx?_eq_some_iff_getElem.mp h
  exact ⟨inside, by rwa [List.getD_eq_getElem _ _ inside]⟩

theorem findIdx?_eq_none {slots : List Slot} {p : Slot → Bool} (h : slots.findIdx? p = none)
    {i : Nat} (inside : i < slots.length) : p (slots.getD i .free) = false := by
  rw [List.findIdx?_eq_none_iff] at h
  rw [List.getD_eq_getElem _ _ inside]
  exact h _ (List.getElem_mem inside)

theorem doneSlot?_eq_some {jobs : JobTable} {pid i : Nat} (h : jobs.doneSlot? pid = some i) :
    ∃ word, jobs.slot i = .done pid word := by
  have hit := (findIdx?_eq_some h).2
  rw [← slot] at hit
  cases held : jobs.slot i with
  | done p word => exact ⟨word, by simpa [held, Slot.isDoneWith] using hit⟩
  | free => simp [held, Slot.isDoneWith] at hit
  | running p => simp [held, Slot.isDoneWith] at hit

theorem doneSlot?_eq_none {jobs : JobTable} {pid : Nat} (h : jobs.doneSlot? pid = none) (i : Nat)
    (word : Option StatusWord) : jobs.slot i ≠ .done pid word := by
  intro held
  have inside : i < jobs.slots.length := inside_of_slot_ne (by simp [held])
  have missed := findIdx?_eq_none h inside
  rw [← slot, held] at missed
  simp [Slot.isDoneWith] at missed

theorem runningSlot?_eq_some {jobs : JobTable} {pid i : Nat} (h : jobs.runningSlot? pid = some i) :
    jobs.slot i = .running pid := by
  have hit := (findIdx?_eq_some h).2
  rw [← slot] at hit
  cases held : jobs.slot i with
  | running p => simpa [held, Slot.isRunningWith] using hit
  | free => simp [held, Slot.isRunningWith] at hit
  | done p word => simp [held, Slot.isRunningWith] at hit

theorem runningSlot?_eq_none {jobs : JobTable} {pid : Nat} (h : jobs.runningSlot? pid = none)
    (i : Nat) : jobs.slot i ≠ .running pid := by
  intro held
  have missed := findIdx?_eq_none h (inside_of_running held)
  rw [← slot, held] at missed
  simp [Slot.isRunningWith] at missed

theorem freeSlot?_eq_some {jobs : JobTable} {i : Nat} (h : jobs.freeSlot? = some i) :
    i < jobs.slots.length ∧ jobs.slot i = .free := by
  obtain ⟨inside, hit⟩ := findIdx?_eq_some h
  exact ⟨inside, of_decide_eq_true hit⟩

theorem freeSlot?_eq_none {jobs : JobTable} (h : jobs.freeSlot? = none) {i : Nat}
    (inside : i < jobs.slots.length) : jobs.slot i ≠ .free :=
  of_decide_eq_false (findIdx?_eq_none h inside)

theorem finish_of_running {jobs : JobTable} {i pid : Nat} (held : jobs.slot i = .running pid)
    (word : Option StatusWord) : jobs.finish i word = jobs.setSlot i (.done pid word) := by
  rw [finish, held]

/-- The job that a slot is taken by. -/
def pid? : Slot → Option Nat
  | .free => none
  | .running pid => some pid
  | .done pid _ => some pid

theorem pid?_of_running {x : Slot} {pid : Nat} (h : x = .running pid) : pid? x = some pid := by
  rw [h, pid?]

theorem pid?_of_done {x : Slot} {pid : Nat} {word : Option StatusWord} (h : x = .done pid word) :
    pid? x = some pid := by
  rw [h, pid?]

theorem pid?_eq_some {x : Slot} {pid : Nat} (h : pid? x = some pid) :
    x = .running pid ∨ ∃ word, x = .done pid word := by
  cases x with
  | free => contradiction
  | running p => exact .inl (congrArg Slot.running (Option.some.inj h))
  | done p word => exact .inr ⟨word, congrArg (Slot.done · word) (Option.some.inj h)⟩

/-- No job takes two slots. -/
def Apart (jobs : JobTable) : Prop :=
  ∀ i j pid, pid? (jobs.slot i) = some pid → pid? (jobs.slot j) = some pid → i = j

theorem Apart.setSlot {jobs : JobTable} (apart : jobs.Apart) {i pid : Nat} {x : Slot}
    (inside : i < jobs.slots.length) (own : pid? x = some pid)
    (alone : ∀ j, pid? (jobs.slot j) = some pid → j = i) : (jobs.setSlot i x).Apart := by
  intro j k other hj hk
  rw [slot_setSlot jobs inside] at hj hk
  by_cases j_here : j = i <;> by_cases k_here : k = i
  · exact j_here.trans k_here.symm
  · rw [if_pos j_here, own, Option.some.injEq] at hj
    rw [if_neg k_here, ← hj] at hk
    exact absurd (alone k hk) k_here
  · rw [if_pos k_here, own, Option.some.injEq] at hk
    rw [if_neg j_here, ← hk] at hj
    exact absurd (alone j hj) j_here
  · rw [if_neg j_here] at hj
    rw [if_neg k_here] at hk
    exact apart j k other hj hk

/-! Tracking a job, and draining the table. -/

/-- What tracking comes to: the job is done already, or it takes a free slot, or there is none. -/
theorem track_cases (jobs : JobTable) (pid : Nat) :
    (∃ i word, jobs.slot i = .done pid word ∧ jobs.track pid = (true, jobs)) ∨
    (∃ i, i < jobs.slots.length ∧ jobs.slot i = .free ∧ (∀ j word, jobs.slot j ≠ .done pid word) ∧
      jobs.track pid = (true, jobs.setSlot i (.running pid))) ∨
    ((∀ i < jobs.slots.length, jobs.slot i ≠ .free) ∧ jobs.track pid = (false, jobs)) := by
  rw [track]
  cases done : jobs.doneSlot? pid with
  | some i =>
    obtain ⟨word, held⟩ := doneSlot?_eq_some done
    exact .inl ⟨i, word, held, rfl⟩
  | none =>
    cases free : jobs.freeSlot? with
    | some i =>
      obtain ⟨inside, open_slot⟩ := freeSlot?_eq_some free
      exact .inr (.inl ⟨i, inside, open_slot, doneSlot?_eq_none done, rfl⟩)
    | none => exact .inr (.inr ⟨fun i => freeSlot?_eq_none free, rfl⟩)

theorem exists_slot_of_mem {jobs : JobTable} {x : Slot} (h : x ∈ jobs.slots) :
    ∃ i, jobs.slot i = x := by
  obtain ⟨i, inside, rfl⟩ := List.mem_iff_getElem.mp h
  exact ⟨i, List.getD_eq_getElem _ _ inside⟩

theorem slot_mem {jobs : JobTable} {i : Nat} (held : jobs.slot i ≠ .free) :
    jobs.slot i ∈ jobs.slots := by
  rw [slot, List.getD_eq_getElem _ _ (inside_of_slot_ne held)]
  exact List.getElem_mem _

/-- No word of a child reads as a word that was given to someone else. -/
theorem ofWord_ne_reaped (word : StatusWord) : ChildState.ofWord word ≠ .reaped := by
  simp only [ChildState.ofWord]
  split
  · simp
  · split
    · simp
    · split <;> simp

theorem mem_reports_iff {jobs : JobTable} {pid : Nat} {state : ChildState} :
    (pid, state) ∈ jobs.drain.1 ↔
      ∃ i word, jobs.slot i = .done pid word ∧
        state = (word.map ChildState.ofWord).getD .reaped := by
  rw [drain, List.mem_filterMap]
  constructor
  · rintro ⟨x, known, told⟩
    obtain ⟨i, rfl⟩ := exists_slot_of_mem known
    cases held : jobs.slot i with
    | free => simp [held, report?] at told
    | running p => simp [held, report?] at told
    | done p word =>
      simp only [held, report?, Option.some.injEq, Prod.mk.injEq] at told
      exact ⟨i, word, by rw [held, told.1], told.2.symm⟩
  · rintro ⟨i, word, held, rfl⟩
    exact ⟨jobs.slot i, slot_mem (by simp [held]), by rw [held, report?]⟩

/-- A drain empties the slots of the jobs that are done, and no other. -/
theorem slot_drain (jobs : JobTable) (i : Nat) :
    jobs.drain.2.slot i = if (report? (jobs.slot i)).isSome then .free else jobs.slot i := by
  rw [slot, drain, List.getD_eq_getElem?_getD, List.getElem?_map, slot, List.getD_eq_getElem?_getD]
  cases jobs.slots[i]? <;> rfl

theorem slot_drain_eq_some {jobs : JobTable} {i pid : Nat}
    (h : pid? (jobs.drain.2.slot i) = some pid) :
    jobs.drain.2.slot i = .running pid ∧ jobs.slot i = .running pid := by
  rw [slot_drain] at h ⊢
  cases held : jobs.slot i with
  | free => simp [held, report?, pid?] at h
  | running p => simpa [held, report?, pid?] using h
  | done p word => simp [held, report?, pid?] at h

/-- A table whose jobs are apart reports no job twice. -/
theorem Apart.nodup_reports {jobs : JobTable} (apart : jobs.Apart) :
    (jobs.drain.1.map Prod.fst).Nodup := by
  rw [drain, List.map_filterMap, List.nodup_iff_pairwise_ne, List.pairwise_filterMap,
    List.pairwise_iff_getElem]
  intro i j hi hj less pid hp other ho same
  have told (x : Slot) (p : Nat) (h : (report? x).map Prod.fst = some p) : pid? x = some p := by
    cases x <;> simp_all [report?, pid?]
  have at_i := told _ _ hp
  have at_j := told _ _ ho
  rw [← List.getD_eq_getElem _ .free hi] at at_i
  rw [← List.getD_eq_getElem _ .free hj, ← same] at at_j
  exact Nat.ne_of_lt less (apart i j pid at_i at_j)

/-! Reaping. -/

/-- One thing that happens while children are reaped. -/
inductive Move : JobTable × ChildTable → JobTable × ChildTable → Prop
  /-- A job has ended, and its slot takes the word. -/
  | deliver {jobs : JobTable} {children : ChildTable} {i pid : Nat} {word : StatusWord}
      (held : jobs.slot i = .running pid) (ended : children.status? pid = some (.ended word)) :
      Move (jobs, children)
        (jobs.setSlot i (.done pid (some word)), children.setStatus pid .collected)
  /-- The word of a job was given to someone else, and no slot reports it. -/
  | vanish {jobs : JobTable} {children : ChildTable} {i pid : Nat}
      (held : jobs.slot i = .running pid)
      (gone : children.status? pid = some .collected ∨ children.status? pid = none)
      (unreported : ∀ j word, jobs.slot j ≠ .done pid word) :
      Move (jobs, children) (jobs.setSlot i (.done pid none), children)
  /-- The word of a job was given to someone else, and another slot reports it. -/
  | release {jobs : JobTable} {children : ChildTable} {i j pid : Nat} {word : Option StatusWord}
      (held : jobs.slot i = .running pid)
      (gone : children.status? pid = some .collected ∨ children.status? pid = none)
      (reported : jobs.slot j = .done pid word) :
      Move (jobs, children) (jobs.setSlot i .free, children)
  /-- A swept child takes a free slot. -/
  | store {jobs : JobTable} {children : ChildTable} {i pid : Nat} {word : StatusWord}
      (quiet : jobs.foreground = 0) (inside : i < jobs.slots.length)
      (open_slot : jobs.slot i = .free) (untracked : ∀ j, jobs.slot j ≠ .running pid)
      (ended : children.status? pid = some (.ended word)) :
      Move (jobs, children)
        (jobs.setSlot i (.done pid (some word)), children.setStatus pid .collected)
  /-- A swept child finds no slot. -/
  | lose {jobs : JobTable} {children : ChildTable} {pid : Nat} {word : StatusWord}
      (quiet : jobs.foreground = 0) (full : ∀ i < jobs.slots.length, jobs.slot i ≠ .free)
      (untracked : ∀ j, jobs.slot j ≠ .running pid)
      (ended : children.status? pid = some (.ended word)) :
      Move (jobs, children) (jobs, children.setStatus pid .collected)

/-- Any number of moves. -/
abbrev Moves : JobTable × ChildTable → JobTable × ChildTable → Prop := Relation.ReflTransGen Move

theorem settle_move {jobs : JobTable} {children : ChildTable} {i pid : Nat}
    (held : jobs.slot i = .running pid)
    (gone : children.status? pid = some .collected ∨ children.status? pid = none) :
    Move (jobs, children) (jobs.settle i pid, children) := by
  rw [settle]
  split
  · next j found =>
    obtain ⟨word, reported⟩ := doneSlot?_eq_some found
    have elsewhere : j ≠ i := by
      rintro rfl
      rw [held] at reported
      contradiction
    rw [if_neg elsewhere]
    exact .release held gone reported
  · next none_found =>
    rw [finish_of_running held]
    exact .vanish held gone (doneSlot?_eq_none none_found)

theorem poll_of_not_running {jobs : JobTable} {i : Nat} (idle : ∀ pid, jobs.slot i ≠ .running pid)
    (children : ChildTable) : poll (jobs, children) i = (jobs, children) := by
  cases held : jobs.slot i with
  | free => simp only [poll, held]
  | done pid word => simp only [poll, held]
  | running pid => exact absurd held (idle pid)

/-- What asking for a running job comes to, by how its child stands. -/
theorem poll_of_running {jobs : JobTable} {i pid : Nat} (held : jobs.slot i = .running pid)
    (children : ChildTable) : poll (jobs, children) i =
      match children.status? pid with
      | some .running => (jobs, children)
      | some (.ended word) =>
        (jobs.setSlot i (.done pid (some word)), children.setStatus pid .collected)
      | some .collected | none => (jobs.settle i pid, children) := by
  simp only [poll, held, ChildTable.collect]
  rcases children.status? pid with - | - | - | - <;> simp [finish_of_running held]

theorem poll_moves (jobs : JobTable) (children : ChildTable) (i : Nat) :
    Moves (jobs, children) (poll (jobs, children) i) := by
  by_cases held : ∃ pid, jobs.slot i = .running pid
  · obtain ⟨pid, held⟩ := held
    rw [poll_of_running held]
    split
    · exact .refl
    · next ended => exact .single (.deliver held ended)
    · next gone => exact .single (settle_move held (.inl gone))
    · next gone => exact .single (settle_move held (.inr gone))
  · rw [poll_of_not_running (not_exists.mp held)]

theorem pids_poll (s : JobTable × ChildTable) (i : Nat) : (poll s i).2.pids = s.2.pids := by
  rw [poll]
  split
  · next pid _ =>
    have asked := s.2.pids_collect pid
    split <;> rename_i answer <;> rw [answer] at asked <;> exact asked
  · rfl

/-- A pass neither starts nor forgets a child. -/
theorem pids_reap (jobs : JobTable) (children : ChildTable) :
    (jobs.reap children).2.pids = children.pids := by
  have polled (l : List Nat) (s : JobTable × ChildTable) : (l.foldl poll s).2.pids = s.2.pids := by
    induction l generalizing s with
    | nil => rfl
    | cons i rest ih => exact (ih _).trans (pids_poll s i)
  rw [reap]
  split
  · exact (ChildTable.pids_collectEnded _).trans (polled _ _)
  · exact polled _ _

theorem record_move {jobs : JobTable} {children : ChildTable} {pid : Nat} {word : StatusWord}
    (quiet : jobs.foreground = 0) (ended : children.status? pid = some (.ended word)) :
    Move (jobs, children) (jobs.record pid word, children.setStatus pid .collected) := by
  rw [record]
  split
  · next i found =>
    have held := runningSlot?_eq_some found
    rw [finish_of_running held]
    exact .deliver held ended
  · next none_found =>
    have untracked := runningSlot?_eq_none none_found
    split
    · next i found =>
      obtain ⟨inside, open_slot⟩ := freeSlot?_eq_some found
      exact .store quiet inside open_slot untracked ended
    · next full => exact .lose quiet (fun i => freeSlot?_eq_none full) untracked ended

theorem Move.foreground {s t : JobTable × ChildTable} (move : Move s t) :
    t.1.foreground = s.1.foreground := by
  cases move <;> rfl

theorem Move.distinct {s t : JobTable × ChildTable} (move : Move s t) (distinct : s.2.Distinct) :
    t.2.Distinct := by
  cases move with
  | deliver => exact distinct.setStatus _ _
  | vanish => exact distinct
  | release => exact distinct
  | store => exact distinct.setStatus _ _
  | lose => exact distinct.setStatus _ _

theorem running_of_setSlot {jobs : JobTable} {i : Nat} (inside : i < jobs.slots.length) {x : Slot}
    (idle : ∀ p, x ≠ .running p) {j pid : Nat} (held : (jobs.setSlot i x).slot j = .running pid) :
    jobs.slot j = .running pid := by
  rw [slot_setSlot jobs inside] at held
  split at held
  · exact absurd held (idle pid)
  · exact held

/-- No move starts a job. -/
theorem running_of_move {s t : JobTable × ChildTable} (move : Move s t) {i pid : Nat}
    (held : t.1.slot i = .running pid) : s.1.slot i = .running pid := by
  cases move with
  | deliver before => exact running_of_setSlot (inside_of_running before) (by simp) held
  | vanish before => exact running_of_setSlot (inside_of_running before) (by simp) held
  | release before => exact running_of_setSlot (inside_of_running before) (by simp) held
  | store _ inside => exact running_of_setSlot inside (by simp) held
  | lose => exact held

/-- A fact that every move keeps is kept by any number of moves. -/
theorem Moves.keep {P : JobTable × ChildTable → Prop} (keep : ∀ {s t}, Move s t → P s → P t)
    {s t : JobTable × ChildTable} (moves : Moves s t) (start : P s) : P t := by
  induction moves with
  | refl => exact start
  | tail _ move ih => exact keep move ih

theorem polls_moves (l : List Nat) (s : JobTable × ChildTable) : Moves s (l.foldl poll s) := by
  induction l generalizing s with
  | nil => exact .refl
  | cons i rest ih => exact (poll_moves s.1 s.2 i).trans (ih _)

/-- A sweep collects the first child that has ended, and then sweeps. -/
theorem sweep_cons {jobs : JobTable} {children : ChildTable} (distinct : children.Distinct)
    {pid : Nat} {word : StatusWord} {others : List (Nat × StatusWord)}
    (first : children.ended = (pid, word) :: others) :
    sweep (jobs, children) = sweep (jobs.record pid word, children.setStatus pid .collected) := by
  have ended : children.status? pid = some (.ended word) :=
    (ChildTable.mem_ended_iff distinct).mp (by simp [first])
  simp only [sweep, first, List.foldl_cons, ChildTable.ended_setStatus distinct first,
    ChildTable.collectEnded_setStatus distinct ended]

theorem sweep_of_ended_eq_nil {jobs : JobTable} {children : ChildTable}
    (none_ended : children.ended = []) : sweep (jobs, children) = (jobs, children) := by
  simp only [sweep, none_ended, List.foldl_nil, ChildTable.collectEnded_of_ended_eq_nil none_ended]

theorem sweep_moves {jobs : JobTable} {children : ChildTable} (quiet : jobs.foreground = 0)
    (distinct : children.Distinct) : Moves (jobs, children) (sweep (jobs, children)) := by
  -- On the children that have ended: every round collects one of them and none ends meanwhile.
  induction list : children.ended generalizing jobs children with
  | nil => rw [sweep_of_ended_eq_nil list]
  | cons child others ih =>
    obtain ⟨pid, word⟩ := child
    have ended : children.status? pid = some (.ended word) :=
      (ChildTable.mem_ended_iff distinct).mp (by simp [list])
    have move := record_move quiet ended
    rw [sweep_cons distinct list]
    exact .head move (ih (move.foreground.trans quiet) (distinct.setStatus _ _)
      (ChildTable.ended_setStatus distinct list))

/-- A reaping pass is a chain of moves. -/
theorem reap_moves (jobs : JobTable) {children : ChildTable} (distinct : children.Distinct) :
    Moves (jobs, children) (jobs.reap children) := by
  have polls := polls_moves (List.range jobs.slots.length) (jobs, children)
  rw [reap]
  split
  · next quiet =>
    have still_distinct := polls.keep Move.distinct distinct
    exact polls.trans (sweep_moves quiet still_distinct)
  · exact polls

/-- A job that runs in the slot has a child that runs. -/
def Lively (i : Nat) (s : JobTable × ChildTable) : Prop :=
  ∀ pid, s.1.slot i = .running pid → s.2.status? pid = some .running

/-- No move lets a child start or end. -/
theorem Move.running_iff {s t : JobTable × ChildTable} (move : Move s t) (pid : Nat) :
    t.2.status? pid = some .running ↔ s.2.status? pid = some .running := by
  cases move with
  | deliver _ ended => exact ChildTable.running_collect_iff ended pid
  | vanish => rfl
  | release => rfl
  | store _ _ _ _ ended => exact ChildTable.running_collect_iff ended pid
  | lose _ _ _ ended => exact ChildTable.running_collect_iff ended pid

theorem Move.lively {i : Nat} {s t : JobTable × ChildTable} (move : Move s t)
    (lively : Lively i s) : Lively i t :=
  fun pid held => (move.running_iff pid).mpr (lively pid (running_of_move move held))

/-- A job that is no child any more gives up its slot, or is done in it. -/
theorem slot_settle_ne {jobs : JobTable} {i pid : Nat} (held : jobs.slot i = .running pid)
    (other : Nat) : (jobs.settle i pid).slot i ≠ .running other := by
  rw [settle]
  split
  · next j found =>
    obtain ⟨word, reported⟩ := doneSlot?_eq_some found
    have elsewhere : j ≠ i := by
      rintro rfl
      rw [held] at reported
      contradiction
    rw [if_neg elsewhere, slot_setSlot _ (inside_of_running held), if_pos rfl]
    exact Slot.noConfusion
  · rw [finish_of_running held, slot_setSlot _ (inside_of_running held), if_pos rfl]
    exact Slot.noConfusion

theorem lively_poll (i : Nat) (s : JobTable × ChildTable) : Lively i (poll s i) := by
  obtain ⟨jobs, children⟩ := s
  by_cases running : ∃ pid, jobs.slot i = .running pid
  · obtain ⟨pid, held⟩ := running
    rw [poll_of_running held]
    split
    · next alive =>
      intro other same
      rw [held] at same
      exact Slot.running.inj same ▸ alive
    · intro other same
      simp [slot_setSlot _ (inside_of_running held)] at same
    · exact fun other same => absurd same (slot_settle_ne held other)
    · exact fun other same => absurd same (slot_settle_ne held other)
  · rw [poll_of_not_running (not_exists.mp running)]
    exact fun pid held => absurd held (not_exists.mp running pid)

theorem lively_polls {i : Nat} {l : List Nat} (asked : i ∈ l) (s : JobTable × ChildTable) :
    Lively i (l.foldl poll s) := by
  induction l generalizing s with
  | nil => contradiction
  | cons j rest ih =>
    rcases List.mem_cons.mp asked with rfl | asked
    · exact (polls_moves rest _).keep Move.lively (lively_poll i s)
    · exact ih asked _

/-- After a pass every job that runs in the table has a child that runs. -/
theorem reap_lively (jobs : JobTable) {children : ChildTable} (distinct : children.Distinct)
    (i : Nat) : Lively i (jobs.reap children) := by
  by_cases inside : i < jobs.slots.length
  · have polled := lively_polls (List.mem_range.mpr inside) (jobs, children)
    have polls := polls_moves (List.range jobs.slots.length) (jobs, children)
    rw [reap]
    split
    · next quiet =>
      have still_distinct := polls.keep Move.distinct distinct
      exact (sweep_moves quiet still_distinct).keep Move.lively polled
    · exact polled
  · have idle : Lively i (jobs, children) := by
      intro pid held
      rw [slot, List.getD_eq_default _ _ (Nat.not_lt.mp inside)] at held
      contradiction
    exact (reap_moves jobs distinct).keep Move.lively idle

/-- The slot holds no running job whose child has ended. -/
def Settled (i : Nat) (s : JobTable × ChildTable) : Prop :=
  ∀ pid word, s.1.slot i = .running pid → s.2.status? pid ≠ some (.ended word)

/-- After a pass no running job of the table has a child that has ended. -/
theorem reap_settled (jobs : JobTable) {children : ChildTable} (distinct : children.Distinct)
    (i : Nat) : Settled i (jobs.reap children) := by
  intro pid word held
  rw [reap_lively jobs distinct i pid held]
  simp

end LineShell.JobTable
