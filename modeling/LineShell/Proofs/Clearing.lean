import LineShell.Proofs.Foreground

/-! Nothing is left behind by a pass and a drain. A pass collects every child that has ended and has
a job in the table, and without a guard every child that has ended; and whatever a slot held, after
a drain it holds either the job that ran there before, whose child runs, or nothing
(`slots_cleared`). So the table never fills up with jobs that are over. -/

namespace LineShell

/-- The slot as a pass and a drain leave it. -/
def Slot.cleared (children : ChildTable) : Slot → Slot
  | .running pid => if children.status? pid = some .running then .running pid else .free
  | _ => .free

namespace ChildTable

/-- The system has nothing to give out for the child, now or later. -/
def Gone (t : ChildTable) (pid : Nat) : Prop :=
  t.status? pid = some .collected ∨ t.status? pid = none

theorem Gone.collect {t : ChildTable} {pid : Nat} (gone : t.Gone pid) {other : Nat}
    {word : StatusWord} (ended : t.status? other = some (.ended word)) :
    (t.setStatus other .collected).Gone pid := by
  rw [Gone, status?_collected ended]
  split
  · exact .inl rfl
  · exact gone

theorem not_gone_of_running {t : ChildTable} {pid : Nat}
    (alive : t.status? pid = some .running) : ¬ t.Gone pid := by
  simp [Gone, alive]

theorem not_gone_of_ended {t : ChildTable} {pid : Nat} {word : StatusWord}
    (ended : t.status? pid = some (.ended word)) : ¬ t.Gone pid := by
  simp [Gone, ended]

/-- Nobody waits to be collected any more. -/
theorem status?_collectEnded_ne (t : ChildTable) (pid : Nat) (word : StatusWord) :
    t.collectEnded.status? pid ≠ some (.ended word) := by
  intro waits
  obtain ⟨⟨name, status⟩, -, same⟩ := List.mem_map.mp (mem_of_status? waits)
  cases status <;> simp at same

end ChildTable

namespace JobTable

variable {s t : JobTable × ChildTable} {jobs : JobTable} {children : ChildTable} {i pid : Nat}

theorem Move.gone (move : Move s t) (gone : s.2.Gone pid) : t.2.Gone pid := by
  cases move with
  | deliver _ ended => exact gone.collect ended
  | vanish => exact gone
  | release => exact gone
  | store _ _ _ _ ended => exact gone.collect ended
  | lose _ _ _ ended => exact gone.collect ended

theorem Move.length (move : Move s t) : t.1.slots.length = s.1.slots.length := by
  cases move with
  | deliver => exact List.length_set
  | vanish => exact List.length_set
  | release => exact List.length_set
  | store => exact List.length_set
  | lose => rfl

theorem slot_setSlot_of_other {j other : Nat} (held : jobs.slot i = .running pid)
    (changed : jobs.slot j = .running other) (apart : other ≠ pid) (x : Slot) :
    (jobs.setSlot j x).slot i = .running pid := by
  rw [slot_setSlot _ (inside_of_running changed), if_neg]
  · exact held
  · rintro rfl
    exact apart (Slot.running.inj (changed.symm.trans held))

/-- A job keeps its slot as long as its child is not gone. -/
theorem Move.slot_running (move : Move s t) (held : s.1.slot i = .running pid)
    (there : ¬ t.2.Gone pid) : t.1.slot i = .running pid := by
  cases move with
  | deliver changed ended =>
    refine slot_setSlot_of_other held changed ?_ _
    rintro rfl
    exact there (.inl (by simp [ChildTable.status?_collected ended]))
  | vanish changed gone =>
    refine slot_setSlot_of_other held changed ?_ _
    rintro rfl
    exact there gone
  | release changed gone =>
    refine slot_setSlot_of_other held changed ?_ _
    rintro rfl
    exact there gone
  | store _ inside open_slot =>
    rw [slot_setSlot _ inside, if_neg]
    · exact held
    · rintro rfl
      rw [held] at open_slot
      contradiction
  | lose => exact held

theorem slot_reap_running (distinct : children.Distinct) (held : jobs.slot i = .running pid)
    (there : ¬ (jobs.reap children).2.Gone pid) :
    (jobs.reap children).1.slot i = .running pid :=
  (reap_moves jobs distinct).keep
    (P := fun t => ¬ t.2.Gone pid → t.1.slot i = .running pid)
    (fun move before there => move.slot_running (before fun gone => there (move.gone gone)) there)
    (fun _ => held) there

theorem running_of_reap (distinct : children.Distinct)
    (held : (jobs.reap children).1.slot i = .running pid) : jobs.slot i = .running pid :=
  (reap_moves jobs distinct).keep
    (P := fun t => t.1.slot i = .running pid → jobs.slot i = .running pid)
    (fun move before now => before (running_of_move move now)) id held

theorem running_reap_iff (jobs : JobTable) (distinct : children.Distinct) (pid : Nat) :
    (jobs.reap children).2.status? pid = some .running ↔
      children.status? pid = some .running :=
  (reap_moves jobs distinct).keep
    (P := fun t => t.2.status? pid = some .running ↔ children.status? pid = some .running)
    (fun move before => (move.running_iff pid).trans before) Iff.rfl

theorem length_reap (jobs : JobTable) (distinct : children.Distinct) :
    (jobs.reap children).1.slots.length = jobs.slots.length :=
  (reap_moves jobs distinct).keep (P := fun t => t.1.slots.length = jobs.slots.length)
    (fun move before => move.length.trans before) rfl

/-- No child that has a job in the table is left to be collected. -/
theorem not_ended_of_reap (distinct : children.Distinct) (held : jobs.slot i = .running pid)
    (word : StatusWord) : (jobs.reap children).2.status? pid ≠ some (.ended word) := by
  intro waits
  have runs := slot_reap_running distinct held (ChildTable.not_gone_of_ended waits)
  have alive := reap_lively jobs distinct i pid runs
  simp [waits] at alive

/-- Without a guard no child at all is left to be collected. -/
theorem not_ended_of_quiet_reap (quiet : jobs.foreground = 0) (pid : Nat) (word : StatusWord) :
    (jobs.reap children).2.status? pid ≠ some (.ended word) := by
  have still_quiet : ((List.range jobs.slots.length).foldl poll (jobs, children)).1.foreground = 0 :=
    (polls_moves _ _).keep (P := fun t => t.1.foreground = 0)
      (fun move before => move.foreground.trans before) quiet
  rw [reap, if_pos still_quiet]
  exact ChildTable.status?_collectEnded_ne _ _ _

/-- A drain empties every slot in which no job runs. -/
theorem slot_drain_of_idle (idle : ∀ pid, jobs.slot i ≠ .running pid) :
    jobs.drain.2.slot i = .free := by
  rw [slot_drain]
  cases held : jobs.slot i with
  | free => rfl
  | running pid => exact absurd held (idle pid)
  | done pid word => rfl

theorem slot_drain_of_running (held : jobs.slot i = .running pid) :
    jobs.drain.2.slot i = .running pid := by
  rw [slot_drain, held]
  rfl

theorem slot_cleared (jobs : JobTable) (distinct : children.Distinct) (i : Nat) :
    (jobs.reap children).1.drain.2.slot i = (jobs.slot i).cleared children := by
  by_cases active : ∃ pid, jobs.slot i = .running pid ∧ children.status? pid = some .running
  · obtain ⟨pid, held, alive⟩ := active
    have still_alive := (running_reap_iff jobs distinct pid).mpr alive
    have runs := slot_reap_running distinct held (ChildTable.not_gone_of_running still_alive)
    rw [slot_drain_of_running runs, held, Slot.cleared, if_pos alive]
  · have idle : ∀ pid, (jobs.reap children).1.slot i ≠ .running pid := by
      intro pid runs
      have alive := reap_lively jobs distinct i pid runs
      exact active ⟨pid, running_of_reap distinct runs, (running_reap_iff jobs distinct pid).mp alive⟩
    rw [slot_drain_of_idle idle]
    cases held : jobs.slot i with
    | running pid => rw [Slot.cleared, if_neg fun alive => active ⟨pid, held, alive⟩]
    | free => rfl
    | done pid word => rfl

theorem slots_eq_map {jobs jobs' : JobTable} {f : Slot → Slot}
    (length : jobs'.slots.length = jobs.slots.length)
    (slots : ∀ i, jobs'.slot i = f (jobs.slot i)) : jobs'.slots = jobs.slots.map f := by
  refine List.ext_getElem (by simpa using length) fun i inside inside' => ?_
  have same := slots i
  rw [List.length_map] at inside'
  rwa [slot, slot, List.getD_eq_getElem _ _ inside, List.getD_eq_getElem _ _ inside',
    ← List.getElem_map f] at same

/-- After a pass and a drain the table holds the running jobs whose children run, each in its slot,
and nothing else. -/
theorem slots_cleared (jobs : JobTable) (distinct : children.Distinct) :
    (jobs.reap children).1.drain.2.slots = jobs.slots.map (Slot.cleared children) := by
  refine slots_eq_map ?_ (slot_cleared jobs distinct)
  rw [drain, List.length_map, length_reap jobs distinct]

end JobTable

namespace Supervision
open JobTable

theorem Run.length_slots {events : List Event} {s : State} (run : Run events s) :
    s.jobs.slots.length = capacity := by
  induction run with
  | start => exact List.length_replicate
  | @step events s e run allowed ih =>
    cases e with
    | reap => exact (length_reap s.jobs run.known.distinct).trans ih
    | drain => simpa [State.act, JobTable.drain] using ih
    | track pid =>
      rcases track_cases s.jobs pid with ⟨_, _, _, answer⟩ | ⟨_, _, _, _, answer⟩ | ⟨_, answer⟩ <;>
        simpa [State.act, answer] using ih
    | fork pid => exact ih
    | ends pid word => exact ih
    | enter => exact ih
    | leave => exact ih
    | wait pid => exact ih

/-- From any state that a history leads to: after a pass no child that has ended and has a running
job in the table is left to be collected, and without a guard no child at all that has ended; after
a drain the slots hold the running jobs of children that run and nothing else; and when no child
runs, all sixty-four slots are free. -/
theorem cleared_of_reap_drain {events : List Event} {s : State} (run : Run events s) :
    (∀ i pid word, s.jobs.slot i = .running pid →
      (s.act .reap).children.status? pid ≠ some (.ended word)) ∧
    (s.jobs.foreground = 0 → ∀ pid word,
      (s.act .reap).children.status? pid ≠ some (.ended word)) ∧
    ((s.act .reap).act .drain).jobs.slots = s.jobs.slots.map (Slot.cleared s.children) ∧
    ((∀ pid, s.children.status? pid ≠ some .running) →
      ((s.act .reap).act .drain).jobs.slots = List.replicate 64 .free) := by
  have distinct := run.known.distinct
  have cleared : ((s.act .reap).act .drain).jobs.slots = s.jobs.slots.map (Slot.cleared s.children) :=
    slots_cleared s.jobs distinct
  refine ⟨fun i pid word held => not_ended_of_reap distinct held word,
    fun quiet pid word => not_ended_of_quiet_reap quiet pid word, cleared, fun none_runs => ?_⟩
  rw [cleared, List.eq_replicate_iff, List.length_map]
  refine ⟨run.length_slots, fun x listed => ?_⟩
  obtain ⟨before, -, rfl⟩ := List.mem_map.mp listed
  cases before with
  | running pid => rw [Slot.cleared, if_neg (none_runs pid)]
  | free => rfl
  | done pid word => rfl

/-- Under a guard: a child that has ended is tracked twice, one that runs is tracked, a number is
tracked that is no child, and another child has been waited for. -/
def clutteredHistory : List Event :=
  [.fork 7, .fork 8, .track 7, .track 99, .track 8, .track 7, .fork 9, .track 9, .ends 9 0, .wait 9,
    .enter, .ends 7 0x300]

theorem cleared_of_reap_drain_cluttered :
    let s := clutteredHistory.foldl State.act {}
    Run clutteredHistory s ∧ s.jobs.slot 0 = .running 7 ∧
      (s.act .reap).children.status? 7 ≠ some (.ended 0x300) ∧
      ((s.act .reap).act .drain).jobs.slots = s.jobs.slots.map (Slot.cleared s.children) ∧
      s.jobs.slots.map (Slot.cleared s.children) =
        .free :: .free :: .running 8 :: List.replicate 61 .free := by
  have run : Run clutteredHistory (clutteredHistory.foldl State.act {}) :=
    Run.start.extend (by decide)
  have held : (clutteredHistory.foldl State.act {}).jobs.slot 0 = .running 7 := by decide
  obtain ⟨collected, -, cleared, -⟩ := cleared_of_reap_drain run
  exact ⟨run, held, collected 0 7 0x300 held, cleared, by decide⟩

end Supervision
end LineShell
