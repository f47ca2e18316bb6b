import LineShell.Proofs.Supervision
import Mathlib.Data.List.Induction
import Mathlib.Data.List.Infix

/-! A foreground wait gets the word of its child. A pass can take the word of a child in two ways:
its job runs in a slot, which only tracking brings about (`Run.tracked_of_running`), or it is swept
up, which no pass does as long as a guard is held (`Run.foreground_add`). So a child that is never
tracked keeps its word from its start on while a guard is held, until it is waited for
(`uncollected_of_held`). -/

namespace LineShell.Supervision
open JobTable

theorem slot_empty (i : Nat) : JobTable.empty.slot i = .free := by
  rw [slot, JobTable.empty, List.getD_eq_getElem?_getD, List.getElem?_replicate]
  split <;> rfl

/-- A job runs in the table only after it has been tracked. -/
theorem Run.tracked_of_running {events : List Event} {s : State} (run : Run events s) {i pid : Nat}
    (held : s.jobs.slot i = .running pid) : .track pid ∈ events := by
  induction run generalizing i with
  | start => simp [slot_empty] at held
  | @step events s e run allowed ih =>
    have before (held : s.jobs.slot i = .running pid) : .track pid ∈ events ++ [e] :=
      List.mem_append_left _ (ih held)
    cases e with
    | fork other => exact before held
    | ends other word => exact before held
    | wait other => exact before held
    | enter => exact before held
    | leave => exact before held
    | drain => exact before (slot_drain_eq_some (pid?_of_running held)).2
    | reap =>
      have moves := reap_moves s.jobs run.known.distinct
      have kept := moves.keep
        (P := fun t => t.1.slot i = .running pid → s.jobs.slot i = .running pid)
        (fun move earlier now => earlier (running_of_move move now)) id
      exact before (kept held)
    | track other =>
      rcases track_cases s.jobs other with
        ⟨_, _, _, answer⟩ | ⟨j, inside, _, _, answer⟩ | ⟨_, answer⟩
      · rw [State.act, answer] at held
        exact before held
      · rw [State.act, answer] at held
        simp only [slot_setSlot s.jobs inside] at held
        split at held
        · obtain rfl := Slot.running.inj held
          simp
        · exact before held
      · rw [State.act, answer] at held
        exact before held

theorem foreground_track (jobs : JobTable) (pid : Nat) :
    (jobs.track pid).2.foreground = jobs.foreground := by
  rcases track_cases jobs pid with ⟨_, _, _, answer⟩ | ⟨_, _, _, _, answer⟩ | ⟨_, answer⟩ <;>
    simp [answer]

/-- The table counts the guards that are held. -/
theorem Run.foreground_add {events : List Event} {s : State} (run : Run events s) :
    s.jobs.foreground + events.count .leave = events.count .enter := by
  induction run with
  | start => rfl
  | @step events s e run allowed ih =>
    rw [List.count_append, List.count_append]
    cases e with
    | enter =>
      simp [State.act, JobTable.enter]
      omega
    | leave =>
      have taken : 0 < s.jobs.foreground := allowed
      simp [State.act, JobTable.leave]
      omega
    | reap =>
      have kept := (reap_moves s.jobs run.known.distinct).keep
        (P := fun t => t.1.foreground = s.jobs.foreground)
        (fun move same => move.foreground.trans same) rfl
      simpa [State.act, kept] using ih
    | track pid => simpa [State.act, foreground_track] using ih
    | fork pid => simpa [State.act] using ih
    | ends pid word => simpa [State.act] using ih
    | wait pid => simpa [State.act] using ih
    | drain => simpa [State.act, JobTable.drain] using ih

/-- The guard that is taken between `before` and `after` is held to the end of `after`: even
without it there is a guard for each one that is dropped. -/
def Held (before after : List Event) : Prop :=
  ∀ front, front <+: after → (before ++ front).count .leave ≤ (before ++ front).count .enter

theorem Held.front {before after : List Event} {e : Event} (held : Held before (after ++ [e])) :
    Held before after :=
  fun front shorter => held front (shorter.trans (List.prefix_append _ _))

theorem Run.guarded {before after : List Event} {s : State}
    (run : Run (before ++ .enter :: after) s) (held : Held before after) :
    0 < s.jobs.foreground := by
  have counted := run.foreground_add
  have others := held after (List.prefix_refl _)
  rw [List.count_append, List.count_cons_of_ne (by simp), List.count_append,
    List.count_cons_self] at counted
  rw [List.count_append, List.count_append] at others
  omega

/-- While a guard is held no move takes the word of a child that has no slot. -/
theorem uncollected_of_move {s t : JobTable × ChildTable} (move : Move s t) {pid : Nat}
    (guarded : 0 < s.1.foreground) (idle : ∀ i, s.1.slot i ≠ .running pid)
    (uncollected : s.2.status? pid ≠ some .collected) : t.2.status? pid ≠ some .collected := by
  cases move with
  | deliver before =>
    rw [ChildTable.status?_setStatus_of_ne]
    · exact uncollected
    · rintro rfl
      exact idle _ before
  | vanish => exact uncollected
  | release => exact uncollected
  | store quiet => exact absurd quiet (Nat.ne_of_gt guarded)
  | lose quiet => exact absurd quiet (Nat.ne_of_gt guarded)

theorem uncollected_reap {events : List Event} {s : State} (run : Run events s) {pid : Nat}
    (guarded : 0 < s.jobs.foreground) (untracked : .track pid ∉ events)
    (uncollected : s.children.status? pid ≠ some .collected) :
    (s.act .reap).children.status? pid ≠ some .collected := by
  have idle : ∀ i, s.jobs.slot i ≠ .running pid := fun i held =>
    untracked (run.tracked_of_running held)
  have kept := (reap_moves s.jobs run.known.distinct).keep
    (P := fun t => 0 < t.1.foreground ∧ (∀ i, t.1.slot i ≠ .running pid) ∧
      t.2.status? pid ≠ some .collected)
    (fun move before => ⟨move.foreground ▸ before.1,
      fun i held => before.2.1 i (running_of_move move held),
      uncollected_of_move move before.1 before.2.1 before.2.2⟩)
    ⟨guarded, idle, uncollected⟩
  exact kept.2.2

theorem Run.last {events : List Event} {e : Event} {s : State} (run : Run (events ++ [e]) s) :
    ∃ before, Run events before ∧ before.Allows e ∧ s = before.act e := by
  generalize history : events ++ [e] = all at run
  cases run with
  | start => simp at history
  | step run allowed =>
    obtain ⟨rfl, same⟩ := List.append_inj' history rfl
    obtain rfl := List.singleton_inj.mp same
    exact ⟨_, run, allowed, rfl⟩

/-- An event while a guard is held, and the word of a child that is not tracked. -/
theorem uncollected_act {events : List Event} {s : State} (run : Run events s) {pid : Nat} {e : Event}
    (allowed : s.Allows e) (unwaited : e ≠ .wait pid) (guarded : 0 < s.jobs.foreground)
    (untracked : .track pid ∉ events) (uncollected : s.children.status? pid ≠ some .collected) :
    (s.act e).children.status? pid ≠ some .collected := by
  cases e with
  | reap => exact uncollected_reap run guarded untracked uncollected
  | fork other =>
    rw [State.act, ChildTable.status?_start allowed]
    split
    · simp
    · exact uncollected
  | ends other word =>
    rw [State.act, ChildTable.status?_finish allowed]
    split
    · simp
    · exact uncollected
  | wait other =>
    have ne : pid ≠ other := by
      rintro rfl
      exact unwaited rfl
    simpa only [State.act, ChildTable.status?_collect_of_ne _ ne] using uncollected
  | track other => exact uncollected
  | drain => exact uncollected
  | enter => exact uncollected
  | leave => exact uncollected

/-- From its start on a foreground child keeps its word until it is waited for. -/
theorem uncollected_of_held {before after : List Event} {s : State} {pid : Nat}
    (run : Run (before ++ .enter :: after) s) (held : Held before after)
    (forked : .fork pid ∈ after) (untracked : .track pid ∉ before ++ .enter :: after)
    (unwaited : .wait pid ∉ after) : s.children.status? pid ≠ some .collected := by
  induction after using List.reverseRecOn generalizing s with
  | nil => simp at forked
  | append_singleton after e ih =>
    have history : before ++ .enter :: (after ++ [e]) = (before ++ .enter :: after) ++ [e] := by simp
    rw [history] at run untracked
    obtain ⟨earlier, first, allowed, rfl⟩ := run.last
    rw [List.mem_append, not_or] at untracked unwaited
    by_cases new : e = .fork pid
    · subst new
      rw [State.act, ChildTable.status?_start allowed]
      simp
    · have forked_before : .fork pid ∈ after := by simpa [Ne.symm new] using forked
      have uncollected := ih first held.front forked_before untracked.1 unwaited.1
      have other_wait : e ≠ .wait pid := fun same => unwaited.2 (by simp [same])
      exact uncollected_act first allowed other_wait (first.guarded held.front) untracked.1
        uncollected

/-- A child that is started while a guard is held, and is never tracked, can be waited for just when
it has ended; if the guard is still held and no one has waited for the child yet, the wait gives the
word the child has ended with. -/
theorem wait_returns_own {before after : List Event} {s : State} {pid : Nat}
    (run : Run (before ++ .enter :: after) s) (held : Held before after)
    (forked : .fork pid ∈ after) (untracked : .track pid ∉ before ++ .enter :: after)
    (unwaited : .wait pid ∉ after) :
    (s.Allows (.wait pid) ↔ ∃ word, .ends pid word ∈ before ++ .enter :: after) ∧
    ∀ word, .ends pid word ∈ before ++ .enter :: after →
      (s.act (.wait pid)).waited = s.waited ++ [(pid, .ofWord word)] ∧
        ChildState.ofWord word ≠ .reaped := by
  have known := run.known
  have uncollected := uncollected_of_held run held forked untracked unwaited
  have waits (word : StatusWord) (ended : .ends pid word ∈ before ++ .enter :: after) :
      s.children.status? pid = some (.ended word) :=
    (known.ended pid word ended).resolve_right uncollected
  refine ⟨⟨fun allowed => ?_, fun ⟨word, ended⟩ => ?_⟩, fun word ended => ?_⟩
  · have started := known.forked pid (by simp [forked])
    have rests : s.children.status? pid ≠ some .running := allowed
    cases status : s.children.status? pid with
    | none => exact absurd status started
    | some now =>
      cases now with
      | running => exact absurd status rests
      | collected => exact absurd status uncollected
      | ended word => exact ⟨word, known.word pid word status⟩
  · simp [State.Allows, waits word ended]
  · rw [State.act, ChildTable.collect_of_ended (waits word ended)]
    exact ⟨rfl, ofWord_ne_reaped word⟩

/-- Two guards, of which the first is dropped, a background job, and a child that ends before a
pass and is then waited for. -/
def guardedHistory : List Event :=
  [.fork 9, .track 9, .leave, .fork 8, .ends 8 0x300, .ends 9 0, .reap, .drain, .reap]

theorem wait_returns_own_guardedHistory :
    let before : List Event := [.enter]
    let s := (before ++ .enter :: guardedHistory).foldl State.act {}
    Run (before ++ .enter :: guardedHistory) s ∧ Held before guardedHistory ∧
      s.drained = [(9, .exited 0)] ∧ (s.act (.wait 8)).waited = [(8, .exited 3)] := by
  have run : Run ([Event.enter] ++ .enter :: guardedHistory)
      (([Event.enter] ++ .enter :: guardedHistory).foldl State.act {}) :=
    Run.start.extend (by decide)
  have held : Held [.enter] guardedHistory := by
    intro front shorter
    rw [← List.mem_inits] at shorter
    revert front
    decide
  have forked : .fork 8 ∈ guardedHistory := by decide
  obtain ⟨-, own⟩ := wait_returns_own run held forked (by decide) (by decide)
  exact ⟨run, held, by decide, (own 0x300 (by decide)).1⟩

end LineShell.Supervision
