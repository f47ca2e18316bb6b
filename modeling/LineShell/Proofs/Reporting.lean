import LineShell.Proofs.Supervision

/-! No background job is lost. In a disciplined history every child that the table has accepted is
reported at most once, with its own word, and once it has ended the next pass and drain report it.
`Sound` is the invariant that links the slots, the words the system still keeps, and the reports
made so far. -/

namespace LineShell.Supervision
open JobTable

/-- The child was started after the last drain. -/
def Recent (pid : Nat) (events : List Event) : Prop :=
  ∃ before after, events = before ++ .fork pid :: after ∧ .drain ∉ after

/-- A background child is tracked once, before the first drain after its start, and is not waited
for. -/
structure Disciplined (events : List Event) : Prop where
  once : ∀ pid, events.count (.track pid) ≤ 1
  prompt : ∀ before pid after, events = before ++ .track pid :: after → Recent pid before
  others : ∀ pid, .track pid ∈ events → .wait pid ∉ events

theorem Disciplined.front {events : List Event} {e : Event}
    (disciplined : Disciplined (events ++ [e])) : Disciplined events := by
  refine ⟨fun pid => ?_, fun before pid after same => ?_, fun pid tracked waited => ?_⟩
  · have fewer := List.Sublist.count_le (.track pid) (List.sublist_append_left events [e])
    exact Nat.le_trans fewer (disciplined.once pid)
  · exact disciplined.prompt before pid (after ++ [e]) (by simp [same])
  · exact disciplined.others pid (List.mem_append_left _ tracked) (List.mem_append_left _ waited)

theorem Disciplined.track {events : List Event} {pid : Nat}
    (disciplined : Disciplined (events ++ [.track pid])) :
    .track pid ∉ events ∧ .wait pid ∉ events ∧ Recent pid events := by
  refine ⟨fun tracked => ?_, fun waited => ?_, disciplined.prompt events pid [] rfl⟩
  · have twice := disciplined.once pid
    have before := List.count_pos_iff.mpr tracked
    rw [List.count_append, List.count_singleton_self] at twice
    omega
  · exact disciplined.others pid (by simp) (List.mem_append_left _ waited)

theorem Disciplined.wait {events : List Event} {pid : Nat}
    (disciplined : Disciplined (events ++ [.wait pid])) : .track pid ∉ events :=
  fun tracked => disciplined.others pid (List.mem_append_left _ tracked) (by simp)

theorem recent_snoc {events : List Event} {e : Event} {pid : Nat}
    (recent : Recent pid (events ++ [e])) : e = .fork pid ∨ (Recent pid events ∧ e ≠ .drain) := by
  obtain ⟨before, after, same, quiet⟩ := recent
  rcases List.eq_nil_or_concat after with rfl | ⟨front, last, rfl⟩
  · exact .inl (List.singleton_inj.mp (List.append_inj' same rfl).2)
  · have split : events ++ [e] = (before ++ .fork pid :: front) ++ [last] := by simp [same]
    obtain ⟨rfl, here⟩ := List.append_inj' split rfl
    obtain rfl := List.singleton_inj.mp here
    simp only [List.concat_eq_append, List.mem_append, List.mem_singleton, not_or] at quiet
    exact .inr ⟨⟨before, front, rfl, quiet.1⟩, Ne.symm quiet.2⟩

/-- The invariant of a disciplined history. -/
structure Sound (events : List Event) (s : State) : Prop where
  apart : s.jobs.Apart
  /-- A job runs in the table as long as its word is not given out. -/
  running : ∀ i pid, s.jobs.slot i = .running pid → .track pid ∈ events ∧
    s.children.status? pid ≠ none ∧ s.children.status? pid ≠ some .collected ∧
    pid ∉ s.drained.map Prod.fst
  /-- A slot that is done holds the word its child ended with. -/
  done : ∀ i pid word, s.jobs.slot i = .done pid word →
    (∃ w, word = some w ∧ .ends pid w ∈ events) ∧
    s.children.status? pid = some .collected ∧ pid ∉ s.drained.map Prod.fst
  reported : ∀ pid state, (pid, state) ∈ s.drained → s.children.status? pid = some .collected ∧
    ∃ w, .ends pid w ∈ events ∧ state = .ofWord w
  once : (s.drained.map Prod.fst).Nodup
  kept : ∀ pid ∈ s.tracked, (∃ i, pid? (s.jobs.slot i) = some pid) ∨ pid ∈ s.drained.map Prod.fst
  /-- What was swept up before it could be tracked waits in a slot, or there was no room for it and
  there is none yet. -/
  stored : ∀ pid, Recent pid events → .track pid ∉ events → .wait pid ∉ events →
    s.children.status? pid = some .collected →
    (∃ i word, s.jobs.slot i = .done pid word) ∨ ∀ i < s.jobs.slots.length, s.jobs.slot i ≠ .free
  recent : ∀ pid, Recent pid events → pid ∉ s.drained.map Prod.fst

theorem Sound.start : Sound [] {} := by
  have all_free : ∀ i, JobTable.empty.slot i = .free := by
    intro i
    rw [slot, JobTable.empty, List.getD_eq_getElem?_getD, List.getElem?_replicate]
    split <;> rfl
  have no_recent : ∀ pid, ¬ Recent pid [] := by
    rintro pid ⟨before, after, same, -⟩
    simp at same
  refine ⟨?_, ?_, ?_, by simp, by simp, by simp, ?_, ?_⟩
  · intro i j pid hi
    simp [all_free, pid?] at hi
  · intro i pid held
    simp [all_free] at held
  · intro i pid word held
    simp [all_free] at held
  · exact fun pid recent => absurd recent (no_recent pid)
  · exact fun pid recent => absurd recent (no_recent pid)

/-- The same history with other tables. -/
def State.withTables (s : State) (tables : JobTable × ChildTable) : State :=
  { s with jobs := tables.1, children := tables.2 }

/-- A word goes into a slot that belongs to its child or to no one. -/
theorem Sound.fill {events : List Event} {s : State} (sound : Sound events s)
    (known : Known events s.children) {i pid : Nat} {word : StatusWord}
    (inside : i < s.jobs.slots.length) (ended : s.children.status? pid = some (.ended word))
    (alone : ∀ j, pid? (s.jobs.slot j) = some pid → j = i)
    (mine : ∀ other, pid? (s.jobs.slot i) = some other → other = pid)
    (undrained : pid ∉ s.drained.map Prod.fst) :
    Sound events (s.withTables
      (s.jobs.setSlot i (.done pid (some word)), s.children.setStatus pid .collected)) := by
  have slot_eq := slot_setSlot s.jobs inside (.done pid (some word))
  have status_eq := ChildTable.status?_collected ended
  have collected_still : ∀ other, s.children.status? other = some .collected →
      (s.children.setStatus pid .collected).status? other = some .collected := by
    intro other collected
    rw [status_eq, collected, ite_self]
  have elsewhere : ∀ j other, pid? (s.jobs.slot j) = some other → j ≠ i → other ≠ pid := by
    rintro j other hj ne rfl
    exact ne (alone j hj)
  constructor
  case apart => exact sound.apart.setSlot inside rfl alone
  case running =>
    intro j other hj
    simp only [State.withTables, slot_eq] at hj
    split at hj
    · contradiction
    · next j_elsewhere =>
      have ne := elsewhere j other (pid?_of_running hj) j_elsewhere
      simpa only [State.withTables, status_eq, if_neg ne] using sound.running j other hj
  case done =>
    intro j other w hj
    simp only [State.withTables, slot_eq] at hj
    split at hj
    · obtain ⟨rfl, rfl⟩ := Slot.done.inj hj
      exact ⟨⟨word, rfl, known.word pid word ended⟩, (status_eq pid).trans (if_pos rfl), undrained⟩
    · obtain ⟨told, collected, absent⟩ := sound.done j other w hj
      exact ⟨told, collected_still other collected, absent⟩
  case reported =>
    intro other state hr
    obtain ⟨collected, told⟩ := sound.reported other state hr
    exact ⟨collected_still other collected, told⟩
  case once => exact sound.once
  case kept =>
    intro other ht
    rcases sound.kept other ht with ⟨j, hj⟩ | told
    · refine .inl ⟨j, ?_⟩
      simp only [State.withTables, slot_eq]
      split
      · next j_here => rw [pid?, mine other (j_here ▸ hj)]
      · exact hj
    · exact .inr told
  case stored =>
    intro other recent untracked unwaited collected
    simp only [State.withTables, slot_eq, slots_setSlot, List.length_set, status_eq] at collected ⊢
    by_cases same : other = pid
    · exact .inl ⟨i, some word, by rw [if_pos rfl, same]⟩
    · rw [if_neg same] at collected
      refine (sound.stored other recent untracked unwaited collected).imp ?_ ?_
      · rintro ⟨j, w, hj⟩
        have j_elsewhere : j ≠ i := by
          rintro rfl
          exact same (mine other (pid?_of_done hj))
        exact ⟨j, w, by rwa [if_neg j_elsewhere]⟩
      · intro full j hj
        split
        · simp
        · exact full j hj
  case recent => exact sound.recent

/-- A change of the children that no slot and no report can tell. -/
theorem Sound.children {events : List Event} {s : State} (sound : Sound events s)
    {children : ChildTable} {waited : List (Nat × ChildState)}
    (running : ∀ i pid, s.jobs.slot i = .running pid →
      children.status? pid ≠ none ∧ children.status? pid ≠ some .collected)
    (collected : ∀ pid, s.children.status? pid = some .collected →
      children.status? pid = some .collected)
    (stored : ∀ pid, Recent pid events → .wait pid ∉ events →
      children.status? pid = some .collected → s.children.status? pid = some .collected ∨
        ∀ i < s.jobs.slots.length, s.jobs.slot i ≠ .free) :
    Sound events { s with children, waited } := by
  refine ⟨sound.apart, ?_, ?_, ?_, sound.once, sound.kept, ?_, sound.recent⟩
  · intro i pid held
    obtain ⟨tracked, -, -, undrained⟩ := sound.running i pid held
    obtain ⟨forked, uncollected⟩ := running i pid held
    exact ⟨tracked, forked, uncollected, undrained⟩
  · intro i pid word held
    obtain ⟨told, before, undrained⟩ := sound.done i pid word held
    exact ⟨told, collected pid before, undrained⟩
  · intro pid state hr
    obtain ⟨before, told⟩ := sound.reported pid state hr
    exact ⟨collected pid before, told⟩
  · intro pid recent untracked unwaited now
    rcases stored pid recent unwaited now with before | full
    · exact sound.stored pid recent untracked unwaited before
    · exact .inr full

/-- An event that leaves the slots and the reports as they are. -/
theorem Sound.snoc {events : List Event} {s : State} (sound : Sound events s) {e : Event}
    (new : ∀ pid, e = .fork pid →
      s.children.status? pid ≠ some .collected ∧ pid ∉ s.drained.map Prod.fst) :
    Sound (events ++ [e]) s := by
  refine ⟨sound.apart, ?_, ?_, ?_, sound.once, sound.kept, ?_, ?_⟩
  · intro i pid held
    obtain ⟨tracked, rest⟩ := sound.running i pid held
    exact ⟨List.mem_append_left _ tracked, rest⟩
  · intro i pid word held
    obtain ⟨⟨w, told, ended⟩, rest⟩ := sound.done i pid word held
    exact ⟨⟨w, told, List.mem_append_left _ ended⟩, rest⟩
  · intro pid state hr
    obtain ⟨collected, w, ended, told⟩ := sound.reported pid state hr
    exact ⟨collected, w, List.mem_append_left _ ended, told⟩
  · intro pid recent untracked unwaited collected
    rw [List.mem_append, not_or] at untracked unwaited
    rcases recent_snoc recent with fork | ⟨recent, -⟩
    · exact absurd collected (new pid fork).1
    · exact sound.stored pid recent untracked.1 unwaited.1 collected
  · intro pid recent
    rcases recent_snoc recent with fork | ⟨recent, -⟩
    · exact (new pid fork).2
    · exact sound.recent pid recent

theorem Sound.silent {events : List Event} {s : State} (sound : Sound events s) {e : Event}
    (no_fork : ∀ pid, e ≠ .fork pid) : Sound (events ++ [e]) s :=
  sound.snoc fun pid fork => absurd fork (no_fork pid)

theorem Sound.move {events : List Event} {s : State} (sound : Sound events s)
    (known : Known events s.children) {t : JobTable × ChildTable}
    (move : Move (s.jobs, s.children) t) : Sound events (s.withTables t) := by
  cases move with
  | deliver held ended =>
    obtain ⟨-, -, -, undrained⟩ := sound.running _ _ held
    refine sound.fill known (inside_of_running held) ended ?_ ?_ undrained
    · exact fun j hj => sound.apart j _ _ hj (pid?_of_running held)
    · intro other mine
      rw [pid?_of_running held] at mine
      exact (Option.some.inj mine).symm
  | vanish held gone _ =>
    obtain ⟨-, forked, uncollected, -⟩ := sound.running _ _ held
    exact absurd gone (not_or.mpr ⟨uncollected, forked⟩)
  | release held gone _ =>
    obtain ⟨-, forked, uncollected, -⟩ := sound.running _ _ held
    exact absurd gone (not_or.mpr ⟨uncollected, forked⟩)
  | @store _ _ i pid word quiet inside open_slot untracked ended =>
    refine sound.fill known inside ended ?_ ?_ ?_
    · intro j hj
      rcases pid?_eq_some hj with held | ⟨w, held⟩
      · exact absurd held (untracked j)
      · have collected := (sound.done j pid w held).2.1
        simp [ended] at collected
    · intro other mine
      rw [open_slot] at mine
      contradiction
    · intro drained
      obtain ⟨⟨other, state⟩, hr, rfl⟩ := List.mem_map.mp drained
      have collected := (sound.reported _ _ hr).1
      simp [ended] at collected
  | @lose _ _ pid word quiet full untracked ended =>
    have status_eq := ChildTable.status?_collected ended
    refine sound.children ?_ ?_ ?_
    · intro i other held
      have ne : other ≠ pid := by
        rintro rfl
        exact untracked i held
      obtain ⟨-, forked, uncollected, -⟩ := sound.running i other held
      rw [status_eq, if_neg ne]
      exact ⟨forked, uncollected⟩
    · intro other collected
      rw [status_eq, collected, ite_self]
    · exact fun _ _ _ _ => .inr full

theorem Sound.reap {events : List Event} {s : State} (sound : Sound events s)
    (known : Known events s.children) : Sound (events ++ [.reap]) (s.act .reap) := by
  have moves := reap_moves s.jobs known.distinct
  -- What the system knows changes with each move too, so both facts go along together.
  have reaped := moves.keep
    (P := fun t => Known events t.2 ∧ Sound events (s.withTables t))
    (fun move before => ⟨before.1.move move, before.2.move before.1 move⟩) ⟨known, sound⟩
  exact reaped.2.silent (by simp)

theorem Sound.undrained_of_fresh {events : List Event} {s : State} (sound : Sound events s)
    {pid : Nat} (uncollected : s.children.status? pid ≠ some .collected) :
    pid ∉ s.drained.map Prod.fst := by
  intro drained
  obtain ⟨⟨other, state⟩, hr, rfl⟩ := List.mem_map.mp drained
  exact uncollected (sound.reported _ _ hr).1

theorem Sound.fork {events : List Event} {s : State} (sound : Sound events s) {pid : Nat}
    (fresh : s.children.status? pid = none) :
    Sound (events ++ [.fork pid]) (s.act (.fork pid)) := by
  have status_eq := ChildTable.status?_start fresh
  have started : Sound events { s with children := s.children.start pid } := by
    refine sound.children ?_ ?_ ?_
    · intro i other held
      obtain ⟨-, forked, uncollected, -⟩ := sound.running i other held
      have ne : other ≠ pid := by
        rintro rfl
        exact forked fresh
      rw [status_eq, if_neg ne]
      exact ⟨forked, uncollected⟩
    · intro other collected
      have ne : other ≠ pid := by
        rintro rfl
        simp [fresh] at collected
      rw [status_eq, if_neg ne, collected]
    · intro other _ _ collected
      rw [status_eq] at collected
      split at collected
      · contradiction
      · exact .inl collected
  refine started.snoc fun other same => ?_
  obtain rfl := Event.fork.inj same
  exact ⟨by simp [status_eq], sound.undrained_of_fresh (by simp [fresh])⟩

theorem Sound.ends {events : List Event} {s : State} (sound : Sound events s) {pid : Nat}
    (alive : s.children.status? pid = some .running) (word : StatusWord) :
    Sound (events ++ [.ends pid word]) (s.act (.ends pid word)) := by
  have status_eq := ChildTable.status?_finish alive word
  refine Sound.silent (sound.children ?_ ?_ ?_) (by simp)
  · intro i other held
    obtain ⟨-, forked, uncollected, -⟩ := sound.running i other held
    rw [status_eq]
    split
    · simp
    · exact ⟨forked, uncollected⟩
  · intro other collected
    have ne : other ≠ pid := by
      rintro rfl
      simp [alive] at collected
    rw [status_eq, if_neg ne, collected]
  · intro other _ _ collected
    rw [status_eq] at collected
    split at collected
    · simp at collected
    · exact .inl collected

theorem Sound.wait {events : List Event} {s : State} (sound : Sound events s) {pid : Nat}
    (untracked : .track pid ∉ events) : Sound (events ++ [.wait pid]) (s.act (.wait pid)) := by
  have waiting : Sound (events ++ [.wait pid]) s := sound.silent (by simp)
  have after : s.act (.wait pid) = { s with
      children := (s.children.collect pid).2
      waited := s.waited ++ [(pid, stateOf (s.children.collect pid).1)] } := rfl
  rw [after]
  refine waiting.children ?_ ?_ ?_
  · intro i other held
    obtain ⟨tracked, forked, uncollected, -⟩ := sound.running i other held
    have ne : other ≠ pid := by
      rintro rfl
      exact untracked tracked
    rw [ChildTable.status?_collect_of_ne _ ne]
    exact ⟨forked, uncollected⟩
  · exact fun other => ChildTable.collected_collect
  · intro other _ unwaited collected
    have ne : other ≠ pid := by
      rintro rfl
      simp at unwaited
    rw [ChildTable.status?_collect_of_ne _ ne] at collected
    exact .inl collected

theorem Sound.accept {events : List Event} {s : State} (sound : Sound events s) {i pid : Nat}
    (held : pid? (s.jobs.slot i) = some pid) :
    Sound events { s with tracked := s.tracked ++ [pid] } := by
  refine ⟨sound.apart, sound.running, sound.done, sound.reported, sound.once, ?_, sound.stored,
    sound.recent⟩
  intro other known
  rcases List.mem_append.mp known with before | last
  · exact sound.kept other before
  · exact .inl ⟨i, List.mem_singleton.mp last ▸ held⟩

/-- A free slot takes a child that no slot holds. -/
theorem Sound.occupy {events : List Event} {s : State} (sound : Sound events s) {i pid : Nat}
    (inside : i < s.jobs.slots.length) (open_slot : s.jobs.slot i = .free)
    (tracked : .track pid ∈ events) (forked : s.children.status? pid ≠ none)
    (uncollected : s.children.status? pid ≠ some .collected)
    (alone : ∀ j, pid? (s.jobs.slot j) ≠ some pid) :
    Sound events { s with jobs := s.jobs.setSlot i (.running pid) } := by
  have slot_eq := slot_setSlot s.jobs inside (.running pid)
  have elsewhere : ∀ j other, pid? (s.jobs.slot j) = some other → j ≠ i := by
    rintro j other hj rfl
    rw [open_slot] at hj
    contradiction
  constructor
  case apart => exact sound.apart.setSlot inside rfl fun j held => absurd held (alone j)
  case running =>
    intro j other hj
    simp only [slot_eq] at hj
    split at hj
    · obtain rfl := Slot.running.inj hj
      exact ⟨tracked, forked, uncollected, sound.undrained_of_fresh uncollected⟩
    · exact sound.running j other hj
  case done =>
    intro j other word hj
    simp only [slot_eq] at hj
    split at hj
    · contradiction
    · exact sound.done j other word hj
  case reported => exact sound.reported
  case once => exact sound.once
  case kept =>
    intro other known
    rcases sound.kept other known with ⟨j, hj⟩ | told
    · refine .inl ⟨j, ?_⟩
      simp only [slot_eq]
      rwa [if_neg (elsewhere j other hj)]
    · exact .inr told
  case stored =>
    intro other recent untracked unwaited collected
    rcases sound.stored other recent untracked unwaited collected with ⟨j, word, hj⟩ | full
    · refine .inl ⟨j, word, ?_⟩
      simp only [slot_eq]
      rwa [if_neg (elsewhere j other (pid?_of_done hj))]
    · exact absurd open_slot (full i inside)
  case recent => exact sound.recent

theorem Sound.track {events : List Event} {s : State} (sound : Sound events s)
    (known : Known events s.children) {pid : Nat} (untracked : .track pid ∉ events)
    (unwaited : .wait pid ∉ events) (recent : Recent pid events) :
    Sound (events ++ [.track pid]) (s.act (.track pid)) := by
  have tracking : Sound (events ++ [.track pid]) s := sound.silent (by simp)
  rcases track_cases s.jobs pid with
    ⟨i, word, held, answer⟩ | ⟨i, inside, open_slot, none_done, answer⟩ | ⟨-, answer⟩
  · rw [State.act, answer]
    exact tracking.accept (pid?_of_done held)
  · have forked : s.children.status? pid ≠ none := by
      obtain ⟨before, after, rfl, -⟩ := recent
      exact known.forked pid (by simp)
    -- Had it been swept up before, a slot would report it, or there would be no free slot.
    have uncollected : s.children.status? pid ≠ some .collected := by
      intro collected
      rcases sound.stored pid recent untracked unwaited collected with ⟨j, word, held⟩ | full
      · exact none_done j word held
      · exact full i inside open_slot
    have alone : ∀ j, pid? (s.jobs.slot j) ≠ some pid := by
      intro j held
      rcases pid?_eq_some held with running | ⟨word, done⟩
      · exact untracked (sound.running j pid running).1
      · exact none_done j word done
    have here := slot_setSlot s.jobs inside (.running pid) i
    rw [if_pos rfl] at here
    rw [State.act, answer]
    exact (tracking.occupy inside open_slot (by simp) forked uncollected alone).accept
      (pid?_of_running here)
  · rw [State.act, answer]
    exact tracking

theorem not_recent_of_drain {events : List Event} {pid : Nat} :
    ¬ Recent pid (events ++ [.drain]) := by
  intro recent
  rcases recent_snoc recent with fork | ⟨-, quiet⟩
  · contradiction
  · exact quiet rfl

theorem mem_drained_iff {s : State} {pid : Nat} : pid ∈ (s.act .drain).drained.map Prod.fst ↔
    pid ∈ s.drained.map Prod.fst ∨ ∃ i word, s.jobs.slot i = .done pid word := by
  rw [State.act, List.map_append, List.mem_append]
  refine or_congr_right ⟨?_, ?_⟩
  · intro told
    obtain ⟨⟨other, state⟩, hr, rfl⟩ := List.mem_map.mp told
    obtain ⟨i, word, held, -⟩ := mem_reports_iff.mp hr
    exact ⟨i, word, held⟩
  · rintro ⟨i, word, held⟩
    exact List.mem_map.mpr ⟨_, mem_reports_iff.mpr ⟨i, word, held, rfl⟩, rfl⟩

theorem Sound.drain {events : List Event} {s : State} (sound : Sound events s) :
    Sound (events ++ [.drain]) (s.act .drain) := by
  constructor
  case apart =>
    intro i j pid hi hj
    exact sound.apart i j pid (pid?_of_running (slot_drain_eq_some hi).2)
      (pid?_of_running (slot_drain_eq_some hj).2)
  case running =>
    intro i pid held
    have before := (slot_drain_eq_some (pid?_of_running held)).2
    obtain ⟨tracked, forked, uncollected, undrained⟩ := sound.running i pid before
    refine ⟨List.mem_append_left _ tracked, forked, uncollected, ?_⟩
    rw [mem_drained_iff, not_or]
    refine ⟨undrained, ?_⟩
    rintro ⟨j, word, done⟩
    obtain rfl := sound.apart i j pid (pid?_of_running before) (pid?_of_done done)
    rw [before] at done
    contradiction
  case done =>
    intro i pid word held
    have running := (slot_drain_eq_some (pid?_of_done held)).1
    rw [State.act] at held
    rw [held] at running
    contradiction
  case reported =>
    intro pid state hr
    rcases List.mem_append.mp hr with before | now
    · obtain ⟨collected, word, ended, told⟩ := sound.reported pid state before
      exact ⟨collected, word, List.mem_append_left _ ended, told⟩
    · obtain ⟨i, word, held, rfl⟩ := mem_reports_iff.mp now
      obtain ⟨⟨w, rfl, ended⟩, collected, -⟩ := sound.done i pid word held
      exact ⟨collected, w, List.mem_append_left _ ended, rfl⟩
  case once =>
    rw [State.act, List.map_append]
    refine List.nodup_append.mpr ⟨sound.once, sound.apart.nodup_reports, ?_⟩
    rintro pid before other now rfl
    obtain ⟨⟨p, state⟩, hr, rfl⟩ := List.mem_map.mp now
    obtain ⟨i, word, held, -⟩ := mem_reports_iff.mp hr
    exact (sound.done i p word held).2.2 before
  case kept =>
    intro pid known
    rw [mem_drained_iff]
    rcases sound.kept pid known with ⟨i, held⟩ | before
    · rcases pid?_eq_some held with running | done
      · refine .inl ⟨i, ?_⟩
        rw [State.act, slot_drain, running]
        rfl
      · exact .inr (.inr ⟨i, done⟩)
    · exact .inr (.inl before)
  case stored => exact fun pid recent => absurd recent not_recent_of_drain
  case recent => exact fun pid recent => absurd recent not_recent_of_drain

/-- Guards change no slot. -/
theorem Sound.foreground {events : List Event} {s : State} (sound : Sound events s) (n : Nat) :
    Sound events { s with jobs := { s.jobs with foreground := n } } :=
  ⟨sound.apart, sound.running, sound.done, sound.reported, sound.once, sound.kept, sound.stored,
    sound.recent⟩

theorem Run.sound {events : List Event} {s : State} (run : Run events s)
    (disciplined : Disciplined events) : Sound events s := by
  induction run with
  | start => exact .start
  | @step events s e run allowed ih =>
    have sound := ih disciplined.front
    cases e with
    | fork pid => exact sound.fork allowed
    | ends pid word => exact sound.ends allowed word
    | track pid =>
      obtain ⟨untracked, unwaited, recent⟩ := disciplined.track
      exact sound.track run.known untracked unwaited recent
    | reap => exact sound.reap run.known
    | drain => exact sound.drain
    | enter => exact (sound.foreground _).silent (by simp)
    | leave => exact (sound.foreground _).silent (by simp)
    | wait pid => exact sound.wait disciplined.wait

/-- Once a tracked child has ended, a pass leaves it in a slot that is done or it is reported
already. -/
theorem Sound.drained_of_ended {events : List Event} {s : State} (sound : Sound events s)
    (known : Known events s.children) {pid : Nat} (tracked : pid ∈ s.tracked) {word : StatusWord}
    (ended : .ends pid word ∈ events) :
    (pid, .ofWord word) ∈ ((s.act .reap).act .drain).drained := by
  have reaped := sound.reap known
  have drained := reaped.drain
  have settled := reap_settled s.jobs known.distinct
  have reaped_known : Known events (s.act .reap).children :=
    (reap_moves s.jobs known.distinct).keep (P := fun t => Known events t.2) Known.move known
  -- A slot that is still taken after a drain runs, and after a pass its child has not ended.
  rcases drained.kept pid tracked with ⟨i, held⟩ | told
  · have running := (slot_drain_eq_some held).2
    obtain ⟨-, -, uncollected, -⟩ := reaped.running i pid running
    rcases reaped_known.ended pid word ended with waits | collected
    · exact absurd waits (settled i pid word running)
    · exact absurd collected uncollected
  · obtain ⟨⟨other, state⟩, hr, rfl⟩ := List.mem_map.mp told
    obtain ⟨-, w, own, rfl⟩ := drained.reported _ _ hr
    have own_before : .ends other w ∈ events := by simpa using own
    rwa [known.one_word other word w ended own_before]

/-- A child that the table has accepted is reported at most once, and with the word it ended
with; once it has ended, the next pass and drain leave it reported exactly once. -/
theorem reported_once {events : List Event} {s : State} (run : Run events s)
    (disciplined : Disciplined events) {pid : Nat} (tracked : pid ∈ s.tracked) :
    (s.drained.map Prod.fst).count pid ≤ 1 ∧
    (∀ state, (pid, state) ∈ s.drained →
      state ≠ .reaped ∧ ∃ word, .ends pid word ∈ events ∧ state = .ofWord word) ∧
    ∀ word, .ends pid word ∈ events →
      (((s.act .reap).act .drain).drained.map Prod.fst).count pid = 1 ∧
        (pid, .ofWord word) ∈ ((s.act .reap).act .drain).drained := by
  have sound := run.sound disciplined
  have later := (sound.reap run.known).drain
  refine ⟨List.nodup_iff_count_le_one.mp sound.once pid, ?_, ?_⟩
  · intro state told
    obtain ⟨-, word, own, rfl⟩ := sound.reported pid state told
    exact ⟨ofWord_ne_reaped word, word, own, rfl⟩
  · intro word ended
    have told := sound.drained_of_ended run.known tracked ended
    exact ⟨List.count_eq_one_of_mem later.once (List.mem_map_of_mem told), told⟩

/-- A job that ends and is swept up before it is tracked, and a child that is waited for. -/
def sweptHistory : List Event :=
  [.fork 7, .ends 7 0x300, .reap, .track 7, .enter, .fork 8, .ends 8 9, .reap, .wait 8, .leave,
    .drain]

theorem disciplined_sweptHistory : Disciplined sweptHistory := by
  refine ⟨fun pid => ?_, fun before pid after same => ?_, by simp [sweptHistory]⟩
  · simp only [sweptHistory, List.count_cons]
    simp
    split <;> omega
  · simp [sweptHistory, List.cons_eq_append_iff] at same
    obtain ⟨rfl, rfl, -⟩ := same
    exact ⟨[], [.ends 7 0x300, .reap], rfl, by simp⟩

theorem reported_once_sweptHistory :
    let s := sweptHistory.foldl State.act {}
    Run sweptHistory s ∧ Disciplined sweptHistory ∧ 7 ∈ s.tracked ∧ s.drained = [(7, .exited 3)] ∧
      (((s.act .reap).act .drain).drained.map Prod.fst).count 7 = 1 := by
  have run : Run sweptHistory (sweptHistory.foldl State.act {}) := Run.start.extend (by decide)
  have tracked : 7 ∈ (sweptHistory.foldl State.act {}).tracked := by decide
  obtain ⟨-, -, reported⟩ := reported_once run disciplined_sweptHistory tracked
  exact ⟨run, disciplined_sweptHistory, tracked, by decide, (reported 0x300 (by decide)).1⟩

end LineShell.Supervision
