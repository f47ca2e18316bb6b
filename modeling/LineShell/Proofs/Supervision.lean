import LineShell.Launch
import LineShell.Proofs.Reaping

/-! A shell that looks after its children, as a history of events: children are started and end,
and in between the shell tracks them, reaps, drains its table and waits. The state keeps, beside
the two tables, what was tracked, what the drains reported and what the waits returned. -/

namespace LineShell.Supervision

inductive Event
  | fork (pid : Nat)
  /-- A child ends, and the system keeps a word of it. -/
  | ends (pid : Nat) (word : StatusWord)
  | track (pid : Nat)
  | reap
  | drain
  /-- A guard for a foreground wait is taken. -/
  | enter
  /-- A guard for a foreground wait is dropped. -/
  | leave
  | wait (pid : Nat)
  deriving DecidableEq

structure State where
  jobs : JobTable := .empty
  children : ChildTable := {}
  /-- The children that the table has accepted. -/
  tracked : List Nat := []
  /-- What the drains have reported, in order. -/
  drained : List (Nat × ChildState) := []
  /-- What the waits have returned, in order. -/
  waited : List (Nat × ChildState) := []

namespace State

def act (s : State) : Event → State
  | .fork pid => { s with children := s.children.start pid }
  | .ends pid word => { s with children := s.children.finish pid word }
  | .track pid =>
    let (accepted, jobs) := s.jobs.track pid
    { s with jobs, tracked := if accepted then s.tracked ++ [pid] else s.tracked }
  | .reap =>
    let (jobs, children) := s.jobs.reap s.children
    { s with jobs, children }
  | .drain =>
    let (reports, jobs) := s.jobs.drain
    { s with jobs, drained := s.drained ++ reports }
  | .enter => { s with jobs := s.jobs.enter }
  | .leave => { s with jobs := s.jobs.leave }
  | .wait pid =>
    let (answer, children) := s.children.collect pid
    { s with children, waited := s.waited ++ [(pid, stateOf answer)] }

/-- What can happen: a new child has a number of its own, a child ends once, a guard is dropped
only after it was taken, and a wait goes on until the child has ended. -/
def Allows (s : State) : Event → Prop
  | .fork pid => s.children.status? pid = none
  | .ends pid _ => s.children.status? pid = some .running
  | .leave => 0 < s.jobs.foreground
  | .wait pid => s.children.status? pid ≠ some .running
  | _ => True

end State

/-- A history from an empty table and no children, and the state it leads to. -/
inductive Run : List Event → State → Prop
  | start : Run [] {}
  | step {events : List Event} {s : State} {e : Event} (run : Run events s) (allowed : s.Allows e) :
      Run (events ++ [e]) (s.act e)

instance State.decidableAllows (s : State) : (e : Event) → Decidable (s.Allows e)
  | .fork pid => inferInstanceAs (Decidable (s.children.status? pid = none))
  | .ends pid _ => inferInstanceAs (Decidable (s.children.status? pid = some .running))
  | .leave => inferInstanceAs (Decidable (0 < s.jobs.foreground))
  | .wait pid => inferInstanceAs (Decidable (s.children.status? pid ≠ some .running))
  | .track _ | .reap | .drain | .enter => .isTrue trivial

/-- Each event can happen after those before it. -/
def State.AllowsAll (s : State) : List Event → Prop
  | [] => True
  | e :: rest => s.Allows e ∧ (s.act e).AllowsAll rest

instance State.decidableAllowsAll :
    (s : State) → (events : List Event) → Decidable (s.AllowsAll events)
  | _, [] => .isTrue trivial
  | s, e :: rest => @instDecidableAnd _ _ _ (State.decidableAllowsAll (s.act e) rest)

theorem Run.extend {events more : List Event} {s : State} (run : Run events s)
    (allowed : s.AllowsAll more) : Run (events ++ more) (more.foldl State.act s) := by
  induction more generalizing events s with
  | nil => simpa using run
  | cons e rest ih =>
    obtain ⟨here, later⟩ := allowed
    simpa using ih (run.step here) later

/-- How the children stand after a history: every child that was started is known, and the one
word of a child that has ended is kept until someone collects it. -/
structure Known (events : List Event) (children : ChildTable) : Prop where
  distinct : children.Distinct
  forked : ∀ pid, .fork pid ∈ events → children.status? pid ≠ none
  ended : ∀ pid word, .ends pid word ∈ events →
    children.status? pid = some (.ended word) ∨ children.status? pid = some .collected
  word : ∀ pid word, children.status? pid = some (.ended word) → .ends pid word ∈ events
  one_word : ∀ pid word other, .ends pid word ∈ events → .ends pid other ∈ events → word = other

theorem Known.collect {events : List Event} {children : ChildTable} (known : Known events children)
    {pid : Nat} {word : StatusWord} (ended : children.status? pid = some (.ended word)) :
    Known events (children.setStatus pid .collected) := by
  have status := ChildTable.status?_collected ended
  refine ⟨known.distinct.setStatus _ _, ?_, ?_, ?_, known.one_word⟩
  · intro other forked
    rw [status]
    split
    · simp
    · exact known.forked other forked
  · intro other w hw
    rw [status]
    split
    · exact .inr rfl
    · exact known.ended other w hw
  · intro other w hw
    rw [status] at hw
    split at hw
    · simp at hw
    · exact known.word other w hw

theorem Known.move {events : List Event} {s t : JobTable × ChildTable} (move : JobTable.Move s t)
    (known : Known events s.2) : Known events t.2 := by
  cases move with
  | deliver _ ended => exact known.collect ended
  | vanish => exact known
  | release => exact known
  | store _ _ _ _ ended => exact known.collect ended
  | lose _ _ _ ended => exact known.collect ended

/-- Events about no child change nothing of this. -/
theorem Known.silent {events : List Event} {children : ChildTable} (known : Known events children)
    {e : Event} (no_fork : ∀ pid, e ≠ .fork pid) (no_end : ∀ pid word, e ≠ .ends pid word) :
    Known (events ++ [e]) children := by
  have fork_mem : ∀ pid, .fork pid ∈ events ++ [e] → .fork pid ∈ events := fun pid h =>
    (List.mem_append.mp h).resolve_right fun last => no_fork pid (List.mem_singleton.mp last).symm
  have ends_mem : ∀ pid word, .ends pid word ∈ events ++ [e] → .ends pid word ∈ events :=
    fun pid word h => (List.mem_append.mp h).resolve_right fun last =>
      no_end pid word (List.mem_singleton.mp last).symm
  exact ⟨known.distinct, fun pid h => known.forked pid (fork_mem pid h),
    fun pid word h => known.ended pid word (ends_mem pid word h),
    fun pid word h => List.mem_append_left _ (known.word pid word h),
    fun pid word other h h' => known.one_word pid word other (ends_mem _ _ h) (ends_mem _ _ h')⟩

theorem Known.fork {events : List Event} {children : ChildTable} (known : Known events children)
    {pid : Nat} (fresh : children.status? pid = none) :
    Known (events ++ [.fork pid]) (children.start pid) := by
  have status := ChildTable.status?_start fresh
  have ends_mem : ∀ other word, Event.ends other word ∈ events ++ [.fork pid] →
      Event.ends other word ∈ events := by simp
  refine ⟨known.distinct.start fresh, ?_, ?_, ?_, ?_⟩
  · intro other forked
    rw [status]
    split
    · simp
    · next ne => exact known.forked other (by simpa [ne] using forked)
  · intro other w hw
    have before := known.ended other w (ends_mem other w hw)
    have ne : other ≠ pid := by
      rintro rfl
      simp [fresh] at before
    rwa [status, if_neg ne]
  · intro other w hw
    rw [status] at hw
    split at hw
    · simp at hw
    · exact List.mem_append_left _ (known.word other w hw)
  · intro other w w' h h'
    exact known.one_word other w w' (ends_mem _ _ h) (ends_mem _ _ h')

theorem Known.ends {events : List Event} {children : ChildTable} (known : Known events children)
    {pid : Nat} (alive : children.status? pid = some .running) (word : StatusWord) :
    Known (events ++ [.ends pid word]) (children.finish pid word) := by
  have status := ChildTable.status?_finish alive word
  have before : ∀ w, .ends pid w ∉ events := by
    intro w hw
    simpa [alive] using known.ended pid w hw
  refine ⟨known.distinct.finish pid word, ?_, ?_, ?_, ?_⟩
  · intro other forked
    rw [status]
    split
    · simp
    · exact known.forked other (by simpa using forked)
  · intro other w hw
    rw [status]
    rcases List.mem_append.mp hw with earlier | last
    · have ne : other ≠ pid := by
        rintro rfl
        exact before w earlier
      rw [if_neg ne]
      exact known.ended other w earlier
    · obtain ⟨rfl, rfl⟩ := Event.ends.inj (List.mem_singleton.mp last)
      simp
  · intro other w hw
    rw [status] at hw
    split at hw
    · next same =>
      simp only [Option.some.injEq, ChildStatus.ended.injEq] at hw
      simp [same, hw]
    · exact List.mem_append_left _ (known.word other w hw)
  · intro other w w' h h'
    rcases List.mem_append.mp h with earlier | last <;>
      rcases List.mem_append.mp h' with earlier' | last'
    · exact known.one_word other w w' earlier earlier'
    · obtain ⟨rfl, rfl⟩ := Event.ends.inj (List.mem_singleton.mp last')
      exact absurd earlier (before w)
    · obtain ⟨rfl, rfl⟩ := Event.ends.inj (List.mem_singleton.mp last)
      exact absurd earlier' (before w')
    · obtain ⟨-, rfl⟩ := Event.ends.inj (List.mem_singleton.mp last)
      exact (Event.ends.inj (List.mem_singleton.mp last')).2.symm

theorem Known.wait {events : List Event} {children : ChildTable} (known : Known events children)
    {pid : Nat} (ended : children.status? pid ≠ some .running) :
    Known (events ++ [.wait pid]) (children.collect pid).2 := by
  refine Known.silent ?_ (by simp) (by simp)
  cases status : children.status? pid with
  | none => rwa [ChildTable.collect_of_gone (.inr status)]
  | some now =>
    cases now with
    | running => exact absurd status ended
    | collected => rwa [ChildTable.collect_of_gone (.inl status)]
    | ended word =>
      rw [ChildTable.collect_of_ended status]
      exact known.collect status

theorem Run.known {events : List Event} {s : State} (run : Run events s) :
    Known events s.children := by
  induction run with
  | start => exact ⟨List.nodup_nil, by simp, by simp, by simp [ChildTable.status?], by simp⟩
  | @step events s e run allowed ih =>
    cases e with
    | fork pid => exact ih.fork allowed
    | ends pid word => exact ih.ends allowed word
    | wait pid => exact ih.wait allowed
    | reap =>
      have moves := JobTable.reap_moves s.jobs ih.distinct
      have reaped : Known events (s.jobs.reap s.children).2 :=
        moves.keep (P := fun t => Known events t.2) Known.move ih
      exact reaped.silent (by simp) (by simp)
    | track pid => exact ih.silent (by simp) (by simp)
    | drain => exact ih.silent (by simp) (by simp)
    | enter => exact ih.silent (by simp) (by simp)
    | leave => exact ih.silent (by simp) (by simp)

end LineShell.Supervision
