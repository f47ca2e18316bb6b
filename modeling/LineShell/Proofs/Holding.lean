import LineShell.Proofs.Steps
import Mathlib.Logic.Function.Basic

/-! Who holds an end of a pipe while processes are at work. A process hands its descriptors to those
that it splits off and to nobody else, so whoever holds an end of a pipe descends from a process
that held it at the beginning (`Unfolds.divided`), unless somebody has opened the name of a descriptor
that leads to it. -/

namespace LineShell.Machine

variable {first m m' : Machine} {held : List Nat} {task : Task} {k : Nat} {origin : Nat → Nat}

/-- A process with these descriptors has something open. -/
def Holds (m : Machine) (table : Descriptors) (e : Endpoint) : Prop :=
  ∃ fd stream, table.stream? fd = some stream ∧ m.endpoint? stream = some e

theorem isHeld_iff {e : Endpoint} : m.isHeld held e = true ↔
    (∃ task ∈ m.tasks, m.Holds task.descriptors e) ∨
      ∃ stream ∈ held, m.endpoint? stream = some e := by
  have holds (table : Descriptors) : (table.entries.any fun entry =>
      m.endpoint? entry.2.stream = some e) = true ↔ m.Holds table e := by
    constructor
    · intro found
      obtain ⟨⟨fd, handle⟩, member, leads⟩ := List.any_eq_true.mp found
      rw [Table.mem_entries_iff] at member
      exact ⟨fd, handle.stream, by rw [Descriptors.stream?, member]; rfl, by simpa using leads⟩
    · rintro ⟨fd, stream, leads, ends⟩
      obtain ⟨handle, member, rfl⟩ := Option.map_eq_some_iff.mp leads
      exact List.any_eq_true.mpr ⟨_, Table.mem_entries_iff.mpr member, by simpa using ends⟩
  simp only [isHeld, Bool.or_eq_true, List.any_eq_true (l := m.tasks), holds]
  simp

/-- Whoever holds an end of a pipe after a step has it from a process that held it before: it is that
process, or has been split off from it. -/
theorem Stepped.holds {anew : Nat → Prop} (stepped : m.Stepped m' task anew) (plain : ¬ anew k)
    (known : k < m.pipes.length) {task' : Task} (there : task' ∈ m'.tasks) {e : Endpoint}
    (ofPipe : e.pipe? = some k) (holds : m'.Holds task'.descriptors e) :
    ∃ old ∈ m.tasks, (task'.pid = old.pid ∨ old = task ∧ task'.pid = m.nextPid) ∧
      m.Holds old.descriptors e := by
  obtain ⟨old, member, descent, inherits⟩ := stepped.tasks task' there
  obtain ⟨fd, stream, leads, ends⟩ := holds
  have before : m.endpoint? stream = some e := (stepped.ends ends ofPipe known).resolve_right plain
  have inside : stream < m.streams.length := by
    obtain ⟨s, there, -⟩ := Option.map_eq_some_iff.mp before
    exact (List.getElem?_eq_some_iff.mp there).1
  obtain ⟨fd', leads⟩ := (inherits fd stream leads).resolve_right fun new =>
    absurd inside (Nat.not_lt.mpr new.1)
  refine ⟨old, member, ?_, fd', stream, leads, before⟩
  rcases descent with same | ⟨same, new, -⟩
  · exact .inl same
  · exact .inr ⟨same, new⟩

/-- What processes do one after the other, and from which process of the beginning each of them
descends. Nobody opens an end of the pipe anew. -/
inductive Unfolds (held : List Nat) (k : Nat) (first : Machine) : Machine → (Nat → Nat) → Prop
  | start : Unfolds held k first first id
  | step {m : Machine} {origin : Nat → Nat} {task : Task} (before : Unfolds held k first m origin)
      (there : task ∈ m.tasks) (plain : ¬ m.OpensAnew task k) :
      Unfolds held k first (m.step held task) (Function.update origin m.nextPid (origin task.pid))

/-- The writing end of a pipe is held by some processes only, and the reading end by some others. The
shell, with the streams that it holds, has neither. -/
structure Divided (m : Machine) (held : List Nat) (k : Nat) (writers readers : Nat → Prop) : Prop where
  known : k < m.pipes.length
  pids : ∀ task ∈ m.tasks, task.pid < m.nextPid
  write : ∀ task ∈ m.tasks, m.Holds task.descriptors (.pipeWriter k) → writers task.pid
  read : ∀ task ∈ m.tasks, m.Holds task.descriptors (.pipeReader k) → readers task.pid
  shell : ∀ stream ∈ held, ∀ e, m.endpoint? stream = some e → e.pipe? ≠ some k

variable {writers readers : Nat → Prop}

theorem Divided.mono {more others : Nat → Prop} (divided : m.Divided held k writers readers)
    (wider : ∀ pid, writers pid → more pid) (wider' : ∀ pid, readers pid → others pid) :
    m.Divided held k more others where
  known := divided.known
  pids := divided.pids
  write := fun task there holds => wider _ (divided.write task there holds)
  read := fun task there holds => wider' _ (divided.read task there holds)
  shell := divided.shell

theorem Divided.step (divided : m.Divided held k (writers ∘ origin) (readers ∘ origin))
    (there : task ∈ m.tasks) (plain : ¬ m.OpensAnew task k) :
    (m.step held task).Divided held k
      (writers ∘ Function.update origin m.nextPid (origin task.pid))
      (readers ∘ Function.update origin m.nextPid (origin task.pid)) := by
  have stepped : m.Stepped (m.step held task) task (m.OpensAnew task) := stepped_step there
  -- Who holds an end descends from where the one descends from whom it has the end.
  have descends {old task' : Task} (member : old ∈ m.tasks)
      (descent : task'.pid = old.pid ∨ old = task ∧ task'.pid = m.nextPid) :
      Function.update origin m.nextPid (origin task.pid) task'.pid = origin old.pid := by
    rcases descent with same | ⟨rfl, new⟩
    · rw [same, Function.update_of_ne (divided.pids old member).ne]
    · rw [new, Function.update_self]
  constructor
  · exact divided.known.trans_le stepped.pipes
  · exact stepped.pids divided.pids
  · intro task' there' holds
    obtain ⟨old, member, descent, holds⟩ := stepped.holds plain divided.known there' rfl holds
    rw [Function.comp_apply, descends member descent]
    exact divided.write old member holds
  · intro task' there' holds
    obtain ⟨old, member, descent, holds⟩ := stepped.holds plain divided.known there' rfl holds
    rw [Function.comp_apply, descends member descent]
    exact divided.read old member holds
  · intro stream listed e leads ofPipe
    have before := (stepped.ends leads ofPipe divided.known).resolve_right plain
    exact divided.shell stream listed e before ofPipe

/-- Whoever holds an end of a pipe descends from a process that held it at the beginning. -/
theorem Unfolds.divided (divided : first.Divided held k writers readers)
    (unfolds : Unfolds held k first m origin) :
    m.Divided held k (writers ∘ origin) (readers ∘ origin) := by
  induction unfolds with
  | start => exact divided
  | step _ there plain ih => exact ih.step there plain

/-- What is open at the beginning stays open. -/
theorem Unfolds.stays (unfolds : Unfolds held k first m origin) {number : Nat} {s : Stream}
    (there : first.streams[number]? = some s) :
    ∃ s', m.streams[number]? = some s' ∧ s'.rewound = s.rewound := by
  induction unfolds with
  | start => exact ⟨s, there, rfl⟩
  | @step m _ task _ acts _ ih =>
    obtain ⟨s', now, same⟩ := ih
    have stepped : m.Stepped (m.step held task) task (m.OpensAnew task) := stepped_step acts
    obtain ⟨s'', after, same'⟩ := stepped.stays now
    exact ⟨s'', after, same'.trans same⟩

/-- Once none is at work that could write to a pipe, what is in it is read, and then it is at its
end. -/
theorem Divided.reads {stream : Nat} {s : Stream} (divided : m.Divided held k writers readers)
    (done : ∀ task ∈ m.tasks, ¬ writers task.pid) (there : m.streams[stream]? = some s)
    (readable : s.readable = true) (leads : s.endpoint = .pipeReader k) (count : Nat) :
    ∃ m', m.readStream held stream count = .done ((m.pipes.getD k []).take count, m') := by
  have free : m.isHeld held (.pipeWriter k) = false := by
    rw [Bool.eq_false_iff, ne_eq, isHeld_iff]
    rintro (⟨task, member, holds⟩ | ⟨number, listed, ends⟩)
    · exact done task member (divided.write task member holds)
    · exact divided.shell number listed _ ends rfl
  rw [readStream, there]
  simp only [readable, leads, free, Bool.not_true, Bool.false_eq_true, if_false]
  split
  · exact ⟨_, rfl⟩
  · next empty =>
    simp only [Bool.or_eq_true, not_or, Bool.not_eq_true', Bool.not_eq_false,
      List.isEmpty_iff] at empty
    rw [empty.1, List.take_nil]
    exact ⟨m, rfl⟩

/-- Who is furthest behind is the one to begin with or one of the others. -/
theorem mem_of_foldl (tasks : List Task) (first : Option Task) (chosen : tasks.foldl
    (fun (first : Option Task) task => match first with
      | some other => if task.clock < other.clock then some task else first
      | none => some task) first = some task) : first = some task ∨ task ∈ tasks := by
  induction tasks generalizing first with
  | nil => exact .inl chosen
  | cons other rest ih =>
    rcases ih _ chosen with this | later
    · cases first with
      | none =>
        cases this
        exact .inr List.mem_cons_self
      | some earlier =>
        dsimp only at this
        split at this
        · cases this
          exact .inr List.mem_cons_self
        · exact .inl this
    · exact .inr (List.mem_cons_of_mem _ later)

theorem mem_of_next? (acts : m.next? = some task) : task ∈ m.tasks := by
  rcases mem_of_foldl _ none acts with nobody | found
  · cases nobody
  · exact List.mem_of_mem_filter found

/-- What happens while the shell waits is such a course. -/
theorem Unfolds.run (plain : ∀ {m : Machine} {origin : Nat → Nat} {task : Task},
    Unfolds held k first m origin → task ∈ m.tasks → ¬ m.OpensAnew task k)
    (unfolds : Unfolds held k first m origin) (isOver : Machine → Bool) (steps : Nat) :
    ∃ origin', Unfolds held k first (m.run held isOver steps) origin' := by
  induction steps generalizing m origin with
  | zero => exact ⟨origin, unfolds⟩
  | succ steps ih =>
    rw [Machine.run]
    split
    · exact ⟨origin, unfolds⟩
    split
    · exact ⟨origin, unfolds⟩
    · next acts =>
      have there := mem_of_next? acts
      exact ih (unfolds.step there (plain unfolds there))

end LineShell.Machine
