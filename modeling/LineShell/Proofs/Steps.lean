import LineShell.Machine.Run
import LineShell.Proofs.Opening
import LineShell.Proofs.Wiring

/-! What a process can do to the machine in a step, as far as open streams are concerned. It may
close some of its descriptors, open streams that nobody else has, and hand its descriptors to a
process that it splits off; the descriptors of all others stay as they are (`Stepped`). -/

namespace LineShell

namespace Machine

variable {m mid m' : Machine} {held : List Nat} {task task' : Task}

/-- Processes may have ended or been told something, but nobody has got anything new. -/
structure Steady (m m' : Machine) : Prop where
  streams : m'.streams = m.streams
  pipes : m'.pipes = m.pipes
  nextPid : m'.nextPid = m.nextPid
  tasks : ∀ task' ∈ m'.tasks, ∃ task ∈ m.tasks,
    task'.pid = task.pid ∧ task'.descriptors = task.descriptors

namespace Steady

theorem refl (m : Machine) : m.Steady m := ⟨rfl, rfl, rfl, fun task there => ⟨task, there, rfl, rfl⟩⟩

theorem trans (first : m.Steady mid) (second : mid.Steady m') : m.Steady m' where
  streams := second.streams.trans first.streams
  pipes := second.pipes.trans first.pipes
  nextPid := second.nextPid.trans first.nextPid
  tasks := by
    intro task' there
    obtain ⟨between, there, pid, table⟩ := second.tasks task' there
    obtain ⟨task, there, pid', table'⟩ := first.tasks between there
    exact ⟨task, there, pid.trans pid', table.trans table'⟩

theorem wake (m : Machine) : m.Steady m.wake := by
  refine ⟨rfl, rfl, rfl, fun task' there => ?_⟩
  obtain ⟨task, member, rfl⟩ := List.mem_map.mp there
  refine ⟨task, member, ?_⟩
  split <;> exact ⟨rfl, rfl⟩

theorem setTask (there : task ∈ m.tasks) (pid : task'.pid = task.pid)
    (table : task'.descriptors = task.descriptors) : m.Steady (m.setTask task') := by
  refine ⟨rfl, rfl, rfl, fun other there' => ?_⟩
  obtain ⟨old, member, rfl⟩ := List.mem_map.mp there'
  split
  · exact ⟨task, there, pid, table⟩
  · exact ⟨old, member, rfl, rfl⟩

theorem goOn (there : task ∈ m.tasks) (code : Code) (time : Nat) :
    m.Steady (m.goOn task code time) := by
  rw [Machine.goOn]
  exact setTask there rfl rfl

theorem finish (m : Machine) (task : Task) (ending : Ending) : m.Steady (m.finish task ending) := by
  have others : ∀ task' ∈ (m.tasks.filter fun other => other.pid ≠ task.pid).map fun other =>
      if other.parent = task.pid then { other with parent := 0 }
      else if other.pid = task.parent ∧ Signal.childEnded ∈ other.handled then
        { other with caught := other.caught ++ [Signal.childEnded] }
      else other,
      ∃ old ∈ m.tasks, task'.pid = old.pid ∧ task'.descriptors = old.descriptors := by
    intro task' there
    obtain ⟨old, member, rfl⟩ := List.mem_map.mp there
    refine ⟨old, List.mem_of_mem_filter member, ?_⟩
    split
    · exact ⟨rfl, rfl⟩
    · split <;> exact ⟨rfl, rfl⟩
  rw [Machine.finish]
  refine .trans ?_ (wake _)
  split <;> exact ⟨rfl, rfl, rfl, others⟩

theorem deliver (there : task ∈ m.tasks) (signal : Nat) : m.Steady (m.deliver task signal) := by
  rw [Machine.deliver]
  split
  · exact finish m task _
  split
  · exact setTask there rfl rfl
  have resumed : ∃ task', (if signal = Signal.resume ∧ task.isStopped then
      { task with isStopped := false, clock := max task.clock m.now } else task) = task' ∧
      task'.pid = task.pid ∧ task'.descriptors = task.descriptors := by
    split <;> exact ⟨_, rfl, rfl, rfl⟩
  obtain ⟨task', same, pid, table⟩ := resumed
  simp only [same]
  split
  · refine .trans ?_ (wake _)
    exact setTask there pid table
  split
  · exact setTask there pid table
  split
  · exact finish m task' _
  · exact setTask there pid table
  · exact setTask there pid table
  · exact setTask there pid table

theorem send {target : Int} {signal : Nat} (sent : m.send target signal = .ok m') : m.Steady m' := by
  rw [Machine.send] at sent
  split at sent
  · cases sent
  split at sent
  · cases sent
  split at sent
  · cases sent
    exact .refl m
  split at sent
  · next found =>
    cases sent
    exact deliver (List.mem_of_find?_eq_some found) signal
  · split at sent <;> cases sent
    exact .refl m

end Steady

end Machine

/-- A stream as it was when it was opened. -/
def Stream.rewound (s : Stream) : Stream := { s with offset := 0 }

theorem map_rewound_modify (streams : List Stream) (number : Nat) {change : Stream → Stream}
    (moves : ∀ s, (change s).rewound = s.rewound) :
    (streams.modify number change).map Stream.rewound = streams.map Stream.rewound := by
  apply List.ext_getElem?
  intro i
  rw [List.getElem?_map, List.getElem?_map, List.getElem?_modify, Option.map_eq_map, Option.map_map]
  congr 1
  funext s
  rw [Function.comp_apply]
  split
  · exact moves s
  · rfl

namespace Machine

variable {m mid m' : Machine} {held : List Nat} {task task' : Task}

/-- Contents and offsets have changed. -/
def Moved (m m' : Machine) : Prop := ∃ root streams buffers pipes,
  m' = { m with root, streams, buffers, pipes } ∧
    streams.map Stream.rewound = m.streams.map Stream.rewound ∧ pipes.length = m.pipes.length

theorem Moved.refl (m : Machine) : m.Moved m := ⟨_, _, _, _, rfl, rfl, rfl⟩

theorem Moved.trans (first : m.Moved mid) (second : mid.Moved m') : m.Moved m' := by
  obtain ⟨_, _, _, _, rfl, rewound, count⟩ := first
  obtain ⟨_, _, _, _, rfl, rewound', count'⟩ := second
  exact ⟨_, _, _, _, rfl, rewound'.trans rewound, count'.trans count⟩

theorem readStream_done {stream count : Nat} {bytes : Bytes}
    (read : m.readStream held stream count = .done (bytes, m')) : m.Moved m' := by
  have moved (offset : Stream → Nat) :
      (m.streams.modify stream fun s => { s with offset := offset s }).map Stream.rewound =
        m.streams.map Stream.rewound := map_rewound_modify _ _ fun _ => rfl
  rw [readStream] at read
  split at read
  · cases read
  split at read
  · cases read
  dsimp only at read
  split at read
  case h_1 | h_2 =>
    cases read
    exact ⟨_, _, _, _, rfl, moved _, rfl⟩
  case h_4 | h_5 | h_6 =>
    cases read
    exact ⟨_, _, _, _, rfl, rfl, rfl⟩
  case h_7 =>
    split at read
    · cases read
      exact ⟨_, _, _, _, rfl, rfl, List.length_set⟩
    · split at read <;> cases read
      exact ⟨_, _, _, _, rfl, rfl, rfl⟩
  all_goals cases read

theorem writeStream_done {stream count : Nat} {bytes : Bytes}
    (wrote : m.writeStream held stream bytes = .done (count, m')) : m.Moved m' := by
  have moved (offset : Stream → Nat) :
      (m.streams.modify stream fun s => { s with offset := offset s }).map Stream.rewound =
        m.streams.map Stream.rewound := map_rewound_modify _ _ fun _ => rfl
  rw [writeStream] at wrote
  split at wrote
  · cases wrote
  split at wrote
  · cases wrote
  split at wrote
  case h_1 =>
    split at wrote <;> cases wrote
    exact ⟨_, _, _, _, rfl, moved _, rfl⟩
  case h_2 | h_4 =>
    cases wrote
    exact ⟨_, _, _, _, rfl, rfl, rfl⟩
  case h_3 =>
    split at wrote <;> cases wrote
    exact ⟨_, _, _, _, rfl, rfl, rfl⟩
  case h_5 =>
    dsimp only at wrote
    split at wrote
    · cases wrote
    split at wrote
    · cases wrote
      exact ⟨_, _, _, _, rfl, rfl, List.length_set⟩
    · split at wrote <;> cases wrote
      exact ⟨_, _, _, _, rfl, rfl, List.length_set⟩
  all_goals cases wrote

theorem write_ok {stream : Nat} {bytes : Bytes} (wrote : m.write stream bytes = .ok m') :
    m.Moved m' := by
  rw [write] at wrote
  split at wrote
  · next done =>
    cases wrote
    exact writeStream_done done
  all_goals cases wrote

theorem seekStream_ok {stream position : Nat} {origin : Origin} {offset : Int}
    (moves : m.seekStream stream origin offset = .ok (position, m')) : m.Moved m' := by
  rw [seekStream] at moves
  cases there : m.streams[stream]? with
  | none => simp [there] at moves
  | some s =>
    rw [there] at moves
    dsimp only at moves
    split at moves
    case h_3 =>
      cases moves
      exact ⟨_, _, _, _, rfl, rfl, rfl⟩
    case h_4 | h_5 | h_6 =>
      obtain ⟨-, moves⟩ := unless_ok.mp moves
      cases moves
      exact ⟨_, _, _, _, rfl, map_rewound_modify _ _ fun _ => rfl, rfl⟩
    all_goals cases moves

/-- Every end of a pipe belongs to a pipe that is there. -/
def HasPipes (m : Machine) : Prop :=
  ∀ s ∈ m.streams, ∀ k, s.endpoint.pipe? = some k → k < m.pipes.length

/-- What is open stays open, and a new stream leads to no end of a pipe that was there before,
unless that has been opened anew. -/
structure Carries (m m' : Machine) (anew : Nat → Prop) : Prop where
  stays : ∀ {number : Nat} {s : Stream}, m.streams[number]? = some s →
    ∃ s', m'.streams[number]? = some s' ∧ s'.rewound = s.rewound
  ends : ∀ {number : Nat} {e : Endpoint} {k : Nat}, m'.endpoint? number = some e →
    e.pipe? = some k → k < m.pipes.length → m.endpoint? number = some e ∨ anew k
  pipes : m.pipes.length ≤ m'.pipes.length
  hasPipes : m.HasPipes → m'.HasPipes

namespace Carries

variable {anew : Nat → Prop}

theorem append {more : List Stream} (streams : m'.streams = m.streams ++ more)
    (new : ∀ s ∈ more, ∀ k, s.endpoint.pipe? = some k → k < m.pipes.length → anew k)
    (pipes : m.pipes.length ≤ m'.pipes.length)
    (there : ∀ s ∈ more, ∀ k, s.endpoint.pipe? = some k → m.HasPipes → k < m'.pipes.length) :
    m.Carries m' anew where
  stays := by
    intro number s there
    obtain ⟨inside, -⟩ := List.getElem?_eq_some_iff.mp there
    exact ⟨s, by rw [streams, List.getElem?_append_left inside, there], rfl⟩
  ends := by
    intro number e k leads ofPipe known
    rw [endpoint?, streams] at leads
    by_cases inside : number < m.streams.length
    · rw [List.getElem?_append_left inside] at leads
      exact .inl leads
    · rw [List.getElem?_append_right (Nat.not_lt.mp inside)] at leads
      obtain ⟨s, there, rfl⟩ := Option.map_eq_some_iff.mp leads
      exact .inr (new s (List.mem_of_getElem? there) k ofPipe known)
  pipes := pipes
  hasPipes := by
    intro known s member k ofPipe
    rw [streams] at member
    rcases List.mem_append.mp member with old | isNew
    · exact (known s old k ofPipe).trans_le pipes
    · exact there s isNew k ofPipe known

theorem same (streams : m'.streams = m.streams) (pipes : m'.pipes.length = m.pipes.length) :
    m.Carries m' anew :=
  append (streams.trans (List.append_nil _).symm) (fun _ absent => absurd absent List.not_mem_nil)
    pipes.ge fun _ absent => absurd absent List.not_mem_nil

theorem move (moved : m.Moved m') : m.Carries m' anew := by
  obtain ⟨root, streams, buffers, pipes, rfl, rewound, count⟩ := moved
  have still (number : Nat) : (streams[number]?).map Stream.rewound =
      (m.streams[number]?).map Stream.rewound := by
    rw [← List.getElem?_map, rewound, List.getElem?_map]
  refine ⟨fun {number s} there => ?_, fun {number e k} leads _ _ => .inl ?_, count.ge,
    fun known s member k ofPipe => ?_⟩
  · have here := still number
    rw [there] at here
    exact Option.map_eq_some_iff.mp here
  · have ends := congrArg (Option.map Stream.endpoint) (still number)
    rw [Option.map_map, Option.map_map] at ends
    exact ends.symm.trans leads
  · have before : s.rewound ∈ m.streams.map Stream.rewound :=
      rewound ▸ List.mem_map_of_mem member
    obtain ⟨s', there, same⟩ := List.mem_map.mp before
    have leads := congrArg (fun s => s.endpoint.pipe?) same
    exact (known s' there k (leads.trans ofPipe)).trans_eq count.symm

theorem streams {anew : Nat → Prop} (carries : m.Carries m' anew) :
    m.streams.length ≤ m'.streams.length := by
  by_contra less
  obtain ⟨s, there⟩ : ∃ s, m.streams[m'.streams.length]? = some s :=
    ⟨_, List.getElem?_eq_getElem (Nat.not_le.mp less)⟩
  obtain ⟨s', still, -⟩ := carries.stays there
  exact absurd (List.getElem?_eq_some_iff.mp still).1 (Nat.lt_irrefl _)

end Carries
variable {anew : Nat → Prop}

/-- What an answer leaves of the process that has asked and of all the others. -/
structure Answered (m m' : Machine) (task task' : Task) (anew : Nat → Prop) : Prop
    extends Carries m m' anew where
  nextPid : m'.nextPid = m.nextPid
  others : ∀ other' ∈ m'.tasks, ∃ other ∈ m.tasks,
    other'.pid = other.pid ∧ other'.descriptors = other.descriptors
  own : ∃ old ∈ m.tasks, task'.pid = old.pid ∧
    task'.descriptors.Inherits old.descriptors m.streams.length m'.streams.length

namespace Answered

/-- The processes are as they were, but for the descriptors of the one that has asked. -/
theorem of_own (there : task ∈ m.tasks) (carries : m.Carries m' anew) (tasks : m'.tasks = m.tasks)
    (nextPid : m'.nextPid = m.nextPid) (pid : task'.pid = task.pid)
    (inherits : task'.descriptors.Inherits task.descriptors m.streams.length m'.streams.length) :
    m.Answered m' task task' anew where
  toCarries := carries
  nextPid := nextPid
  others := fun other member => ⟨other, tasks ▸ member, rfl, rfl⟩
  own := ⟨task, there, pid, inherits⟩

theorem of_same (there : task ∈ m.tasks) (pid : task'.pid = task.pid)
    (table : task'.descriptors = task.descriptors) : m.Answered m task task' anew :=
  of_own there (.same rfl rfl) rfl rfl pid (table ▸ .refl _ _ _)

theorem of_moved (there : task ∈ m.tasks) (moved : m.Moved m') : m.Answered m' task task anew := by
  have carries : m.Carries m' anew := .move moved
  obtain ⟨_, _, _, _, rfl, -⟩ := moved
  exact of_own there carries rfl rfl rfl (.refl _ _ _)

theorem of_steady (steady : m.Steady m') (there : task' ∈ m'.tasks) :
    m.Answered m' task task' anew where
  toCarries := .same steady.streams (by rw [steady.pipes])
  nextPid := steady.nextPid
  others := steady.tasks
  own := by
    obtain ⟨old, member, pid, table⟩ := steady.tasks task' there
    exact ⟨old, member, pid, table ▸ .refl _ _ _⟩

end Answered

/-- No pipe is named that is not there. -/
theorem Opened.pipe_lt {opener : Opener} {path : Text} {mode : OpenMode} {endpoint : Endpoint}
    {files : Files} {k : Nat} (opened : m.Opened opener path mode endpoint files)
    (known : m.HasPipes) (ofPipe : endpoint.pipe? = some k) : k < m.pipes.length := by
  obtain ⟨-, fd, s, -, -, leads, ofPipe⟩ := opened.namesPipe ofPipe
  obtain ⟨number, -, there⟩ := Option.bind_eq_some_iff.mp leads
  exact known s (List.mem_of_getElem? there) k ofPipe

/-- A process asks for the name of a descriptor to be opened that leads to an end of a pipe. -/
def Reopens (m : Machine) (task : Task) (request : Request) (k : Nat) : Prop :=
  ∃ path mode, request = .openFile path mode ∧ m.NamesPipe (.ofTask task) (ofOctets path) mode k

theorem answerSetMode_ok {path : Text} {mode : Nat}
    (set : m.answerSetMode task path mode = .ok m') : ∃ root, m' = { m with root } := by
  rw [answerSetMode] at set
  obtain ⟨place, -, set⟩ := bind_eq_ok.mp set
  split at set
  · cases set
    exact ⟨_, rfl⟩
  cases there : m.root.at? place.base with
  | none => simp [there] at set
  | some node =>
    rw [there] at set
    obtain ⟨-, set⟩ := unless_ok.mp set
    cases set
    exact ⟨_, rfl⟩

/-- The ends of a new pipe. -/
def pipeStreams (m : Machine) : List Stream :=
  [⟨.pipeReader m.pipes.length, true, false, false, 0⟩,
    ⟨.pipeWriter m.pipes.length, false, true, false, 0⟩]

theorem addPipe_eq (m : Machine) : m.addPipe =
    ((m.streams.length, m.streams.length + 1),
      { m with pipes := m.pipes ++ [[]], streams := m.streams ++ m.pipeStreams }) := by
  simp [addPipe, addStream, pipeStreams]

theorem answer_answered {request : Request} {value : request.Reply} {wakes : Bool}
    (there : task ∈ m.tasks)
    (answered : m.answer held task request = .answered value task' m' wakes) :
    m.Answered m' task task' (m.Reopens task request) := by
  cases request with
  | openFile path mode =>
    rw [answer] at answered
    split at answered
    · cases answered
      exact .of_same there rfl rfl
    · next stream after opens =>
      cases answered
      obtain ⟨endpoint, files, opened, rfl, rfl⟩ := openPath_opened opens
      refine .of_own there (.append rfl ?_ (Nat.le_refl _) ?_) rfl rfl rfl
        (Descriptors.inherits_insert (.inr ⟨Nat.le_refl _, by simp⟩))
      · intro s new k ofPipe _
        obtain rfl := List.mem_singleton.mp new
        exact ⟨path, mode, rfl, opened.namesPipe ofPipe⟩
      · intro s new k ofPipe known
        obtain rfl := List.mem_singleton.mp new
        exact opened.pipe_lt known ofPipe
  | close fd =>
    rw [answer] at answered
    split at answered <;> cases answered
    · exact .of_same there rfl rfl
    · exact .of_own there (.same rfl rfl) rfl rfl rfl (Descriptors.inherits_close _ _ _ _)
  | redirect source target =>
    rw [answer] at answered
    split at answered <;> cases answered
    · exact .of_same there rfl rfl
    · next connects =>
      exact .of_own there (.same rfl rfl) rfl rfl rfl (Descriptors.inherits_redirect? connects)
  | duplicate source least closeOnExec =>
    rw [answer] at answered
    split at answered <;> cases answered
    · exact .of_same there rfl rfl
    · next leads =>
      exact .of_own there (.same rfl rfl) rfl rfl rfl
        (Descriptors.inherits_insert (.inl ⟨source, leads⟩))
  | pipe =>
    rw [answer, addPipe_eq] at answered
    cases answered
    have last {s : Stream} {k : Nat} (new : s ∈ m.pipeStreams)
        (ofPipe : s.endpoint.pipe? = some k) : k = m.pipes.length := by
      rcases List.mem_pair.mp new with rfl | rfl <;> exact (Option.some.inj ofPipe).symm
    refine .of_own there (.append rfl ?_ ?_ ?_) rfl rfl rfl ?_
    · intro s new k ofPipe known
      exact absurd (last new ofPipe) known.ne
    · simp
    · intro s new k ofPipe _
      simp [last new ofPipe]
    · refine .trans (Descriptors.inherits_insert (.inr ?_)) (Descriptors.inherits_insert (.inr ?_))
      · simp [pipeStreams]
      · simp [pipeStreams]
  | read fd count =>
    rw [answer, answerRead] at answered
    split at answered
    · cases answered
      exact .of_same there rfl rfl
    split at answered
    · next done =>
      cases answered
      exact .of_moved there (readStream_done done)
    · cases answered
      exact .of_same there rfl rfl
    · split at answered <;> cases answered
      exact .of_same there rfl rfl
    · cases answered
      exact .of_same there rfl rfl
  | write fd bytes =>
    rw [answer, answerWrite] at answered
    split at answered
    · cases answered
      exact .of_same there rfl rfl
    split at answered
    · next done =>
      cases answered
      exact .of_moved there (writeStream_done done)
    · cases answered
      exact .of_same there rfl rfl
    · split at answered <;> cases answered
      exact .of_same there rfl rfl
    · split at answered
      · cases answered
        exact .of_same there rfl rfl
      · split at answered <;> cases answered
        exact .of_same there rfl rfl
  | seek fd origin offset =>
    rw [answer] at answered
    split at answered
    · cases answered
      exact .of_same there rfl rfl
    split at answered
    · next moves =>
      cases answered
      exact .of_moved there (seekStream_ok moves)
    · cases answered
      exact .of_same there rfl rfl
  | wait child blocks =>
    rw [answer, answerWait] at answered
    dsimp only at answered
    split at answered
    · cases answered
      exact .of_own there (.same rfl rfl) rfl rfl rfl (.refl _ _ _)
    split at answered
    · cases answered
      exact .of_same there rfl rfl
    split at answered
    · cases answered
      exact .of_same there rfl rfl
    split at answered <;> cases answered
    exact .of_same there rfl rfl
  | kill target signal =>
    rw [answer, answerKill] at answered
    split at answered
    · cases answered
      exact .of_same there rfl rfl
    · next sent =>
      split at answered <;> cases answered
      next found => exact .of_steady (.send sent) (List.mem_of_find?_eq_some found)
  | setMode path mode =>
    rw [answer] at answered
    split at answered
    · next after set =>
      cases answered
      obtain ⟨root, rfl⟩ := answerSetMode_ok set
      exact .of_own there (.same rfl rfl) rfl rfl rfl (.refl _ _ _)
    · cases answered
      exact .of_same there rfl rfl
  | setSignal signal action =>
    cases action <;> cases answered <;> exact .of_same there rfl rfl
  | changeDir path =>
    rw [answer] at answered
    split at answered <;> cases answered <;> exact .of_same there rfl rfl
  | currentDir =>
    rw [answer] at answered
    split at answered <;> cases answered <;> exact .of_same there rfl rfl
  | status fd =>
    rw [answer] at answered
    split at answered <;> cases answered <;> exact .of_same there rfl rfl
  | _ =>
    rw [answer] at answered
    cases answered
    exact .of_same there rfl rfl

/-- What a step of a process leaves of it and of all the others: a process goes on, or is new and
has been split off from the one that acts; it has no descriptors but those that were handed on to
it, and those of new streams. -/
structure Stepped (m m' : Machine) (task : Task) (anew : Nat → Prop) : Prop
    extends Carries m m' anew where
  nextPid : m.nextPid ≤ m'.nextPid
  tasks : ∀ task' ∈ m'.tasks, ∃ old ∈ m.tasks,
    (task'.pid = old.pid ∨ old = task ∧ task'.pid = m.nextPid ∧ m.nextPid < m'.nextPid) ∧
      task'.descriptors.Inherits old.descriptors m.streams.length m'.streams.length

/-- New processes have new numbers. -/
theorem Stepped.pids (stepped : m.Stepped m' task anew)
    (known : ∀ old ∈ m.tasks, old.pid < m.nextPid) : ∀ task' ∈ m'.tasks, task'.pid < m'.nextPid := by
  intro task' there
  obtain ⟨old, member, same | ⟨-, new, more⟩, -⟩ := stepped.tasks task' there
  · exact same ▸ (known old member).trans_le stepped.nextPid
  · exact new ▸ more

theorem Steady.stepped (steady : m.Steady m') : m.Stepped m' task anew where
  toCarries := .same steady.streams (by rw [steady.pipes])
  nextPid := steady.nextPid.ge
  tasks := by
    intro task' there
    obtain ⟨old, member, pid, table⟩ := steady.tasks task' there
    exact ⟨old, member, .inl pid, table ▸ .refl _ _ _⟩

theorem Stepped.steady (stepped : m.Stepped mid task anew) (steady : mid.Steady m') :
    m.Stepped m' task anew where
  stays := by
    intro number s there
    rw [steady.streams]
    exact stepped.stays there
  ends := by
    intro number e k leads
    rw [endpoint?, steady.streams] at leads
    exact stepped.ends leads
  pipes := by
    rw [steady.pipes]
    exact stepped.pipes
  hasPipes := by
    intro known
    rw [HasPipes, steady.streams, steady.pipes]
    exact stepped.hasPipes known
  nextPid := stepped.nextPid.trans steady.nextPid.ge
  tasks := by
    intro task' there
    obtain ⟨between, member, pid, table⟩ := steady.tasks task' there
    obtain ⟨old, member, descent, inherits⟩ := stepped.tasks between member
    rw [pid, table, steady.nextPid, steady.streams]
    exact ⟨old, member, descent, inherits⟩

theorem Stepped.mono {wider : Nat → Prop} (stepped : m.Stepped m' task anew)
    (weaker : ∀ k, anew k → wider k) : m.Stepped m' task wider where
  stays := stepped.stays
  ends := fun leads ofPipe known => (stepped.ends leads ofPipe known).imp_right (weaker _)
  pipes := stepped.pipes
  hasPipes := stepped.hasPipes
  nextPid := stepped.nextPid
  tasks := stepped.tasks

/-- The process that has got an answer goes on. -/
theorem Answered.stepped (answered : m.Answered m' task task' anew) {next : Task}
    (pid : next.pid = task'.pid) (table : next.descriptors = task'.descriptors) :
    m.Stepped (m'.setTask next) task anew where
  toCarries := ⟨answered.stays, answered.ends, answered.pipes, answered.hasPipes⟩
  nextPid := answered.nextPid.ge
  tasks := by
    intro other there
    obtain ⟨old, member, rfl⟩ := List.mem_map.mp there
    split
    · obtain ⟨first, member, pid', inherits⟩ := answered.own
      exact ⟨first, member, .inl (pid.trans pid'), table ▸ inherits⟩
    · obtain ⟨first, member, pid', table'⟩ := answered.others old member
      exact ⟨first, member, .inl pid', table' ▸ .refl _ _ _⟩

theorem stepped_setTask (there : task ∈ m.tasks) (pid : task'.pid = task.pid)
    (inherits : task'.descriptors.Inherits task.descriptors m.streams.length m.streams.length) :
    m.Stepped (m.setTask task') task anew :=
  (Answered.of_own there (.same rfl rfl) rfl rfl pid inherits).stepped rfl rfl

theorem stepped_split (there : task ∈ m.tasks) (pid : task'.pid = m.nextPid)
    (table : task'.descriptors = task.descriptors) :
    m.Stepped { m with nextPid := m.nextPid + 1, tasks := m.tasks ++ [task'] } task anew where
  toCarries := .same rfl rfl
  nextPid := Nat.le_succ _
  tasks := by
    intro other member
    rcases List.mem_append.mp member with old | new
    · exact ⟨other, old, .inl rfl, .refl _ _ _⟩
    · obtain rfl := List.mem_singleton.mp new
      exact ⟨task, there, .inr ⟨rfl, pid, Nat.lt_succ_self _⟩, table ▸ .refl _ _ _⟩

theorem stepped_carryOut {request : Request} {next : request.Reply → Code} (there : task ∈ m.tasks) :
    m.Stepped (m.carryOut held task request next) task (m.Reopens task request) := by
  rw [carryOut]
  split
  · exact stepped_setTask there rfl (.refl _ _ _)
  · exact (Steady.finish m task _).stepped
  · next answered =>
    have answered := answer_answered there answered
    dsimp only
    split
    · refine .steady ?_ (.wake _)
      exact answered.stepped rfl rfl
    · exact answered.stepped rfl rfl

/-- A process opens an end of a pipe anew when it acts. -/
def OpensAnew (m : Machine) (task : Task) (k : Nat) : Prop :=
  ∃ request next, task.code = .call request next ∧ m.Reopens task request k

/-- What a step can do does not depend on the time. -/
theorem Stepped.of_now (now : Nat)
    (stepped : Stepped { m with now } m' task (OpensAnew { m with now } task)) :
    m.Stepped m' task (m.OpensAnew task) where
  stays := stepped.stays
  ends := stepped.ends
  pipes := stepped.pipes
  hasPipes := stepped.hasPipes
  nextPid := stepped.nextPid
  tasks := stepped.tasks

theorem become_ok {path : Text} {args : List Text} {environment : List (Text × Text)}
    (becomes : m.become task path args environment = .ok task') :
    task'.pid = task.pid ∧ task'.descriptors = task.descriptors.afterExec := by
  rw [become] at becomes
  obtain ⟨-, becomes⟩ := unless_ok.mp becomes
  obtain ⟨⟨utility, args'⟩, -, becomes⟩ := bind_eq_ok.mp becomes
  cases becomes
  exact ⟨rfl, rfl⟩

theorem stepped_step (there : task ∈ m.tasks) :
    m.Stepped (m.step held task) task (m.OpensAnew task) := by
  refine .of_now (max m.now task.clock) ?_
  rw [step]
  split
  · exact (Steady.finish _ task _).stepped
  · refine .steady ?_ (.goOn (List.mem_append_left _ there) _ _)
    exact stepped_split there rfl rfl
  · split
    · next becomes =>
      obtain ⟨pid, table⟩ := become_ok becomes
      refine .steady ?_ (.wake _)
      exact stepped_setTask there pid (table ▸ Descriptors.inherits_afterExec _ _ _)
    · exact stepped_setTask there rfl (.refl _ _ _)
  · split
    · split
      · exact stepped_setTask there rfl (.refl _ _ _)
      · exact stepped_setTask there rfl (.refl _ _ _)
    · exact stepped_setTask there rfl (.refl _ _ _)
  · exact stepped_setTask there rfl (.refl _ _ _)
  · next request next _ _ _ asks =>
    refine .mono ?_ fun k anew => ⟨request, next, asks, anew⟩
    exact stepped_carryOut there

end Machine
end LineShell
