import LineShell.Proofs.Coherence

/-! Two commands joined by a pipe. Of the streams that are open, the two newest are the ends of the
pipe; the child on the left is wired to the one, the child on the right to the other, and the shell
closes both, so nobody else can write to the pipe or read from it (`startPipe_joins`). -/

namespace LineShell

open Act Descriptors

namespace Descriptors

/-- Some descriptors have been added to those of another table, above the standard ones. -/
structure Equipped (start table : Descriptors) (fds : List Nat) : Prop where
  standard : ∀ fd ≤ stderr, (start.get? fd).isSome
  kept : start.Kept table
  distinct : fds.Nodup
  above : ∀ fd ∈ fds, stderr < fd
  isOpen : ∀ fd ∈ fds, (table.get? fd).isSome

theorem Equipped.add {start table : Descriptors} {fds : List Nat}
    (equipped : Equipped start table fds) (stream : Nat) :
    Equipped start (table.add stream).2 (fds ++ [table.lowestFree]) where
  standard := equipped.standard
  kept := equipped.kept.trans (kept_add _ _)
  distinct := by
    have new : table.lowestFree ∉ fds := fun listed => ne_lowestFree (equipped.isOpen _ listed) rfl
    exact List.nodup_append_comm.mp (List.nodup_cons.mpr ⟨new, equipped.distinct⟩)
  above := by
    intro fd listed
    rcases List.mem_append.mp listed with old | new
    · exact equipped.above fd old
    · obtain rfl := List.mem_singleton.mp new
      refine lt_lowestFree fun fd low => ?_
      rw [equipped.kept.get? (equipped.standard fd low)]
      exact equipped.standard fd low
  isOpen := by
    intro fd listed
    rw [get?_add]
    rcases List.mem_append.mp listed with old | new
    · rw [if_neg (ne_lowestFree (equipped.isOpen fd old))]
      exact equipped.isOpen fd old
    · rw [if_pos (List.mem_singleton.mp new)]
      rfl

end Descriptors

namespace World

/-- The file that a command is to have in place of something else: if one is given, it is opened,
and its stream is what there is. -/
def Takes (before after : World) (file : Option Text) (mode : OpenMode)
    (otherwise stream? : Option Nat) : Prop :=
  match file with
  | none => after = before ∧ stream? = otherwise
  | some path => ∃ fd stream, (openFile path mode).outcome before = (.ok fd, after) ∧
      after.descriptors.stream? fd = some stream ∧ stream? = some stream

end World

variable {start table : Descriptors} {world after : World} {fds : List Nat}

/-- A file of a command has been opened, or there is none. -/
theorem openGiven_ok {file : Option Text} {mode : OpenMode} {fd? : Option Nat}
    (equipped : Equipped start world.descriptors fds) (coherent : world.Coherent)
    (done : (openGiven file mode).outcome world = (.ok fd?, after)) :
    Equipped start after.descriptors (fds ++ fd?.toList) ∧ after.Coherent ∧
      world.OnlyOpened after ∧ (fd? = none → file = none) ∧
      world.descriptors.Kept after.descriptors ∧ ∀ table other, after.descriptors.Kept table →
        world.Takes after file mode (table.stream? other) (table.stream? (fd?.getD other)) := by
  cases file with
  | none =>
    cases done
    rw [Option.toList_none, List.append_nil]
    exact ⟨equipped, coherent, .refl _, fun _ => rfl, fun _ _ held => held, fun _ _ _ => ⟨rfl, rfl⟩⟩
  | some path =>
    rw [outcome_openGiven_some] at done
    obtain ⟨refusals, ⟨cause, refused⟩ | ⟨endpoint, files, opened, ran⟩⟩ :=
      outcome_openFile path mode world
    · rw [refused] at done
      cases done
    rw [ran] at done
    cases done
    refine ⟨equipped.add _, coherent.withFile opened, ?_, by simp, kept_add _ _,
      fun table other kept => ?_⟩
    · exact (world.onlyOpened_answered refusals).trans (World.onlyOpened_withFile _ _ _)
    · have there := stream?_add_self world.descriptors world.machine.streams.length
      exact ⟨_, _, ran, there, Kept.leads kept there⟩

/-- The files of a command have been opened. -/
theorem openFiles_ok {r : Redirections} {files : OpenFiles}
    (equipped : Equipped start world.descriptors fds) (coherent : world.Coherent)
    (done : r.openFiles.outcome world = (.ok files, after)) :
    ∃ mid, Equipped start after.descriptors (fds ++ files.fds) ∧ after.Coherent ∧
      world.OnlyOpened after ∧ (files.input = none → r.input = none) ∧
      (files.output = none → r.output = none) ∧ world.descriptors.Kept after.descriptors ∧
      ∀ table other, after.descriptors.Kept table →
        world.Takes mid r.input .input (table.stream? other)
          (table.stream? (files.input.getD other)) ∧
        mid.Takes after r.output .output (table.stream? other)
          (table.stream? (files.output.getD other)) := by
  rw [outcome_openFiles] at done
  rcases ran : (openGiven r.input .input).outcome world with ⟨e | input, mid⟩
  · rw [ran] at done
    cases done
  rcases ran' : (openGiven r.output .output).outcome mid with ⟨e | output, last⟩ <;>
    simp only [ran, ran'] at done <;> cases done
  obtain ⟨equipped, coherent, only, noInput, keeps, takes⟩ := openGiven_ok equipped coherent ran
  obtain ⟨equipped, coherent, only', noOutput, keeps', takes'⟩ := openGiven_ok equipped coherent ran'
  refine ⟨mid, ?_, coherent, only.trans only', noInput, noOutput, keeps.trans keeps',
    fun table other kept => ⟨takes table other (keeps'.trans kept), takes' table other kept⟩⟩
  rwa [OpenFiles.fds, ← List.append_assoc]

/-! The pipe, and the two children. -/

theorem closingOnFailure_ok {ε α : Type} {fds : List Nat} {act : Act ε α} {a : α} :
    (closingOnFailure fds act).outcome world = (.ok a, after) ↔
      act.outcome world = (.ok a, after) := by
  rw [outcome_closingOnFailure]
  rcases act.outcome world with ⟨_ | _, _⟩ <;> simp

theorem ensuring_ok {ε α : Type} {cleanup : World → World} {act : Act ε α} {a : α} :
    (act.ensuring cleanup).outcome world = (.ok a, after) ↔
      ∃ mid, act.outcome world = (.ok a, mid) ∧ after = cleanup mid := by
  rw [outcome_ensuring]
  rcases act.outcome world with ⟨_ | _, mid⟩ <;> simp [eq_comm]

theorem startJoined_ok {left right : Stage} {leftFiles rightFiles : OpenFiles} {pids : Nat × Nat}
    (done : (startJoined left right leftFiles rightFiles).outcome world = (.ok pids, after)) :
    ∃ readEnd writeEnd piped split joined,
      openPipe.outcome world = (.ok (readEnd, writeEnd), piped) ∧
      (spawn left.args
        { leftFiles.io with pipeOut := some writeEnd, extraClose := [readEnd] }).outcome piped =
          (.ok pids.1, split) ∧
      (spawn right.args { rightFiles.io with pipeIn := some readEnd }).outcome
        (split.close (writeEnd :: leftFiles.fds)) = (.ok pids.2, joined) ∧
      after = joined.close (readEnd :: rightFiles.fds) := by
  rw [startJoined] at done
  obtain ⟨⟨readEnd, writeEnd⟩, piped, pipes, done⟩ := outcome_bind_ok.mp done
  obtain ⟨leftPid, mid, starts, done⟩ := outcome_bind_ok.mp done
  obtain ⟨split, splits, rfl⟩ := ensuring_ok.mp (closingOnFailure_ok.mp starts)
  rw [outcome_bind, outcome_attempt] at done
  rcases ran : (Act.ensuring (fun world => world.close (readEnd :: rightFiles.fds))
      (spawn right.args { rightFiles.io with pipeIn := some readEnd })).outcome
        (split.close (writeEnd :: leftFiles.fds)) with ⟨e | rightPid, last⟩ <;>
    simp only [ran] at done
  · obtain ⟨_, _, _, failed⟩ := outcome_bind_ok.mp done
    cases failed
  · cases done
    obtain ⟨joined, joins, rfl⟩ := ensuring_ok.mp ran
    exact ⟨readEnd, writeEnd, piped, split, joined, closingOnFailure_ok.mp pipes, splits, joins, rfl⟩

/-- A child has been started that is wired. What was kept for standard output may have been written
before. -/
theorem spawn_ok {args : List Text} {io : ChildIo} {pid : Nat} {table : Descriptors}
    (wires : io.wire? world.descriptors = some table)
    (done : (spawn args io).outcome world = (.ok pid, after)) :
    pid = world.machine.nextPid ∧
    ∃ task root streams buffers pipes refusals now children unwritten,
      task.pid = world.machine.nextPid ∧ task.descriptors = table ∧
      streams.map Stream.rewound = world.machine.streams.map Stream.rewound ∧
      pipes.length = world.machine.pipes.length ∧
      (world.unwritten = [] → unwritten = [] ∧ streams = world.machine.streams) ∧
      after = { world with unwritten, machine := { world.machine with
        root, streams, buffers, pipes, refusals, now, children
        nextPid := world.machine.nextPid + 1
        tasks := world.machine.tasks ++ [task] } } := by
  have planned : ∃ plan, world.plan args = .ok plan := by
    rw [spawn] at done
    obtain ⟨_, _, got, done⟩ := outcome_bind_ok.mp done
    cases got
    obtain ⟨plan, _, planned, -⟩ := outcome_bind_ok.mp done
    exact ⟨plan, (outcome_ofExcept_ok.mp planned).1⟩
  obtain ⟨plan, planned⟩ := planned
  rw [outcome_spawn_of_plan planned] at done
  obtain ⟨rfl, forks, rfl⟩ := startProgram_ok done
  obtain ⟨root, streams, buffers, pipes, machine, rewound, count⟩ := world.wrote_flushed.moved
  have flushed := world.wrote_flushed.beside
  have nothing (empty : world.unwritten = []) :
      world.flushed.unwritten = [] ∧ world.flushed.machine.streams = world.machine.streams := by
    rw [World.flushed_of_nothing empty]
    exact ⟨empty, rfl⟩
  generalize world.flushed.unwritten = unwritten at flushed nothing
  rw [machine] at flushed nothing
  refine ⟨rfl, _, root, streams, buffers, pipes, _, _, _, unwritten, Process.pid_task _ _ _, ?_,
    rewound, count, nothing, by rw [flushed]⟩
  rw [task_of_wired (p := world.child plan.program plan.args io) wires]

/-- The world after the system has answered a request for a pipe: its ends are the newest streams,
on new descriptors. -/
theorem openPipe_ok {readEnd writeEnd : Nat}
    (done : openPipe.outcome world = (.ok (readEnd, writeEnd), after)) :
    let reader := world.machine.streams.length
    let reading := Descriptors.add world.descriptors reader
    let both := Descriptors.add reading.2 (reader + 1)
    readEnd = reading.1 ∧ writeEnd = both.1 ∧ ∃ refusals, after = { world with
      descriptors := both.2
      machine := { world.machine with
        refusals
        pipes := world.machine.pipes ++ [[]]
        streams := world.machine.streams ++ world.machine.pipeStreams } } := by
  simp only [openPipe, Act.of, outcome, ExceptT.run] at done
  split at done
  · cases done
  · rw [Machine.addPipe_eq] at done
    cases done
    exact ⟨rfl, rfl, _, rfl⟩

theorem OpenFiles.mem_fds {files : OpenFiles} {fd : Nat} :
    fd ∈ files.fds ↔ files.input = some fd ∨ files.output = some fd := by
  simp [OpenFiles.fds]

theorem World.mem_held {stream : Nat} :
    stream ∈ world.held ↔ ∃ fd, world.descriptors.stream? fd = some stream := by
  constructor
  · intro listed
    obtain ⟨⟨fd, handle⟩, member, rfl⟩ := List.mem_map.mp listed
    exact ⟨fd, by rw [stream?, Table.mem_entries_iff.mp member]; rfl⟩
  · rintro ⟨fd, leads⟩
    obtain ⟨handle, held, rfl⟩ := Option.map_eq_some_iff.mp leads
    exact List.mem_map.mpr ⟨_, Table.mem_entries_iff.mpr held, rfl⟩

/-- Whoever leads to an end of the newest pipe leads to one of the two newest streams. -/
theorem World.Coherent.ends {number stream : Nat} {e : Endpoint} (coherent : world.Coherent)
    (newest : number = world.machine.pipes.length)
    (streams : after.machine.streams.map Stream.rewound =
      (world.machine.streams ++ world.machine.pipeStreams).map Stream.rewound)
    (leads : after.machine.endpoint? stream = some e) (ofPipe : e.pipe? = some number) :
    stream = world.machine.streams.length ∧ e = .pipeReader number ∨
      stream = world.machine.streams.length + 1 ∧ e = .pipeWriter number := by
  obtain ⟨moved, there, rfl⟩ := Option.map_eq_some_iff.mp leads
  have there : (after.machine.streams.map Stream.rewound)[stream]? = some moved.rewound := by
    rw [List.getElem?_map, there, Option.map_some]
  rw [streams, List.getElem?_map] at there
  obtain ⟨s, there, same⟩ := Option.map_eq_some_iff.mp there
  have same : s.endpoint = moved.endpoint := (Stream.mk.inj same).1
  rw [← same] at ofPipe ⊢
  by_cases inside : stream < world.machine.streams.length
  · rw [List.getElem?_append_left inside] at there
    exact absurd (coherent.pipes s (List.mem_of_getElem? there) number ofPipe)
      (Nat.not_lt.mpr newest.ge)
  · obtain ⟨i, rfl⟩ := Nat.exists_eq_add_of_le (Nat.not_lt.mp inside)
    rw [List.getElem?_append_right (Nat.le_add_right _ _), Nat.add_sub_cancel_left] at there
    subst newest
    match i with
    | 0 =>
      cases there
      exact .inl ⟨rfl, rfl⟩
    | 1 =>
      cases there
      exact .inr ⟨rfl, rfl⟩
    | i + 2 => cases there

/-- Two children have been started after a pipe was made, and only the one has its writing end and
only the other one its reading end. -/
theorem World.Coherent.divided {number : Nat} {leftTask rightTask : Task} {ofLeft ofRight : Prop}
    (coherent : world.Coherent) (newest : number = world.machine.pipes.length)
    (streams : after.machine.streams.map Stream.rewound =
      (world.machine.streams ++ world.machine.pipeStreams).map Stream.rewound)
    (pipes : after.machine.pipes.length = world.machine.pipes.length + 1)
    (nextPid : after.machine.nextPid = world.machine.nextPid + 2)
    (tasks : after.machine.tasks = world.machine.tasks ++ [leftTask, rightTask])
    (leftNumber : leftTask.pid = world.machine.nextPid)
    (rightNumber : rightTask.pid = world.machine.nextPid + 1)
    (leftHas : ∀ fd stream, leftTask.descriptors.stream? fd = some stream →
      stream < world.machine.streams.length ∨ stream = world.machine.streams.length + 1 ∧ ofLeft)
    (rightHas : ∀ fd stream, rightTask.descriptors.stream? fd = some stream →
      stream < world.machine.streams.length ∨ stream = world.machine.streams.length ∧ ofRight)
    (shellHas : ∀ fd stream, after.descriptors.stream? fd = some stream →
      stream < world.machine.streams.length) :
    after.machine.Divided after.held number (fun pid => pid = world.machine.nextPid ∧ ofLeft)
      (fun pid => pid = world.machine.nextPid + 1 ∧ ofRight) := by
  have members {task : Task} (there : task ∈ after.machine.tasks) :
      task ∈ world.machine.tasks ∨ task = leftTask ∨ task = rightTask := by
    rw [tasks] at there
    exact (List.mem_append.mp there).imp_right List.mem_pair.mp
  constructor
  · rw [newest, pipes]
    exact Nat.lt_succ_self _
  · intro task there
    rcases members there with old | rfl | rfl
    · have := coherent.pids task old
      omega
    · omega
    · omega
  · rintro task there ⟨fd, stream, leads, isEnd⟩
    have writes := (coherent.ends newest streams isEnd rfl).resolve_left fun reads =>
      Endpoint.noConfusion reads.2
    rcases members there with old | rfl | rfl
    · have := coherent.tables task old fd stream leads
      omega
    · exact ⟨leftNumber, ((leftHas fd stream leads).resolve_left (by omega)).2⟩
    · have := rightHas fd stream leads
      omega
  · rintro task there ⟨fd, stream, leads, isEnd⟩
    have reads := (coherent.ends newest streams isEnd rfl).resolve_right fun writes =>
      Endpoint.noConfusion writes.2
    rcases members there with old | rfl | rfl
    · have := coherent.tables task old fd stream leads
      omega
    · have := leftHas fd stream leads
      omega
    · exact ⟨rightNumber, ((rightHas fd stream leads).resolve_left (by omega)).2⟩
  · intro stream listed e leads ofPipe
    obtain ⟨fd, leadsTo⟩ := World.mem_held.mp listed
    have := shellHas fd stream leadsTo
    have := coherent.ends newest streams leads ofPipe
    omega

section

variable {leftFiles rightFiles : OpenFiles} {readEnd writeEnd : Nat}

/-- The files of two commands and the ends of a pipe are open on descriptors of their own. -/
theorem apart (equipped : Equipped start table
      (leftFiles.fds ++ rightFiles.fds ++ [readEnd] ++ [writeEnd])) :
    readEnd ≠ writeEnd ∧ (∀ fd ∈ leftFiles.fds, fd ∉ rightFiles.fds ∧ fd ≠ readEnd ∧ fd ≠ writeEnd) ∧
      ∀ fd ∈ rightFiles.fds, fd ≠ readEnd ∧ fd ≠ writeEnd := by
  have distinct := equipped.distinct
  simp only [List.nodup_append, List.mem_append, List.mem_singleton] at distinct
  obtain ⟨⟨⟨-, -, files⟩, -, reading⟩, -, writing⟩ := distinct
  refine ⟨writing _ (.inr rfl) _ rfl, fun fd left => ⟨fun right => files fd left fd right rfl, ?_⟩, ?_⟩
  · exact ⟨reading fd (.inl left) _ rfl, writing fd (.inl (.inl left)) _ rfl⟩
  · exact fun fd right => ⟨reading fd (.inr right) _ rfl, writing fd (.inl (.inr right)) _ rfl⟩

/-- What the child on the left has once it is wired. -/
theorem wire?_left (equipped : Equipped start table
      (leftFiles.fds ++ rightFiles.fds ++ [readEnd] ++ [writeEnd])) :
    ∃ wired, ChildIo.wire?
        { leftFiles.io with pipeOut := some writeEnd, extraClose := [readEnd] } table = some wired ∧
      wired.stream? stdin = table.stream? (leftFiles.input.getD stdin) ∧
      wired.stream? stdout = table.stream? (leftFiles.output.getD writeEnd) ∧
      ∀ fd stream, wired.stream? fd = some stream → ∃ fd', table.stream? fd' = some stream ∧
        fd' ≠ readEnd ∧ (fd' = writeEnd → leftFiles.output = none) := by
  obtain ⟨different, ofLeft, -⟩ := apart equipped
  let io : ChildIo := { leftFiles.io with pipeOut := some writeEnd, extraClose := [readEnd] }
  have given {fd : Nat} : fd ∈ io.given ↔ fd = writeEnd ∨ fd ∈ leftFiles.fds ∨ fd = readEnd := by
    simp [io, ChildIo.mem_given, ChildIo.mem_sources, OpenFiles.io, OpenFiles.mem_fds, or_assoc,
      eq_comm]
  have listed : ∀ fd ∈ io.given,
      fd ∈ leftFiles.fds ++ rightFiles.fds ++ [readEnd] ++ [writeEnd] := by
    intro fd isGiven
    rcases given.mp isGiven with rfl | isLeft | rfl <;> simp [*]
  have above : ∀ fd ∈ io.given, stderr < fd := fun fd given => equipped.above fd (listed fd given)
  have isOpen : ∀ fd ∈ io.sources, (table.get? fd).isSome := fun fd source =>
    equipped.isOpen fd (listed fd (ChildIo.mem_given.mpr (.inl source)))
  obtain ⟨wired, wires, reads, writes, -⟩ := ChildIo.wire?_streams above isOpen
  have input : io.fileIn.or io.pipeIn = leftFiles.input := Option.or_none
  have output : io.fileOut.or io.pipeOut = leftFiles.output.or (some writeEnd) := rfl
  rw [input] at reads
  rw [output] at writes
  refine ⟨wired, wires, reads, ?_, fun fd stream leads => ?_⟩
  · rw [writes]
    cases leftFiles.output <;> rfl
  · obtain ⟨fd', leads, put⟩ := ChildIo.inherits_wire? above isOpen wires leads
    rw [input, output, Option.or_eq_some_iff] at put
    have file (put : leftFiles.input = some fd' ∨ leftFiles.output = some fd') :
        fd' ≠ readEnd ∧ fd' ≠ writeEnd := (ofLeft fd' (OpenFiles.mem_fds.mpr put)).2
    refine ⟨fd', leads, ?_, ?_⟩
    · rintro rfl
      rcases put (given.mpr (.inr (.inr rfl))) with put | put | ⟨-, put⟩
      · exact (file (.inl put)).1 rfl
      · exact (file (.inr put)).1 rfl
      · exact different (Option.some.inj put).symm
    · rintro rfl
      rcases put (given.mpr (.inl rfl)) with put | put | ⟨nothing, -⟩
      · exact absurd rfl (file (.inl put)).2
      · exact absurd rfl (file (.inr put)).2
      · exact nothing

/-- What the child on the right has once it is wired. The shell has closed its writing end before,
and the files of the left child. -/
theorem wire?_right (equipped : Equipped start table
      (leftFiles.fds ++ rightFiles.fds ++ [readEnd] ++ [writeEnd])) :
    ∃ wired, ChildIo.wire? { rightFiles.io with pipeIn := some readEnd }
        (table.closeAll (writeEnd :: leftFiles.fds)) = some wired ∧
      wired.stream? stdin = table.stream? (rightFiles.input.getD readEnd) ∧
      wired.stream? stdout = table.stream? (rightFiles.output.getD stdout) ∧
      ∀ fd stream, wired.stream? fd = some stream → ∃ fd', table.stream? fd' = some stream ∧
        fd' ≠ writeEnd ∧ (fd' = readEnd → rightFiles.input = none) := by
  obtain ⟨different, ofLeft, ofRight⟩ := apart equipped
  let io : ChildIo := { rightFiles.io with pipeIn := some readEnd }
  have given {fd : Nat} : fd ∈ io.given ↔ fd = readEnd ∨ fd ∈ rightFiles.fds := by
    simp [io, ChildIo.mem_given, ChildIo.mem_sources, OpenFiles.io, OpenFiles.mem_fds, eq_comm]
  have listed : ∀ fd ∈ io.given,
      fd ∈ leftFiles.fds ++ rightFiles.fds ++ [readEnd] ++ [writeEnd] := by
    intro fd isGiven
    rcases given.mp isGiven with rfl | isRight <;> simp [*]
  have above : ∀ fd ∈ io.given, stderr < fd := fun fd given => equipped.above fd (listed fd given)
  -- What the shell has closed before is nothing that this child is given, nor a standard stream.
  have ofChild {fd : Nat} (isGiven : fd ∈ io.given) : fd ∉ writeEnd :: leftFiles.fds := by
    rcases given.mp isGiven with rfl | isRight
    · exact List.not_mem_cons_of_ne_of_not_mem different fun isLeft => (ofLeft _ isLeft).2.1 rfl
    · exact List.not_mem_cons_of_ne_of_not_mem (ofRight fd isRight).2 fun isLeft =>
        (ofLeft fd isLeft).1 isRight
  have standard : stdout ∉ writeEnd :: leftFiles.fds := fun closed =>
    absurd (equipped.above stdout (by rcases List.mem_cons.mp closed with rfl | h <;> simp [*]))
      (by decide)
  have same {fd : Nat} (notClosed : fd ∉ writeEnd :: leftFiles.fds) :
      (table.closeAll (writeEnd :: leftFiles.fds)).stream? fd = table.stream? fd := by
    rw [Descriptors.stream?, get?_closeAll, if_neg notClosed]
    rfl
  have isOpen : ∀ fd ∈ io.sources,
      ((table.closeAll (writeEnd :: leftFiles.fds)).get? fd).isSome := by
    intro fd source
    have isGiven := ChildIo.mem_given.mpr (.inl source)
    rw [get?_closeAll, if_neg (ofChild isGiven)]
    exact equipped.isOpen fd (listed fd isGiven)
  obtain ⟨wired, wires, reads, writes, -⟩ := ChildIo.wire?_streams above isOpen
  have input : io.fileIn.or io.pipeIn = rightFiles.input.or (some readEnd) := rfl
  have output : io.fileOut.or io.pipeOut = rightFiles.output := Option.or_none
  rw [input] at reads
  rw [output] at writes
  refine ⟨wired, wires, ?_, ?_, fun fd stream leads => ?_⟩
  · rw [reads]
    cases file : rightFiles.input with
    | none => exact same (ofChild (given.mpr (.inl rfl)))
    | some source =>
      exact same (ofChild (given.mpr (.inr (OpenFiles.mem_fds.mpr (.inl file)))))
  · rw [writes]
    cases file : rightFiles.output with
    | none => exact same standard
    | some source =>
      exact same (ofChild (given.mpr (.inr (OpenFiles.mem_fds.mpr (.inr file)))))
  · obtain ⟨fd', leads, put⟩ := ChildIo.inherits_wire? above isOpen wires leads
    obtain ⟨notClosed, leads⟩ := stream?_closeAll leads
    rw [input, output, Option.or_eq_some_iff] at put
    have file (put : rightFiles.input = some fd' ∨ rightFiles.output = some fd') :
        fd' ≠ readEnd := (ofRight fd' (OpenFiles.mem_fds.mpr put)).1
    refine ⟨fd', leads, fun same => notClosed (same ▸ List.mem_cons_self), ?_⟩
    rintro rfl
    rcases put (given.mpr (.inl rfl)) with (put | ⟨nothing, -⟩) | put
    · exact absurd rfl (file (.inl put))
    · exact nothing
    · exact absurd rfl (file (.inr put))

/-- What the shell, with a pipe and the files of both commands open, has a descriptor for. -/
theorem leads_cases {reader : Nat} (coherent : ∀ fd stream, table.stream? fd = some stream →
      stream < reader) {fd stream : Nat}
    (leads : ((table.add reader).2.add (reader + 1)).2.stream? fd = some stream) :
    fd = ((table.add reader).2.add (reader + 1)).1 ∧ stream = reader + 1 ∨
      fd = (table.add reader).1 ∧ stream = reader ∨ stream < reader := by
  rcases stream?_add_add leads with writing | reading | old
  · exact .inl writing
  · exact .inr (.inl reading)
  · exact .inr (.inr (coherent fd stream old))

/-- With the files open the pipe is made and both children are started. -/
theorem startJoined_joins {left right : Stage} {pids : Nat × Nat}
    (equipped : Equipped start world.descriptors (leftFiles.fds ++ rightFiles.fds))
    (coherent : world.Coherent)
    (done : (startJoined left right leftFiles rightFiles).outcome world = (.ok pids, after)) :
    let reader := world.machine.streams.length
    let number := world.machine.pipes.length
    ∃ leftTask rightTask readEnd writeEnd table,
      world.descriptors.Kept table ∧
      table.stream? readEnd = some reader ∧ table.stream? writeEnd = some (reader + 1) ∧
      pids = (world.machine.nextPid, world.machine.nextPid + 1) ∧
      leftTask.pid = pids.1 ∧ rightTask.pid = pids.2 ∧
      after.machine.tasks = world.machine.tasks ++ [leftTask, rightTask] ∧
      after.machine.streams.map Stream.rewound =
        (world.machine.streams ++ world.machine.pipeStreams).map Stream.rewound ∧
      (world.unwritten = [] →
        after.machine.streams = world.machine.streams ++ world.machine.pipeStreams) ∧
      leftTask.descriptors.stream? stdin = table.stream? (leftFiles.input.getD stdin) ∧
      leftTask.descriptors.stream? stdout = table.stream? (leftFiles.output.getD writeEnd) ∧
      rightTask.descriptors.stream? stdin = table.stream? (rightFiles.input.getD readEnd) ∧
      rightTask.descriptors.stream? stdout = table.stream? (rightFiles.output.getD stdout) ∧
      after.machine.Divided after.held number
        (fun pid => pid = pids.1 ∧ leftFiles.output = none)
        (fun pid => pid = pids.2 ∧ rightFiles.input = none) := by
  intro reader number
  obtain ⟨readEnd, writeEnd, piped, split, joined, pipes, splits, joins, rfl⟩ := startJoined_ok done
  obtain ⟨rfl, rfl, refusals, rfl⟩ := openPipe_ok pipes
  have both := (equipped.add reader).add (reader + 1)
  obtain ⟨leftTable, wires, leftIn, leftOut, leftHas⟩ := wire?_left both
  obtain ⟨leftPid, leftTask, _, streams, _, pipes, _, _, _, unwritten, leftNumber, rfl, rewound,
    count, nothing, rfl⟩ := spawn_ok wires splits
  obtain ⟨rightTable, wires', rightIn, rightOut, rightHas⟩ := wire?_right both
  obtain ⟨rightPid, rightTask, _, streams', _, pipes', _, _, _, _, rightNumber, rfl, rewound',
    count', nothing', rfl⟩ := spawn_ok wires' joins
  have reading := stream?_add_self world.descriptors reader
  have writing := stream?_add_self (Descriptors.add world.descriptors reader).2 (reader + 1)
  have leftSide (fd stream : Nat) (leads : leftTask.descriptors.stream? fd = some stream) :
      stream < reader ∨ stream = reader + 1 ∧ leftFiles.output = none := by
    obtain ⟨fd', leads, notReading, noFile⟩ := leftHas fd stream leads
    rcases leads_cases coherent.own leads with ⟨same, new⟩ | ⟨same, -⟩ | old
    · exact .inr ⟨new, noFile same⟩
    · exact absurd same notReading
    · exact .inl old
  have rightSide (fd stream : Nat) (leads : rightTask.descriptors.stream? fd = some stream) :
      stream < reader ∨ stream = reader ∧ rightFiles.input = none := by
    obtain ⟨fd', leads, notWriting, noFile⟩ := rightHas fd stream leads
    rcases leads_cases coherent.own leads with ⟨same, -⟩ | ⟨same, new⟩ | old
    · exact absurd same notWriting
    · exact .inr ⟨new, noFile same⟩
    · exact .inl old
  have tasks := List.append_assoc world.machine.tasks [leftTask] [rightTask]
  have kinds : streams'.map Stream.rewound =
      (world.machine.streams ++ world.machine.pipeStreams).map Stream.rewound :=
    rewound'.trans rewound
  have unmoved (empty : world.unwritten = []) :
      streams' = world.machine.streams ++ world.machine.pipeStreams := by
    obtain ⟨still, same⟩ := nothing empty
    exact (nothing' still).2.trans same
  have more : pipes'.length = world.machine.pipes.length + 1 :=
    (count'.trans count).trans List.length_append
  refine ⟨leftTask, rightTask, _, _, _, (kept_add _ _).trans (kept_add _ _),
    (kept_add _ _).leads reading, writing, Prod.ext leftPid rightPid, leftNumber.trans leftPid.symm,
    rightNumber.trans rightPid.symm, tasks, kinds, unmoved, leftIn, leftOut, rightIn, rightOut, ?_⟩
  rw [leftPid, rightPid]
  refine coherent.divided rfl kinds more rfl tasks leftNumber rightNumber leftSide rightSide ?_
  intro fd stream leads
  obtain ⟨notReading, leads⟩ := stream?_closeAll leads
  obtain ⟨notWriting, leads⟩ := stream?_closeAll leads
  rcases leads_cases coherent.own leads with ⟨same, -⟩ | ⟨same, -⟩ | old
  · exact absurd (same ▸ List.mem_cons_self) notWriting
  · exact absurd (same ▸ List.mem_cons_self) notReading
  · exact old

end

/-- Two commands are joined by a pipe, in a world that is coherent, as that of a shell always is
(`coherent_runShell`). The left one writes to its file, or else to the pipe, and the
right one reads from its file, or else from the pipe; otherwise each has its file, or what the shell
has. However the processes of the machine go on from there, only the left child, and who descends
from it, can write to the pipe, and only the right child, and who descends from it, can read from
it; the shell can do neither. So what is in the pipe is read, and then it is at its end, as soon as
nobody of the left side is at work, or from the beginning if the left one writes to a file. What the
shell kept for its standard output is written before its children are there, which moves offsets of
streams and changes nothing else of them. -/
theorem startPipe_joins {left right : Stage} {leftPid rightPid : Nat} (coherent : world.Coherent)
    (started : (startPipe left right).outcome world = (.ok (leftPid, rightPid), after)) :
    ∃ leftTask rightTask number reader writer first second third last,
      after.machine.tasks = world.machine.tasks ++ [leftTask, rightTask] ∧
      leftTask.pid = leftPid ∧ rightTask.pid = rightPid ∧ leftPid ≠ rightPid ∧
      (∀ task ∈ world.machine.tasks, task.pid ≠ leftPid ∧ task.pid ≠ rightPid) ∧
      world.Takes first left.redirections.input .input
        (world.descriptors.stream? stdin) (leftTask.descriptors.stream? stdin) ∧
      first.Takes second left.redirections.output .output
        (some writer) (leftTask.descriptors.stream? stdout) ∧
      second.Takes third right.redirections.input .input
        (some reader) (rightTask.descriptors.stream? stdin) ∧
      third.Takes last right.redirections.output .output
        (world.descriptors.stream? stdout) (rightTask.descriptors.stream? stdout) ∧
      let streams := last.machine.streams ++
        [⟨.pipeReader number, true, false, false, 0⟩, ⟨.pipeWriter number, false, true, false, 0⟩]
      after.machine.streams.map Stream.rewound = streams.map Stream.rewound ∧
      (world.unwritten = [] → after.machine.streams = streams) ∧
      reader = last.machine.streams.length ∧ writer = reader + 1 ∧
      ∀ m origin, Machine.Unfolds after.held number after.machine m origin →
        m.Divided after.held number
          (fun pid => origin pid = leftPid ∧ left.redirections.output = none)
          (fun pid => origin pid = rightPid ∧ right.redirections.input = none) ∧
        ((∀ task ∈ m.tasks, origin task.pid = leftPid → left.redirections.output ≠ none) →
          ∀ count, ∃ m', m.readStream after.held reader count =
            .done ((m.pipes.getD number []).take count, m')) := by
  rw [outcome_startPipe] at started
  rcases ranLeft : left.redirections.openFiles.outcome world with ⟨e | leftFiles, second⟩
  · rw [ranLeft] at started
    cases started
  rcases ranRight : right.redirections.openFiles.outcome second with ⟨e | rightFiles, last⟩
  · simp only [ranLeft, ranRight] at started
    cases started
  simp only [ranLeft, ranRight] at started
  have equipped : Equipped world.descriptors world.descriptors [] :=
    ⟨coherent.standard, fun _ _ held => held, List.nodup_nil, by simp, by simp⟩
  obtain ⟨first, equipped, coherent, onlyLeft, -, noOutput, keepsLeft, takesLeft⟩ :=
    openFiles_ok equipped coherent ranLeft
  obtain ⟨third, equipped, coherent, onlyRight, noInput, -, keepsRight, takesRight⟩ :=
    openFiles_ok equipped coherent ranRight
  obtain ⟨leftTask, rightTask, readEnd, writeEnd, table, kept, reads, writes, numbers, leftNumber,
    rightNumber, tasks, kinds, unmoved, leftIn, leftOut, rightIn, rightOut, divided⟩ :=
    startJoined_joins equipped coherent started
  obtain ⟨rfl, rfl⟩ := Prod.mk.inj numbers
  obtain ⟨sameTasks, sameUnwritten⟩ : last.machine.tasks = world.machine.tasks ∧
      last.unwritten = world.unwritten := by
    obtain ⟨_, _, _, _, _, rfl⟩ := onlyLeft.trans onlyRight
    exact ⟨rfl, rfl⟩
  have own {fd : Nat} (low : fd ≤ stderr) : table.stream? fd = world.descriptors.stream? fd :=
    (equipped.kept.trans kept).stream? (equipped.standard fd low)
  refine ⟨leftTask, rightTask, _, _, _, first, second, third, last, sameTasks ▸ tasks, leftNumber,
    rightNumber, (Nat.lt_succ_self _).ne, fun task there => ?_, ?_, ?_, ?_, ?_, kinds,
    fun empty => unmoved (sameUnwritten.trans empty), rfl, rfl, fun m origin unfolds => ?_⟩
  · have := coherent.pids task (sameTasks ▸ there)
    omega
  · rw [leftIn, ← own (by decide)]
    exact (takesLeft table stdin (keepsRight.trans kept)).1
  · rw [leftOut, ← writes]
    exact (takesLeft table writeEnd (keepsRight.trans kept)).2
  · rw [rightIn, ← reads]
    exact (takesRight table readEnd kept).1
  · rw [rightOut, ← own (by decide)]
    exact (takesRight table stdout kept).2
  have later := unfolds.divided divided
  refine ⟨later.mono (fun pid => .imp_right noOutput) fun pid => .imp_right noInput,
    fun done count => ?_⟩
  have reader : (after.machine.streams.map Stream.rewound)[last.machine.streams.length]? =
      some ⟨.pipeReader last.machine.pipes.length, true, false, false, 0⟩ := by
    rw [kinds, List.map_append, List.getElem?_append_right (by simp)]
    simp [Machine.pipeStreams, Stream.rewound]
  rw [List.getElem?_map] at reader
  obtain ⟨opened, there, isReader⟩ := Option.map_eq_some_iff.mp reader
  obtain ⟨s, there, same⟩ := unfolds.stays there
  have same := same.trans isReader
  refine later.reads (fun task member writes => ?_) there (congrArg Stream.readable same)
    (congrArg Stream.endpoint same) count
  exact done task member writes.1 (noOutput writes.2)

/-- A shell as it begins on a machine on which nothing is open, with a file of some content. -/
def shellWithFile (name : String) (content : Bytes) : World :=
  let (descriptors, machine) := Machine.withStreams
    { root := .dir [(name.toList, .file content .ownFile)] .ownDir } []
  { place := .root, descriptors, machine }

/-- The left command reads from a file and writes to the pipe, the right one reads from the pipe and
writes to a file. -/
theorem startPipe_joins_files :
    let world := shellWithFile "in" [104, 105, 10]
    ∃ after leftTask rightTask number reader writer,
      (startPipe ⟨["cat".toList], { input := some "in".toList }⟩
        ⟨["sort".toList], { output := some "out".toList }⟩).outcome world =
          (.ok (1002, 1003), after) ∧
      after.machine.tasks = [leftTask, rightTask] ∧
      leftTask.descriptors.stream? stdout = some writer ∧
      rightTask.descriptors.stream? stdin = some reader ∧
      ∀ m origin, Machine.Unfolds after.held number after.machine m origin →
        (∀ task ∈ m.tasks, origin task.pid ≠ 1002) → ∀ count, ∃ m',
          m.readStream after.held reader count =
            .done ((m.pipes.getD number []).take count, m') := by
  intro world
  have coherent : world.Coherent :=
    World.coherent_withStreams rfl (by simp [Machine.HasPipes]) rfl rfl
  have started : ((startPipe ⟨["cat".toList], { input := some "in".toList }⟩
      ⟨["sort".toList], { output := some "out".toList }⟩).outcome world).1 = .ok (1002, 1003) := by
    decide +kernel
  rcases ran : (startPipe ⟨["cat".toList], { input := some "in".toList }⟩
    ⟨["sort".toList], { output := some "out".toList }⟩).outcome world with ⟨answer, after⟩
  rw [ran] at started
  subst started
  obtain ⟨leftTask, rightTask, number, reader, writer, first, second, third, last, tasks, -, -, -, -,
    -, writes, reads, -, -, -, -, -, later⟩ := startPipe_joins coherent ran
  exact ⟨after, leftTask, rightTask, number, reader, writer, rfl, tasks, writes.2, reads.2,
    fun m origin unfolds done => (later m origin unfolds).2 fun task there ofLeft =>
      absurd ofLeft (done task there)⟩

end LineShell
