import LineShell.Proofs.Endings
import LineShell.Proofs.History
import LineShell.Proofs.LineEffects
import LineShell.Proofs.Reaping

/-! The numbers of processes. They are given out one after the other, and a child of the shell takes
the next one (`startProgram_ok`). None is given out twice, so in whatever state a shell finds itself
the next one is new, and no two of its children share one (`numbered_runShell`). -/

namespace LineShell

open Act

theorem Process.pid_task (p : Process) (parent clock : Nat) : (p.task parent clock).pid = p.pid := by
  rw [task]
  split <;> rfl

namespace Machine

variable {m mid m' : Machine} {task : Task}

/-- The number for the next process is new. -/
structure HasNewPid (m : Machine) : Prop where
  tasks : ∀ task ∈ m.tasks, task.pid < m.nextPid
  children : m.children.status? m.nextPid = none

/-- All numbers that have been given out are below the next one, and no two children share one. -/
structure Numbered (m : Machine) : Prop where
  tasks : ∀ task ∈ m.tasks, task.pid < m.nextPid
  children : ∀ pid ∈ m.children.pids, pid < m.nextPid
  distinct : m.children.Distinct

theorem Numbered.hasNewPid (numbered : m.Numbered) : m.HasNewPid where
  tasks := numbered.tasks
  children := ChildTable.status?_eq_none_iff.mpr fun listed =>
    (numbered.children _ listed).false

/-- Numbers are only given out. -/
structure NumbersOn (m m' : Machine) : Prop where
  nextPid : m.nextPid ≤ m'.nextPid
  numbered : m.Numbered → m'.Numbered

namespace NumbersOn

theorem of_same (nextPid : m'.nextPid = m.nextPid) (tasks : m'.tasks = m.tasks)
    (pids : m'.children.pids = m.children.pids) : m.NumbersOn m' where
  nextPid := nextPid.ge
  numbered := by
    rintro ⟨below, children, distinct⟩
    refine ⟨?_, ?_, ?_⟩
    · rwa [tasks, nextPid]
    · rwa [pids, nextPid]
    · rwa [ChildTable.Distinct, pids]

theorem refl (m : Machine) : m.NumbersOn m := ⟨Nat.le_refl _, id⟩

theorem trans (first : m.NumbersOn mid) (second : mid.NumbersOn m') : m.NumbersOn m' :=
  ⟨first.nextPid.trans second.nextPid, second.numbered ∘ first.numbered⟩

theorem of_moved (moved : m.Moved m') : m.NumbersOn m' := by
  obtain ⟨_, _, _, _, rfl, -⟩ := moved
  exact .of_same rfl rfl rfl

/-- A process that splits off another one takes the next number for it. The shell has no more children
for that. -/
theorem of_proceeds (proceeds : m.Proceeds m' task) : m.NumbersOn m' where
  nextPid := proceeds.nextPid
  numbered := by
    intro numbered
    refine ⟨fun task' there => ?_, fun pid listed => ?_, ?_⟩
    · rcases proceeds.codes task' there with ⟨old, member, same, -⟩ | ⟨new, more⟩
      · exact same ▸ (numbered.tasks old member).trans_le proceeds.nextPid
      · exact new ▸ more
    · rw [proceeds.pids] at listed
      exact (numbered.children pid listed).trans_le proceeds.nextPid
    · rw [ChildTable.Distinct, proceeds.pids]
      exact numbered.distinct

theorem run (m : Machine) (held : List Nat) (isOver : Machine → Bool) (steps : Nat) :
    m.NumbersOn (m.run held isOver steps) := by
  induction steps generalizing m with
  | zero => exact .refl m
  | succ steps ih =>
    rw [Machine.run]
    split
    · exact .refl m
    split
    · exact .refl m
    · next acts => exact (of_proceeds (proceeds_step (mem_of_next? acts))).trans (ih _)

theorem await (m : Machine) (held : List Nat) (pid : Nat) : m.NumbersOn (m.await held pid).2 :=
  (run m held _ _).trans (.of_same rfl rfl (ChildTable.pids_collect _ pid))

theorem settle (m : Machine) (held : List Nat) : m.NumbersOn (m.settle held) :=
  (run m held _ _).trans (.of_same rfl rfl rfl)

end NumbersOn

/-- A child of the shell takes the next number. -/
theorem numbersOn_fork (m : Machine) (program : Option Text) (image : Image) (io : ChildIo) :
    m.NumbersOn (m.fork program image io).2 := by
  rw [fork]
  dsimp only
  split
  · exact .of_same rfl rfl rfl
  refine ⟨Nat.le_succ _, fun numbered => ⟨fun task there => ?_, fun pid listed => ?_, ?_⟩⟩
  · rcases List.mem_append.mp there with old | new
    · exact (numbered.tasks task old).trans (Nat.lt_succ_self _)
    · obtain rfl := List.mem_singleton.mp new
      rw [Process.pid_task]
      exact Nat.lt_succ_self _
  · rw [ChildTable.pids_start] at listed
    rcases List.mem_append.mp listed with old | new
    · exact (numbered.children pid old).trans (Nat.lt_succ_self _)
    · obtain rfl := List.mem_singleton.mp new
      exact Nat.lt_succ_self _
  · exact numbered.distinct.start numbered.hasNewPid.children

end Machine

/-! Starting a child of the shell. -/

/-- What is written changes contents and offsets. -/
theorem World.Wrote.moved {before after : World} (wrote : before.Wrote after) :
    before.machine.Moved after.machine := by
  induction wrote with
  | nothing => exact .refl _
  | written takes _ ih => exact (Machine.write_ok takes).trans ih
  | kept _ ih => exact ih

theorem outcome_spawn_of_plan {world : World} {args : List Text} {plan : Plan}
    (planned : world.plan args = .ok plan) (io : ChildIo) :
    (spawn args io).outcome world = (startProgram plan.program plan.args io).outcome world := by
  rw [spawn, outcome_bind, outcome_get]
  simp only [outcome_bind, planned, Act.ofExcept, outcome_pure]

section

variable {world after : World} {program : Option Text} {args : List Text} {io : ChildIo} {pid : Nat}

/-- The child of a shell in a world. -/
def World.child (world : World) (program : Option Text) (args : List Text) (io : ChildIo) : Process :=
  { pid := world.machine.nextPid, program, io
    image := ⟨args, world.environment, world.place, world.descriptors⟩ }

theorem startProgram_ok (done : (startProgram program args io).outcome world = (.ok pid, after)) :
    pid = world.machine.nextPid ∧
    ∃ forks, after = { world.flushed with machine := { world.flushed.machine with
      refusals := { world.machine.refusals with forks }
      now := world.machine.now + Machine.forkTime
      nextPid := world.machine.nextPid + 1
      tasks := world.machine.tasks ++ [(world.child program args io).task Machine.shellPid
        (world.machine.now + Machine.startTime)]
      children := world.machine.children.start world.machine.nextPid } } := by
  obtain ⟨_, _, _, _, machine, -⟩ := world.wrote_flushed.moved
  have flushed := world.wrote_flushed.beside
  rw [machine] at flushed
  rw [outcome_startProgram, flushed, Machine.fork] at done
  rw [flushed]
  dsimp only at done
  split at done
  · cases done
  · cases done
    exact ⟨rfl, _, rfl⟩

theorem task_of_wired {p : Process} {table : Descriptors} (wires : p.wired? = some table)
    (parent clock : Nat) : p.task parent clock =
      { pid := p.pid, parent, clock, code := p.becomeProgram.code, descriptors := table,
        place := p.image.place } := by
  rw [Process.task, wires]

end

/-- What happens in a world only gives out numbers. -/
def NumbersOn (before after : World) : Prop := before.machine.NumbersOn after.machine

instance : Onward NumbersOn := ⟨fun world => .refl world.machine, .trans⟩

theorem numbersOn_of_same {before after : World} (machine : after.machine = before.machine) :
    NumbersOn before after := by
  rw [NumbersOn, machine]
  exact .refl _

theorem numbersOn_wrote (before after : World) (wrote : before.Wrote after) :
    NumbersOn before after :=
  .of_moved wrote.moved

theorem numbersOn_openFile (path : Text) (mode : OpenMode) :
    (openFile path mode).Within NumbersOn := by
  have asks : nextOpening.Within NumbersOn := by
    intro world
    simp only [nextOpening, Act.of, outcome, ExceptT.run]
    split <;> exact .of_same rfl rfl rfl
  rw [openFile]
  refine .bind (.ofExcept _) fun path => .bind asks fun _ =>
    .rebuild (fun world opened opens => ?_) fun _ _ => .pure _
  obtain ⟨_, _, -, -, same⟩ := Machine.openPath_opened (mapError_eq_ok.mp opens)
  rw [NumbersOn, same]
  exact .of_same rfl rfl rfl

theorem numbersOn_openPipe : openPipe.Within NumbersOn := by
  intro world
  simp only [openPipe, Act.of, outcome, ExceptT.run]
  split
  · exact .of_same rfl rfl rfl
  · rw [Machine.addPipe_eq]
    exact .of_same rfl rfl rfl

theorem numbersOn_waitFor (pid : Nat) : (waitFor pid).Within NumbersOn := by
  intro world
  simp only [waitFor, Act.of, outcome, ExceptT.run]
  have answered (refusals : Refusals) :
      world.machine.NumbersOn { world.machine with refusals } := .of_same rfl rfl rfl
  split
  · split <;> exact answered _
  · exact (answered _).trans (.await _ world.held pid)

/-- Whatever happens for a command only gives out numbers. -/
theorem requests_numbersOn : Requests NumbersOn where
  opens := numbersOn_openFile
  pipes := numbersOn_openPipe
  forks := fun world => world.machine.numbersOn_fork
  waits := numbersOn_waitFor
  writes := numbersOn_wrote
  closes := fun _ _ => numbersOn_of_same rfl
  jobs := fun _ _ => numbersOn_of_same rfl

theorem numbersOn_runBuiltin (b : Builtin) (stage : Stage) :
    (runBuiltin b stage).Within NumbersOn :=
  .bind (.mapError (requests_numbersOn.openFiles _) _) fun _ => .bind .get fun _ =>
    .ensuring (within_runOutput_of_same numbersOn_wrote (fun _ => numbersOn_of_same) _ _ _) fun _ =>
      numbersOn_of_same rfl

theorem numbersOn_runLine (quiet : Bool) (line : Text) : (runLine quiet line).Within NumbersOn :=
  within_runLine quiet (fun _ _ => numbersOn_of_same rfl)
    (within_runPipeline quiet numbersOn_wrote requests_numbersOn.runPipe
      (requests_numbersOn.launch quiet) numbersOn_runBuiltin) line

theorem numbersOn_inputLines (pending : Bytes) (world : World) :
    NumbersOn world (inputLines pending world).2.2 :=
  within_inputLines (fun read => .of_moved (Machine.readStream_done read)) pending world

/-- In whatever state a shell finds itself that reads its lines from standard input, the next number
is new and no two of its children share one, if that was so when it began. -/
theorem numbered_runShell (turns : Nat) (flags : Flags) {world : World}
    (numbered : world.machine.Numbered) :
    ((runShell inputLines [] turns flags).outcome world).2.machine.Numbered := by
  have serving : Serving NumbersOn (flags.isSet .quiet) :=
    { lines := numbersOn_runLine _
      records := fun _ _ => numbersOn_of_same rfl
      writes := numbersOn_wrote
      settles := fun world => .settle world.machine world.held
      finishes := fun world =>
        .of_same rfl rfl (world.jobs.pids_reap world.machine.children) }
  exact (serving.runShell numbersOn_inputLines [] turns world).numbered numbered

end LineShell
