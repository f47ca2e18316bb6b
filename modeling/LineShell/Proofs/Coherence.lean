import LineShell.Machine.Standard
import LineShell.Proofs.CommandFiles
import LineShell.Proofs.Holding
import LineShell.Proofs.ProcessNumbers

/-! The order that there always is on the machine of a shell: who has a descriptor has a stream, an
end of a pipe has its pipe, and the shell has its standard streams. It is there when a shell begins
(`World.coherent_withStreams`), and neither a step of a process nor a line of the shell disturbs it
(`coherent_runShell`). -/

namespace LineShell

open Act Descriptors

namespace Machine

variable {m m' : Machine} {task : Task} {anew : Nat → Prop}

/-- Every descriptor of a process leads to a stream that is open, every end of a pipe belongs to a
pipe that is there, and the number for the next process is new. -/
structure Coherent (m : Machine) : Prop where
  tables : ∀ task ∈ m.tasks, ∀ fd stream, task.descriptors.stream? fd = some stream →
    stream < m.streams.length
  pipes : m.HasPipes
  pids : ∀ task ∈ m.tasks, task.pid < m.nextPid

theorem Stepped.coherent (stepped : m.Stepped m' task anew) (coherent : m.Coherent) :
    m'.Coherent where
  tables := by
    intro task' there fd stream leads
    obtain ⟨old, member, -, inherits⟩ := stepped.tasks task' there
    rcases inherits fd stream leads with ⟨fd', leads⟩ | ⟨-, inside⟩
    · exact (coherent.tables old member fd' stream leads).trans_le stepped.streams
    · exact inside
  pipes := stepped.hasPipes coherent.pipes
  pids := stepped.pids coherent.pids

theorem Coherent.run (coherent : m.Coherent) (held : List Nat) (isOver : Machine → Bool)
    (steps : Nat) : (m.run held isOver steps).Coherent ∧
      m.streams.length ≤ (m.run held isOver steps).streams.length := by
  induction steps generalizing m with
  | zero => exact ⟨coherent, Nat.le_refl _⟩
  | succ steps ih =>
    rw [Machine.run]
    split
    · exact ⟨coherent, Nat.le_refl _⟩
    split
    · exact ⟨coherent, Nat.le_refl _⟩
    · next task acts =>
      have stepped : m.Stepped (m.step held task) task (m.OpensAnew task) :=
        stepped_step (mem_of_next? acts)
      obtain ⟨later, more⟩ := ih (stepped.coherent coherent)
      exact ⟨later, stepped.streams.trans more⟩

theorem Moved.streams (moved : m.Moved m') : m'.streams.length = m.streams.length := by
  obtain ⟨_, _, _, _, rfl, rewound, -⟩ := moved
  simpa using congrArg List.length rewound

theorem Moved.coherent (moved : m.Moved m') (coherent : m.Coherent) : m'.Coherent := by
  have count := moved.streams
  have carries : m.Carries m' fun _ => False := .move moved
  obtain ⟨_, _, _, _, rfl, -⟩ := moved
  exact ⟨fun task there fd stream leads =>
    (coherent.tables task there fd stream leads).trans_eq count.symm,
    carries.hasPipes coherent.pipes, coherent.pids⟩

end Machine

namespace World

/-- The machine of the shell is in order, the shell's descriptors lead to streams that are open, and
it has its standard streams. -/
structure Coherent (world : World) : Prop extends Machine.Coherent world.machine where
  own : ∀ fd stream, world.descriptors.stream? fd = some stream →
    stream < world.machine.streams.length
  standard : ∀ fd ≤ stderr, (world.descriptors.get? fd).isSome

variable {world : World}

/-- A shell is coherent that begins with its standard streams on a machine with no process. -/
theorem coherent_withStreams {m : Machine} {input : Bytes} (idle : m.tasks = [])
    (pipes : m.HasPipes) (descriptors : world.descriptors = (m.withStreams input).1)
    (machine : world.machine = (m.withStreams input).2) : world.Coherent := by
  have count : world.machine.streams.length = m.streams.length + 3 := by
    simp [machine, Machine.withStreams, Machine.addStream, Machine.addBuffer]
  have nobody : world.machine.tasks = [] := by rw [machine]; exact idle
  have last (fd : Nat) : world.descriptors.get? fd =
      if fd = 2 then some ⟨m.streams.length + 2, false⟩
      else if fd = 1 then some ⟨m.streams.length + 1, false⟩
      else if fd = 0 then some ⟨m.streams.length, false⟩ else none := by
    simp [descriptors, Machine.withStreams, Machine.addStream, Machine.addBuffer, Table.ofList]
  constructor
  · constructor
    · simp [nobody]
    · intro s there k ofPipe
      have kinds : s ∈ m.streams ∨ ∃ number, s.endpoint = .buffer number := by
        simp [machine, Machine.withStreams, Machine.addStream, Machine.addBuffer] at there
        grind
      rw [machine]
      rcases kinds with old | ⟨number, new⟩
      · exact pipes s old k ofPipe
      · rw [new] at ofPipe
        cases ofPipe
    · simp [nobody]
  · intro fd stream leads
    rw [stream?, last] at leads
    grind
  · intro fd low
    rw [last]
    have : fd = 0 ∨ fd = 1 ∨ fd = 2 := by
      have : fd ≤ 2 := low
      omega
    grind

namespace Coherent

/-- The machine has gone on, and the shell has the descriptors that it had. -/
theorem withMachine (coherent : world.Coherent) {machine : Machine} (inOrder : machine.Coherent)
    (more : world.machine.streams.length ≤ machine.streams.length) :
    Coherent { world with machine } where
  toCoherent := inOrder
  own := fun fd stream leads => (coherent.own fd stream leads).trans_le more
  standard := coherent.standard

theorem withMoved (coherent : world.Coherent) {machine : Machine}
    (moved : world.machine.Moved machine) : Coherent { world with machine } :=
  coherent.withMachine (moved.coherent coherent.toCoherent) moved.streams.ge

/-- The shell has another descriptor, for a stream that is open. -/
theorem add (coherent : world.Coherent) {stream : Nat}
    (inside : stream < world.machine.streams.length) :
    Coherent { world with descriptors := (Descriptors.add world.descriptors stream).2 } where
  toCoherent := coherent.toCoherent
  own := by
    intro fd number leads
    rcases stream?_add leads with rfl | leads
    · exact inside
    · exact coherent.own fd number leads
  standard := by
    intro fd low
    have held := coherent.standard fd low
    rw [(kept_add world.descriptors stream).get? held]
    exact held

theorem close (coherent : world.Coherent) {fds : List Nat} (above : ∀ fd ∈ fds, stderr < fd) :
    (world.close fds).Coherent where
  toCoherent := coherent.toCoherent
  own := fun fd stream leads => coherent.own fd stream (stream?_closeAll leads).2
  standard := by
    intro fd low
    have kept : fd ∉ fds := fun listed => absurd (above fd listed) (Nat.not_lt.mpr low)
    rw [World.close, get?_closeAll, if_neg kept]
    exact coherent.standard fd low

theorem withFile (coherent : world.Coherent) {path : Text} {mode : OpenMode} {files : Files}
    {refusals : Refusals} {stream : Stream}
    (opened : (world.answered refusals).machine.Opened world.opener path mode stream.endpoint files) :
    ((world.answered refusals).withFile files stream).Coherent := by
  have inOrder : Machine.Coherent { world.machine with
      refusals, root := files.root, buffers := files.buffers
      streams := world.machine.streams ++ [stream] } := by
    refine ⟨fun task there fd number leads => ?_, fun s there k ofPipe => ?_, coherent.pids⟩
    · have inside := coherent.tables task there fd number leads
      rw [List.length_append]
      omega
    · rcases List.mem_append.mp there with old | new
      · exact coherent.pipes s old k ofPipe
      · obtain rfl := List.mem_singleton.mp new
        exact opened.pipe_lt coherent.pipes ofPipe
  have more : world.machine.streams.length < (world.machine.streams ++ [stream]).length := by
    simp
  exact (coherent.withMachine inOrder more.le).add more

/-- A new descriptor is none of the standard ones. -/
theorem above (coherent : world.Coherent) : stderr < world.descriptors.lowestFree :=
  lt_lowestFree coherent.standard

end Coherent

/-- What happens leaves order where there is order. -/
def Upheld (before after : World) : Prop := before.Coherent → after.Coherent

instance : Onward Upheld := ⟨fun _ => id, fun first second => second ∘ first⟩

/-- The variables, the history and the jobs have nothing to do with it. -/
theorem upheld_of_same {before after : World} (descriptors : after.descriptors = before.descriptors)
    (machine : after.machine = before.machine) : Upheld before after := by
  obtain ⟨_, _, _, _, _⟩ := after
  subst descriptors machine
  exact fun coherent => ⟨coherent.toCoherent, coherent.own, coherent.standard⟩

theorem upheld_wrote (before after : World) (wrote : before.Wrote after) : Upheld before after := by
  intro coherent
  have moved := coherent.withMoved wrote.moved
  rw [wrote.beside]
  exact ⟨moved.toCoherent, moved.own, moved.standard⟩

end World

open World

namespace Act

variable {ε α β : Type} {good : α → Prop} {act : Act ε α} {next : α → Act ε β}

/-- What the action gives in a coherent world is good. -/
def Gives (good : α → Prop) (act : Act ε α) : Prop :=
  ∀ world : World, world.Coherent → ∀ a, (act.outcome world).1 = .ok a → good a

theorem Within.bind_of (first : act.Within Upheld) (gives : act.Gives good)
    (second : ∀ a, good a → (next a).Within Upheld) : (act >>= next).Within Upheld := by
  intro world coherent
  have mid := first world coherent
  have known := gives world coherent
  rw [outcome_bind]
  rcases ran : act.outcome world with ⟨_ | a, after⟩ <;> rw [ran] at mid known
  · exact mid
  · exact second a (known a rfl) after mid

theorem Gives.mapError {ε' : Type} (gives : act.Gives good) (f : ε → ε') :
    (act.mapError f).Gives good := by
  intro world coherent a given
  rw [outcome_mapError] at given
  exact gives world coherent a (mapError_eq_ok.mp given)

end Act

theorem upheld_openFile (path : Text) (mode : OpenMode) :
    (openFile path mode).Within Upheld := by
  intro world coherent
  obtain ⟨refusals, ⟨cause, refused⟩ | ⟨endpoint, files, opened, done⟩⟩ :=
    outcome_openFile path mode world
  · rw [refused]
    exact coherent.withMachine ⟨coherent.tables, coherent.pipes, coherent.pids⟩ (Nat.le_refl _)
  · rw [done]
    exact coherent.withFile opened

theorem upheld_openGiven (file : Option Text) (mode : OpenMode) :
    (openGiven file mode).Within Upheld :=
  .mapM (fun path => .mapError (upheld_openFile path mode) _) file

theorem gives_openGiven (file : Option Text) (mode : OpenMode) :
    (openGiven file mode).Gives fun fd? => ∀ fd ∈ fd?.toList, stderr < fd := by
  intro world coherent fd? given fd listed
  obtain rfl := Option.mem_toList.mp listed
  rcases outcome_openGiven file mode world with
    ⟨_, _, _, -, refused⟩ | ⟨_, _, done, -, ⟨-, rfl, -⟩ | ⟨_, _, _, _, -, rfl, -⟩⟩
  · rw [refused] at given
    cases given
  · rw [done] at given
    cases given
  · rw [done] at given
    cases given
    exact coherent.above

theorem upheld_openFiles (r : Redirections) : r.openFiles.Within Upheld := by
  rw [openFiles_eq]
  refine .bind_of (upheld_openGiven _ _) (gives_openGiven _ _) fun input above => ?_
  refine .bind (.attempt (upheld_openGiven _ _)) ?_
  rintro (e | output)
  · exact .bind (.modify fun _ coherent => coherent.close above) fun _ => .throw _
  · exact .pure _

/-- The files of a command are on new descriptors. -/
def OpenFiles.Above (files : OpenFiles) : Prop := ∀ fd ∈ files.fds, stderr < fd

theorem gives_openFiles (r : Redirections) : r.openFiles.Gives OpenFiles.Above := by
  intro world coherent files given
  rw [outcome_openFiles] at given
  have first := upheld_openGiven r.input .input world coherent
  have above := gives_openGiven r.input .input world coherent
  rcases ran : (openGiven r.input .input).outcome world with ⟨e | input, mid⟩ <;>
    simp only [ran] at given first above
  · cases given
  have above' := gives_openGiven r.output .output mid first
  rcases ran' : (openGiven r.output .output).outcome mid with ⟨e | output, last⟩ <;>
    simp only [ran'] at given above'
  · cases given
  · cases given
    intro fd listed
    rcases List.mem_append.mp listed with isInput | isOutput
    · exact above input rfl fd isInput
    · exact above' output rfl fd isOutput

/-- A new child has the descriptors that the shell has. -/
theorem tables_task {p : Process} {parent clock bound : Nat}
    (tables : ∀ fd stream, p.image.descriptors.stream? fd = some stream → stream < bound)
    {fd stream : Nat} (leads : (p.task parent clock).descriptors.stream? fd = some stream) :
    stream < bound := by
  rw [Process.task] at leads
  split at leads
  · exact tables fd stream leads
  · next wires =>
    obtain ⟨fd', leads⟩ := ChildIo.leads_wire? wires leads
    exact tables fd' stream leads

theorem Machine.Coherent.fork {m : Machine} (coherent : m.Coherent) (program : Option Text)
    (image : Image) (io : ChildIo) (tables : ∀ fd stream,
      image.descriptors.stream? fd = some stream → stream < m.streams.length) :
    (m.fork program image io).2.Coherent ∧
      m.streams.length ≤ (m.fork program image io).2.streams.length := by
  rw [Machine.fork]
  dsimp only
  split
  · exact ⟨⟨coherent.tables, coherent.pipes, coherent.pids⟩, Nat.le_refl _⟩
  refine ⟨⟨fun task there fd stream leads => ?_, coherent.pipes, fun task there => ?_⟩,
    Nat.le_refl _⟩
  · rcases List.mem_append.mp there with old | new
    · exact coherent.tables task old fd stream leads
    · obtain rfl := List.mem_singleton.mp new
      exact tables_task tables leads
  · rcases List.mem_append.mp there with old | new
    · exact (coherent.pids task old).trans (Nat.lt_succ_self _)
    · obtain rfl := List.mem_singleton.mp new
      rw [Process.pid_task]
      exact Nat.lt_succ_self _

theorem upheld_spawn (args : List Text) (io : ChildIo) : (spawn args io).Within Upheld := by
  refine .bind .get fun _ => .bind (.ofExcept _) fun plan world coherent => ?_
  have ready := upheld_wrote _ _ world.wrote_flushed coherent
  obtain ⟨inOrder, more⟩ := ready.toCoherent.fork plan.program
    ⟨plan.args, world.flushed.environment, world.flushed.place, world.flushed.descriptors⟩ io ready.own
  rw [outcome_startProgram]
  exact ready.withMachine inOrder more

theorem upheld_waitFor (pid : Nat) : (waitFor pid).Within Upheld := by
  intro world coherent
  simp only [waitFor, Act.of, outcome, ExceptT.run]
  have answered (refusals : Refusals) :
      Coherent { world with machine := { world.machine with refusals } } :=
    coherent.withMachine ⟨coherent.tables, coherent.pipes, coherent.pids⟩ (Nat.le_refl _)
  split
  · split <;> exact answered _
  · have later := answered { world.machine.refusals with
      waits := (Machine.nextRefusal
        (world.machine.refusals.waits.dropWhile (· = some .interrupted))).2 }
    obtain ⟨inOrder, more⟩ := later.toCoherent.run world.held
      (fun m => m.children.status? pid ≠ some .running) Machine.stepBound
    exact later.withMachine ⟨inOrder.tables, inOrder.pipes, inOrder.pids⟩ more

/-- With a new pipe there are two more streams, and the shell has a descriptor for each. -/
theorem World.Coherent.piped {world : World} (coherent : world.Coherent) (refusals : Refusals) :
    let reader := world.machine.streams.length
    let one := Descriptors.add world.descriptors reader
    Coherent { world with
      descriptors := (Descriptors.add one.2 (reader + 1)).2
      machine := { world.machine with
        refusals, pipes := world.machine.pipes ++ [[]]
        streams := world.machine.streams ++ world.machine.pipeStreams } } := by
  intro reader one
  have writer : reader + 1 < (world.machine.streams ++ world.machine.pipeStreams).length := by
    simp [Machine.pipeStreams, reader]
  have more : reader < (world.machine.streams ++ world.machine.pipeStreams).length :=
    (Nat.lt_succ_self _).trans writer
  have inOrder : Machine.Coherent { world.machine with
      refusals, pipes := world.machine.pipes ++ [[]]
      streams := world.machine.streams ++ world.machine.pipeStreams } := by
    refine ⟨fun task there fd number leads => ?_, fun s there k ofPipe => ?_, coherent.pids⟩
    · exact (coherent.tables task there fd number leads).trans more
    · rw [List.length_append]
      rcases List.mem_append.mp there with old | new
      · exact (coherent.pipes s old k ofPipe).trans (Nat.lt_succ_self _)
      · rcases List.mem_pair.mp new with rfl | rfl <;> cases ofPipe <;> exact Nat.lt_succ_self _
  have first := (coherent.withMachine inOrder more.le).add more
  exact first.add writer

theorem upheld_openPipe : openPipe.Within Upheld := by
  intro world coherent
  simp only [openPipe, Act.of, outcome, ExceptT.run]
  split
  · exact coherent.withMachine ⟨coherent.tables, coherent.pipes, coherent.pids⟩ (Nat.le_refl _)
  · rw [Machine.addPipe_eq]
    exact coherent.piped _

theorem gives_openPipe : openPipe.Gives fun ends => stderr < ends.1 ∧ stderr < ends.2 := by
  intro world coherent ends given
  simp only [openPipe, Act.of, outcome, ExceptT.run] at given
  split at given
  · cases given
  · cases given
    refine ⟨coherent.above, lt_lowestFree fun fd low => ?_⟩
    have held := coherent.standard fd low
    rw [(kept_add world.descriptors _).get? held]
    exact held

/-! What is done once the files are open. -/

theorem upheld_closingOnFailure {ε α : Type} {act : Act ε α} {fds : List Nat}
    (led : act.Within Upheld) (above : ∀ fd ∈ fds, stderr < fd) :
    (closingOnFailure fds act).Within Upheld := by
  refine .bind (.attempt led) ?_
  rintro (e | a)
  · exact .bind (.modify fun _ coherent => coherent.close above) fun _ => .throw _
  · exact .pure _

theorem gives_closingOnFailure {ε α : Type} {act : Act ε α} {good : α → Prop}
    (gives : act.Gives good) (fds : List Nat) : (closingOnFailure fds act).Gives good := by
  intro world coherent a given
  refine gives world coherent a ?_
  rw [outcome_closingOnFailure] at given
  rcases ran : act.outcome world with ⟨_ | _, _⟩ <;> rw [ran] at given
  · cases given
  · exact given

theorem upheld_inForeground {ε α : Type} {act : Act ε α} (led : act.Within Upheld) :
    (inForeground act).Within Upheld :=
  .bind (.modify fun _ => upheld_of_same rfl rfl) fun _ =>
    .ensuring led fun _ => upheld_of_same rfl rfl

theorem upheld_launchOpened (quiet : Bool) (stage : Stage) (background : Bool)
    {files : OpenFiles} (above : files.Above) :
    (launchOpened quiet stage background files).Within Upheld := by
  have start : (Act.ensuring (fun world => world.close files.fds)
      (spawn stage.args files.io)).Within Upheld :=
    .ensuring (upheld_spawn _ _) fun _ coherent => coherent.close above
  rw [launchOpened]
  dsimp only
  split
  · refine .bind start fun pid => .bind (.modify fun _ => upheld_of_same rfl rfl) fun _ => ?_
    split
    · exact .bind ((wrote_tell _).mono upheld_wrote) fun _ => .pure _
    · exact .pure _
  · exact upheld_inForeground (.bind start fun pid => .bind (upheld_waitFor pid) fun _ => .pure _)

theorem upheld_startJoined (left right : Stage) {leftFiles rightFiles : OpenFiles}
    (aboveLeft : leftFiles.Above) (aboveRight : rightFiles.Above) :
    (startJoined left right leftFiles rightFiles).Within Upheld := by
  have both : ∀ fd ∈ leftFiles.fds ++ rightFiles.fds, stderr < fd := fun fd listed =>
    (List.mem_append.mp listed).elim (aboveLeft fd) (aboveRight fd)
  refine .bind_of (upheld_closingOnFailure upheld_openPipe both)
    (gives_closingOnFailure gives_openPipe _) ?_
  rintro ⟨readEnd, writeEnd⟩ ⟨aboveRead, aboveWrite⟩
  have closesLeft : ∀ fd ∈ writeEnd :: leftFiles.fds, stderr < fd :=
    List.forall_mem_cons.mpr ⟨aboveWrite, aboveLeft⟩
  have closesRight : ∀ fd ∈ readEnd :: rightFiles.fds, stderr < fd :=
    List.forall_mem_cons.mpr ⟨aboveRead, aboveRight⟩
  refine .bind (upheld_closingOnFailure (.ensuring (upheld_spawn _ _) fun _ coherent =>
    coherent.close closesLeft) closesRight) fun leftPid => ?_
  refine .bind (.attempt (.ensuring (upheld_spawn _ _) fun _ coherent =>
    coherent.close closesRight)) ?_
  rintro (e | rightPid)
  · exact .bind (.attempt (upheld_waitFor _)) fun _ => .throw _
  · exact .pure _

theorem upheld_awaitBoth (pids : Nat × Nat) : (awaitBoth pids).Within Upheld := by
  refine .bind (.attempt (upheld_waitFor _)) fun leftState => .bind (upheld_waitFor _) fun _ => ?_
  cases leftState with
  | error e => exact .throw _
  | ok state => exact .pure _

theorem upheld_launch (quiet : Bool) (stage : Stage) (background : Bool) :
    (launch quiet stage background).Within Upheld := by
  rw [launch_eq]
  exact .bind_of (upheld_openFiles _) (gives_openFiles _) fun files above =>
    upheld_launchOpened quiet stage background above

theorem upheld_runPipe (left right : Stage) : (runPipe left right).Within Upheld := by
  rw [runPipe_eq, startPipe_eq]
  refine upheld_inForeground (.bind ?_ upheld_awaitBoth)
  refine .bind_of (upheld_openFiles _) (gives_openFiles _) fun leftFiles aboveLeft => ?_
  exact .bind_of (upheld_closingOnFailure (upheld_openFiles _) aboveLeft)
    (gives_closingOnFailure (gives_openFiles _) _) fun rightFiles aboveRight =>
    upheld_startJoined left right aboveLeft aboveRight

/-! Lines. -/

theorem upheld_runBuiltin (b : Builtin) (stage : Stage) :
    (runBuiltin b stage).Within Upheld := by
  rw [runBuiltin]
  refine .bind_of (.mapError (upheld_openFiles _) _) (.mapError (gives_openFiles _) _)
    fun files above => .bind .get fun world => ?_
  exact .ensuring (within_runOutput_of_same upheld_wrote upheld_of_same _ _ _) fun _ coherent =>
    coherent.close above

/-- A line leaves order where there was order, whatever comes of it. -/
theorem upheld_runLine (quiet : Bool) (line : Text) : (runLine quiet line).Within Upheld :=
  within_runLine quiet (fun _ _ => upheld_of_same rfl rfl)
    (within_runPipeline quiet upheld_wrote upheld_runPipe (upheld_launch quiet) upheld_runBuiltin)
    line

theorem upheld_settle (world : World) :
    Upheld world { world with machine := world.machine.settle world.held } := by
  intro coherent
  obtain ⟨inOrder, more⟩ := coherent.toCoherent.run world.held
    (fun m => m.next?.all fun task => world.machine.now < task.clock) Machine.stepBound
  exact coherent.withMachine ⟨inOrder.tables, inOrder.pipes, inOrder.pids⟩ more

theorem upheld_finishedJobs (world : World) : Upheld world world.finishedJobs.2 := fun coherent =>
  ⟨⟨coherent.tables, coherent.pipes, coherent.pids⟩, coherent.own, coherent.standard⟩

theorem upheld_inputLines (pending : Bytes) (world : World) :
    Upheld world (inputLines pending world).2.2 :=
  within_inputLines (fun read coherent => coherent.withMoved (Machine.readStream_done read)) pending
    world

/-- The world of a shell that reads its lines from standard input is coherent as long as it runs. -/
theorem coherent_runShell (turns : Nat) (flags : Flags) {world : World}
    (coherent : world.Coherent) :
    ((runShell inputLines [] turns flags).outcome world).2.Coherent := by
  have serving : Serving Upheld (flags.isSet .quiet) :=
    { lines := upheld_runLine _
      records := fun _ _ => upheld_of_same rfl rfl
      writes := upheld_wrote
      settles := upheld_settle
      finishes := upheld_finishedJobs }
  exact serving.runShell upheld_inputLines [] turns world coherent

end LineShell
