import LineShell.Proofs.TypeAnswer

/-! What two joined commands leave behind. A `Procedure` is an action in which one can see where
children are started and where the shell waits for them; that of the pipe does what `runPipe` does
(`act_pipe`). Whatever the system answers, the calls of a pipe take one of four courses, and in none
of them is a child left without a wait; and the shell has the descriptors and the jobs that it had
(`runPipe_cleans`). -/

namespace LineShell

open Act

/-- What the shell asks about its children, and what it is answered. -/
inductive ChildCall
  | start (args : List Text) (answer : Except (Failure ProcessError) Nat)
  | wait (pid : Nat) (answer : Except (Failure ProcessError) ChildState)

/-- An action put together from starts, waits and what asks for no process (`World.forks`). -/
inductive Procedure : Type → Type 1
  | quiet {α : Type} (act : Act ProcessError α) (alone : act.Keeps World.forks) : Procedure α
  | start (args : List Text) (io : ChildIo) : Procedure Nat
  | wait (pid : Nat) : Procedure ChildState
  | bind {α β : Type} (first : Procedure α) (next : α → Procedure β) : Procedure β
  | attempt {α : Type} (inner : Procedure α) : Procedure (Except (Failure ProcessError) α)
  | ensuring {α : Type} (cleanup : World → World)
      (alone : ∀ world, (cleanup world).forks = world.forks) (inner : Procedure α) : Procedure α

namespace Procedure

variable {α β : Type} {world : World}

def act {α : Type} : Procedure α → Act ProcessError α
  | quiet act _ => act
  | start args io => spawn args io
  | wait pid => waitFor pid
  | bind first next => first.act >>= fun a => (next a).act
  | attempt inner => inner.act.attempt
  | ensuring cleanup _ inner => inner.act.ensuring cleanup

/-- The starts and the waits of a procedure that is carried out in a world, in their order. -/
def calls {α : Type} : Procedure α → World → List ChildCall
  | quiet _ _, _ => []
  | start args io, world => [.start args ((spawn args io).outcome world).1]
  | wait pid, world => [.wait pid ((waitFor pid).outcome world).1]
  | bind first next, world => first.calls world ++
      match first.act.outcome world with
      | (.ok a, mid) => (next a).calls mid
      | (.error _, _) => []
  | attempt inner, world => inner.calls world
  | ensuring _ _ inner, world => inner.calls world

/-- What comes of a procedure, together with its calls. -/
def Ends (p : Procedure α) (world : World)
    (Q : List ChildCall → Except (Failure ProcessError) α → World → Prop) : Prop :=
  Q (p.calls world) (p.act.outcome world).1 (p.act.outcome world).2

theorem Ends.weaken {p : Procedure α}
    {P Q : List ChildCall → Except (Failure ProcessError) α → World → Prop} (ends : p.Ends world P)
    (weaker : ∀ calls result after, P calls result after → Q calls result after) :
    p.Ends world Q := weaker _ _ _ ends

theorem ends_bind {first : Procedure α} {next : α → Procedure β}
    {Q : List ChildCall → Except (Failure ProcessError) β → World → Prop} :
    (bind first next).Ends world Q ↔ first.Ends world fun calls result mid =>
      match result with
      | .ok a => (next a).Ends mid fun more => Q (calls ++ more)
      | .error e => Q calls (.error e) mid := by
  simp only [Ends, act, calls, outcome_bind]
  rcases first.act.outcome world with ⟨e | a, mid⟩
  · simp only [List.append_nil]
  · rfl

theorem ends_attempt {inner : Procedure α}
    {Q : List ChildCall → Except (Failure ProcessError) (Except (Failure ProcessError) α) → World →
      Prop} :
    inner.attempt.Ends world Q ↔ inner.Ends world fun calls result => Q calls (.ok result) := .rfl

/-- The procedure, closing some descriptors if it fails. -/
def closing (fds : List Nat) (inner : Procedure α) : Procedure α :=
  .bind inner.attempt fun
    | .ok a => quiet (pure a) (.pure a)
    | .error e => quiet (do modify (·.close fds); throw e)
        (.bind (.modify fun _ => rfl) fun _ => .throw e)

theorem act_closing (fds : List Nat) (inner : Procedure α) :
    (inner.closing fds).act = closingOnFailure fds inner.act := by
  refine congrArg (inner.act.attempt >>= ·) (funext fun result => ?_)
  cases result <;> rfl

theorem ends_closing {fds : List Nat} {inner : Procedure α}
    {Q : List ChildCall → Except (Failure ProcessError) α → World → Prop} :
    (inner.closing fds).Ends world Q ↔ inner.Ends world fun calls result mid =>
      match result with
      | .ok a => Q calls (.ok a) mid
      | .error e => Q calls (.error e) (mid.close fds) := by
  rw [closing, ends_bind]
  simp only [Ends, act, calls, outcome_attempt]
  cases (inner.act.outcome world).1 with
  | ok a => simp only [act, calls, List.append_nil, outcome_pure]
  | error e =>
    simp only [act, calls, List.append_nil, outcome_bind]
    rfl

end Procedure

/-! The descriptors of the shell, beside those that it had. -/

namespace Descriptors

/-- A table has what another one has, and perhaps something on descriptors that are free there. -/
structure Beside (start table : Descriptors) (fds : List Nat) : Prop where
  free : ∀ fd ∈ fds, start.get? fd = none
  same : ∀ fd ∉ fds, table.get? fd = start.get? fd

variable {start table : Descriptors} {fds rest gone : List Nat}

theorem Beside.refl (table : Descriptors) : table.Beside table [] :=
  ⟨fun _ listed => (nomatch listed), fun _ _ => rfl⟩

theorem Beside.add (beside : start.Beside table fds) (stream : Nat) :
    start.Beside (table.add stream).2 (fds ++ [table.lowestFree]) where
  free := by
    intro fd listed
    by_cases old : fd ∈ fds
    · exact beside.free fd old
    · obtain rfl := List.mem_singleton.mp ((List.mem_append.mp listed).resolve_left old)
      rw [← beside.same _ old]
      exact get?_lowestFreeFrom table 0
  same := by
    intro fd absent
    rw [List.mem_append, List.mem_singleton, not_or] at absent
    rw [get?_add, if_neg absent.2, beside.same fd absent.1]

theorem Beside.closeAll (beside : start.Beside table fds)
    (parts : ∀ fd, fd ∈ fds ↔ fd ∈ gone ∨ fd ∈ rest) : start.Beside (table.closeAll gone) rest where
  free fd listed := beside.free fd ((parts fd).mpr (.inr listed))
  same := by
    intro fd absent
    rw [get?_closeAll]
    split
    · next closed => rw [beside.free fd ((parts fd).mpr (.inl closed))]
    · next left => exact beside.same fd fun listed => ((parts fd).mp listed).elim left absent

end Descriptors

/-- The shell has its descriptors and its jobs as before, and besides some descriptors. -/
structure World.Holds (before after : World) (fds : List Nat) : Prop where
  descriptors : before.descriptors.Beside after.descriptors fds
  jobs : after.jobs = before.jobs

namespace World.Holds

variable {before mid after : World} {fds rest gone : List Nat}

theorem refl (world : World) : world.Holds world [] := ⟨.refl _, rfl⟩

theorem of_same (holds : before.Holds mid fds) (descriptors : after.descriptors = mid.descriptors)
    (jobs : after.jobs = mid.jobs) : before.Holds after fds :=
  ⟨descriptors ▸ holds.descriptors, jobs.trans holds.jobs⟩

theorem close (holds : before.Holds mid fds)
    (parts : ∀ fd, fd ∈ fds ↔ fd ∈ gone ∨ fd ∈ rest) : before.Holds (mid.close gone) rest :=
  ⟨holds.descriptors.closeAll parts, holds.jobs⟩

end World.Holds

variable {start world : World} {fds : List Nat}

theorem holds_openGiven (holds : start.Holds world fds) (file : Option Text) (mode : OpenMode) :
    match (openGiven file mode).outcome world with
    | (.ok fd?, after) => start.Holds after (fds ++ fd?.toList)
    | (.error _, after) => start.Holds after fds := by
  rcases outcome_openGiven file mode world with
    ⟨path, cause, refusals, -, refused⟩ | ⟨fd?, after, done, -, made⟩
  · rw [refused]
    exact holds.of_same rfl rfl
  · rw [done]
    rcases made with ⟨-, rfl, rfl⟩ | ⟨path, refusals, endpoint, files, -, rfl, -, rfl⟩
    · simpa using holds
    · exact ⟨holds.descriptors.add _, holds.jobs⟩

theorem holds_openFiles (holds : start.Holds world fds) (r : Redirections) :
    match r.openFiles.outcome world with
    | (.ok files, after) => start.Holds after (fds ++ files.fds)
    | (.error _, after) => start.Holds after fds := by
  have first := holds_openGiven holds r.input .input
  rw [outcome_openFiles]
  rcases ran : (openGiven r.input .input).outcome world with ⟨e | input, mid⟩ <;> rw [ran] at first
  · exact first
  have second := holds_openGiven first r.output .output
  rcases ran' : (openGiven r.output .output).outcome mid with ⟨e | output, after⟩ <;>
    simp only [ran'] at second ⊢
  · exact second.close (by simp [or_comm])
  · rwa [OpenFiles.fds, ← List.append_assoc]

theorem holds_openPipe (holds : start.Holds world fds) :
    match openPipe.outcome world with
    | (.ok (readEnd, writeEnd), after) => start.Holds after (fds ++ [readEnd] ++ [writeEnd])
    | (.error _, after) => start.Holds after fds := by
  simp only [openPipe, Act.of, outcome, ExceptT.run]
  split
  · next refused =>
    split at refused <;> cases refused
    exact ⟨(holds.descriptors.add _).add _, holds.jobs⟩
  · next refused =>
    split at refused <;> cases refused
    exact holds.of_same rfl rfl

theorem keeps_hands_spawn (args : List Text) (io : ChildIo) :
    (spawn args io).Keeps fun world => (world.descriptors, world.jobs) :=
  within_spawn (fun _ _ wrote => by rw [wrote.beside]) (fun _ _ _ _ => rfl) args io

theorem keeps_hands_waitFor (pid : Nat) :
    (waitFor pid).Keeps fun world => (world.descriptors, world.jobs) := by
  intro world
  simp only [waitFor, Act.of, outcome, ExceptT.run]
  split
  · split <;> rfl
  · rfl

/-! The procedure of the pipe. -/

def openingFiles (r : Redirections) : Procedure OpenFiles :=
  .quiet r.openFiles (within_openFiles keeps_forks_openFile (fun _ _ => rfl) r)

def openingPipe : Procedure (Nat × Nat) := .quiet openPipe fun world => by
  simp only [openPipe, Act.of, outcome, ExceptT.run]
  split <;> rfl

/-- A start after which some descriptors are closed, whatever comes of it. -/
def startingThenClosing (args : List Text) (io : ChildIo) (fds : List Nat) : Procedure Nat :=
  .ensuring (·.close fds) (fun _ => rfl) (.start args io)

def startingPipe (left right : Stage) : Procedure (Nat × Nat) :=
  .bind (openingFiles left.redirections) fun leftFiles =>
  .bind ((openingFiles right.redirections).closing leftFiles.fds) fun rightFiles =>
  .bind (openingPipe.closing (leftFiles.fds ++ rightFiles.fds)) fun (readEnd, writeEnd) =>
  .bind ((startingThenClosing left.args
      { leftFiles.io with pipeOut := some writeEnd, extraClose := [readEnd] }
      (writeEnd :: leftFiles.fds)).closing (readEnd :: rightFiles.fds)) fun leftPid =>
  .bind (.attempt (startingThenClosing right.args { rightFiles.io with pipeIn := some readEnd }
      (readEnd :: rightFiles.fds))) fun
    | .ok rightPid => .quiet (pure (leftPid, rightPid)) (.pure _)
    | .error e => .bind (.attempt (.wait leftPid)) fun _ => .quiet (throw e) (.throw e)

def awaitingBoth (pids : Nat × Nat) : Procedure ChildState :=
  .bind (.attempt (.wait pids.1)) fun leftState =>
  .bind (.wait pids.2) fun rightState =>
    match leftState with
    | .ok _ => .quiet (pure rightState) (.pure _)
    | .error e => .quiet (throw e) (.throw e)

def pipe (left right : Stage) : Procedure ChildState :=
  .bind (.quiet (modify fun world => { world with jobs := world.jobs.enter })
    (.modify fun _ => rfl)) fun _ =>
  .ensuring (fun world => { world with jobs := world.jobs.leave }) (fun _ => rfl)
    (.bind (startingPipe left right) awaitingBoth)

theorem act_startingPipe (left right : Stage) :
    (startingPipe left right).act = startPipe left right := by
  simp only [startingPipe, Procedure.act, Procedure.act_closing, startPipe]
  refine congrArg _ (funext fun leftFiles => congrArg _ (funext fun rightFiles =>
    congrArg _ (funext fun (readEnd, writeEnd) => congrArg _ (funext fun leftPid =>
      congrArg _ (funext fun rightPid => ?_)))))
  cases rightPid <;> rfl

theorem act_awaitingBoth (pids : Nat × Nat) : (awaitingBoth pids).act = awaitBoth pids := by
  refine congrArg _ (funext fun leftState => congrArg _ (funext fun rightState => ?_))
  cases leftState <;> rfl

/-- With its calls forgotten, the procedure is what the shell does for two joined commands. -/
theorem act_pipe (left right : Stage) : (pipe left right).act = runPipe left right := by
  rw [runPipe_eq, ← act_startingPipe, ← funext act_awaitingBoth]
  rfl

/-- The courses that two joined commands can take: the calls, and what comes of them. -/
inductive PipeCourse (left right : List Text) :
    List ChildCall → Except (Failure ProcessError) ChildState → Prop
  /-- A file or the pipe could not be opened. -/
  | unopened (e : Failure ProcessError) : PipeCourse left right [] (.error e)
  | leftRefused (e : Failure ProcessError) :
      PipeCourse left right [.start left (.error e)] (.error e)
  | rightRefused (leftPid : Nat) (e : Failure ProcessError)
      (leftState : Except (Failure ProcessError) ChildState) :
      PipeCourse left right
        [.start left (.ok leftPid), .start right (.error e), .wait leftPid leftState] (.error e)
  | started (leftPid rightPid : Nat)
      (leftState rightState : Except (Failure ProcessError) ChildState) :
      PipeCourse left right
        [.start left (.ok leftPid), .start right (.ok rightPid), .wait leftPid leftState,
          .wait rightPid rightState]
        (do let state ← rightState; let _ ← leftState; return state)

namespace PipeCourse

variable {left right : List Text} {calls : List ChildCall}
  {result : Except (Failure ProcessError) ChildState}

/-- No child is left without a wait. -/
theorem waited (course : PipeCourse left right calls result) {args : List Text} {pid : Nat}
    (started : .start args (.ok pid) ∈ calls) : ∃ state, .wait pid state ∈ calls := by
  cases course with
  | unopened | leftRefused => simp at started
  | rightRefused leftPid e leftState =>
    obtain ⟨-, rfl⟩ : args = left ∧ pid = leftPid := by simpa using started
    exact ⟨leftState, by simp⟩
  | started leftPid rightPid leftState rightState =>
    rcases (by simpa using started : args = left ∧ pid = leftPid ∨ args = right ∧ pid = rightPid)
      with ⟨-, rfl⟩ | ⟨-, rfl⟩
    · exact ⟨leftState, by simp⟩
    · exact ⟨rightState, by simp⟩

/-- There is a state just when both waits have given one, and it is that of the right child. -/
theorem ok_iff (course : PipeCourse left right calls result) (state : ChildState) :
    result = .ok state ↔ ∃ leftPid rightPid leftState, calls =
      [.start left (.ok leftPid), .start right (.ok rightPid), .wait leftPid (.ok leftState),
        .wait rightPid (.ok state)] := by
  cases course with
  | unopened | leftRefused | rightRefused => simp
  | started leftPid rightPid leftState rightState =>
    rcases leftState with e | leftState <;> rcases rightState with e' | rightState <;>
      simp [bind, Except.bind, pure, Except.pure]

end PipeCourse

theorem ends_openingFiles (holds : start.Holds world fds) (r : Redirections) :
    (openingFiles r).Ends world fun calls result after => calls = [] ∧ match result with
      | .ok files => start.Holds after (fds ++ files.fds)
      | .error _ => start.Holds after fds := by
  have opens := holds_openFiles holds r
  rcases ran : r.openFiles.outcome world with ⟨_ | _, _⟩ <;> rw [ran] at opens <;>
    simpa only [openingFiles, Procedure.Ends, Procedure.act, Procedure.calls, ran, true_and]

theorem ends_openingPipe (holds : start.Holds world fds) :
    openingPipe.Ends world fun calls result after => calls = [] ∧ match result with
      | .ok ends => start.Holds after (fds ++ [ends.1] ++ [ends.2])
      | .error _ => start.Holds after fds := by
  have opens := holds_openPipe holds
  rcases ran : openPipe.outcome world with ⟨_ | _, _⟩ <;> rw [ran] at opens <;>
    simpa only [openingPipe, Procedure.Ends, Procedure.act, Procedure.calls, ran, true_and]

theorem ends_startingThenClosing (holds : start.Holds world fds) (args : List Text) (io : ChildIo)
    {gone : List Nat} (rest : List Nat) (parts : ∀ fd, fd ∈ fds ↔ fd ∈ gone ∨ fd ∈ rest) :
    (startingThenClosing args io gone).Ends world fun calls result after =>
      calls = [.start args result] ∧ start.Holds after rest := by
  obtain ⟨descriptors, jobs⟩ := Prod.mk.inj (keeps_hands_spawn args io world)
  exact ⟨rfl, (holds.of_same descriptors jobs).close parts⟩

theorem ends_wait (holds : start.Holds world fds) (pid : Nat) :
    (Procedure.wait pid).Ends world fun calls result after =>
      calls = [.wait pid result] ∧ start.Holds after fds := by
  obtain ⟨descriptors, jobs⟩ := Prod.mk.inj (keeps_hands_waitFor pid world)
  exact ⟨rfl, holds.of_same descriptors jobs⟩

/-- Both sides are started, or there is nothing left to be done. -/
theorem ends_startingPipe (left right : Stage) (world : World) :
    (startingPipe left right).Ends world fun calls result after =>
      world.Holds after [] ∧ match result with
        | .ok pids => calls = [.start left.args (.ok pids.1), .start right.args (.ok pids.2)]
        | .error e => PipeCourse left.args right.args calls (.error e) := by
  refine Procedure.ends_bind.mpr ((ends_openingFiles (.refl world) _).weaken ?_)
  rintro _ (e | leftFiles) after ⟨rfl, holds⟩
  · exact ⟨holds, .unopened e⟩
  refine Procedure.ends_bind.mpr (Procedure.ends_closing.mpr
    ((ends_openingFiles holds _).weaken ?_))
  rintro _ (e | rightFiles) after ⟨rfl, holds⟩
  · exact ⟨holds.close (by simp), .unopened e⟩
  refine Procedure.ends_bind.mpr (Procedure.ends_closing.mpr ((ends_openingPipe holds).weaken ?_))
  rintro _ (e | ⟨readEnd, writeEnd⟩) after ⟨rfl, holds⟩
  · exact ⟨holds.close (by simp), .unopened e⟩
  refine Procedure.ends_bind.mpr (Procedure.ends_closing.mpr
    ((ends_startingThenClosing holds _ _ (readEnd :: rightFiles.fds) ?_).weaken ?_))
  · intro fd
    simp only [List.mem_append, List.mem_cons, List.not_mem_nil, false_or]
    tauto
  rintro _ (e | leftPid) after ⟨rfl, holds⟩
  · exact ⟨holds.close (by simp), .leftRefused e⟩
  refine Procedure.ends_bind.mpr (Procedure.ends_attempt.mpr
    ((ends_startingThenClosing holds _ _ [] (by simp)).weaken ?_))
  rintro _ (e | rightPid) after ⟨rfl, holds⟩
  · -- the left child is there, and nobody else will wait for it
    refine Procedure.ends_bind.mpr (Procedure.ends_attempt.mpr
      ((ends_wait holds leftPid).weaken ?_))
    rintro _ leftState after ⟨rfl, holds⟩
    exact ⟨holds, .rightRefused leftPid e leftState⟩
  · exact ⟨holds, rfl⟩

theorem ends_awaitingBoth (holds : start.Holds world fds) (pids : Nat × Nat) :
    (awaitingBoth pids).Ends world fun calls result after => start.Holds after fds ∧
      ∃ leftState rightState, calls = [.wait pids.1 leftState, .wait pids.2 rightState] ∧
        result = (do let state ← rightState; let _ ← leftState; return state) := by
  refine Procedure.ends_bind.mpr (Procedure.ends_attempt.mpr ((ends_wait holds pids.1).weaken ?_))
  rintro _ leftState after ⟨rfl, holds⟩
  refine Procedure.ends_bind.mpr ((ends_wait holds pids.2).weaken ?_)
  rintro _ (e | rightState) after ⟨rfl, holds⟩
  · exact ⟨holds, leftState, .error e, rfl, rfl⟩
  · cases leftState with
    | ok state => exact ⟨holds, .ok state, .ok rightState, rfl, rfl⟩
    | error e => exact ⟨holds, .error e, .ok rightState, rfl, rfl⟩

theorem ends_pipe (left right : Stage) (world : World) :
    (pipe left right).Ends world fun calls result after =>
      world.Holds after [] ∧ PipeCourse left.args right.args calls result := by
  have body : (Procedure.bind (startingPipe left right) awaitingBoth).Ends
      { world with jobs := world.jobs.enter } fun calls result after =>
        World.Holds { world with jobs := world.jobs.enter } after [] ∧
          PipeCourse left.args right.args calls result := by
    refine Procedure.ends_bind.mpr ((ends_startingPipe left right _).weaken ?_)
    rintro calls (e | pids) after ⟨holds, course⟩
    · exact ⟨holds, course⟩
    · refine (ends_awaitingBoth holds pids).weaken ?_
      rintro _ _ after ⟨holds, leftState, rightState, rfl, rfl⟩
      exact ⟨holds, course ▸ .started _ _ leftState rightState⟩
  obtain ⟨⟨descriptors, jobs⟩, course⟩ := body
  exact ⟨⟨descriptors, congrArg JobTable.leave jobs⟩, course⟩

/-- Whatever the system answers, and whatever the state of the shell: when two joined commands have
been run every child that was started has been waited for, nothing that was opened for them is open
in the shell, and the reaper may sweep again as before. The right side is started after the left one
or not at all, and its state is the answer just when both waits succeed; a failure to start it is
told after the wait for the left one. -/
theorem runPipe_cleans (left right : Stage) (world : World) :
    (pipe left right).act = runPipe left right ∧
      let calls := (pipe left right).calls world
      let ran := (runPipe left right).outcome world
      PipeCourse left.args right.args calls ran.1 ∧
      (∀ args pid, .start args (.ok pid) ∈ calls → ∃ state, .wait pid state ∈ calls) ∧
      (∀ state, ran.1 = .ok state ↔ ∃ leftPid rightPid leftState, calls =
        [.start left.args (.ok leftPid), .start right.args (.ok rightPid),
          .wait leftPid (.ok leftState), .wait rightPid (.ok state)]) ∧
      (∀ fd, ran.2.descriptors.get? fd = world.descriptors.get? fd) ∧
      ran.2.jobs = world.jobs := by
  obtain ⟨holds, course⟩ := ends_pipe left right world
  rw [act_pipe] at holds course
  exact ⟨act_pipe left right, course, fun args pid => course.waited, course.ok_iff,
    fun fd => holds.descriptors.same fd (by simp), holds.jobs⟩

end LineShell
