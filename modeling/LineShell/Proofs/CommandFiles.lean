import LineShell.Proofs.Failures
import LineShell.Proofs.Opening

/-! The files of a command. Whatever the shell opens, nothing else of its world is touched
(`World.OnlyOpened`); `openFiles_cases` says what becomes of the files when those of a command are
opened one after the other. -/

namespace LineShell

open Act

namespace World

/-- The world after the system has answered so many requests to open a file. -/
def answered (world : World) (refusals : Refusals) : World :=
  { world with machine := { world.machine with refusals } }

/-- The world with a stream on a new descriptor, and the files as they are then. -/
def withFile (world : World) (files : Files) (stream : Stream) : World :=
  { world with
    descriptors := (Descriptors.add world.descriptors world.machine.streams.length).2
    machine := { world.machine with
      root := files.root
      buffers := files.buffers
      streams := world.machine.streams ++ [stream] } }

/-- Files have been opened, and perhaps closed again, and nothing else has happened. -/
def OnlyOpened (before after : World) : Prop :=
  ∃ descriptors root buffers streams refusals, after = { before with
    descriptors
    machine := { before.machine with
      root, buffers, refusals
      streams := before.machine.streams ++ streams } }

variable {before mid after : World}

theorem OnlyOpened.refl (world : World) : world.OnlyOpened world :=
  ⟨_, _, _, [], _, by rw [List.append_nil]⟩

theorem OnlyOpened.trans (first : before.OnlyOpened mid) (second : mid.OnlyOpened after) :
    before.OnlyOpened after := by
  obtain ⟨_, _, _, more, _, rfl⟩ := first
  obtain ⟨descriptors, root, buffers, streams, refusals, rfl⟩ := second
  exact ⟨descriptors, root, buffers, more ++ streams, refusals, by rw [List.append_assoc]⟩

theorem onlyOpened_answered (world : World) (refusals : Refusals) :
    world.OnlyOpened (world.answered refusals) :=
  ⟨_, _, _, [], _, by rw [List.append_nil]; rfl⟩

theorem onlyOpened_withFile (world : World) (files : Files) (stream : Stream) :
    world.OnlyOpened (world.withFile files stream) := ⟨_, _, _, [stream], _, rfl⟩

theorem OnlyOpened.close (opened : before.OnlyOpened after) (fds : List Nat) :
    before.OnlyOpened (after.close fds) := by
  obtain ⟨_, root, buffers, streams, refusals, rfl⟩ := opened
  exact ⟨_, root, buffers, streams, refusals, rfl⟩

theorem OnlyOpened.own (opened : before.OnlyOpened after) : after.own = before.own := by
  obtain ⟨_, _, _, _, _, rfl⟩ := opened
  rfl

end World

theorem outcome_nextOpening (world : World) : ∃ refusals,
    (∃ cause, nextOpening.outcome world = (.error (.error cause), world.answered refusals)) ∨
      nextOpening.outcome world = (.ok (), world.answered refusals) := by
  refine ⟨{ world.machine.refusals with
    opens := (Machine.nextRefusal world.machine.refusals.opens).2 }, ?_⟩
  simp only [nextOpening, Act.of, outcome, ExceptT.run]
  split
  · next e _ => exact .inl ⟨.os e, rfl⟩
  · exact .inr rfl

/-- An opening is refused and nothing is changed, or it comes to what an opening can come to. -/
theorem outcome_openFile (path : Text) (mode : OpenMode) (world : World) : ∃ refusals,
    (∃ cause, (openFile path mode).outcome world =
      (.error (.error cause), world.answered refusals)) ∨
    ∃ endpoint files, (world.answered refusals).machine.Opened world.opener path mode endpoint files ∧
      (openFile path mode).outcome world = (.ok world.descriptors.lowestFree,
        (world.answered refusals).withFile files
          ⟨endpoint, mode.reads, mode.writes, mode.appends, 0⟩) := by
  rw [openFile]
  simp only [outcome_bind, outcome_ofExcept]
  cases handed : systemPath path with
  | error e => exact ⟨world.machine.refusals, .inl ⟨e, rfl⟩⟩
  | ok path' =>
    obtain rfl : path = path' := by
      rw [systemPath] at handed
      split at handed
      · cases handed
      · exact Except.ok.inj handed
    obtain ⟨refusals, ⟨cause, refused⟩ | answered⟩ := outcome_nextOpening world
    · refine ⟨refusals, .inl ⟨cause, ?_⟩⟩
      simp only [Except.mapError, refused]
    refine ⟨refusals, ?_⟩
    simp only [Except.mapError, answered, outcome_get]
    cases opens : (world.answered refusals).machine.openPath (world.answered refusals).opener path
        mode with
    | error e => exact .inl ⟨.os e, rfl⟩
    | ok opened =>
      obtain ⟨stream, machine⟩ := opened
      obtain ⟨endpoint, files, comes, rfl, rfl⟩ := Machine.openPath_opened opens
      exact .inr ⟨endpoint, files, comes, rfl⟩

/-! The files of a command. -/

/-- The files of a command in the order in which they are opened. -/
def Redirections.openings (r : Redirections) : List (Text × OpenMode) :=
  r.input.toList.map (·, OpenMode.input) ++ r.output.toList.map (·, OpenMode.output)

/-- The paths that are opened for output. -/
def outputs (openings : List (Text × OpenMode)) : List Text :=
  (openings.filter (·.2.writes)).map Prod.fst

theorem outputs_append (front back : List (Text × OpenMode)) :
    outputs (front ++ back) = outputs front ++ outputs back := by simp [outputs]

theorem outputs_openings (r : Redirections) : outputs r.openings = r.output.toList := by
  rcases r with ⟨_ | input, _ | output⟩ <;> rfl

/-- One file of a command, if it is given. -/
def openGiven (file : Option Text) (mode : OpenMode) : Act ProcessError (Option Nat) :=
  file.mapM fun path => (openFile path mode).mapError (.redirect path)

theorem outcome_openGiven_some (path : Text) (mode : OpenMode) (world : World) :
    (openGiven (some path) mode).outcome world =
      (((openFile path mode).outcome world).1.mapError (Failure.map (.redirect path)) |>.map some,
        ((openFile path mode).outcome world).2) := by
  rw [openGiven, Option.mapM_some, map_eq_pure_bind, outcome_bind, outcome_mapError]
  rcases (openFile path mode).outcome world with ⟨_ | _, _⟩ <;> rfl

theorem outcome_openGiven (file : Option Text) (mode : OpenMode) (world : World) :
    (∃ path cause refusals, file = some path ∧ (openGiven file mode).outcome world =
      (.error (.error (.redirect path cause)), world.answered refusals)) ∨
    ∃ fd after, (openGiven file mode).outcome world = (.ok fd, after) ∧ world.OnlyOpened after ∧
      (file = none ∧ fd = none ∧ after = world ∨
        ∃ path refusals endpoint files, file = some path ∧
          fd = some world.descriptors.lowestFree ∧
          (world.answered refusals).machine.Opened world.opener path mode endpoint files ∧
          after = (world.answered refusals).withFile files
            ⟨endpoint, mode.reads, mode.writes, mode.appends, 0⟩) := by
  cases file with
  | none => exact .inr ⟨none, world, rfl, .refl _, .inl ⟨rfl, rfl, rfl⟩⟩
  | some path =>
    rw [outcome_openGiven_some]
    obtain ⟨refusals, ⟨cause, refused⟩ | ⟨endpoint, files, opened, done⟩⟩ :=
      outcome_openFile path mode world
    · rw [refused]
      exact .inl ⟨path, cause, refusals, rfl, rfl⟩
    · rw [done]
      refine .inr ⟨_, _, rfl, ?_, .inr ⟨path, refusals, endpoint, files, rfl, rfl, opened, rfl⟩⟩
      exact (world.onlyOpened_answered refusals).trans (World.onlyOpened_withFile _ _ _)

theorem files_answered (world : World) (refusals : Refusals) :
    (world.answered refusals).machine.files = world.machine.files := rfl

theorem files_withFile (world : World) (files : Files) (stream : Stream) :
    (world.withFile files stream).machine.files = files := rfl

theorem openFiles_eq (r : Redirections) : r.openFiles = (do
    let input ← openGiven r.input .input
    match ← Act.attempt (openGiven r.output .output) with
    | .ok output => return ⟨input, output⟩
    | .error e =>
      modify (·.close input.toList)
      throw e) := rfl

theorem outcome_openFiles (r : Redirections) (world : World) : r.openFiles.outcome world =
    match (openGiven r.input .input).outcome world with
    | (.error e, after) => (.error e, after)
    | (.ok input, mid) =>
      match (openGiven r.output .output).outcome mid with
      | (.error e, after) => (.error e, after.close input.toList)
      | (.ok output, after) => (.ok ⟨input, output⟩, after) := by
  rw [openFiles_eq, outcome_bind]
  rcases (openGiven r.input .input).outcome world with ⟨e | input, mid⟩
  · rfl
  · simp only [outcome_bind, outcome_attempt]
    rcases (openGiven r.output .output).outcome mid with ⟨e | output, after⟩ <;> rfl

/-- The files of a command: one of them cannot be opened and no file is changed, or they are open
and the output is there and empty. -/
theorem openFiles_cases (r : Redirections) (world : World) :
    (∃ opened path mode later cause after, r.openings = opened ++ (path, mode) :: later ∧
      outputs opened = [] ∧
      r.openFiles.outcome world = (.error (.error (.redirect path cause)), after) ∧
      world.OnlyOpened after ∧ world.machine.files.Alike after.machine.files) ∨
    ∃ files after, r.openFiles.outcome world = (.ok files, after) ∧ world.OnlyOpened after ∧
      world.machine.files.OnlyEmptied after.machine.files world.place r.output.toList := by
  rw [outcome_openFiles]
  rcases outcome_openGiven r.input .input world with
    ⟨path, cause, refusals, given, refused⟩ | ⟨input, mid, done, opened, made⟩
  · left
    refine ⟨[], path, .input, r.output.toList.map (·, OpenMode.output), cause, _, ?_, rfl, ?_,
      world.onlyOpened_answered refusals, .refl _⟩
    · rw [Redirections.openings, given]
      rfl
    · rw [refused]
  rw [done]
  have alike : world.machine.files.Alike mid.machine.files := by
    rcases made with ⟨-, -, rfl⟩ | ⟨path, refusals, endpoint, files, -, -, comes, rfl⟩
    · exact .refl _
    · rw [files_withFile]
      exact comes.alike rfl rfl
  have place : mid.place = world.place := (Prod.mk.inj opened.own).2
  rcases outcome_openGiven r.output .output mid with
    ⟨path, cause, refusals, given, refused⟩ | ⟨output, after, done', opened', made'⟩
  · left
    refine ⟨r.input.toList.map (·, OpenMode.input), path, .output, [], cause, _, ?_, ?_, ?_,
      (opened.trans (mid.onlyOpened_answered refusals)).close input.toList, alike⟩
    · rw [Redirections.openings, given]
      rfl
    · cases r.input <;> rfl
    · simp only [refused]
  · right
    refine ⟨⟨input, output⟩, after, by simp only [done'], opened.trans opened', ?_⟩
    rcases made' with ⟨given, -, rfl⟩ | ⟨path, refusals, endpoint, files, given, -, comes, rfl⟩
    · rw [given]
      exact alike.onlyEmptied _
    · rw [given, files_withFile]
      have emptied := comes.onlyEmptied
      have opener : mid.opener.place = world.place := place
      rw [opener, files_answered] at emptied
      exact emptied.from alike

theorem outcome_closingOnFailure {ε α : Type} (fds : List Nat) (act : Act ε α) (world : World) :
    (closingOnFailure fds act).outcome world = match act.outcome world with
      | (.ok a, after) => (.ok a, after)
      | (.error e, after) => (.error e, after.close fds) := by
  rw [closingOnFailure, outcome_bind, outcome_attempt]
  rcases act.outcome world with ⟨_ | _, _⟩ <;> rfl

/-! Two commands: the files of both are opened, and then the pipe. -/

theorem outcome_startPipe (left right : Stage) (world : World) :
    (startPipe left right).outcome world = match left.redirections.openFiles.outcome world with
      | (.error e, after) => (.error e, after)
      | (.ok leftFiles, mid) =>
        match right.redirections.openFiles.outcome mid with
        | (.error e, after) => (.error e, after.close leftFiles.fds)
        | (.ok rightFiles, after) =>
          (startJoined left right leftFiles rightFiles).outcome after := by
  rw [startPipe_eq, outcome_bind]
  rcases left.redirections.openFiles.outcome world with ⟨e | leftFiles, mid⟩
  · rfl
  · simp only [outcome_bind, outcome_closingOnFailure]
    rcases right.redirections.openFiles.outcome mid with ⟨e | rightFiles, after⟩ <;> rfl

end LineShell
