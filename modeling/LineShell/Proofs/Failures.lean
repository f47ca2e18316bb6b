import LineShell.Proofs.OwnState
import LineShell.Proofs.Substitution

/-! The failures that an action can come to. `FailsOnly` goes through sequences, clean-ups and
changes of wording, so what the system can answer to one request settles what a whole command can
come to: which of the shell's actions can fail for a file they open, and that a builtin which leaves
the variables alone never brings the shell down. -/

namespace LineShell

namespace Act

variable {ε ε' α β : Type} {P : Failure ε → Prop}

/-- Every failure of the action is of one kind, in any world. -/
def FailsOnly (P : Failure ε → Prop) (act : Act ε α) : Prop :=
  ∀ world e, (act.outcome world).1 = .error e → P e

namespace FailsOnly

theorem pure (a : α) : FailsOnly P (pure a : Act ε α) := fun _ _ failed => by cases failed

theorem throw {e : Failure ε} (known : P e) : FailsOnly P (throw e : Act ε α) := by
  intro world other failed
  obtain rfl : e = other := Except.error.inj failed
  exact known

theorem fail {e : ε} (known : P (.error e)) : FailsOnly P (fail e : Act ε α) := throw known

theorem fail_bind {e : ε} (known : P (.error e)) (next : α → Act ε β) :
    (Act.fail e >>= next).FailsOnly P := fun world other failed =>
  fail (α := β) known world other failed

theorem get : FailsOnly P (get : Act ε World) := fun _ _ failed => by cases failed

theorem modify (f : World → World) : FailsOnly P (modify f : Act ε PUnit) :=
  fun _ _ failed => by cases failed

theorem set (world : World) : FailsOnly P (set world : Act ε PUnit) :=
  fun _ _ failed => by cases failed

theorem ofExcept {result : Except ε α} (known : ∀ e, result = .error e → P (.error e)) :
    FailsOnly P (ofExcept result) := by
  cases result with
  | error e => exact throw (known e rfl)
  | ok a => exact pure a

theorem bind {act : Act ε α} {next : α → Act ε β} (first : act.FailsOnly P)
    (second : ∀ a, (next a).FailsOnly P) : (act >>= next).FailsOnly P := by
  intro world e failed
  have here := first world
  rw [outcome_bind] at failed
  rcases ran : act.outcome world with ⟨_ | a, mid⟩ <;> rw [ran] at failed here
  · exact here _ (by simpa using failed)
  · exact second a mid e failed

theorem mapError {f : ε → ε'} {P : Failure ε' → Prop} {act : Act ε α}
    (known : act.FailsOnly fun e => P (e.map f)) : (act.mapError f).FailsOnly P := by
  intro world e failed
  have here := known world
  rw [outcome_mapError] at failed
  cases ran : (act.outcome world).1 with
  | ok a =>
    rw [ran] at failed
    cases failed
  | error cause =>
    rw [ran] at failed
    obtain rfl : cause.map f = e := Except.error.inj failed
    exact here cause ran

theorem attempt (act : Act ε α) : act.attempt.FailsOnly P := fun _ _ failed => by cases failed

/-- An action whose answer or failure is looked at afterwards. -/
theorem attempt_bind {act : Act ε α} {next : Except (Failure ε) α → Act ε β}
    (first : act.FailsOnly P) (ok : ∀ a, (next (.ok a)).FailsOnly P)
    (error : ∀ e, P e → (next (.error e)).FailsOnly P) : (act.attempt >>= next).FailsOnly P := by
  intro world e failed
  have here := first world
  rw [outcome_bind, outcome_attempt] at failed
  cases ran : (act.outcome world).1 with
  | ok a =>
    rw [ran] at failed
    exact ok a _ e failed
  | error cause =>
    rw [ran] at failed
    exact error cause (here cause ran) _ e failed

theorem insist {P : Failure ε' → Prop} (crash : P .crash) (act : Act ε α) :
    (act.insist : Act ε' α).FailsOnly P := by
  intro world e failed
  rw [outcome_insist] at failed
  cases ran : (act.outcome world).1 with
  | ok a =>
    rw [ran] at failed
    cases failed
  | error cause =>
    rw [ran] at failed
    obtain rfl : .crash = e := Except.error.inj failed
    exact crash

theorem ensuring {act : Act ε α} (known : act.FailsOnly P) (cleanup : World → World) :
    (act.ensuring cleanup).FailsOnly P := known

theorem forM {act : α → Act ε PUnit} (known : ∀ a, (act a).FailsOnly P) (items : List α) :
    (items.forM act).FailsOnly P := by
  induction items with
  | nil => exact .pure _
  | cons a rest ih => exact .bind (known a) fun _ => ih

theorem mapM {act : α → Act ε β} (known : ∀ a, (act a).FailsOnly P) (item : Option α) :
    (item.mapM act).FailsOnly P := by
  cases item with
  | none => exact .pure _
  | some a => exact .bind (known a) fun _ => .pure _

end FailsOnly

/-- The action never brings the shell down. -/
abbrev Survives (act : Act ε α) : Prop := act.FailsOnly (· ≠ .crash)

theorem Survives.mapError {act : Act ε α} (survives : act.Survives) (f : ε → ε') :
    (act.mapError f).Survives := by
  refine FailsOnly.mapError fun world e failed crashes => ?_
  cases e with
  | error e => cases crashes
  | crash => exact survives world _ failed rfl

end Act

open Act

/-- A message that is refused brings the shell down, and that is all it can come to. -/
theorem failsOnly_tell {ε : Type} {P : Failure ε → Prop} (crash : P .crash) (text : Text) :
    (tell text : Act ε Unit).FailsOnly P := .bind .get fun _ => .insist crash _

section Opening

variable {P : Failure IoError → Prop} (known : ∀ cause, P (.error cause))
include known

theorem failsOnly_openFile (path : Text) (mode : OpenMode) : (openFile path mode).FailsOnly P := by
  have takes : nextOpening.FailsOnly P := by
    intro world e failed
    simp only [nextOpening, Act.of, outcome, ExceptT.run] at failed
    split at failed <;> cases failed
    exact known _
  rw [openFile]
  exact .bind (.ofExcept fun e _ => known e) fun _ => .bind takes fun _ => .bind .get fun _ =>
    .bind (.ofExcept fun e _ => known e) fun _ => .bind (.set _) fun _ => .pure _

theorem failsOnly_writeText (stream : Nat) (text : Text) : (writeText stream text).FailsOnly P := by
  rw [writeText]
  split
  · exact .pure _
  · exact .bind .get fun _ => .bind (.ofExcept fun e _ => known e) fun _ => .set _

theorem failsOnly_writeStandard (stream : Nat) (bytes : Bytes) :
    (writeStandard stream bytes).FailsOnly P := by
  rw [writeStandard]
  split
  · exact .pure _
  · exact .bind .get fun _ => .bind (.ofExcept fun e _ => known e) fun _ => .set _

namespace StandardOutput

theorem failsOnly_write (bytes : Bytes) : (write bytes).FailsOnly P :=
  .bind .get fun _ => failsOnly_writeStandard known _ _

theorem failsOnly_flush : flush.FailsOnly P :=
  .bind .get fun _ => .bind (failsOnly_write known _) fun _ => .modify _

theorem failsOnly_keep (bytes : Bytes) : (keep bytes).FailsOnly P := by
  have keeps : (do
      if capacity ≤ bytes.length then write bytes
      else modify fun world => { world with unwritten := world.unwritten ++ bytes } :
        Act IoError Unit).FailsOnly P := by
    split
    · exact failsOnly_write known bytes
    · exact .modify _
  refine .bind .get fun world => ?_
  dsimp only
  split
  · exact .bind (failsOnly_flush known) fun _ => keeps
  · exact keeps

theorem failsOnly_print (bytes : Bytes) : (print bytes).FailsOnly P := by
  have last := failsOnly_keep known (openLine bytes)
  refine .bind .get fun world => ?_
  dsimp only
  split
  · split
    · exact .bind (failsOnly_flush known) fun _ => last
    · exact last
  · split
    · exact .bind (failsOnly_write known _) fun _ => last
    · exact .bind (failsOnly_keep known _) fun _ => .bind (failsOnly_flush known) fun _ => last

end StandardOutput
end Opening

section Starting

variable {P : Failure ProcessError → Prop}

theorem failsOnly_openFiles (r : Redirections)
    (known : ∀ path cause, P (.error (.redirect path cause))) :
    r.openFiles.FailsOnly P := by
  have opens (file : Option Text) (mode : OpenMode) : (file.mapM fun path =>
      (openFile path mode).mapError (ProcessError.redirect path)).FailsOnly P :=
    .mapM (fun path => .mapError (failsOnly_openFile (fun cause => known path cause) path mode)) file
  rw [Redirections.openFiles]
  exact .bind (opens r.input .input) fun _ => .attempt_bind (opens r.output .output)
    (fun _ => .pure _) fun e kind => .bind (.modify _) fun _ => .throw kind

variable (plain : ∀ e : ProcessError, (∀ path cause, e ≠ .redirect path cause) → P (.error e))
include plain

theorem failsOnly_startProgram (program : Option Text) (args : List Text) (io : ChildIo) :
    (startProgram program args io).FailsOnly P := by
  intro world e failed
  rw [outcome_startProgram] at failed
  obtain ⟨cause, -, rfl⟩ := mapError_eq_error.mp failed
  exact plain _ fun _ _ other => by cases other

theorem failsOnly_spawn (args : List Text) (io : ChildIo) : (spawn args io).FailsOnly P := by
  have plans (world : World) (e : ProcessError) (failed : world.plan args = .error e) :
      P (.error e) := by
    refine plain e fun path cause => ?_
    rintro rfl
    simp only [World.plan] at failed
    split at failed
    · cases failed
    · split at failed
      · cases failed
      · split at failed
        · split at failed <;> cases failed
        · cases failed
  exact .bind .get fun world => .bind (.ofExcept (plans world)) fun _ =>
    failsOnly_startProgram plain _ _ _

theorem failsOnly_waitFor (pid : Nat) : (waitFor pid).FailsOnly P := by
  intro world e failed
  simp only [waitFor, Act.of, outcome, ExceptT.run] at failed
  split at failed
  · split at failed <;> cases failed
    exact plain _ fun _ _ other => by cases other
  · cases failed

theorem failsOnly_openPipe : openPipe.FailsOnly P := by
  intro world e failed
  simp only [openPipe, Act.of, outcome, ExceptT.run] at failed
  split at failed <;> cases failed
  exact plain _ fun _ _ other => by cases other

end Starting

theorem failsOnly_closingOnFailure {ε α : Type} {P : Failure ε → Prop} {act : Act ε α}
    (known : act.FailsOnly P) (fds : List Nat) : (closingOnFailure fds act).FailsOnly P :=
  .attempt_bind known (fun _ => .pure _) fun _ kind => .bind (.modify _) fun _ => .throw kind

/-! What is done once the files are open. -/

/-- One command with its files. -/
def launchOpened (quiet : Bool) (stage : Stage) (background : Bool) (files : OpenFiles) :
    Act ProcessError (Option ChildState) := do
  let start : Act ProcessError Nat :=
    (spawn stage.args files.io).ensuring (·.close files.fds)
  if background then
    let pid ← start
    modify fun world => { world with jobs := (world.jobs.track pid).2 }
    if !quiet then tell ('[' :: decimal pid ++ [']'])
    return none
  else
    inForeground do
      let pid ← start
      return some (← waitFor pid)

theorem launch_eq (quiet : Bool) (stage : Stage) (background : Bool) :
    launch quiet stage background =
      stage.redirections.openFiles >>= launchOpened quiet stage background := rfl

/-- Two commands with the files of both. -/
def startJoined (left right : Stage) (leftFiles rightFiles : OpenFiles) :
    Act ProcessError (Nat × Nat) := do
  let (readEnd, writeEnd) ← closingOnFailure (leftFiles.fds ++ rightFiles.fds) openPipe
  let leftPid ← closingOnFailure (readEnd :: rightFiles.fds) <|
    (spawn left.args { leftFiles.io with pipeOut := some writeEnd, extraClose := [readEnd] }).ensuring
      (·.close (writeEnd :: leftFiles.fds))
  let rightPid ← Act.attempt <|
    (spawn right.args { rightFiles.io with pipeIn := some readEnd }).ensuring
      (·.close (readEnd :: rightFiles.fds))
  match rightPid with
  | .ok rightPid => return (leftPid, rightPid)
  | .error e =>
    let _ ← Act.attempt (waitFor leftPid)
    throw e

theorem startPipe_eq (left right : Stage) : startPipe left right = (do
    let leftFiles ← left.redirections.openFiles
    let rightFiles ← closingOnFailure leftFiles.fds right.redirections.openFiles
    startJoined left right leftFiles rightFiles) := rfl

/-- Both commands have been started. -/
def awaitBoth (pids : Nat × Nat) : Act ProcessError ChildState := do
  let leftState ← Act.attempt (waitFor pids.1)
  let rightState ← waitFor pids.2
  match leftState with
  | .ok _ => return rightState
  | .error e => throw e

theorem outcome_inForeground {ε α : Type} (act : Act ε α) (world : World) :
    (inForeground act).outcome world =
      let ran := act.outcome { world with jobs := world.jobs.enter }
      (ran.1, { ran.2 with jobs := ran.2.jobs.leave }) := rfl

theorem runPipe_eq (left right : Stage) :
    runPipe left right = inForeground (startPipe left right >>= awaitBoth) := rfl

section Started

variable {P : Failure ProcessError → Prop}
  (plain : ∀ e : ProcessError, (∀ path cause, e ≠ .redirect path cause) → P (.error e))
include plain

theorem failsOnly_launchOpened (crash : P .crash) (quiet : Bool) (stage : Stage)
    (background : Bool) (files : OpenFiles) :
    (launchOpened quiet stage background files).FailsOnly P := by
  have start : (Act.ensuring (fun world => world.close files.fds)
      (spawn stage.args files.io)).FailsOnly P := .ensuring (failsOnly_spawn plain _ _) _
  rw [launchOpened]
  dsimp only
  split
  · refine .bind start fun pid => .bind (.modify _) fun _ => ?_
    split
    · exact .bind (failsOnly_tell crash _) fun _ => .pure _
    · exact .pure _
  · exact .bind (.modify _) fun _ => .ensuring (.bind start fun pid =>
      .bind (failsOnly_waitFor plain pid) fun _ => .pure _) _

theorem failsOnly_startJoined (left right : Stage) (leftFiles rightFiles : OpenFiles) :
    (startJoined left right leftFiles rightFiles).FailsOnly P := by
  refine .bind (failsOnly_closingOnFailure (failsOnly_openPipe plain) _) ?_
  rintro ⟨readEnd, writeEnd⟩
  exact .bind (failsOnly_closingOnFailure (.ensuring (failsOnly_spawn plain _ _) _) _)
    fun leftPid => .attempt_bind (.ensuring (failsOnly_spawn plain _ _) _)
      (fun _ => .pure _) fun e kind => .bind (.attempt _) fun _ => .throw kind

theorem failsOnly_awaitBoth (pids : Nat × Nat) : (awaitBoth pids).FailsOnly P :=
  .attempt_bind (failsOnly_waitFor plain pids.1)
    (fun _ => .bind (failsOnly_waitFor plain pids.2) fun _ => .pure _)
    fun _ kind => .bind (failsOnly_waitFor plain pids.2) fun _ => .throw kind

end Started

theorem survives_runPipe (left right : Stage) : (runPipe left right).Survives := by
  have starts : (startPipe left right).Survives :=
    .bind (failsOnly_openFiles _ (by simp)) fun leftFiles =>
      .bind (failsOnly_closingOnFailure (failsOnly_openFiles _ (by simp)) _)
        (failsOnly_startJoined (by simp) left right leftFiles)
  rw [runPipe_eq]
  exact .bind (.modify _) fun _ => .ensuring (.bind starts (failsOnly_awaitBoth (by simp))) _

namespace Output

variable (output : Output)

theorem failsOnly_print {P : Failure CommandError → Prop} (known : ∀ cause, P (.error (.io cause)))
    (pieces : List Text) : (output.print pieces).FailsOnly P := by
  refine .forM (fun piece => .mapError ?_) pieces
  rw [write]
  split
  · exact failsOnly_writeText known _ _
  · exact StandardOutput.failsOnly_print known _

theorem failsOnly_lines {P : Failure CommandError → Prop} (known : ∀ cause, P (.error (.io cause)))
    (rows : List (List Text)) : (output.lines rows).FailsOnly P :=
  .forM (output.failsOnly_print known) rows

theorem survives_print (pieces : List Text) : (output.print pieces).Survives :=
  output.failsOnly_print (by simp) pieces

theorem survives_lines (rows : List (List Text)) : (output.lines rows).Survives :=
  output.failsOnly_lines (by simp) rows

theorem survives_complain (text : Text) : (output.complain text).Survives :=
  Survives.mapError (failsOnly_writeStandard (by simp) _ _) _

theorem survives_flush : output.flush.Survives := by
  rw [flush]
  split
  · exact .pure _
  · exact StandardOutput.failsOnly_flush (by simp)

end Output

namespace Builtin

variable (output : Output) (args : List Text)

theorem survives_runEcho : (runEcho output args).Survives := by
  have expands (world : World) (words : List Text) : (expandAll world words).Survives := by
    have all : words.mapM world.expand? =
        some (words.map (Expansion.substitute world.session.vars.lookup)) := by
      induction words with
      | nil => rfl
      | cons word rest ih =>
        rw [List.mapM_cons, ih, World.expand?, Expansion.expand?_eq_substitute]
        rfl
    rw [expandAll, all]
    exact .pure _
  rw [runEcho]
  split
  refine .bind .get fun world => .bind (expands world _) fun texts =>
    .bind (output.survives_print _) fun _ => ?_
  dsimp only
  split
  · exact .bind (output.survives_print _) fun _ => .pure _
  · exact .pure _

theorem survives_runCd : (runCd output args).Survives := by
  rw [runCd]
  by_cases many : 1 < args.tail.length
  · rw [if_pos many]
    exact .fail_bind (by simp) _
  rw [if_neg many]
  refine .bind .get fun world => .bind (.ofExcept (by simp)) ?_
  rintro ⟨target, shown⟩
  dsimp only
  split
  · exact .fail (by simp)
  · refine .bind (.set _) fun _ => ?_
    split
    · exact .bind (output.survives_print _) fun _ => .pure _
    · exact .pure _

theorem survives_runPwd : (runPwd output args).Survives := by
  have prints (dir : Except CommandError Text) :
      (do output.line (← Act.ofExcept dir); return .proceed : Act CommandError Verdict).Survives :=
    .bind (.ofExcept (by simp)) fun _ => .bind (output.survives_print _) fun _ => .pure _
  refine .bind .get fun world => ?_
  split
  · exact prints _
  · split
    · exact prints _
    · split
      · exact prints _
      · exact .fail_bind (by simp) _

theorem survives_runHistory : (runHistory output args).Survives := by
  refine .bind .get fun world => ?_
  have prints (skipped : Act CommandError Nat) (known : skipped.Survives) : (do
      output.lines ((world.session.history.zipIdx.drop (← skipped)).map historyRow)
      return .proceed : Act CommandError Verdict).Survives :=
    .bind known fun _ => .bind (output.survives_lines _) fun _ => .pure _
  dsimp only
  split
  · exact prints _ (.pure _)
  · split
    · exact prints _ (.pure _)
    · exact prints _ (.fail (by simp))

theorem survives_tellType (name : Text) : (tellType output name).Survives := by
  rw [tellType]
  split
  · exact output.survives_print _
  · refine .bind .get fun world => ?_
    split
    · exact output.survives_print _
    · exact output.survives_complain _

/-- Only calls on the variables bring the shell down. -/
theorem survives_run {b : Builtin} (setExport : b ≠ .setExport) (unset : b ≠ .unset) :
    (b.run output args).Survives := by
  cases b with
  | setExport | unset => contradiction
  | cd => exact survives_runCd output args
  | echo => exact survives_runEcho output args
  | exit =>
    rw [run, runExit]
    split
    · exact .pure _
    · split
      · exact .pure _
      · exact .bind (output.survives_complain _) fun _ => .pure _
    · exact .fail (by simp)
  | pwd => exact survives_runPwd output args
  | env => exact .bind .get fun _ => .bind (output.survives_lines _) fun _ => .pure _
  | history => exact survives_runHistory output args
  | type => exact .bind (.forM (survives_tellType output) _) fun _ => .pure _
  | help =>
    rw [run, runHelp]
    split
    · exact .bind (output.survives_lines _) fun _ => .pure _
    · split
      · exact .bind (output.survives_lines _) fun _ => .pure _
      · exact .fail_bind (by simp) _

end Builtin

/-! What a builtin has printed is written in the end. -/

section Output

variable {b : Builtin} {output : Output} {args : List Text} {world mid : World}

theorem outcome_runOutput_of_crash
    (crashed : (b.run output args).outcome world = (.error .crash, mid)) :
    (runOutput b output args).outcome world = (.error .crash, mid) := by
  rw [runOutput, outcome_bind, outcome_attempt, outcome_mapError, crashed]
  rfl

theorem outcome_runOutput {answer : Except (Failure CommandError) Verdict}
    (ran : (b.run output args).outcome world = (answer, mid)) (lives : answer ≠ .error .crash) :
    (runOutput b output args).outcome world = match output.flush.outcome mid with
      | (.ok _, after) => (answer.mapError (Failure.map (.builtin b.name)), after)
      | (.error e, after) => (.error (e.map .io), after) := by
  rw [runOutput, outcome_bind, outcome_attempt, outcome_mapError, ran]
  rcases answer with (e | -) | verdict
  case error.crash => exact absurd rfl lives
  all_goals
    simp only [Except.mapError, Failure.map, outcome_bind, outcome_mapError]
    rcases output.flush.outcome mid with ⟨_ | _, _⟩ <;> rfl

/-- A builtin ends as it would without that, unless the write is refused; and it is not attempted
after a crash. -/
theorem runOutput_cases {answer : Except (Failure CommandError) Verdict}
    (ran : (b.run output args).outcome world = (answer, mid)) : ∃ after, mid.Wrote after ∧
      ((runOutput b output args).outcome world =
          (answer.mapError (Failure.map (.builtin b.name)), after) ∨
        answer ≠ .error .crash ∧ ∃ cause,
          (runOutput b output args).outcome world = (.error (.error (.io cause)), after)) := by
  by_cases lives : answer = .error .crash
  · subst lives
    exact ⟨mid, .nothing, .inl (outcome_runOutput_of_crash ran)⟩
  have wrote := output.wrote_flush mid
  have survives := output.survives_flush mid
  rw [outcome_runOutput ran lives]
  rcases flushed : output.flush.outcome mid with ⟨(cause | _) | _, after⟩ <;>
    rw [flushed] at wrote survives
  · exact ⟨after, wrote, .inr ⟨lives, cause, rfl⟩⟩
  · exact absurd rfl (survives .crash rfl)
  · exact ⟨after, wrote, .inl rfl⟩

theorem mapError_eq_crash_iff {ε ε' α : Type} (f : ε → ε') (result : Except (Failure ε) α) :
    result.mapError (Failure.map f) = .error .crash ↔ result = .error .crash := by
  rcases result with (_ | _) | _ <;> simp [Except.mapError, Failure.map]

theorem crash_runOutput_iff : ((runOutput b output args).outcome world).1 = .error .crash ↔
    ((b.run output args).outcome world).1 = .error .crash := by
  rcases ran : (b.run output args).outcome world with ⟨answer, mid⟩
  obtain ⟨after, -, ended | ⟨lives, cause, refused⟩⟩ := runOutput_cases ran
  · rw [ended, mapError_eq_crash_iff]
  · simp [refused, lives]

theorem wrote_runOutput : ((b.run output args).outcome world).2.Wrote
    ((runOutput b output args).outcome world).2 := by
  rcases ran : (b.run output args).outcome world with ⟨answer, mid⟩
  obtain ⟨after, wrote, ended | ⟨-, cause, refused⟩⟩ := runOutput_cases ran
  · rwa [ended]
  · rwa [refused]

theorem runOutput_ok {verdict : Verdict}
    (done : ((runOutput b output args).outcome world).1 = .ok verdict) :
    ((b.run output args).outcome world).1 = .ok verdict := by
  rcases ran : (b.run output args).outcome world with ⟨answer, mid⟩
  obtain ⟨after, -, ended | ⟨-, cause, refused⟩⟩ := runOutput_cases ran
  · rw [ended] at done
    exact mapError_eq_ok.mp done
  · rw [refused] at done
    cases done

theorem failsOnly_runOutput {P : Failure ShellError → Prop} (io : ∀ cause, P (.error (.io cause)))
    (ran : ((b.run output args).mapError (ShellError.builtin b.name)).FailsOnly P) :
    (runOutput b output args).FailsOnly P := by
  have flushes : (output.flush.mapError ShellError.io).FailsOnly P := by
    refine .mapError fun world e failed => ?_
    cases e with
    | error cause => exact io cause
    | crash => exact absurd rfl (output.survives_flush world _ failed)
  refine .attempt_bind ran (fun _ => .bind flushes fun _ => .pure _) fun e kind => ?_
  cases e with
  | error e => exact .bind flushes fun _ => .fail kind
  | crash => exact .throw kind

/-- Its errors are no errors of processes. -/
theorem runOutput_ne_process (e : ProcessError) :
    ((runOutput b output args).outcome world).1 ≠ .error (.error (.process e)) := by
  rcases ran : (b.run output args).outcome world with ⟨answer, mid⟩
  obtain ⟨after, -, ended | ⟨-, cause, refused⟩⟩ := runOutput_cases ran
  · rw [ended]
    rcases answer with (_ | _) | _ <;> simp [Except.mapError, Failure.map]
  · simp [refused]

end Output
end LineShell
