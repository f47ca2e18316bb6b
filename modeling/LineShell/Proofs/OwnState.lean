import LineShell.Interpreter
import LineShell.Proofs.Printing

/-! What commands lead to. A command is within any relation that all it can ask for is within
(`Requests`), and a builtin that only writes is within what its writes lead to. What belongs to the
shell itself is its session and the place where it stands: whatever it asks of the machine `Keeps`
both. -/

namespace LineShell

open Act

namespace World

/-- What belongs to the shell itself. -/
def own (world : World) : Session × Place := (world.session, world.place)

def withVars (world : World) (vars : Variables) : World :=
  { world with session := { world.session with vars } }

end World

theorem World.Wrote.own {before after : World} (wrote : before.Wrote after) :
    after.own = before.own :=
  leads (R := fun before after => after.own = before.own) (fun _ _ _ _ _ => rfl)
    (fun _ _ => rfl) wrote

theorem keeps_nextOpening : nextOpening.Keeps World.own := by
  intro world
  simp only [nextOpening, Act.of, outcome, ExceptT.run]
  split <;> rfl

theorem keeps_openFile (path : Text) (mode : OpenMode) : (openFile path mode).Keeps World.own := by
  rw [openFile]
  exact .bind (.ofExcept _) fun path => .bind keeps_nextOpening fun _ =>
    .rebuild (fun _ _ _ => rfl) fun _ _ => .pure _

theorem outcome_startProgram (program : Option Text) (args : List Text) (io : ChildIo)
    (world : World) :
    let ready := world.flushed
    let image : Image := ⟨args, ready.environment, ready.place, ready.descriptors⟩
    let forked := ready.machine.fork program image io
    (startProgram program args io).outcome world =
      (forked.1.mapError fun e => .error (.fork (.os e)), { ready with machine := forked.2 }) := by
  intro ready image forked
  have starts : (startProgram program args io).outcome world =
      (Act.ofExcept (forked.1.mapError fun e => ProcessError.fork (.os e))).outcome
        { ready with machine := forked.2 } := rfl
  rw [starts, outcome_ofExcept]
  cases forked.1 <;> rfl

/-- What is known of a fork and of what is written before it is known of the start of a child. -/
theorem within_spawn {R : World → World → Prop} [onward : Onward R]
    (writes : ∀ before after, before.Wrote after → R before after)
    (forks : ∀ (world : World) program image io,
      R world { world with machine := (world.machine.fork program image io).2 })
    (args : List Text) (io : ChildIo) : (spawn args io).Within R := by
  refine .bind .get fun world => .bind (.ofExcept _) fun plan here => ?_
  rw [outcome_startProgram]
  exact onward.trans (writes _ _ here.wrote_flushed) (forks _ _ _ _)

theorem keeps_waitFor (pid : Nat) : (waitFor pid).Keeps World.own := by
  intro world
  simp only [waitFor, Act.of, outcome, ExceptT.run]
  split
  · split <;> rfl
  · rfl

/-! Commands: what they ask of the machine, and what the shell does with its descriptors and jobs for
them. -/

section

variable {R : World → World → Prop} [onward : Onward R]

theorem within_openFiles (opens : ∀ path mode, (openFile path mode).Within R)
    (closes : ∀ world fds, R world (World.close world fds)) (r : Redirections) :
    r.openFiles.Within R := by
  have given (file : Option Text) (mode : OpenMode) : (file.mapM fun path =>
      (openFile path mode).mapError (ProcessError.redirect path)).Within R :=
    .mapM (fun path => .mapError (opens path mode) _) file
  rw [Redirections.openFiles]
  refine .bind (given r.input .input) fun input => .bind (.attempt (given r.output .output)) ?_
  rintro (e | output)
  · exact .bind (.modify fun world => closes world _) fun _ => .throw _
  · exact .pure _

end

/-- All that happens for a command is within a relation. -/
structure Requests (R : World → World → Prop) : Prop where
  opens : ∀ path mode, (openFile path mode).Within R
  pipes : openPipe.Within R
  forks : ∀ (world : World) program image io,
    R world { world with machine := (world.machine.fork program image io).2 }
  waits : ∀ pid, (waitFor pid).Within R
  writes : ∀ before after, before.Wrote after → R before after
  closes : ∀ world fds, R world (World.close world fds)
  jobs : ∀ world jobs, R world { world with jobs }

namespace Requests

variable {R : World → World → Prop} [onward : Onward R] (requests : Requests R)
include requests

theorem openFiles (r : Redirections) : r.openFiles.Within R :=
  within_openFiles requests.opens requests.closes r

theorem inForeground {ε α : Type} {act : Act ε α} (led : act.Within R) :
    (inForeground act).Within R :=
  .bind (.modify fun world => requests.jobs world _) fun _ =>
    .ensuring led fun world => requests.jobs world _

theorem closingOnFailure {ε α : Type} (fds : List Nat) {act : Act ε α} (led : act.Within R) :
    (closingOnFailure fds act).Within R := by
  refine .bind (.attempt led) ?_
  rintro (e | a)
  · exact .bind (.modify fun world => requests.closes world _) fun _ => .throw _
  · exact .pure _

theorem spawning (args : List Text) (io : ChildIo) (fds : List Nat) :
    (Act.ensuring (fun world => world.close fds) (spawn args io)).Within R :=
  .ensuring (within_spawn requests.writes requests.forks args io) fun world =>
    requests.closes world fds

theorem launch (quiet : Bool) (stage : Stage) (background : Bool) :
    (launch quiet stage background).Within R := by
  rw [LineShell.launch]
  refine .bind (requests.openFiles _) fun files => ?_
  dsimp only
  split
  · refine .bind (requests.spawning _ _ _) fun pid =>
      .bind (.modify fun world => requests.jobs world _) fun _ => ?_
    split
    · exact .bind ((wrote_tell _).mono requests.writes) fun _ => .pure _
    · exact .pure _
  · exact requests.inForeground (.bind (requests.spawning _ _ _) fun pid =>
      .bind (requests.waits pid) fun _ => .pure _)

theorem startPipe (left right : Stage) : (startPipe left right).Within R := by
  rw [LineShell.startPipe]
  refine .bind (requests.openFiles _) fun leftFiles =>
    .bind (requests.closingOnFailure _ (requests.openFiles _)) fun rightFiles =>
    .bind (requests.closingOnFailure _ requests.pipes) ?_
  rintro ⟨readEnd, writeEnd⟩
  refine .bind (requests.closingOnFailure _ (requests.spawning _ _ _)) fun leftPid =>
    .bind (.attempt (requests.spawning _ _ _)) ?_
  rintro (e | rightPid)
  · exact .bind (.attempt (requests.waits _)) fun _ => .throw _
  · exact .pure _

theorem runPipe (left right : Stage) : (runPipe left right).Within R := by
  refine requests.inForeground (.bind (requests.startPipe left right) ?_)
  rintro ⟨leftPid, rightPid⟩
  refine .bind (.attempt (requests.waits _)) fun leftState => .bind (requests.waits _) fun _ => ?_
  cases leftState with
  | error e => exact .throw _
  | ok state => exact .pure _

end Requests

theorem keeps_openPipe : openPipe.Keeps World.own := by
  intro world
  simp only [openPipe, Act.of, outcome, ExceptT.run]
  split <;> rfl

/-- Nothing that happens for a command concerns what belongs to the shell itself. -/
theorem requests_own : Requests fun before after => after.own = before.own where
  opens := keeps_openFile
  pipes := keeps_openPipe
  forks := fun _ _ _ _ => rfl
  waits := keeps_waitFor
  writes := fun _ _ wrote => wrote.own
  closes := fun _ _ => rfl
  jobs := fun _ _ => rfl

theorem keeps_openFiles (r : Redirections) : r.openFiles.Keeps World.own := requests_own.openFiles r

theorem keeps_launch (quiet : Bool) (stage : Stage) (background : Bool) :
    (launch quiet stage background).Keeps World.own := requests_own.launch quiet stage background

theorem keeps_runPipe (left right : Stage) : (runPipe left right).Keeps World.own :=
  requests_own.runPipe left right

/-! Builtins that only write. -/

namespace Builtin

variable (output : Output) (args : List Text)

theorem wrote_runPwd : (runPwd output args).Within World.Wrote := by
  have prints (dir : Except CommandError Text) :
      (do output.line (← Act.ofExcept dir)
          return .proceed : Act CommandError Verdict).Within World.Wrote :=
    .bind (.ofExcept _) fun _ => .bind (output.wrote_line _) fun _ => .pure _
  refine .bind .get fun world => ?_
  split
  · exact prints _
  · split
    · exact prints _
    · split
      · exact prints _
      · exact .bind (.fail _) fun _ => .pure _

theorem wrote_runExit : (runExit output args).Within World.Wrote := by
  rw [runExit]
  split
  · exact .pure _
  · split
    · exact .pure _
    · exact .bind (output.wrote_complain _) fun _ => .pure _
  · exact .fail _

theorem wrote_runEcho : (runEcho output args).Within World.Wrote := by
  rw [runEcho]
  split
  next newline words _ =>
    have expands (world : World) : (expandAll world words).Within World.Wrote := by
      rw [expandAll]
      split
      · exact .pure _
      · exact .throw _
    refine .bind .get fun world => .bind (expands world) fun texts =>
      .bind (output.wrote_print _) fun _ => ?_
    dsimp only
    split
    · exact .bind (output.wrote_print _) fun _ => .pure _
    · exact .pure _

theorem wrote_runHistory : (runHistory output args).Within World.Wrote := by
  refine .bind .get fun world => ?_
  have prints (skipped : Act CommandError Nat) (led : skipped.Within World.Wrote) : (do
      output.lines ((world.session.history.zipIdx.drop (← skipped)).map historyRow)
      return .proceed : Act CommandError Verdict).Within World.Wrote :=
    .bind led fun _ => .bind (output.wrote_lines _) fun _ => .pure _
  dsimp only
  split
  · exact prints _ (.pure _)
  · split
    · exact prints _ (.pure _)
    · exact prints _ (.fail _)

theorem wrote_tellType (name : Text) : (tellType output name).Within World.Wrote := by
  rw [tellType]
  split
  · exact output.wrote_print _
  · refine .bind .get fun world => ?_
    split
    · exact output.wrote_print _
    · exact output.wrote_complain _

theorem wrote_runHelp : (runHelp output args).Within World.Wrote := by
  rw [runHelp]
  split
  · exact .bind (output.wrote_lines _) fun _ => .pure _
  · split
    · exact .bind (output.wrote_lines _) fun _ => .pure _
    · exact .bind (.fail _) fun _ => .pure _

/-- Without operands `export` writes what is exported. -/
theorem wrote_runExport (nothing : args.tail = []) :
    (runExport output args).Within World.Wrote := by
  rw [runExport, nothing]
  exact .bind .get fun _ => .bind (output.wrote_lines _) fun _ => .pure _

/-- Only three builtins are there to change the shell itself. -/
theorem wrote_run {b : Builtin} (cd : b ≠ .cd) (setExport : b ≠ .setExport) (unset : b ≠ .unset) :
    (b.run output args).Within World.Wrote := by
  cases b with
  | cd | setExport | unset => contradiction
  | exit => exact wrote_runExit output args
  | pwd => exact wrote_runPwd output args
  | echo => exact wrote_runEcho output args
  | env => exact .bind .get fun _ => .bind (output.wrote_lines _) fun _ => .pure _
  | history => exact wrote_runHistory output args
  | type => exact .bind (.forM (wrote_tellType output) _) fun _ => .pure _
  | help => exact wrote_runHelp output args

/-- What `cd` sets is a world that it has gone to, with the directories by their names. -/
theorem within_runCd {R : World → World → Prop} [onward : Onward R]
    (writes : ∀ before after, before.Wrote after → R before after)
    (arrives : ∀ {world moved : World} {target : Text}, world.changeDir target = .ok moved →
      ∀ left dir, R world ((remember moved left).setenv "PWD" dir)) :
    (runCd output args).Within R := by
  intro world
  rw [runCd]
  by_cases many : 1 < args.tail.length
  · rw [if_pos many]
    exact onward.refl world
  rw [if_neg many]
  simp only [outcome_bind, outcome_get, outcome_ofExcept]
  rcases cdTarget world args.tail.head? with e | ⟨target, shown⟩
  · exact onward.refl world
  simp only [Except.mapError]
  cases went : world.changeDir target with
  | error e => exact onward.refl world
  | ok moved =>
    simp only [outcome_bind, outcome_set]
    have arrived := arrives went (dirToLeave world) (nameOfNew moved (dirToLeave world) target)
    refine onward.trans arrived ?_
    split
    · exact Within.bind ((output.wrote_line _).mono writes) (fun _ => .pure _) _
    · exact Within.pure _ _

end Builtin
end LineShell
