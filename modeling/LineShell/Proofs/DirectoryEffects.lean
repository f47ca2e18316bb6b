import LineShell.Proofs.AbsolutePwd
import LineShell.Proofs.EnteredLines

/-! `cd` does all that it does, or nothing. A refusal comes before the shell has gone anywhere, and
leaves the world as it was. What comes after is not refused any more, except the echo of `cd -`: by
then the shell stands in the new directory and has put down both names (`moves_or_stays_cd`). -/

namespace LineShell.Builtin

open Act

variable {before after moved : World} {dir target : Text}

/-- What the directory in which the shell stands is called when it is left. Where the system cannot
tell, an absolute path in `PWD` is believed. -/
def CalledOnLeaving (before : World) (dir : Text) : Prop :=
  before.logicalDir = .ok dir ∨
    (∃ e, before.physicalDir = .error e) ∧ before.absolutePwd = some dir

/-- The shell has gone to `target`, and everything that names its directories says so. -/
structure Moved (before after : World) (target : Text) : Prop where
  arrived : before.machine.root.reachDir before.place target = .ok after.place
  named : after.getenv "PWD" =
    some (nameOfNew { before with place := after.place } (dirToLeave before) target)
  left : (∃ dir, CalledOnLeaving before dir ∧ after.getenv "OLDPWD" = some dir ∧
      after.session.previousDir = some dir) ∨
    (∃ e, before.physicalDir = .error e) ∧ before.absolutePwd = none ∧
      after.getenv "OLDPWD" = before.getenv "OLDPWD" ∧
      after.session.previousDir = before.session.previousDir
  environment : ∀ name, name ≠ "PWD".toList → name ≠ "OLDPWD".toList →
    after.environment.get? name = before.environment.get? name
  table : after.session.vars.table = before.session.vars.table
  history : after.session.history = before.session.history

theorem physicalDir_of_logicalDir {e : IoError} (unknown : before.logicalDir = .error e) :
    before.physicalDir = .error e := by
  rw [World.logicalDir] at unknown
  split at unknown
  · split at unknown
    · cases unknown
    · exact unknown
  · exact unknown

theorem calledOnLeaving_of_dirToLeave (left : dirToLeave before = some dir) :
    CalledOnLeaving before dir := by
  rw [dirToLeave] at left
  split at left
  · next known =>
    obtain rfl := Option.some.inj left
    exact .inl known
  · next e unknown => exact .inr ⟨⟨e, physicalDir_of_logicalDir unknown⟩, left⟩

theorem unknown_of_dirToLeave (left : dirToLeave before = none) :
    (∃ e, before.physicalDir = .error e) ∧ before.absolutePwd = none := by
  rw [dirToLeave] at left
  split at left
  · cases left
  · next e unknown => exact ⟨⟨e, physicalDir_of_logicalDir unknown⟩, left⟩

theorem moved_arrived (went : before.changeDir target = .ok moved) :
    Moved before (arrived moved (dirToLeave before) target) target := by
  obtain ⟨-, place, reached, rfl⟩ := World.changeDir_eq_ok.mp went
  have stands : (arrived { before with place } (dirToLeave before) target).place = place :=
    place_remember ..
  have old : (arrived { before with place } (dirToLeave before) target).getenv "OLDPWD" =
      (dirToLeave before).or (before.getenv "OLDPWD") := by
    rw [World.getenv, environment_arrived, if_neg (by decide), if_pos rfl]
    rfl
  refine ⟨by rw [stands, reached], by rw [stands]; exact World.getenv_setenv .., ?_,
    fun name pwd oldpwd => ?_, table_arrived, history_arrived⟩
  · cases known : dirToLeave before with
    | some dir =>
      rw [known] at old
      exact .inl ⟨dir, calledOnLeaving_of_dirToLeave known, old, previousDir_arrived⟩
    | none =>
      rw [known] at old
      obtain ⟨lost, unnamed⟩ := unknown_of_dirToLeave known
      exact .inr ⟨lost, unnamed, old, previousDir_arrived⟩
  · rw [environment_arrived, if_neg pwd, if_neg oldpwd]
    rfl

/-- What is written after that makes no difference. -/
theorem Moved.of_wrote (gone : Moved before moved target) (wrote : moved.Wrote after) :
    Moved before after target := by
  rw [wrote.beside]
  exact ⟨gone.arrived, gone.named, gone.left, gone.environment, gone.table, gone.history⟩

theorem not_io_cdTarget {operand : Option Text} {e : CommandError}
    (refused : cdTarget before operand = .error e) (refusal : IoError) : e ≠ .io refusal := by
  rintro rfl
  rw [cdTarget.eq_def] at refused
  split at refused
  · cases home : before.home <;> simp [home, Except.mapError, Except.map] at refused
  · next operand =>
    split at refused
    · split at refused <;> cases refused
    · cases told : before.expandTilde operand <;>
        simp [told, Except.mapError, Except.map] at refused

theorem previousDir_of_cdTarget {shown : Text}
    (told : cdTarget before (some ['-']) = .ok (target, shown)) :
    before.session.previousDir = some target := by
  rw [cdTarget, if_pos rfl] at told
  split at told
  · next held =>
    obtain ⟨rfl, -⟩ := Prod.mk.inj (Except.ok.inj told)
    exact held
  · cases told

variable (output : Output) (args : List Text) (world : World)

/-- `cd` is refused where it stands, or it goes, and then only the echo is left to do. -/
theorem outcome_runCd :
    (∃ e, (∀ refusal, e ≠ .io refusal) ∧
      (runCd output args).outcome world = (.error (.error e), world)) ∨
    ∃ target shown moved, args.tail.length ≤ 1 ∧
      cdTarget world args.tail.head? = .ok (target, shown) ∧ world.changeDir target = .ok moved ∧
      (runCd output args).outcome world =
        (do if args.tail.head? = some ['-'] then
              output.line (nameOfNew moved (dirToLeave world) target)
            return .proceed : Act CommandError Verdict).outcome
          (arrived moved (dirToLeave world) target) := by
  rw [runCd]
  by_cases many : 1 < args.tail.length
  · refine .inl ⟨tooManyArguments, fun refusal same => (by cases same), ?_⟩
    rw [if_pos many, outcome_bind]
    rfl
  rw [if_neg many]
  simp only [outcome_bind, outcome_get, outcome_ofExcept]
  cases told : cdTarget world args.tail.head? with
  | error e => exact .inl ⟨e, not_io_cdTarget told, rfl⟩
  | ok names =>
    obtain ⟨target, shown⟩ := names
    simp only [Except.mapError]
    cases went : world.changeDir target with
    | error e =>
      refine .inl ⟨_, ?_, rfl⟩
      simp
    | ok moved => exact .inr ⟨target, shown, moved, Nat.not_lt.mp many, rfl, went, rfl⟩

/-- Whatever the operands and the state of the shell: a `cd` that fails leaves everything as it was,
except when the echo of `cd -` is not taken. Then, as after success, the shell has moved. -/
theorem moves_or_stays_cd :
    match (runCd output args).outcome world with
    | (.ok verdict, after) => verdict = .proceed ∧ ∃ target shown,
        cdTarget world args.tail.head? = .ok (target, shown) ∧ Moved world after target
    | (.error (.error (.io refusal)), after) => args.tail = [['-']] ∧ ∃ target dir moved,
        world.session.previousDir = some target ∧ Moved world after target ∧
        after.getenv "PWD" = some dir ∧ moved.Wrote after ∧
        (output.line dir).outcome moved = (.error (.error (.io refusal)), after)
    | (.error (.error _), after) => after = world
    | (.error .crash, _) => False := by
  rcases outcome_runCd output args world with
    ⟨e, other, refused⟩ | ⟨target, shown, moved, few, told, went, ran⟩
  · rw [refused]
    cases e with
    | io refusal => exact absurd rfl (other refusal)
    | invalidArguments | execution | env => rfl
  have gone := moved_arrived went
  by_cases echoes : args.tail.head? = some ['-']
  · have wrote := output.wrote_line (nameOfNew moved (dirToLeave world) target)
      (arrived moved (dirToLeave world) target)
    have refusals := output.failsOnly_print (P := fun e => ∃ cause, e = .error (.io cause))
      (fun cause => ⟨cause, rfl⟩) [nameOfNew moved (dirToLeave world) target, ['\n']]
      (arrived moved (dirToLeave world) target)
    rw [ran, if_pos echoes, outcome_bind]
    rcases echoed : (output.line (nameOfNew moved (dirToLeave world) target)).outcome
      (arrived moved (dirToLeave world) target) with ⟨e | ⟨⟩, after⟩ <;> simp only [echoed] at wrote
    · obtain ⟨refusal, rfl⟩ := refusals e (congrArg Prod.fst echoed)
      have alone : args.tail = [['-']] := by
        cases operands : args.tail with
        | nil => simp [operands] at echoes
        | cons first rest =>
          rw [operands] at echoes few
          obtain rfl := Option.some.inj echoes
          obtain rfl := List.length_eq_zero_iff.mp (Nat.le_zero.mp (Nat.le_of_succ_le_succ few))
          rfl
      refine ⟨alone, target, _, _, previousDir_of_cdTarget (echoes ▸ told), gone.of_wrote wrote, ?_,
        wrote, echoed⟩
      rw [wrote.beside]
      exact World.getenv_setenv ..
    · exact ⟨rfl, target, shown, told, gone.of_wrote wrote⟩
  · rw [ran, if_neg echoes]
    exact ⟨rfl, target, shown, told, gone⟩

/-- Without `HOME` the accounts tell where a plain `cd` leads, and if they do not, it is refused. -/
example :
    let world : World := { place := ⟨[], ["a".toList]⟩, descriptors := ∅
                           machine := { root := .dir [] .ownDir } }
    let housed := { world with accountHome := "/".toList }
    let went := (runCd ⟨.standard, Descriptors.stderr⟩ ["cd".toList]).outcome housed
    went.1 = .ok .proceed ∧ went.2.place = .root ∧ went.2.getenv "PWD" = some "/".toList ∧
      ((runCd ⟨.standard, Descriptors.stderr⟩ ["cd".toList]).outcome world).1 =
        .error (.error (.env .homeNotSet)) := by
  decide +kernel

end LineShell.Builtin
