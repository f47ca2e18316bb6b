import LineShell.Outside
import LineShell.Proofs.LineEffects
import LineShell.Proofs.Return

/-! What `PWD` holds when others change the tree while the shell goes from directory to directory.
The way that was taken and the path without links both begin at the root, so `PWD` holds a relative
path only if neither names the directory: the operand is relative, and the directory to which it
leads is no longer part of the tree (`isAbsolute_nameOfNew_iff`). What `cd -` returns to always
begins at the root (`returns_roamed`). -/

namespace LineShell.Builtin

/-- What happens to a shell that goes from directory to directory: a `cd`, which may fail, or a change
from outside, after which the tree, and the place where the shell stands in it, can be any. -/
inductive Roam
  | cd (output : Output) (args : List Text)
  | outside (there : World)

def Roam.step (world : World) : Roam → World
  | cd output args => ((runCd output args).outcome world).2
  | outside there => { there with session := world.session }

def roamed (world : World) (events : List Roam) : World := events.foldl Roam.step world

variable {world moved after : World} {left : Option Text} {target : Text} {output : Output}
  {args : List Text} {verdict : Verdict}

/-- The directory to which `cd -` returns, if there is one, begins at the root. -/
def ReturnsFromRoot (world : World) : Prop :=
  ∀ dir, world.session.previousDir = some dir → Path.isAbsolute dir

theorem previousDir_arrived : (arrived moved left target).session.previousDir =
    left.or moved.session.previousDir := by
  cases left <;> rfl

theorem returns_step (returns : ReturnsFromRoot world) (event : Roam) :
    ReturnsFromRoot (event.step world) := by
  cases event with
  | outside there => exact returns
  | cd output args =>
    intro dir held
    rcases own_runCd output world args with same | ⟨target, moved, went, reached⟩
    · obtain ⟨session, -⟩ := Prod.mk.inj same
      rw [Roam.step, session] at held
      exact returns dir held
    · obtain ⟨session, -⟩ := Prod.mk.inj reached
      rw [Roam.step, session, previousDir_arrived, session_changeDir went] at held
      rcases Option.or_eq_some_iff.mp held with named | ⟨-, before⟩
      · exact isAbsolute_dirToLeave named
      · exact returns dir before

theorem returns_roamed (fresh : ReturnsFromRoot world) (events : List Roam) :
    ReturnsFromRoot (roamed world events) := by
  induction events generalizing world with
  | nil => exact fresh
  | cons event rest ih => exact ih (returns_step fresh event)

/-! Which name a directory is given. -/

theorem nameOfNew_of_lost (lost : moved.place.lost ≠ []) (absolute : ∀ dir, left = some dir →
    Path.isAbsolute dir) : nameOfNew moved left target = target := by
  have gone : moved.physicalDir = .error (.os .noEntry) := by
    rw [World.physicalDir, Place.path?, Place.isLive]
    simp [lost]
  have astray : (wayTaken left target).filter (moved.sameFile · ['.']) = none := by
    rw [Option.filter_eq_none_iff]
    intro way taken same
    exact lost (World.enters_of_sameFile (isDirect_wayTaken absolute taken).1 same).live
  rw [nameOfNew, astray, gone]

/-- The name of the new directory begins at the root if that is part of the tree, and otherwise just
when the operand does. -/
theorem isAbsolute_nameOfNew_iff (absolute : ∀ dir, left = some dir → Path.isAbsolute dir) :
    Path.isAbsolute (nameOfNew moved left target) ↔
      Path.isAbsolute target ∨ moved.place.isLive := by
  by_cases live : moved.place.lost = []
  · have begins : Path.isAbsolute (nameOfNew moved left target) := by
      rcases nameOfNew_cases (World.physicalDir_of_live live) with ⟨way, taken, -, name⟩ | name
      · exact name ▸ (isDirect_wayTaken absolute taken).1
      · exact name ▸ Path.isAbsolute_ofNames _
    simp [begins, Place.isLive_iff.mpr live]
  · rw [nameOfNew_of_lost live absolute]
    simp [Place.isLive_iff, live]

/-- The operand `-` stands for the directory to return to. -/
theorem isAbsolute_of_dash (returns : ReturnsFromRoot world) {shown : Text}
    (names : cdTarget world (some ['-']) = .ok (target, shown)) : Path.isAbsolute target := by
  rw [cdTarget] at names
  simp only [if_true] at names
  split at names
  · next previous held =>
    obtain ⟨rfl, -⟩ := Prod.mk.inj (Except.ok.inj names)
    exact returns _ held
  · cases names

/-- From a removed directory that `PWD` does not name, there is no directory to be remembered. -/
theorem dirToLeave_of_relative {pwd : Text} (lost : world.place.isLive = false)
    (held : world.getenv "PWD" = some pwd) (relative : Path.isAbsolute pwd = false) :
    dirToLeave world = none := by
  have unnamed : world.absolutePwd = none := by
    rw [World.absolutePwd, held, Option.filter_some, relative]
    rfl
  have gone : world.physicalDir = .error (.os .noEntry) := by
    rw [World.physicalDir, Place.path?, lost]
    rfl
  rw [dirToLeave, World.logicalDir, unnamed]
  simp only [gone]

/-- After any `cd` that succeeds, however the tree was changed between it and those before it, `PWD`
is an absolute path unless the operand leads by a relative path to a directory that is no longer
part of the tree. That happens only in a directory that has been removed; there `PWD` is then that
relative path, and the next `cd` will not know what it leaves. -/
theorem pwd_absolute_iff {start : World} (fresh : start.session.previousDir = none)
    (events : List Roam)
    (went : (runCd output args).outcome (roamed start events) = (.ok verdict, after)) :
    ∃ target shown pwd,
      cdTarget (roamed start events) args.tail.head? = .ok (target, shown) ∧
      after.getenv "PWD" = some pwd ∧
      (Path.isAbsolute pwd = true ↔
        ¬ (Path.isAbsolute target = false ∧ after.place.isLive = false)) ∧
      (Path.isAbsolute pwd = false → pwd = target ∧ args.tail.head? ≠ some ['-'] ∧
        (roamed start events).place.isLive = false ∧ dirToLeave after = none) := by
  have returns : ReturnsFromRoot (roamed start events) :=
    returns_roamed (fun dir held => by rw [fresh] at held; cases held) events
  generalize roamed start events = now at went returns ⊢
  obtain ⟨-, -, target, shown, moved, names, entered, ended⟩ := runCd_ok_iff.mp went
  have absolute : ∀ dir, dirToLeave now = some dir → Path.isAbsolute dir :=
    fun _ => isAbsolute_dirToLeave
  obtain ⟨place, told⟩ : after.place = moved.place ∧
      after.getenv "PWD" = some (nameOfNew moved (dirToLeave now) target) := by
    split at ended
    · obtain ⟨machine, unwritten, rfl, -⟩ := line_ok ended
      exact ⟨place_remember .., World.getenv_setenv ..⟩
    · subst ended
      exact ⟨place_remember .., World.getenv_setenv ..⟩
  have begins : Path.isAbsolute (nameOfNew moved (dirToLeave now) target) ↔
      Path.isAbsolute target ∨ moved.place.isLive := isAbsolute_nameOfNew_iff absolute
  refine ⟨target, shown, _, names, told, ?_, fun relative => ?_⟩
  · rw [begins, place]
    simp [or_iff_not_imp_left]
  · obtain ⟨operand, gone⟩ := not_or.mp (begins.not.mp (Bool.eq_false_iff.mp relative))
    have lost : moved.place.lost ≠ [] := fun live => gone (Place.isLive_iff.mpr live)
    have removed : moved.place.isLive = false := Bool.eq_false_iff.mpr gone
    refine ⟨nameOfNew_of_lost lost absolute, fun dash => ?_, ?_, ?_⟩
    · rw [dash] at names
      exact operand (isAbsolute_of_dash returns names)
    · by_contra live
      rw [Bool.not_eq_false, Place.isLive_iff] at live
      exact lost (World.lost_of_changeDir live entered)
    · exact dirToLeave_of_relative (place ▸ removed) told relative

/-- A shell at the root of a tree with one directory. By the accounts the root is its home. -/
def beside : World :=
  { place := .root, descriptors := ∅
    machine := { root := .dir [("gone".toList, .dir [] .ownDir)] .ownDir }
    accountHome := "/".toList }

def intoGone : Roam := .cd ⟨.standard, 2⟩ ["cd".toList, "gone".toList]

/-- The shell goes into the directory, and the directory is removed. -/
def stranding : List Roam :=
  let stood := roamed beside [intoGone]
  [intoGone, .outside ((stood.removeOutside? .root "gone".toList).getD stood)]

/-- It gets away to its home, which `HOME` does not name. -/
theorem pwd_absolute_iff_away : beside.session.previousDir = none ∧
    (roamed beside stranding).place.isLive = false ∧
    (roamed beside stranding).getenv "HOME" = none ∧ ∃ after pwd,
      (runCd ⟨.standard, 2⟩ ["cd".toList]).outcome (roamed beside stranding) =
        (.ok .proceed, after) ∧ after.getenv "PWD" = some pwd ∧ Path.isAbsolute pwd = true := by
  have fresh : beside.session.previousDir = none := rfl
  have lost : (roamed beside stranding).place.isLive = false := by decide +kernel
  have homeless : (roamed beside stranding).getenv "HOME" = none := by decide +kernel
  have succeeded : ((runCd ⟨.standard, 2⟩ ["cd".toList]).outcome
      (roamed beside stranding)).1 = .ok .proceed := by decide +kernel
  have leads : cdTarget (roamed beside stranding) none = .ok ("/".toList, "/".toList) := by
    decide +kernel
  rcases went : (runCd ⟨.standard, 2⟩ ["cd".toList]).outcome (roamed beside stranding) with
    ⟨_, after⟩
  rw [went] at succeeded
  subst succeeded
  obtain ⟨target, shown, pwd, names, told, absolute, -⟩ := pwd_absolute_iff fresh stranding went
  obtain ⟨rfl, -⟩ := Prod.mk.inj (Except.ok.inj (names.symm.trans leads))
  exact ⟨fresh, lost, homeless, after, pwd, rfl, told, absolute.mpr fun both => by
    simp [Path.isAbsolute] at both⟩

/-- But after `cd .` it has a relative path in `PWD`. -/
theorem pwd_relative_at_dot : beside.session.previousDir = none ∧
    ((roamed beside [intoGone]).removeOutside? .root "gone".toList).isSome ∧ ∃ after,
      (runCd ⟨.standard, 2⟩ ["cd".toList, ".".toList]).outcome (roamed beside stranding) =
        (.ok .proceed, after) ∧ after.getenv "PWD" = some ".".toList ∧
          Path.isAbsolute ".".toList = false := by
  have succeeded : ((runCd ⟨.standard, 2⟩ ["cd".toList, ".".toList]).outcome
      (roamed beside stranding)).1 = .ok .proceed := by decide +kernel
  have told : ((runCd ⟨.standard, 2⟩ ["cd".toList, ".".toList]).outcome
      (roamed beside stranding)).2.getenv "PWD" = some ".".toList := by decide +kernel
  exact ⟨rfl, by decide +kernel, _, Prod.ext succeeded rfl, told, rfl⟩

end LineShell.Builtin
