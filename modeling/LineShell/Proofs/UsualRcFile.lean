import LineShell.Proofs.Obstacles
import LineShell.Proofs.ShellRun

/-! The rc file that nobody asked for. It is looked for in the home directory, and the shell is to
do without it when it is not there. What tells that it is not there is the error that comes of
opening it, and of all that a path can meet only a missing name has the error that the loader takes
for it (`passesOver_iff_missing`). A home directory that is no directory, or that cannot be searched
to its end, keeps the shell from its input. -/

namespace LineShell

/-- The rc file of a home directory. -/
def RcFile.usual (home : Text) : RcFile := ⟨Path.push home usualName, false⟩

/-- The shell does without an rc file: there are no lines in it, and the input is what is left. -/
structure PassesOver (world : World) (flags : Flags) (rc : RcFile) : Prop where
  noLines : rc.load world = .ok []
  goesOn : ∀ {σ : Type} (source : LineSource σ) (state : σ) (turns : Nat),
    (runShell source state turns flags).outcome world =
      (serve source (flags.isSet .quiet) turns state).outcome world

/-- The shell comes to its end over an rc file and changes nothing. -/
structure StopsAt (world : World) (flags : Flags) (rc : RcFile) (cause : IoError) : Prop where
  fails : rc.load world = .error (.io rc.path cause)
  stops : ∀ {σ : Type} (source : LineSource σ) (state : σ) (turns : Nat),
    (runShell source state turns flags).outcome world =
      (.error (.error (.config (.io rc.path cause))), world)

variable {world : World} {flags : Flags} {rc : RcFile} {home : Text} {cause : IoError}

namespace RcFile

theorem usual_path_ne_nil (home : Text) : (usual home).path ≠ [] :=
  Path.push_ne_nil (by decide : usualName ≠ [])

theorem ofFlags?_of_home (homeSet : world.getenv "HOME" = some home) (nonempty : home ≠ [])
    (unasked : flags.config = none) : ofFlags? world flags = some (usual home) := by
  have kept : (some home).filter (fun home => !home.isEmpty) = some home := by simp [nonempty]
  have known : world.home = .ok home := by
    rw [World.home, homeSet]
    dsimp only
    rw [kept, Option.some_or]
  rw [ofFlags?, unasked, known]
  rfl

/-- Of what a path can meet, only a missing name is taken for a file that is not there. -/
theorem load_usual {obstacle : Obstacle}
    (obstructed : world.Obstructed (usual home).path obstacle) : (usual home).load world =
      if obstacle = .missing then .ok [] else .error (.io (usual home).path obstacle.cause) := by
  have nowhere := World.reach_of_obstructed (usual_path_ne_nil home) obstructed
  have unread : readText world (usual home).path = .error obstacle.cause := by
    rw [readText, World.readFile_of_nowhere nowhere]
    rfl
  rw [load, unread]
  dsimp only
  by_cases missing : obstacle = .missing
  · rw [if_pos (Obstacle.isNotFound_cause.mpr missing), if_pos missing]
    rfl
  · rw [if_neg (mt Obstacle.isNotFound_cause.mp missing), if_neg missing]

end RcFile

open Act

theorem passesOver_of_load (chosen : RcFile.ofFlags? world flags = some rc)
    (noLines : rc.load world = .ok []) : PassesOver world flags rc := by
  refine ⟨noLines, fun source state turns => ?_⟩
  rw [runShell, outcome_bind, outcome_sourceRc, chosen]
  dsimp only
  rw [noLines]
  rfl

theorem stopsAt_of_load (chosen : RcFile.ofFlags? world flags = some rc)
    (fails : rc.load world = .error (.io rc.path cause)) : StopsAt world flags rc cause := by
  refine ⟨fails, fun source state turns => ?_⟩
  rw [runShell, outcome_bind, outcome_sourceRc, chosen]
  dsimp only
  rw [fails]

/-- If the usual rc file is nowhere to be found, its path has met an obstacle. The shell goes on to
its input when that is a missing name, and not otherwise. -/
theorem passesOver_iff_missing (homeSet : world.getenv "HOME" = some home) (nonempty : home ≠ [])
    (unasked : flags.config = none)
    (nowhere : world.reach (RcFile.usual home).path = .error cause) :
    RcFile.ofFlags? world flags = some (.usual home) ∧
      ∃ obstacle, world.Obstructed (RcFile.usual home).path obstacle ∧ obstacle.cause = cause ∧
        (PassesOver world flags (.usual home) ↔ obstacle = .missing) ∧
        (obstacle ≠ .missing → StopsAt world flags (.usual home) cause) := by
  have chosen := RcFile.ofFlags?_of_home homeSet nonempty unasked
  obtain ⟨obstacle, obstructed, rfl⟩ :=
    (World.reach_eq_error_iff (RcFile.usual_path_ne_nil home)).mp nowhere
  have loaded := RcFile.load_usual obstructed
  refine ⟨chosen, obstacle, obstructed, rfl, ?_⟩
  by_cases missing : obstacle = .missing
  · rw [if_pos missing] at loaded
    exact ⟨iff_of_true (passesOver_of_load chosen loaded) missing, (absurd missing ·)⟩
  · rw [if_neg missing] at loaded
    have stops := stopsAt_of_load chosen loaded
    refine ⟨iff_of_false (fun passes => ?_) missing, fun _ => stops⟩
    cases stops.fails.symm.trans passes.noLines

/-- A shell whose home directory is `/h`, with a tree of one entry. -/
def shellAtHome (entry : Node) : World :=
  World.setenv { place := .root, descriptors := ∅,
                 machine := { root := .dir [("h".toList, entry)] .standard } }
    "HOME" "/h".toList

/-- A directory with nothing but a link that leads nowhere. -/
def homeWithDanglingLink : Node :=
  .dir [(RcFile.usualName, .link "gone".toList)] .standard

theorem passesOver_iff_missing_danglingLink :
    let world := shellAtHome homeWithDanglingLink
    world.reach (RcFile.usual "/h".toList).path = .error (.os .noEntry) ∧
      RcFile.ofFlags? world {} = some (.usual "/h".toList) ∧
      PassesOver world {} (.usual "/h".toList) := by
  intro world
  have nowhere : world.reach (RcFile.usual "/h".toList).path = .error (.os .noEntry) := by
    decide +kernel
  have homeSet : world.getenv "HOME" = some "/h".toList := by decide +kernel
  obtain ⟨chosen, obstacle, -, cause, passes, -⟩ :=
    passesOver_iff_missing homeSet (by decide) (rfl : ({} : Flags).config = none) nowhere
  have missing : obstacle = .missing := by
    rw [← Obstacle.isNotFound_cause, cause]
    rfl
  exact ⟨nowhere, chosen, passes.mpr missing⟩

/-- Behind a home directory that is a file there is no rc file, and the shell ends over it before it
has read `exit 7`. -/
theorem home_is_file :
    let world := shellAtHome (.file [] .standard)
    let rc := RcFile.usual "/h".toList
    world.getenv "HOME" = some "/h".toList ∧ RcFile.ofFlags? world {} = some rc ∧
      world.reach rc.path = .error (.os .notDirectory) ∧
      rc.load world = .error (.io rc.path (.os .notDirectory)) ∧
      (runMain scripted ["exit 7".toList] 2 ["-q".toList] world).1 = 1 := by
  decide +kernel

end LineShell
