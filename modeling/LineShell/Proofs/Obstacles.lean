import LineShell.Proofs.ChangeDirectory
import LineShell.Proofs.WalkSteps

/-! Why a path leads to nothing. A walk that comes to nothing has been stopped by an obstacle, on the
path or behind a link on it (`Node.Meets`), and what the system says of the path is what it says of
that obstacle (`World.reach_eq_error_iff`). Only one obstacle is that something is not there; a part
that is there and is no directory, though the path goes on, is another. -/

namespace LineShell

/-- A walk that has the parts to take, and may follow so many links, meets an obstacle. -/
inductive Node.Meets (root : Node) : Nat → Place → List Text → Obstacle → Prop
  | here {links : Nat} {place : Place} {part : Text} {rest : List Text} {obstacle : Obstacle}
      (bars : root.Bars place part obstacle) : Meets root links place (part :: rest) obstacle
  | on {links : Nat} {place next : Place} {part : Text} {rest : List Text} {obstacle : Obstacle}
      (takes : root.Takes place part next) (further : Meets root links next rest obstacle) :
      Meets root links place (part :: rest) obstacle
  | behind {links : Nat} {place : Place} {name target : Text} {rest : List Text}
      {obstacle : Obstacle} (follows : root.Follows place name target)
      (further : Meets root links (Resolve.start place target) (Resolve.route target ++ rest)
        obstacle) : Meets root (links + 1) place (name :: rest) obstacle
  | linkLoop {place : Place} {name target : Text} {rest : List Text}
      (follows : root.Follows place name target) : Meets root 0 place (name :: rest) .linkLoop

namespace Resolve

variable {root : Node} {place : Place} {obstacle : Obstacle}

/-- What the system says of a walk that has met an obstacle. -/
theorem failure_of_meets {links : Nat} {parts : List Text}
    (meets : root.Meets links place parts obstacle) :
    failure? (walkLinks root .reach links place parts) = some obstacle.cause := by
  induction meets with
  | @here links _ _ rest _ bars => cases links <;> exact failure_walk_bars bars rest
  | @on links _ _ _ rest _ takes further ih =>
    obtain ⟨follow, walks⟩ := exists_walk root .reach links
    rw [walks] at ih ⊢
    rwa [walk_takes takes]
  | behind follows further ih =>
    rw [walkLinks, walk_follows follows]
    exact ih
  | linkLoop follows =>
    rw [walkLinks, walk_follows follows]
    rfl

theorem meets_of_failure_walk {links : Nat} {cause : IoError}
    {follow : Place → Text → List Text → Except Errno Destination}
    (behind : ∀ {place : Place} {name target : Text} {rest : List Text},
      root.Follows place name target → failure? (follow place target rest) = some cause →
      ∃ obstacle, root.Meets links place (name :: rest) obstacle) {parts : List Text}
    (failed : failure? (walk root .reach follow place parts) = some cause) :
    ∃ obstacle, root.Meets links place parts obstacle := by
  induction parts generalizing place with
  | nil => cases failed
  | cons part rest ih =>
    rcases root.exists_step place part with ⟨next, takes⟩ | ⟨target, follows⟩ | ⟨obstacle, bars⟩
    · rw [walk_takes takes] at failed
      obtain ⟨obstacle, further⟩ := ih failed
      exact ⟨obstacle, .on takes further⟩
    · rw [walk_follows follows] at failed
      exact behind follows failed
    · exact ⟨obstacle, .here bars⟩

/-- A walk that comes to nothing has met an obstacle. -/
theorem meets_of_failure {links : Nat} {parts : List Text} {cause : IoError}
    (failed : failure? (walkLinks root .reach links place parts) = some cause) :
    ∃ obstacle, root.Meets links place parts obstacle := by
  induction links generalizing place parts with
  | zero => exact meets_of_failure_walk (fun follows _ => ⟨_, .linkLoop follows⟩) failed
  | succ links ih =>
    refine meets_of_failure_walk (fun follows failed => ?_) failed
    obtain ⟨obstacle, further⟩ := ih failed
    exact ⟨obstacle, .behind follows further⟩

end Resolve

/-- Nothing is opened at a place that there is not. -/
theorem Machine.openPath_of_nowhere {m : Machine} (opener : Opener) {path : Text} {e : Errno}
    (nowhere : m.root.reach opener.place path = .error e) :
    m.openPath opener path .input = .error e := by
  rw [Node.reach] at nowhere
  rw [openPath]
  simp only [OpenMode.input, Bool.false_eq_true, if_false]
  generalize m.root.resolve opener.place .reach path = walked at nowhere ⊢
  rcases walked with e' | (place | ⟨directory, name⟩)
  · exact congrArg _ (Except.error.inj nowhere)
  · cases nowhere
  · exact congrArg _ (Except.error.inj nowhere)

/-- A path meets an obstacle before it is handed to the system, or on the way. -/
inductive World.Obstructed (world : World) (path : Text) : Obstacle → Prop
  | nul (held : '\x00' ∈ path) : Obstructed world path .nul
  | tooLong (clean : '\x00' ∉ path) (long : Resolve.pathLimit ≤ byteSize path) :
      Obstructed world path .tooLong
  | onTheWay {obstacle : Obstacle} (clean : '\x00' ∉ path)
      (fits : byteSize path < Resolve.pathLimit)
      (meets : world.machine.root.Meets Resolve.linkLimit (Resolve.start world.place path)
        (Resolve.route path) obstacle) : Obstructed world path obstacle

open Resolve in
theorem Node.reach_of_fits {root : Node} {here : Place} {path : Text} {cause : IoError}
    (held : path ≠ []) (fits : byteSize path < pathLimit) :
    (root.reach here path).mapError IoError.os = .error cause ↔
      failure? (walkLinks root .reach linkLimit (start here path) (route path)) = some cause := by
  rw [reach, resolve, if_neg (by simpa using held), if_neg (Nat.not_le.mpr fits)]
  generalize walkLinks root .reach _ _ _ = walked
  rcases walked with e | (place | ⟨directory, name⟩) <;> simp [Except.mapError, failure?]

namespace World

variable {world : World} {path : Text} {cause : IoError}

theorem reach_of_nul (held : '\x00' ∈ path) : world.reach path = .error .nulInPath := by
  rw [reach, systemPath, if_pos held]
  rfl

/-- What the system tells of an obstacle. -/
theorem reach_of_obstructed {obstacle : Obstacle} (held : path ≠ [])
    (obstructed : world.Obstructed path obstacle) : world.reach path = .error obstacle.cause := by
  cases obstructed with
  | nul nul => exact reach_of_nul nul
  | tooLong clean long =>
    rw [reach_of_clean clean, Node.reach_of_long long]
    rfl
  | onTheWay clean fits meets =>
    rw [reach_of_clean clean, Node.reach_of_fits held fits, Resolve.failure_of_meets meets]

/-- A path leads to nothing just when it meets an obstacle, and that is what the system tells. -/
theorem reach_eq_error_iff (held : path ≠ []) : world.reach path = .error cause ↔
    ∃ obstacle, world.Obstructed path obstacle ∧ obstacle.cause = cause := by
  constructor
  · intro nowhere
    have met : ∃ obstacle, world.Obstructed path obstacle := by
      by_cases nul : '\x00' ∈ path
      · exact ⟨_, .nul nul⟩
      by_cases long : Resolve.pathLimit ≤ byteSize path
      · exact ⟨_, .tooLong nul long⟩
      have fits := Nat.not_le.mp long
      rw [reach_of_clean nul, Node.reach_of_fits held fits] at nowhere
      obtain ⟨obstacle, meets⟩ := Resolve.meets_of_failure nowhere
      exact ⟨obstacle, .onTheWay nul fits meets⟩
    obtain ⟨obstacle, obstructed⟩ := met
    rw [reach_of_obstructed held obstructed] at nowhere
    exact ⟨obstacle, obstructed, Except.error.inj nowhere⟩
  · rintro ⟨obstacle, obstructed, rfl⟩
    exact reach_of_obstructed held obstructed

/-- What leads to nothing cannot be opened to be read. -/
theorem readFile_of_nowhere (nowhere : world.reach path = .error cause) :
    world.readFile path = .error cause := by
  by_cases nul : '\x00' ∈ path
  · obtain rfl := Except.error.inj ((reach_of_nul nul).symm.trans nowhere)
    rw [readFile, systemPath, if_pos nul]
    rfl
  · rw [reach_of_clean nul] at nowhere
    obtain ⟨e, failed, rfl⟩ := mapError_eq_error.mp nowhere
    rw [readFile, systemPath, if_neg nul]
    simp only [bind, Except.bind, Machine.openPath_of_nowhere world.opener failed, Except.mapError]

end World
end LineShell
