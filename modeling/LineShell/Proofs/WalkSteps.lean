import LineShell.IoError
import LineShell.Proofs.Walk

/-! What a walk does with one part of a path. It goes on to another place (`Node.Takes`), comes to a
link (`Node.Follows`), or is stopped there and then by an obstacle (`Node.Bars`); one of the three it
always does (`Node.exists_step`), and a walk that comes to a place has not been stopped
(`Resolve.exists_step_of_found`). -/

namespace LineShell

/-- What a path meets when it leads to nothing. -/
inductive Obstacle
  /-- There is nothing of a name that is looked for. -/
  | missing
  /-- The path goes on behind something that is no directory. -/
  | notDirectory
  /-- A directory does not let itself be searched. -/
  | shut
  /-- The path, or a name on it, is longer than the system takes. -/
  | tooLong
  /-- There are more links than the system follows. -/
  | linkLoop
  /-- The path cannot be handed to the system. -/
  | nul
  deriving Repr, DecidableEq

/-- How the system tells of it. -/
def Obstacle.cause : Obstacle → IoError
  | missing => .os .noEntry
  | notDirectory => .os .notDirectory
  | shut => .os .accessDenied
  | tooLong => .os .nameTooLong
  | linkLoop => .os .linkLoop
  | nul => .nulInPath

theorem Obstacle.isNotFound_cause {obstacle : Obstacle} :
    obstacle.cause.isNotFound = true ↔ obstacle = .missing := by
  cases obstacle <;> decide

namespace Node

/-- The place can be looked around in: a directory that has been removed, or one that is open. -/
def Admits (root : Node) (place : Place) : Prop := place.isLive = true → root.isOpen place.base

/-- The part of a path is the name of something. -/
structure Names (part : Text) : Prop where
  ne_nil : part ≠ []
  ne_dot : part ≠ ['.']
  ne_dots : part ≠ ['.', '.']

/-- The part is a name, and is looked up in an open directory of the tree. -/
structure LooksUp (root : Node) (place : Place) (part : Text) : Prop extends Names part where
  live : place.isLive = true
  opened : root.isOpen place.base

/-- A walk in the first place takes the part and goes on in the second. -/
inductive Takes (root : Node) : Place → Text → Place → Prop
  | slash {place : Place}
      (directory : place.isLive = true →
        ∃ attributes, root.look place.base = some (.dir attributes)) : Takes root place [] place
  | stay {place : Place} (admits : root.Admits place) : Takes root place ['.'] place
  | up {place : Place} (admits : root.Admits place) : Takes root place ['.', '.'] place.parent
  | down {place : Place} {name : Text} {sight : Sight} (looks : root.LooksUp place name)
      (short : byteSize name ≤ Resolve.nameLimit)
      (there : root.look (place.base ++ [name]) = some sight)
      (noLink : ∀ target, sight ≠ .link target) : Takes root place name (place.child name)

/-- A walk comes to a link. -/
structure Follows (root : Node) (place : Place) (name target : Text) : Prop where
  looks : root.LooksUp place name
  short : byteSize name ≤ Resolve.nameLimit
  there : root.look (place.base ++ [name]) = some (.link target)

/-- A walk that has the part to take is stopped by an obstacle. -/
inductive Bars (root : Node) : Place → Text → Obstacle → Prop
  | missing {place : Place} {name : Text} (looks : root.LooksUp place name)
      (short : byteSize name ≤ Resolve.nameLimit)
      (absent : root.look (place.base ++ [name]) = none) : Bars root place name .missing
  /-- A directory that has been removed holds nothing. -/
  | removed {place : Place} {name : Text} (names : Names name) (gone : place.isLive = false) :
      Bars root place name .missing
  | nowhere {place : Place} {part : Text} (live : place.isLive = true)
      (absent : root.look place.base = none) : Bars root place part .missing
  | notDirectory {place : Place} {part : Text} {sight : Sight} (live : place.isLive = true)
      (there : root.look place.base = some sight)
      (other : ∀ attributes, sight ≠ .dir attributes) : Bars root place part .notDirectory
  | shut {place : Place} {part : Text} {attributes : Attributes} (live : place.isLive = true)
      (there : root.look place.base = some (.dir attributes))
      (forbids : attributes.permits .search = false) (asks : part ≠ []) :
      Bars root place part .shut
  | longName {place : Place} {name : Text} (looks : root.LooksUp place name)
      (long : Resolve.nameLimit < byteSize name) : Bars root place name .tooLong

variable {root : Node} {place next : Place} {part target : Text} {obstacle : Obstacle}

theorem admits_of_look {attributes : Attributes}
    (there : root.look place.base = some (.dir attributes))
    (searchable : attributes.permits .search = true) : root.Admits place := fun _ => by
  rw [isOpen, there]
  exact searchable

theorem Admits.removed (gone : place.isLive = false) : root.Admits place := fun live => by
  rw [gone] at live
  cases live

/-- One of the three always happens to the first part of a path. -/
theorem exists_step (root : Node) (place : Place) (part : Text) :
    (∃ next, root.Takes place part next) ∨ (∃ target, root.Follows place part target) ∨
      ∃ obstacle, root.Bars place part obstacle := by
  by_cases dot : root.Admits place ∧ part = ['.']
  · obtain ⟨admits, rfl⟩ := dot
    exact .inl ⟨_, .stay admits⟩
  by_cases dots : root.Admits place ∧ part = ['.', '.']
  · obtain ⟨admits, rfl⟩ := dots
    exact .inl ⟨_, .up admits⟩
  cases live : place.isLive with
  | false =>
    have admits : root.Admits place := .removed live
    by_cases slash : part = []
    · exact .inl ⟨place, slash ▸ .slash fun tree => by rw [live] at tree; cases tree⟩
    · have names : Names part :=
        ⟨slash, fun same => dot ⟨admits, same⟩, fun same => dots ⟨admits, same⟩⟩
      exact .inr (.inr ⟨_, .removed names live⟩)
  | true =>
    cases there : root.look place.base with
    | none => exact .inr (.inr ⟨_, .nowhere live there⟩)
    | some sight =>
      cases sight with
      | link | other => exact .inr (.inr ⟨_, .notDirectory live there (by simp)⟩)
      | dir attributes =>
        by_cases slash : part = []
        · exact .inl ⟨place, slash ▸ .slash fun _ => ⟨attributes, there⟩⟩
        cases search : attributes.permits .search with
        | false => exact .inr (.inr ⟨_, .shut live there search slash⟩)
        | true =>
          have admits : root.Admits place := admits_of_look there search
          have names : Names part :=
            ⟨slash, fun same => dot ⟨admits, same⟩, fun same => dots ⟨admits, same⟩⟩
          have looks : root.LooksUp place part := ⟨names, live, admits live⟩
          by_cases long : Resolve.nameLimit < byteSize part
          · exact .inr (.inr ⟨_, .longName looks long⟩)
          have short := Nat.not_lt.mp long
          cases below : root.look (place.base ++ [part]) with
          | none => exact .inr (.inr ⟨_, .missing looks short below⟩)
          | some sight =>
            cases sight with
            | link target => exact .inr (.inl ⟨target, looks, short, below⟩)
            | dir | other => exact .inl ⟨_, .down looks short below (by simp)⟩

end Node

namespace Resolve

variable {root : Node} {place next : Place} {part target : Text} {obstacle : Obstacle}
  {follow : Place → Text → List Text → Except Errno Destination}

/-- Why a walk has come to nothing that is there. -/
def failure? : Except Errno Destination → Option IoError
  | .error e => some (.os e)
  | .ok (.vacant _ _) => some (.os .noEntry)
  | .ok (.found _) => none

/-- A name is looked up, and what is there decides. -/
theorem walk_looksUp (looks : root.LooksUp place part) (rest : List Text) :
    walk root .reach follow place (part :: rest) =
      if nameLimit < byteSize part then .error .nameTooLong
      else match root.look (place.base ++ [part]) with
        | some (.link target) => follow place target rest
        | some _ => walk root .reach follow (place.child part) rest
        | none => if rest.isEmpty then .ok (.vacant place.base part) else .error .noEntry := by
  obtain ⟨attributes, there, searchable⟩ := Node.look_of_isOpen looks.opened
  rw [walk_cons, there]
  cases root.look (place.base ++ [part]) with
  | none => simp [looks.live, searchable, looks.ne_nil, looks.ne_dot, looks.ne_dots]
  | some sight =>
    cases sight <;> simp [looks.live, searchable, looks.ne_nil, looks.ne_dot, looks.ne_dots]

theorem walk_takes (takes : root.Takes place part next) (rest : List Text) :
    walk root .reach follow place (part :: rest) = walk root .reach follow next rest := by
  cases takes with
  | slash directory =>
    rw [walk_cons]
    cases live : place.isLive with
    | false => simp
    | true =>
      obtain ⟨attributes, there⟩ := directory live
      simp [there]
  | stay admits =>
    rw [walk_cons]
    cases live : place.isLive with
    | false => simp
    | true =>
      obtain ⟨attributes, there, searchable⟩ := Node.look_of_isOpen (admits live)
      simp [there, searchable]
  | up admits =>
    rw [walk_cons]
    cases live : place.isLive with
    | false => simp
    | true =>
      obtain ⟨attributes, there, searchable⟩ := Node.look_of_isOpen (admits live)
      simp [there, searchable]
  | @down _ sight looks short there noLink =>
    rw [walk_looksUp looks, if_neg (Nat.not_lt.mpr short), there]
    cases sight with
    | link target => exact absurd rfl (noLink target)
    | dir | other => rfl

theorem walk_follows (follows : root.Follows place part target) (rest : List Text) :
    walk root .reach follow place (part :: rest) = follow place target rest := by
  rw [walk_looksUp follows.looks, if_neg (Nat.not_lt.mpr follows.short), follows.there]

theorem failure_walk_bars (bars : root.Bars place part obstacle) (rest : List Text) :
    failure? (walk root .reach follow place (part :: rest)) = some obstacle.cause := by
  cases bars with
  | missing looks short absent =>
    rw [walk_looksUp looks, if_neg (Nat.not_lt.mpr short), absent]
    cases rest <;> rfl
  | longName looks long => rw [walk_looksUp looks, if_pos long]; rfl
  | removed names gone =>
    rw [walk_cons]
    simp [gone, names.ne_nil, names.ne_dot, names.ne_dots, failure?, Obstacle.cause]
  | nowhere live absent =>
    rw [walk_cons]
    simp [live, absent, failure?, Obstacle.cause]
  | @notDirectory sight live there other =>
    rw [walk_cons]
    cases sight with
    | dir attributes => exact absurd rfl (other attributes)
    | link | other => simp [live, there, failure?, Obstacle.cause]
  | shut live there forbids asks =>
    rw [walk_cons]
    simp [live, there, forbids, asks, failure?, Obstacle.cause]

/-- A walk that leads to a place is not stopped by its first part. -/
theorem exists_step_of_found {rest : List Text} {found : Place}
    (walked : walk root .reach follow place (part :: rest) = .ok (.found found)) :
    (∃ next, root.Takes place part next ∧ walk root .reach follow next rest = .ok (.found found)) ∨
      ∃ target, root.Follows place part target ∧ follow place target rest = .ok (.found found) := by
  rcases root.exists_step place part with ⟨next, takes⟩ | ⟨target, follows⟩ | ⟨obstacle, bars⟩
  · exact .inl ⟨next, takes, (walk_takes takes rest).symm.trans walked⟩
  · exact .inr ⟨target, follows, (walk_follows follows rest).symm.trans walked⟩
  · have stopped : failure? (.ok (.found found)) = some obstacle.cause := by
      rw [← walked, failure_walk_bars bars]
    cases stopped

end Resolve
end LineShell
