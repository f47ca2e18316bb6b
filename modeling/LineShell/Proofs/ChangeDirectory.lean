import LineShell.Builtin.Directory
import LineShell.Proofs.Printing

/-! What `PWD` says after a change of directory. Folding `..` in a path and following the links on
it may part company, so the way that was taken counts only if it leads where the shell now stands;
otherwise `PWD` holds the path of that place without links. Either way it is an absolute path
without `.` and `..`, and the shell knows its directory by it from then on (`knownBy_of_cd`). That path
leads back to the directory unless it is one that the system cannot follow: longer than a path may
be, or through a directory that does not let itself be searched. -/

namespace LineShell

/-- To stand somewhere one has to get there, and a directory that is part of the tree has to let
itself be searched. -/
theorem Node.reachDir_eq_ok {root : Node} {here place : Place} {path : Text} :
    root.reachDir here path = .ok place ↔
      root.reach here path = .ok place ∧ (place.isLive → root.isOpen place.base) := by
  rw [reachDir, bind_eq_ok]
  constructor
  · rintro ⟨there, reached, h⟩
    split at h
    · next dead =>
      obtain rfl := Except.ok.inj h
      exact ⟨reached, fun live => by simp [live] at dead⟩
    · split at h
      · next found =>
        split at h
        · next searchable =>
          obtain rfl := Except.ok.inj h
          exact ⟨reached, fun _ => by rw [isOpen, look, found]; exact searchable⟩
        · cases h
      all_goals cases h
  · rintro ⟨reached, opened⟩
    refine ⟨place, reached, ?_⟩
    cases live : place.isLive with
    | false => rfl
    | true =>
      obtain ⟨attributes, seen, searchable⟩ := look_of_isOpen (opened live)
      obtain ⟨node, found, seen⟩ := Option.map_eq_some_iff.mp seen
      cases node with
      | dir entries _ =>
        obtain rfl := Sight.dir.inj seen
        simp [found, searchable, pure, Except.pure]
      | file | utility | device | link => simp [sight] at seen

theorem Node.reachDir_of_reach {root : Node} {here place : Place} {path : Text}
    (reached : root.reach here path = .ok place) (opened : root.isOpen place.base) :
    root.reachDir here path = .ok place :=
  reachDir_eq_ok.mpr ⟨reached, fun _ => opened⟩

namespace World

variable {world world' moved : World}

@[simp] theorem getenv_setenv (world : World) (name : String) (value : Text) :
    (world.setenv name value).getenv name = some value := by
  simp [getenv, setenv, environment]

@[simp] theorem machine_setenv (world : World) (name : String) (value : Text) :
    (world.setenv name value).machine = world.machine := rfl

theorem systemPath_eq_ok {path taken : Text} :
    systemPath path = .ok taken ↔ '\x00' ∉ path ∧ path = taken := by
  rw [systemPath]
  split <;> simp [*]

theorem reach_eq_ok {path : Text} {place : Place} : world.reach path = .ok place ↔
    '\x00' ∉ path ∧ world.machine.root.reach world.place path = .ok place := by
  simp only [reach, bind_eq_ok, systemPath_eq_ok, mapError_eq_ok]
  constructor
  · rintro ⟨_, ⟨clean, same⟩, went⟩
    exact ⟨clean, same ▸ went⟩
  · rintro ⟨clean, went⟩
    exact ⟨path, ⟨clean, rfl⟩, went⟩

theorem changeDir_eq_ok {target : Text} : world.changeDir target = .ok moved ↔
    '\x00' ∉ target ∧ ∃ place, world.machine.root.reachDir world.place target = .ok place ∧
      moved = { world with place } := by
  simp only [changeDir, bind_eq_ok, systemPath_eq_ok, mapError_eq_ok]
  constructor
  · rintro ⟨_, ⟨clean, rfl⟩, place, reached, h⟩
    exact ⟨clean, place, reached, (Except.ok.inj h).symm⟩
  · rintro ⟨clean, place, reached, rfl⟩
    exact ⟨target, ⟨clean, rfl⟩, place, reached, rfl⟩

theorem changeDir_ok {target : Text} (h : world.changeDir target = .ok moved) :
    moved.machine = world.machine ∧
      (moved.place.isLive → moved.machine.root.isOpen moved.place.base) := by
  obtain ⟨-, place, reached, rfl⟩ := changeDir_eq_ok.mp h
  exact ⟨rfl, (Node.reachDir_eq_ok.mp reached).2⟩

theorem reach_congr (place : world.place = world'.place)
    (alike : world.machine.root.look = world'.machine.root.look) (path : Text) :
    world.reach path = world'.reach path := by
  rw [reach, reach, place, funext (Node.reach_congr alike world'.place)]

theorem sameFile_congr (place : world.place = world'.place)
    (alike : world.machine.root.look = world'.machine.root.look) (a b : Text) :
    world.sameFile a b = world'.sameFile a b := by
  rw [sameFile, sameFile, reach_congr place alike, reach_congr place alike]

theorem reach_of_clean {path : Text} (clean : '\x00' ∉ path) :
    world.reach path = (world.machine.root.reach world.place path).mapError .os := by
  rw [reach, systemPath, if_neg clean]
  rfl

theorem reach_dot (opened : world.machine.root.isOpen world.place.base) :
    world.reach ['.'] = .ok world.place := by
  rw [reach_of_clean (by decide), Node.reach_dot opened]
  rfl

theorem physicalDir_ok {dir : Text} (h : world.physicalDir = .ok dir) :
    world.place.lost = [] ∧ dir = Path.ofNames world.place.base := by
  rw [physicalDir, Place.path?] at h
  by_cases live : world.place.isLive
  · rw [if_pos live] at h
    exact ⟨List.isEmpty_iff.mp live, (Except.ok.inj h).symm⟩
  · simp [live] at h

theorem physicalDir_of_live (live : world.place.lost = []) :
    world.physicalDir = .ok (Path.ofNames world.place.base) := by
  rw [physicalDir, Place.path?, if_pos (Place.isLive_iff.mpr live)]

theorem changeDir_dot (opened : world.machine.root.isOpen world.place.base) :
    world.changeDir ['.'] = .ok world :=
  changeDir_eq_ok.mpr ⟨by decide, world.place,
    Node.reachDir_of_reach (Node.reach_dot opened) opened, rfl⟩

theorem reach_of_sameFile {path : Text} (opened : world.machine.root.isOpen world.place.base)
    (same : world.sameFile path ['.']) : world.reach path = .ok world.place := by
  rw [sameFile, reach_dot opened] at same
  split at same
  · next reached here =>
    rw [reached, of_decide_eq_true same, here]
  · cases same

theorem reach_ofNames (named : ∀ name ∈ world.place.base, IsName name)
    (live : world.place.lost = [])
    (followable : world.machine.root.Followable world.place.base) :
    world.reach (Path.ofNames world.place.base) = .ok world.place := by
  rw [reach_of_clean (no_nul_ofNames named), Node.reach_ofNames named followable, ← live]
  rfl

theorem isAbsolute_of_absolutePwd {pwd : Text} (h : world.absolutePwd = some pwd) :
    Path.isAbsolute pwd :=
  (Option.filter_eq_some_iff.mp h).2

theorem isAbsolute_of_logicalDir {dir : Text} (h : world.logicalDir = .ok dir) :
    Path.isAbsolute dir := by
  have physical (h : world.physicalDir = .ok dir) : Path.isAbsolute dir :=
    (physicalDir_ok h).2 ▸ Path.isAbsolute_ofNames _
  rw [logicalDir] at h
  split at h
  · next held =>
    split at h
    · obtain rfl := Except.ok.inj h
      exact isAbsolute_of_absolutePwd held
    · exact physical h
  · exact physical h

end World

namespace Builtin

variable {output : Output} {args : List Text} {world world' moved : World} {verdict : Verdict}
  {left : Option Text} {target : Text}

theorem place_remember (world : World) (left : Option Text) :
    (remember world left).place = world.place := by
  cases left <;> rfl

theorem machine_remember (world : World) (left : Option Text) :
    (remember world left).machine = world.machine := by
  cases left <;> rfl

/-- The world in which the shell has gone to `target`, from which `moved` differs only in place. -/
def arrived (moved : World) (left : Option Text) (target : Text) : World :=
  (remember moved left).setenv "PWD" (nameOfNew moved left target)

theorem environment_arrived (name : Text) : (arrived moved left target).environment.get? name =
    if name = "PWD".toList then some (nameOfNew moved left target)
    else if name = "OLDPWD".toList then left.or (moved.environment.get? name)
    else moved.environment.get? name := by
  cases left with
  | none =>
    show (moved.environment.insert "PWD".toList _).get? name = _
    rw [Table.get?_insert, Option.none_or, ite_self]
  | some dir =>
    show ((moved.environment.insert "OLDPWD".toList dir).insert "PWD".toList _).get? name = _
    rw [Table.get?_insert, Table.get?_insert, Option.some_or]

/-- What makes `cd` succeed, and where it leaves the shell. Only for the operand `-` is the name of
the new directory printed, and then that has to succeed too. -/
theorem runCd_ok_iff : (runCd output args).outcome world = (.ok verdict, world') ↔
    verdict = .proceed ∧ args.tail.length ≤ 1 ∧ ∃ target shown moved,
      cdTarget world args.tail.head? = .ok (target, shown) ∧ world.changeDir target = .ok moved ∧
        if args.tail.head? = some ['-'] then
          (output.line (nameOfNew moved (dirToLeave world) target)).outcome
            (arrived moved (dirToLeave world) target) = (.ok (), world')
        else world' = arrived moved (dirToLeave world) target := by
  have last (act : Act CommandError Unit) (there : World) :
      (do if args.tail.head? = some ['-'] then act
          return .proceed : Act CommandError Verdict).outcome there = (.ok verdict, world') ↔
        verdict = .proceed ∧
          if args.tail.head? = some ['-'] then act.outcome there = (.ok (), world')
          else world' = there := by
    split
    · simp only [Act.outcome_bind_ok, Act.outcome_pure, Prod.mk.injEq, Except.ok.injEq]
      constructor
      · rintro ⟨_, _, done, proceeds, same⟩
        exact ⟨proceeds.symm, same ▸ done⟩
      · rintro ⟨proceeds, done⟩
        exact ⟨_, _, done, proceeds.symm, rfl⟩
    · simp [eq_comm]
  rw [runCd]
  by_cases many : 1 < args.tail.length
  · rw [if_pos many, Act.outcome_bind]
    constructor
    · intro h
      simp at h
    · rintro ⟨-, few, -⟩
      exact absurd many (Nat.not_lt.mpr few)
  simp only [many, if_false, Act.outcome_bind_ok, Act.outcome_get, Act.outcome_ofExcept_ok,
    Prod.mk.injEq, Except.ok.injEq]
  constructor
  · rintro ⟨_, _, ⟨rfl, rfl⟩, ⟨target, shown⟩, _, ⟨told, rfl⟩, h⟩
    cases went : world.changeDir target with
    | error e => simp [went] at h
    | ok moved =>
      simp only [went, Act.outcome_bind_ok, Act.outcome_set, Prod.mk.injEq] at h
      obtain ⟨_, _, ⟨-, rfl⟩, h⟩ := h
      obtain ⟨proceeds, h⟩ := (last _ _).mp h
      exact ⟨proceeds, Nat.not_lt.mp many, target, shown, moved, told, went, h⟩
  · rintro ⟨proceeds, -, target, shown, moved, told, went, h⟩
    refine ⟨world, world, ⟨rfl, rfl⟩, (target, shown), world, ⟨told, rfl⟩, ?_⟩
    simp only [went, Act.outcome_bind_ok]
    exact ⟨_, _, Act.outcome_set, (last _ _).mpr ⟨proceeds, h⟩⟩

/-- All that a successful `cd` can have done. -/
theorem runCd_ok (h : (runCd output args).outcome world = (.ok verdict, world')) :
    ∃ target moved machine unwritten, world.changeDir target = .ok moved ∧
      world' = { arrived moved (dirToLeave world) target with machine, unwritten } ∧
      machine.root.look = moved.machine.root.look := by
  obtain ⟨-, -, target, shown, moved, -, went, h⟩ := runCd_ok_iff.mp h
  split at h
  · obtain ⟨machine, unwritten, rfl, alike⟩ := line_ok h
    rw [arrived, World.machine_setenv, machine_remember] at alike
    exact ⟨target, moved, machine, unwritten, went, rfl, alike⟩
  · exact ⟨target, moved, (remember moved (dirToLeave world)).machine, _, went, h,
      by rw [machine_remember]⟩

theorem cd_arrives (h : (runCd output args).outcome world = (.ok verdict, world')) :
    ∃ target moved, world.changeDir target = .ok moved ∧ world'.place = moved.place ∧
      world'.machine.root.look = moved.machine.root.look ∧
      world'.getenv "PWD" = some (nameOfNew moved (dirToLeave world) target) := by
  obtain ⟨target, moved, machine, unwritten, went, rfl, alike⟩ := runCd_ok h
  exact ⟨target, moved, went, place_remember .., alike, World.getenv_setenv ..⟩

theorem isAbsolute_dirToLeave {dir : Text} (h : dirToLeave world = some dir) :
    Path.isAbsolute dir := by
  rw [dirToLeave] at h
  split at h
  · next known =>
    obtain rfl := Option.some.inj h
    exact World.isAbsolute_of_logicalDir known
  · exact World.isAbsolute_of_absolutePwd h

theorem isDirect_wayTaken {way : Text} (absolute : ∀ dir, left = some dir → Path.isAbsolute dir)
    (h : wayTaken left target = some way) : Path.IsDirect way := by
  cases left with
  | some dir =>
    obtain rfl := Option.some.inj h
    exact Path.isDirect_lexicalJoin (absolute dir rfl) target
  | none =>
    rw [wayTaken] at h
    split at h
    · obtain rfl := Option.some.inj h
      exact Path.isDirect_lexicalJoin rfl target
    · cases h

/-- The name of the new directory is the way that was taken, or its path without links. -/
theorem nameOfNew_cases {dir : Text} (known : moved.physicalDir = .ok dir) :
    (∃ way, wayTaken left target = some way ∧ moved.sameFile way ['.'] ∧
      nameOfNew moved left target = way) ∨ nameOfNew moved left target = dir := by
  rw [nameOfNew]
  split
  · next way taken =>
    obtain ⟨taken, same⟩ := Option.filter_eq_some_iff.mp taken
    exact .inl ⟨way, taken, same, rfl⟩
  · rw [known]
    exact .inr rfl

theorem runPwd_of_logicalDir {pwd : Text} (known : world.logicalDir = .ok pwd) (output : Output)
    (name : Text) : (runPwd output [name]).outcome world =
      (do output.line pwd; return .proceed : Act CommandError Verdict).outcome world := by
  have answer : (Act.ofExcept (world.logicalDir.mapError CommandError.io)).outcome world =
      (.ok pwd, world) := by simp [mapError_eq_ok, known]
  rw [runPwd, Act.outcome_bind, Act.outcome_get, List.tail_cons, List.head?_nil]
  simp only [Act.outcome_bind, answer]

/-- The shell knows its working directory by the path in `PWD`. -/
structure KnownBy (world : World) (pwd : Text) : Prop where
  held : world.getenv "PWD" = some pwd
  direct : Path.IsDirect pwd
  logical : world.logicalDir = .ok pwd
  printed : ∀ (output : Output) (name : Text), (runPwd output [name]).outcome world =
    (do output.line pwd; return .proceed : Act CommandError Verdict).outcome world

theorem knownBy_of_sameFile {pwd dir : Text} (held : world.getenv "PWD" = some pwd)
    (direct : Path.IsDirect pwd) (known : world.physicalDir = .ok dir)
    (leads : world.sameFile pwd ['.'] ∨ pwd = dir) : KnownBy world pwd := by
  have absolute : world.absolutePwd = some pwd := by
    rw [World.absolutePwd, held, Option.filter_some, if_pos direct.1]
  have logical : world.logicalDir = .ok pwd := by
    rw [World.logicalDir, absolute]
    show (if world.sameFile pwd ['.'] then Except.ok pwd else world.physicalDir) = .ok pwd
    split
    · rfl
    · next astray => rw [known, leads.resolve_left astray]
  exact ⟨held, direct, logical, runPwd_of_logicalDir logical⟩

/-- A directory with a link beside it that leads into it, and a shell above with a stale `PWD`,
whose user has the link for a home. -/
def linkedTree : Node :=
  .dir [("a".toList, .dir [("b".toList, .dir [] .ownDir)] .ownDir),
    ("link".toList, .link "a/b".toList)] .ownDir

def linkedWorld : World :=
  { session := { vars := { environment := .ofList [("PWD".toList, "/gone".toList)] } }
    place := .root, descriptors := ∅, machine := { root := linkedTree }
    accountHome := "/link".toList }

theorem named_linkedTree : linkedTree.Named := by
  have inner : Node.Named (.dir [("b".toList, .dir [] .ownDir)] .ownDir) :=
    .dir (by decide) (by simpa using .dir (by simp) (by simp))
  exact .dir (by decide) (by simpa using ⟨inner, .link⟩)

/-- Where one can stand one can stay. -/
theorem runCd_dot (opened : world.machine.root.isOpen world.place.base)
    (output : Output) (name : Text) : (runCd output [name, ['.']]).outcome world =
      (.ok .proceed, arrived world (dirToLeave world) ['.']) :=
  runCd_ok_iff.mpr ⟨rfl, le_refl 1, ['.'], ['.'], world, rfl, World.changeDir_dot opened, rfl⟩

/-- After `cd .` the path in `PWD` is refused, though the shell can tell where it stands. -/
def Strands (world : World) (reason : Errno) : Prop :=
  ∃ after pwd, (runCd ⟨.standard, 2⟩ ["cd".toList, ".".toList]).outcome world = (.ok .proceed, after) ∧
    after.physicalDir = .ok pwd ∧ after.getenv "PWD" = some pwd ∧
      after.reach pwd = .error (.os reason)

theorem strands_of_reach {reason : Errno} (named : world.machine.root.Named)
    (live : world.place.lost = []) (unset : world.getenv "PWD" = none)
    (opened : world.machine.root.isOpen world.place.base)
    (refused : world.reach (Path.ofNames world.place.base) = .error (.os reason)) :
    Strands world reason := by
  have physical := World.physicalDir_of_live live
  have left : dirToLeave world = some (Path.ofNames world.place.base) := by
    rw [dirToLeave, World.logicalDir, World.absolutePwd, unset]
    simp [physical]
  have names : ∀ name ∈ world.place.base, Path.IsPlain name := fun name there =>
    (Node.isName_of_isOpen named opened name there).toIsPlain
  have astray : world.sameFile (Path.ofNames world.place.base) ['.'] = false := by
    rw [World.sameFile, refused]
  have called : nameOfNew world (dirToLeave world) ['.'] = Path.ofNames world.place.base := by
    rw [nameOfNew, left, wayTaken, Path.lexicalJoin_ofNames_dot names, Option.filter_some, astray]
    simp [physical]
  have place : (arrived world (dirToLeave world) ['.']).place = world.place := place_remember ..
  refine ⟨_, _, runCd_dot opened _ _, ?_, World.getenv_setenv .., ?_⟩
  · rw [World.physicalDir, place, called]
    exact physical
  · rw [called, ← refused]
    exact World.reach_congr place (congrArg (·.root.look) (machine_remember ..)) _

/-- Directories inside each other, one on each level. -/
def nest : Nat → Node
  | 0 => .dir [] .ownDir
  | depth + 1 => .dir [(['d'], nest depth)] .ownDir

theorem named_nest (depth : Nat) : (nest depth).Named := by
  induction depth with
  | zero => exact .dir (by simp) (by simp)
  | succ depth ih =>
    have letter : IsName ['d'] := by decide
    exact .dir (by simpa using letter) (by simpa using ih)

theorem look_nest (depth : Nat) :
    (nest depth).look (List.replicate depth ['d']) = some (.dir .ownDir) := by
  induction depth with
  | zero => rfl
  | succ depth ih => exact ih

theorem byteSize_nest (depth : Nat) :
    byteSize (Path.ofNames (List.replicate (depth + 1) ['d'])) = 2 * (depth + 1) := by
  have letter : byteSize ['d'] = 1 := rfl
  have slash (text : Text) : byteSize ('/' :: text) = 1 + byteSize text := rfl
  induction depth with
  | zero => rfl
  | succ depth ih =>
    rw [Path.ofNames, slash] at ih ⊢
    rw [List.replicate_succ] at ih ⊢
    rw [List.replicate_succ, join, byteSize_append, letter, slash]
    omega

/-- A shell in the innermost of nested directories. -/
def nestedWorld (depth : Nat) : World :=
  { place := ⟨List.replicate depth ['d'], []⟩, descriptors := ∅, machine := { root := nest depth } }

/-- A directory that does not let itself be searched, with another in it. -/
def shutTree : Node :=
  .dir [("a".toList, .dir [("b".toList, .dir [] .ownDir)] ⟨true, 0o600, 0⟩)] .ownDir

def shutWorld : World :=
  { place := ⟨["a".toList, "b".toList], []⟩, descriptors := ∅, machine := { root := shutTree } }

theorem named_shutTree : shutTree.Named := by
  have inner : Node.Named (.dir [("b".toList, .dir [] .ownDir)] ⟨true, 0o600, 0⟩) :=
    .dir (by decide) (by simpa using .dir (by simp) (by simp))
  exact .dir (by decide) (by simpa using inner)

end Builtin
end LineShell
