import LineShell.Proofs.ChangeDirectory
import LineShell.Proofs.WalkSteps

/-! Files without symbolic links. There a walk does with the parts of a path just what folding does
with them, as far as it gets (`Leads.foldl_descend`), so the path that folding gives and the path
without links are the same. `cd` can then be told from the tree alone: it succeeds when the parts of
the path lead to a directory that lets itself be searched, and both names of that directory are the
folded path (`cd_iff_leads`). A directory that does not let itself be searched is there, and `cd`
still refuses to go (`cd_refused_at_shut`). -/

namespace LineShell

namespace Node

/-- Nothing in the tree is a symbolic link. -/
inductive Linkless : Node → Prop
  | file {content : Bytes} {attributes : Attributes} : Linkless (file content attributes)
  | utility {u : Utility} : Linkless (utility u)
  | device {d : Device} : Linkless (device d)
  | dir {entries : List (Text × Node)} {attributes : Attributes}
      (nodes : ∀ entry ∈ entries, Linkless entry.2) : Linkless (dir entries attributes)

/-- The parts of a path, taken one by one from a position, lead to another. Each is taken in a
directory that lets itself be searched: `.` stays there, `..` leads up, where the root is its own
parent, and a name leads to what is there. -/
inductive Leads (root : Node) : Position → List Text → Position → Prop
  | done {position : Position} : Leads root position [] position
  | stay {position last : Position} {rest : List Text} (opened : root.isOpen position)
      (further : Leads root position rest last) : Leads root position (['.'] :: rest) last
  | up {position last : Position} {rest : List Text} (opened : root.isOpen position)
      (further : Leads root position.dropLast rest last) :
      Leads root position (['.', '.'] :: rest) last
  | down {position last : Position} {name : Text} {rest : List Text} (opened : root.isOpen position)
      (ne_dot : name ≠ ['.']) (ne_dots : name ≠ ['.', '.'])
      (there : (root.at? (position ++ [name])).isSome)
      (further : Leads root (position ++ [name]) rest last) :
      Leads root position (name :: rest) last

variable {root : Node} {position last : Position} {parts : List Text}

theorem Linkless.at? {node : Node} (linkless : root.Linkless)
    (there : root.at? position = some node) : node.Linkless := by
  induction position generalizing root with
  | nil => exact Option.some.inj there ▸ linkless
  | cons name rest ih =>
    obtain ⟨child, below, there⟩ := Option.bind_eq_some_iff.mp there
    cases linkless with
    | dir nodes =>
      obtain ⟨entry, held, rfl⟩ := Option.map_eq_some_iff.mp below
      exact ih (nodes entry (List.mem_of_find?_eq_some held)) there
    | file => simp [child?] at below
    | utility => simp [child?] at below
    | device => simp [child?] at below

theorem Linkless.look_ne (linkless : root.Linkless) (position : Position) (target : Text) :
    root.look position ≠ some (.link target) := by
  intro seen
  obtain ⟨node, there, same⟩ := Option.map_eq_some_iff.mp seen
  cases linkless.at? there <;> cases same

/-- Folding takes the parts as they lead through the tree. -/
theorem Leads.foldl_descend (leads : root.Leads position parts last) :
    parts.foldl Path.descend position.reverse = last.reverse := by
  induction leads with
  | done => rfl
  | stay _ _ ih => rwa [List.foldl_cons, Path.descend, if_pos rfl]
  | up _ _ ih =>
    rwa [List.foldl_cons, Path.descend, if_neg (by decide), if_pos rfl, List.tail_reverse]
  | down _ ne_dot ne_dots _ _ ih =>
    rwa [List.foldl_cons, Path.descend, if_neg ne_dot, if_neg ne_dots, ← List.reverse_concat]

/-- What leads somewhere begins in a directory that lets itself be searched, if it ends in one. -/
theorem Leads.isOpen (leads : root.Leads position parts last) (opened : root.isOpen last) :
    root.isOpen position := by
  cases leads <;> assumption

theorem Leads.no_nul (leads : root.Leads position parts last) (named : root.Named) :
    ∀ part ∈ parts, '\x00' ∉ part := by
  induction leads with
  | done => exact fun _ absent => absurd absent List.not_mem_nil
  | stay _ _ ih => exact List.forall_mem_cons.mpr ⟨by decide, ih⟩
  | up _ _ ih => exact List.forall_mem_cons.mpr ⟨by decide, ih⟩
  | down _ _ _ there _ ih =>
    obtain ⟨node, there⟩ := Option.isSome_iff_exists.mp there
    have isName := isName_of_at? named there _ (List.mem_append_right _ (List.mem_singleton_self _))
    exact List.forall_mem_cons.mpr ⟨isName.no_nul, ih⟩

/-- `target` leads from a directory to another that lets itself be searched. -/
structure LeadsIn (root : Node) (position : Position) (target : Text) (last : Position) :
    Prop where
  nonempty : target ≠ []
  fits : byteSize target < Resolve.pathLimit
  leads : root.Leads (if Path.isAbsolute target then [] else position) (Path.parts target) last
  opened : root.isOpen last

theorem LeadsIn.no_nul {target : Text} (leadsIn : root.LeadsIn position target last)
    (named : root.Named) : '\x00' ∉ target := by
  intro held
  obtain ⟨part, there, held⟩ := Path.mem_parts_of_mem (by decide) held
  exact leadsIn.leads.no_nul named part there held

/-- The folded path is the path of the place without links. -/
theorem LeadsIn.lexicalJoin {target : Text} (leadsIn : root.LeadsIn position target last)
    (named : root.Named) :
    Path.lexicalJoin (Path.ofNames position) target = Path.ofNames last := by
  rw [Path.lexicalJoin_of_isAbsolute (Path.isAbsolute_ofNames position), Path.fold]
  have leads := leadsIn.leads
  have opened := leads.isOpen leadsIn.opened
  by_cases absolute : Path.isAbsolute target
  · rw [if_pos absolute] at leads
    rw [Path.push_of_isAbsolute absolute, ← List.reverse_nil, leads.foldl_descend,
      List.reverse_reverse]
  · rw [if_neg absolute] at leads opened
    have plain : ∀ name ∈ position, Path.IsPlain name := fun name there =>
      (isName_of_isOpen named opened name there).toIsPlain
    rw [Path.parts_push absolute, Path.parts_ofNames plain, List.foldl_append,
      Path.foldl_descend_of_plain plain, List.append_nil, leads.foldl_descend,
      List.reverse_reverse]

end Node

namespace Resolve

open Node

variable {root : Node} {position : Position} {place : Place}

theorem walk_stay (opened : root.isOpen position)
    (follow : Place → Text → List Text → Except Errno Destination) (rest : List Text) :
    walk root .reach follow ⟨position, []⟩ (['.'] :: rest) =
      walk root .reach follow ⟨position, []⟩ rest := walk_takes (.stay fun _ => opened) rest

theorem walk_up (opened : root.isOpen position)
    (follow : Place → Text → List Text → Except Errno Destination) (rest : List Text) :
    walk root .reach follow ⟨position, []⟩ (['.', '.'] :: rest) =
      walk root .reach follow ⟨position.dropLast, []⟩ rest := walk_takes (.up fun _ => opened) rest

/-- A name is walked where there is something of that name, since that is not a link. -/
theorem walk_down_iff (linkless : root.Linkless) (named : root.Named)
    (opened : root.isOpen position)
    (follow : Place → Text → List Text → Except Errno Destination) {name : Text}
    (ne_nil : name ≠ []) (ne_dot : name ≠ ['.']) (ne_dots : name ≠ ['.', '.'])
    (rest : List Text) :
    walk root .reach follow ⟨position, []⟩ (name :: rest) = .ok (.found place) ↔
      (root.at? (position ++ [name])).isSome ∧
        walk root .reach follow ⟨position ++ [name], []⟩ rest = .ok (.found place) := by
  cases there : root.at? (position ++ [name]) with
  | none =>
    have unseen : root.look (position ++ [name]) = none := by rw [look, there, Option.map_none]
    refine iff_of_false (fun walked => ?_) (by simp)
    rcases exists_step_of_found walked with ⟨next, takes, -⟩ | ⟨target, follows, -⟩
    · cases takes with
      | slash => exact ne_nil rfl
      | stay => exact ne_dot rfl
      | up => exact ne_dots rfl
      | down _ _ there => cases unseen.symm.trans there
    · cases unseen.symm.trans follows.there
  | some node =>
    have isName := isName_of_at? named there name (by simp)
    have beheld : root.look (position ++ [name]) = some node.sight := by
      rw [look, there, Option.map_some]
    have noLink (target : Text) : node.sight ≠ .link target := fun link =>
      linkless.look_ne (position ++ [name]) target (link ▸ beheld)
    rw [walk_name follow isName opened beheld noLink]
    simp

/-- Without links the parts of a path are walked as they lead, and `slash` comes at the end. -/
theorem walk_iff_leads (linkless : root.Linkless) (named : root.Named)
    (follow : Place → Text → List Text → Except Errno Destination) {parts : List Text}
    (nonempty : ∀ part ∈ parts, part ≠ []) (slash : List Text) :
    walk root .reach follow ⟨position, []⟩ (parts ++ slash) = .ok (.found place) ↔
      ∃ last, root.Leads position parts last ∧
        walk root .reach follow ⟨last, []⟩ slash = .ok (.found place) := by
  induction parts generalizing position with
  | nil =>
    constructor
    · exact fun walked => ⟨position, .done, walked⟩
    · rintro ⟨last, leads, walked⟩
      cases leads
      exact walked
  | cons part rest ih =>
    have ne_nil : part ≠ [] := nonempty part List.mem_cons_self
    replace ih := fun position => @ih position fun part there =>
      nonempty part (List.mem_cons_of_mem _ there)
    rw [List.cons_append]
    constructor
    · intro walked
      have opened : root.isOpen position := by
        by_contra shut
        exact not_walk_of_shut shut follow ne_nil _ walked
      by_cases dot : part = ['.']
      · rw [dot, walk_stay opened, ih] at walked
        obtain ⟨last, leads, walked⟩ := walked
        exact ⟨last, dot ▸ .stay opened leads, walked⟩
      by_cases dots : part = ['.', '.']
      · rw [dots, walk_up opened, ih] at walked
        obtain ⟨last, leads, walked⟩ := walked
        exact ⟨last, dots ▸ .up opened leads, walked⟩
      rw [walk_down_iff linkless named opened follow ne_nil dot dots, ih] at walked
      obtain ⟨there, last, leads, walked⟩ := walked
      exact ⟨last, .down opened dot dots there leads, walked⟩
    · rintro ⟨last, leads, walked⟩
      cases leads with
      | stay opened further =>
        rw [walk_stay opened, ih]
        exact ⟨last, further, walked⟩
      | up opened further =>
        rw [walk_up opened, ih]
        exact ⟨last, further, walked⟩
      | down opened dot dots there further =>
        rw [walk_down_iff linkless named opened follow ne_nil dot dots, ih]
        exact ⟨there, last, further, walked⟩

/-- A slash at the end of a path asks for a directory and leads no further. -/
theorem exists_slash (path : Text) :
    ∃ slash, (slash = [] ∨ slash = [[]]) ∧ route path = Path.parts path ++ slash := by
  rw [route]
  split
  · exact ⟨[[]], .inr rfl, rfl⟩
  · exact ⟨[], .inl rfl, (List.append_nil _).symm⟩

theorem eq_of_walk_slash {follow : Place → Text → List Text → Except Errno Destination}
    {slash : List Text} (slashed : slash = [] ∨ slash = [[]])
    (walked : walk root .reach follow ⟨position, []⟩ slash = .ok (.found place)) :
    place = ⟨position, []⟩ := by
  rcases slashed with rfl | rfl
  · simpa [walk, eq_comm] using walked
  · rcases exists_step_of_found walked with ⟨next, takes, ended⟩ | ⟨target, follows, -⟩
    · cases takes with
      | slash => simpa [walk, eq_comm] using ended
      | down looks => exact absurd rfl looks.ne_nil
    · exact absurd rfl follows.looks.ne_nil

theorem walk_slash (opened : root.isOpen position)
    (follow : Place → Text → List Text → Except Errno Destination) {slash : List Text}
    (slashed : slash = [] ∨ slash = [[]]) :
    walk root .reach follow ⟨position, []⟩ slash = .ok (.found ⟨position, []⟩) := by
  obtain ⟨attributes, seen, -⟩ := look_of_isOpen opened
  rcases slashed with rfl | rfl
  · rfl
  · rw [walk_takes (.slash fun _ => ⟨attributes, seen⟩), walk]

theorem leads_of_walkLinks (linkless : root.Linkless) (named : root.Named) {links : Nat}
    {path : Text}
    (walked : walkLinks root .reach links ⟨position, []⟩ (route path) = .ok (.found place)) :
    place.lost = [] ∧ root.Leads position (Path.parts path) place.base := by
  obtain ⟨follow, walks⟩ := exists_walk root .reach links
  obtain ⟨slash, slashed, split⟩ := exists_slash path
  rw [walks, split,
    walk_iff_leads linkless named follow fun part => Path.ne_nil_of_mem_parts] at walked
  obtain ⟨last, leads, ended⟩ := walked
  obtain rfl := eq_of_walk_slash slashed ended
  exact ⟨rfl, leads⟩

theorem walkLinks_of_leads (linkless : root.Linkless) (named : root.Named) (links : Nat)
    {path : Text} {last : Position} (leads : root.Leads position (Path.parts path) last)
    (opened : root.isOpen last) :
    walkLinks root .reach links ⟨position, []⟩ (route path) = .ok (.found ⟨last, []⟩) := by
  obtain ⟨follow, walks⟩ := exists_walk root .reach links
  obtain ⟨slash, slashed, split⟩ := exists_slash path
  rw [walks, split, walk_iff_leads linkless named follow fun part => Path.ne_nil_of_mem_parts]
  exact ⟨last, leads, walk_slash opened follow slashed⟩

end Resolve

namespace Node

variable {root : Node} {position last : Position} {place : Place} {target : Text}

/-- One can go where a path leads and nowhere else. -/
theorem reachDir_iff_leadsIn (linkless : root.Linkless) (named : root.Named) :
    root.reachDir ⟨position, []⟩ target = .ok place ↔
      ∃ last, place = ⟨last, []⟩ ∧ root.LeadsIn position target last := by
  have start : Resolve.start ⟨position, []⟩ target =
      ⟨if Path.isAbsolute target then [] else position, []⟩ := by
    rw [Resolve.start]
    split <;> rfl
  rw [reachDir_eq_ok, reach_eq_ok, start]
  constructor
  · rintro ⟨⟨nonempty, fits, walked⟩, opened⟩
    obtain ⟨live, leads⟩ := Resolve.leads_of_walkLinks linkless named walked
    obtain ⟨last, _⟩ := place
    obtain rfl := live
    exact ⟨last, rfl, nonempty, fits, leads, opened rfl⟩
  · rintro ⟨last, rfl, nonempty, fits, leads, opened⟩
    exact ⟨⟨nonempty, fits, Resolve.walkLinks_of_leads linkless named _ leads opened⟩,
      fun _ => opened⟩

end Node
namespace World

variable {world moved : World} {position : Position} {target : Text}

/-- Without links one can go just where a path leads. -/
theorem changeDir_iff_leadsIn (linkless : world.machine.root.Linkless)
    (named : world.machine.root.Named) (stands : world.place = ⟨position, []⟩) :
    world.changeDir target = .ok moved ↔ ∃ last, moved = { world with place := ⟨last, []⟩ } ∧
      world.machine.root.LeadsIn position target last := by
  rw [changeDir_eq_ok, stands]
  constructor
  · rintro ⟨-, place, reached, rfl⟩
    obtain ⟨last, rfl, leadsIn⟩ := (Node.reachDir_iff_leadsIn linkless named).mp reached
    exact ⟨last, rfl, leadsIn⟩
  · rintro ⟨last, rfl, leadsIn⟩
    exact ⟨leadsIn.no_nul named, ⟨last, []⟩,
      (Node.reachDir_iff_leadsIn linkless named).mpr ⟨last, rfl, leadsIn⟩, rfl⟩

end World

namespace Builtin

variable {world world' moved : World} {verdict : Verdict} {position : Position} {operand : Text}

/-- With an operand other than `-`, `cd` succeeds just where one can go, and prints nothing. -/
theorem runCd_operand_iff (other : operand ≠ ['-']) (output : Output) (name : Text) :
    (runCd output [name, operand]).outcome world = (.ok verdict, world') ↔
      verdict = .proceed ∧ ∃ target moved, world.expandTilde operand = .ok target ∧
        world.changeDir target = .ok moved ∧
          world' = arrived moved (dirToLeave world) target := by
  have told {target shown : Text} : cdTarget world (some operand) = .ok (target, shown) ↔
      world.expandTilde operand = .ok target ∧ operand = shown := by
    rw [cdTarget, if_neg other]
    cases world.expandTilde operand <;> simp [Except.mapError, Except.map]
  rw [runCd_ok_iff]
  simp [told, other]

/-- The shell stands at a position of the tree, and `PWD` is the path of the position. -/
structure StandsAt (world : World) (position : Position) : Prop where
  place : world.place = ⟨position, []⟩
  held : world.getenv "PWD" = some (Path.ofNames position)

namespace StandsAt

theorem physicalDir (stands : StandsAt world position) :
    world.physicalDir = .ok (Path.ofNames position) := by
  rw [World.physicalDir, stands.place]
  rfl

theorem logicalDir (stands : StandsAt world position) :
    world.logicalDir = .ok (Path.ofNames position) := by
  have absolute : world.absolutePwd = some (Path.ofNames position) := by
    rw [World.absolutePwd, stands.held]
    rfl
  rw [World.logicalDir, absolute]
  exact (ite_eq_left_iff).mpr fun _ => stands.physicalDir

theorem dirToLeave (stands : StandsAt world position) :
    dirToLeave world = some (Path.ofNames position) := by
  rw [Builtin.dirToLeave, stands.logicalDir]

end StandsAt

/-- What `pwd` prints when it has these options. -/
def PwdPrints (world : World) (options : List Text) (text : Text) : Prop :=
  ∀ (output : Output) (name : Text), (runPwd output (name :: options)).outcome world =
    (do output.line text; return .proceed : Act CommandError Verdict).outcome world

namespace StandsAt

theorem pwd (stands : StandsAt world position) : PwdPrints world [] (Path.ofNames position) :=
  runPwd_of_logicalDir stands.logicalDir

theorem pwd_physical (stands : StandsAt world position) :
    PwdPrints world ["-P".toList] (Path.ofNames position) := by
  intro output name
  have answer : (Act.ofExcept (world.physicalDir.mapError CommandError.io)).outcome world =
      (.ok (Path.ofNames position), world) := by simp [mapError_eq_ok, stands.physicalDir]
  have other : ¬ "-P".toList = "-L".toList := by decide
  simp only [runPwd, Act.outcome_bind, Act.outcome_get, List.tail_cons, List.head?_cons, other,
    if_false, if_true, answer]

/-- The shell that goes where a target leads comes to stand there. -/
theorem arrived {target : Text} {last : Position} (named : world.machine.root.Named)
    (stands : StandsAt world position) (leadsIn : world.machine.root.LeadsIn position target last) :
    StandsAt (arrived { world with place := ⟨last, []⟩ } (Builtin.dirToLeave world) target)
      last := by
  -- the way that was taken is the path without links, so it is no matter which of them counts
  have name : nameOfNew { world with place := ⟨last, []⟩ } (Builtin.dirToLeave world) target =
      Path.ofNames last := by
    rw [nameOfNew, stands.dirToLeave, wayTaken, leadsIn.lexicalJoin named, Option.filter_some]
    split
    · next taken =>
      split at taken
      · exact (Option.some.inj taken).symm
      · cases taken
    · rfl
  refine ⟨place_remember .., ?_⟩
  rw [Builtin.arrived, name]
  exact World.getenv_setenv ..

end StandsAt

/-- Two directories beside each other, with one more in the second of them. -/
def neighbourTree : Node :=
  .dir [("a".toList, .dir [] .ownDir), ("b".toList, .dir [("c".toList, .dir [] .ownDir)] .ownDir)]
    .ownDir

/-- A shell that is not at home, and in which `HOME` is not set. -/
def neighbourWorld : World :=
  { session := { vars := { environment := .ofList [("PWD".toList, "/a".toList)] } }
    place := ⟨["a".toList], []⟩, descriptors := ∅, machine := { root := neighbourTree }
    accountHome := "/b".toList }

/-- A shell above a directory that does not let itself be searched. -/
def aboveShutWorld : World :=
  { session := { vars := { environment := .ofList [("PWD".toList, "/".toList)] } }
    place := .root, descriptors := ∅, machine := { root := shutTree } }

end Builtin
end LineShell
