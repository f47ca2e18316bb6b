import LineShell.FileTree.Resolve
import LineShell.Proofs.PathNames
import Mathlib.Data.List.Infix

/-! What a walk through the file tree depends on. All it ever sees of a node is whether it is a
directory, and what that permits, or a link, and where that leads (`walk_cons`); so trees that look
alike are walked alike (`resolve_congr`), and writing into a file changes no walk (`look_put`). The
path without links of a directory leads back to it (`reach_ofNames`), as long as it is short enough
and every directory on the way lets itself be searched. No walk comes out of the tree
(`lost_of_walk`). -/

namespace LineShell

/-- What a walk sees of a node. -/
inductive Sight
  | dir (attributes : Attributes)
  | link (target : Text)
  | other
  deriving Repr, DecidableEq

def Sight.isOpen : Sight → Bool
  | dir attributes => attributes.permits .search
  | _ => false

/-- A name that a directory can hold. -/
structure IsName (name : Text) : Prop extends Path.IsPlain name where
  no_nul : '\x00' ∉ name
  short : byteSize name ≤ Resolve.nameLimit

instance (name : Text) : Decidable (IsName name) :=
  decidable_of_iff ((name ≠ [] ∧ '/' ∉ name ∧ name ≠ ['.'] ∧ name ≠ ['.', '.']) ∧
      '\x00' ∉ name ∧ byteSize name ≤ Resolve.nameLimit)
    ⟨fun ⟨⟨a, b, c, d⟩, e, f⟩ => ⟨⟨a, b, c, d⟩, e, f⟩,
      fun ⟨⟨a, b, c, d⟩, e, f⟩ => ⟨⟨a, b, c, d⟩, e, f⟩⟩

theorem Place.isLive_iff {place : Place} : place.isLive ↔ place.lost = [] := List.isEmpty_iff

theorem no_nul_ofNames {names : List Text} (named : ∀ name ∈ names, IsName name) :
    '\x00' ∉ Path.ofNames names :=
  List.not_mem_cons_of_ne_of_not_mem (by decide)
    (not_mem_join (by decide) fun name there => (named name there).no_nul)

namespace Node

def sight : Node → Sight
  | dir _ attributes => .dir attributes
  | link target => .link target
  | _ => .other

/-- What a walk sees at a position. -/
def look (root : Node) (position : Position) : Option Sight := (root.at? position).map sight

/-- At the position there is a directory through which a walk can go on. -/
def isOpen (root : Node) (position : Position) : Bool := (root.look position).any Sight.isOpen

/-- Every entry of every directory in the tree has a name that a directory can hold. -/
inductive Named : Node → Prop
  | file {content : Bytes} {attributes : Attributes} : Named (file content attributes)
  | utility {u : Utility} : Named (utility u)
  | device {d : Device} : Named (device d)
  | link {target : Text} : Named (link target)
  | dir {entries : List (Text × Node)} {attributes : Attributes}
      (names : ∀ entry ∈ entries, IsName entry.1) (nodes : ∀ entry ∈ entries, Named entry.2) :
      Named (dir entries attributes)

/-- A walk can go from the root down to the position, and on from there. -/
def Passable (root : Node) (position : Position) : Prop :=
  ∀ above ∈ position.inits, root.isOpen above

instance (root : Node) (position : Position) : Decidable (root.Passable position) :=
  inferInstanceAs (Decidable (∀ above ∈ position.inits, _))

/-- The system can follow the path of the position. -/
structure Followable (root : Node) (position : Position) : Prop where
  passable : root.Passable position
  fits : byteSize (Path.ofNames position) < Resolve.pathLimit

instance (root : Node) (position : Position) : Decidable (root.Followable position) :=
  decidable_of_iff (root.Passable position ∧ byteSize (Path.ofNames position) < Resolve.pathLimit)
    ⟨fun ⟨passable, fits⟩ => ⟨passable, fits⟩, fun ⟨passable, fits⟩ => ⟨passable, fits⟩⟩

theorem look_of_isOpen {root : Node} {position : Position} (opened : root.isOpen position) :
    ∃ attributes, root.look position = some (.dir attributes) ∧ attributes.permits .search := by
  obtain ⟨sight, seen, searchable⟩ := (Option.any_eq_true _ _).mp opened
  cases sight with
  | dir attributes => exact ⟨attributes, seen, searchable⟩
  | link | other => simp [Sight.isOpen] at searchable

theorem at?_append (root : Node) (above below : Position) :
    root.at? (above ++ below) = (root.at? above).bind (·.at? below) := by
  induction above generalizing root with
  | nil => rfl
  | cons name above ih =>
    rw [List.cons_append, at?, at?]
    cases root.child? name with
    | none => rfl
    | some child => exact ih child

theorem at?_concat (root : Node) (above : Position) (name : Text) :
    root.at? (above ++ [name]) = (root.at? above).bind (·.child? name) := by
  rw [at?_append]
  cases root.at? above with
  | none => rfl
  | some node => simp only [Option.bind_some, at?, Option.bind_fun_some]

/-- What is above an open directory are directories. -/
theorem look_of_isOpen_append {root : Node} {above below : Position}
    (opened : root.isOpen (above ++ below)) :
    ∃ attributes, root.look above = some (.dir attributes) := by
  obtain ⟨attributes, seen, -⟩ := look_of_isOpen opened
  obtain ⟨node, there, seen⟩ := Option.map_eq_some_iff.mp seen
  rw [at?_append] at there
  obtain ⟨directory, found, further⟩ := Option.bind_eq_some_iff.mp there
  cases directory with
  | dir entries attributes =>
    exact ⟨attributes, by rw [look, found]; rfl⟩
  | file | utility | device | link =>
    cases below with
    | nil =>
      obtain rfl := Option.some.inj further
      cases seen
    | cons => simp [at?, child?] at further

theorem isName_of_at? {root node : Node} (named : root.Named) {position : Position}
    (there : root.at? position = some node) : ∀ name ∈ position, IsName name := by
  induction position generalizing root with
  | nil => exact fun _ absent => absurd absent List.not_mem_nil
  | cons first rest ih =>
    obtain ⟨child, below, there⟩ := Option.bind_eq_some_iff.mp there
    cases named with
    | dir names nodes =>
      obtain ⟨entry, held, rfl⟩ := Option.map_eq_some_iff.mp below
      have member := List.mem_of_find?_eq_some held
      have called : entry.1 = first := by simpa using List.find?_some held
      intro name named
      rcases List.mem_cons.mp named with rfl | later
      · exact called ▸ names entry member
      · exact ih (nodes entry member) there name later
    | file | utility | device | link => simp [child?] at below

theorem isOpen_congr {root root' : Node} (alike : root.look = root'.look) (position : Position) :
    root.isOpen position = root'.isOpen position := by
  rw [isOpen, isOpen, alike]

theorem isName_of_isOpen {root : Node} (named : root.Named) {position : Position}
    (opened : root.isOpen position) : ∀ name ∈ position, IsName name := by
  obtain ⟨attributes, seen, -⟩ := look_of_isOpen opened
  obtain ⟨node, there, -⟩ := Option.map_eq_some_iff.mp seen
  exact isName_of_at? named there

end Node

namespace Resolve

variable {root root' : Node} {purpose : Purpose}

/-- One part of a walk, told by what the walk sees. -/
theorem walk_cons (follow : Place → Text → List Text → Except Errno Destination) (place : Place)
    (part : Text) (rest : List Text) :
    walk root purpose follow place (part :: rest) =
      if !place.isLive then
        if part = [] ∨ part = ['.'] then walk root purpose follow place rest
        else if part = ['.', '.'] then walk root purpose follow place.parent rest
        else .error .noEntry
      else match root.look place.base with
        | some (.dir attributes) =>
          if part = [] then walk root purpose follow place rest
          else if !attributes.permits .search then .error .accessDenied
          else if part = ['.'] then walk root purpose follow place rest
          else if part = ['.', '.'] then walk root purpose follow place.parent rest
          else if nameLimit < byteSize part then .error .nameTooLong
          else if purpose = .create ∧ rest = [[]] then .error .isDirectory
          else match root.look (place.base ++ [part]) with
            | some (.link target) => follow place target rest
            | some _ => walk root purpose follow (place.child part) rest
            | none => if rest.isEmpty then .ok (.vacant place.base part) else .error .noEntry
        | some _ => .error .notDirectory
        | none => .error .noEntry := by
  rw [walk, Node.look, Node.look, Node.at?_concat]
  cases root.at? place.base with
  | none => rfl
  | some node =>
    cases node with
    | dir entries attributes =>
      cases hchild : (Node.dir entries attributes).child? part with
      | none => simp only [Option.map_some, Option.bind_some, hchild, Option.map_none, Node.sight]
      | some child =>
        cases child <;> simp only [Option.map_some, Option.bind_some, hchild, Node.sight]
    | file | utility | device | link => rfl

theorem walk_congr (alike : root.look = root'.look)
    (follow : Place → Text → List Text → Except Errno Destination) (place : Place)
    (parts : List Text) :
    walk root purpose follow place parts = walk root' purpose follow place parts := by
  -- `rw [walk]` would bring back the nodes themselves, which are not the same in the two trees
  induction parts generalizing place with
  | nil => rfl
  | cons part rest ih => simp only [walk_cons, alike, ih]

theorem walkLinks_congr (alike : root.look = root'.look) (links : Nat) :
    walkLinks root purpose links = walkLinks root' purpose links := by
  induction links with
  | zero => funext place parts; exact walk_congr alike _ place parts
  | succ links ih =>
    funext place parts
    rw [walkLinks, walkLinks, ih]
    exact walk_congr alike _ place parts

/-- No part of a walk is taken where there is no open directory. -/
theorem not_walk_of_shut {position : Position} {place : Place} (shut : ¬ root.isOpen position)
    (follow : Place → Text → List Text → Except Errno Destination) {part : Text}
    (ne_nil : part ≠ []) (rest : List Text) :
    walk root .reach follow ⟨position, []⟩ (part :: rest) ≠ .ok (.found place) := by
  intro walked
  rw [walk_cons] at walked
  cases seen : root.look position with
  | none => simp [Place.isLive, seen] at walked
  | some sight =>
    cases sight with
    | dir attributes =>
      have kept : attributes.permits .search = false := by
        simpa [Node.isOpen, seen, Sight.isOpen] using shut
      simp [Place.isLive, seen, ne_nil, kept] at walked
    | link | other => simp [Place.isLive, seen] at walked

/-- A name is walked in an open directory when what is there is not a link. -/
theorem walk_name (follow : Place → Text → List Text → Except Errno Destination) {above : Position}
    {name : Text} {sight : Sight} (isName : IsName name) (opened : root.isOpen above)
    (there : root.look (above ++ [name]) = some sight) (noLink : ∀ target, sight ≠ .link target)
    (rest : List Text) : walk root .reach follow ⟨above, []⟩ (name :: rest) =
      walk root .reach follow ⟨above ++ [name], []⟩ rest := by
  obtain ⟨_, seen, searchable⟩ := Node.look_of_isOpen opened
  rw [walk_cons]
  simp only [seen, there, searchable, isName.ne_nil, isName.ne_dot, isName.ne_dots, Place.isLive,
    Place.child, Nat.not_lt.mpr isName.short, List.isEmpty_nil, Bool.not_true, Bool.false_eq_true,
    reduceCtorEq, false_and, if_false]

/-- A walk along names meets no link when a directory is seen after each of them. -/
theorem walk_names (follow : Place → Text → List Text → Except Errno Destination) {names : Position}
    (above : Position) (named : ∀ name ∈ names, IsName name)
    (passable : ∀ front, front <+: names → root.isOpen (above ++ front)) :
    walk root .reach follow ⟨above, []⟩ names = .ok (.found ⟨above ++ names, []⟩) := by
  induction names generalizing above with
  | nil => rw [walk, List.append_nil]
  | cons name rest ih =>
    have here := passable [] List.nil_prefix
    have below := passable [name] (by simp)
    rw [List.append_nil] at here
    obtain ⟨_, next, -⟩ := Node.look_of_isOpen below
    -- the node below is a directory too, so the walk goes on in it and follows nothing
    rw [walk_name follow (named name List.mem_cons_self) here next (by simp),
      ih (above ++ [name]) (fun name there => named name (List.mem_cons_of_mem _ there))
        fun front ahead => by simpa using passable (name :: front) (by simpa using ahead),
      List.append_assoc, List.singleton_append]

/-- Conversely a walk along the names of an open directory goes through open directories only. -/
theorem passable_of_walk {follow : Place → Text → List Text → Except Errno Destination}
    {found : Place} {names : Position} (above : Position) (named : ∀ name ∈ names, IsName name)
    (opened : root.isOpen (above ++ names))
    (walked : walk root .reach follow ⟨above, []⟩ names = .ok (.found found)) :
    ∀ front, front <+: names → root.isOpen (above ++ front) := by
  induction names generalizing above with
  | nil =>
    intro front ahead
    rwa [List.prefix_nil.mp ahead]
  | cons name rest ih =>
    have isName := named name List.mem_cons_self
    have here : root.isOpen above := by
      by_contra shut
      exact not_walk_of_shut shut follow isName.ne_nil rest walked
    rw [← List.singleton_append, ← List.append_assoc] at opened
    obtain ⟨_, next⟩ := Node.look_of_isOpen_append opened
    rw [walk_name follow isName here next (by simp)] at walked
    have further := ih (above ++ [name])
      (fun name there => named name (List.mem_cons_of_mem _ there)) opened walked
    intro front ahead
    cases front with
    | nil => rwa [List.append_nil]
    | cons first front =>
      obtain ⟨rfl, rest⟩ := List.cons_prefix_cons.mp ahead
      simpa using further front rest

theorem walkLinks_names {names : Position} (links : Nat) (named : ∀ name ∈ names, IsName name)
    (passable : root.Passable names) :
    walkLinks root .reach links .root names = .ok (.found ⟨names, []⟩) := by
  have along : ∀ front, front <+: names → root.isOpen ([] ++ front) :=
    fun front ahead => passable front ((List.mem_inits _ _).mpr ahead)
  cases links <;> exact walk_names _ [] named along

theorem walkLinks_dot (links : Nat) {here : Place} (opened : root.isOpen here.base) :
    walkLinks root purpose links here [['.']] = .ok (.found here) := by
  obtain ⟨_, seen, searchable⟩ := Node.look_of_isOpen opened
  have one (follow : Place → Text → List Text → Except Errno Destination) :
      walk root purpose follow here [['.']] = .ok (.found here) := by
    rw [walk_cons]
    simp only [seen, searchable, walk]
    cases here.isLive <;> simp
  cases links <;> exact one _

theorem exists_walk (root : Node) (purpose : Purpose) (links : Nat) :
    ∃ follow, walkLinks root purpose links = walk root purpose follow := by
  cases links <;> exact ⟨_, rfl⟩

/-- Nobody comes out of the tree by walking in it. -/
theorem lost_of_walk {place found : Place}
    {follow : Place → Text → List Text → Except Errno Destination}
    (follows : ∀ {place : Place} {target : Text} {rest : List Text}, place.lost = [] →
      follow place target rest = .ok (.found found) → found.lost = [])
    {parts : List Text} (live : place.lost = [])
    (walked : walk root purpose follow place parts = .ok (.found found)) : found.lost = [] := by
  induction parts generalizing place with
  | nil =>
    obtain rfl : place = found := by simpa [walk] using walked
    exact live
  | cons part rest ih =>
    have up : place.parent.lost = [] := by simp [Place.parent, live]
    have down : (place.child part).lost = [] := live
    have isLive := Place.isLive_iff.mpr live
    rw [walk_cons] at walked
    simp only [isLive, Bool.not_true, Bool.false_eq_true, if_false] at walked
    repeat' split at walked
    all_goals first
      | exact ih live walked
      | exact ih up walked
      | exact ih down walked
      | exact follows live walked
      | cases walked

theorem lost_of_walkLinks {place found : Place} {links : Nat} {parts : List Text}
    (live : place.lost = [])
    (walked : walkLinks root purpose links place parts = .ok (.found found)) :
    found.lost = [] := by
  induction links generalizing place parts with
  | zero => exact lost_of_walk (fun _ failed => by cases failed) live walked
  | succ links ih =>
    refine lost_of_walk (fun live walked => ih ?_ walked) live walked
    rw [start]
    split
    · rfl
    · exact live

theorem route_ofNames {names : Position} (named : ∀ name ∈ names, IsName name) :
    route (Path.ofNames names) = names := by
  have parts : Path.parts (Path.ofNames names) = names :=
    Path.parts_ofNames fun name there => (named name there).toIsPlain
  rw [route, parts]
  cases names with
  | nil => rfl
  | cons name more =>
    have ends : (join '/' (name :: more)).getLast? ≠ some '/' :=
      getLast?_join_ne fun text there => ⟨(named text there).ne_nil, (named text there).no_slash⟩
    have held : join '/' (name :: more) ≠ [] :=
      join_ne_nil (named name List.mem_cons_self).ne_nil more
    rw [Path.ofNames, List.getLast?_cons_of_ne_nil held]
    simp [ends]

end Resolve

namespace Node

open Resolve

variable {root root' : Node}

theorem resolve_congr (alike : root.look = root'.look) (here : Place) (purpose : Purpose)
    (path : Text) : root.resolve here purpose path = root'.resolve here purpose path := by
  rw [resolve, resolve, walkLinks_congr alike]

theorem reach_congr (alike : root.look = root'.look) (here : Place) (path : Text) :
    root.reach here path = root'.reach here path := by
  rw [reach, reach, resolve_congr alike]

/-- What it takes to reach something by a path. -/
theorem reach_eq_ok {here place : Place} {target : Text} : root.reach here target = .ok place ↔
    target ≠ [] ∧ byteSize target < pathLimit ∧
      walkLinks root .reach linkLimit (start here target) (route target) = .ok (.found place) := by
  rw [reach, resolve]
  by_cases empty : target = []
  · simp [empty]
  by_cases long : pathLimit ≤ byteSize target
  · simp [empty, long, Nat.not_lt.mpr long]
  rw [if_neg (by simpa using empty), if_neg long]
  generalize walkLinks root .reach _ _ _ = walked
  cases walked with
  | error e => simp
  | ok destination => cases destination <;> simp [empty, Nat.not_le.mp long]

theorem reach_ofNames {position : Position} (named : ∀ name ∈ position, IsName name)
    (followable : root.Followable position) (here : Place) :
    root.reach here (Path.ofNames position) = .ok ⟨position, []⟩ := by
  refine reach_eq_ok.mpr ⟨List.cons_ne_nil _ _, followable.fits, ?_⟩
  rw [route_ofNames named, start, Path.isAbsolute_ofNames, if_pos rfl,
    walkLinks_names linkLimit named followable.passable]

theorem reach_of_long {path : Text} (long : pathLimit ≤ byteSize path) (here : Place) :
    root.reach here path = .error .nameTooLong := by
  have held : path.isEmpty = false := by
    cases path with
    | nil => simp [byteSize, pathLimit] at long
    | cons => rfl
  rw [reach, resolve, held, if_neg Bool.false_ne_true, if_pos long]

theorem reach_dot {here : Place} (opened : root.isOpen here.base) :
    root.reach here ['.'] = .ok here :=
  reach_eq_ok.mpr ⟨by decide, by decide, walkLinks_dot linkLimit opened⟩

/-! Writing into a file leaves the look of the tree as it was. -/

theorem child?_map (name : Text) (f : Node → Node) (entries : List (Text × Node))
    (attributes : Attributes) (wanted : Text) :
    (dir (entries.map fun entry => if entry.1 = name then (entry.1, f entry.2) else entry)
      attributes).child? wanted =
    if wanted = name then ((dir entries attributes).child? wanted).map f
    else (dir entries attributes).child? wanted := by
  simp only [child?]
  induction entries with
  | nil => simp
  | cons entry rest ih => grind

theorem child?_setChild (name : Text) (child : Node) (entries : List (Text × Node))
    (attributes : Attributes) (wanted : Text) :
    (setChild name child (dir entries attributes)).child? wanted =
      if wanted = name then some child else (dir entries attributes).child? wanted := by
  simp only [setChild, child?]
  induction entries with
  | nil => by_cases same : wanted = name <;> simp [Table.put, same, eq_comm]
  | cons entry rest ih => grind [Table.put]

theorem look_dir_congr {entries entries' : List (Text × Node)} {attributes : Attributes}
    (alike : ∀ name, ((dir entries attributes).child? name).map look =
      ((dir entries' attributes).child? name).map look) :
    (dir entries attributes).look = (dir entries' attributes).look := by
  funext position
  cases position with
  | nil => rfl
  | cons name rest =>
    have step (node : Node) :
        node.look (name :: rest) = ((node.child? name).map look).bind (· rest) := by
      rw [look, at?]
      cases node.child? name <;> rfl
    rw [step, step, alike]

theorem look_modify {change : Node → Node} {position : Position} {root node : Node}
    (there : root.at? position = some node) (alike : (change node).look = node.look) :
    (root.modify change position).look = root.look := by
  induction position generalizing root with
  | nil =>
    obtain rfl : root = node := Option.some.inj there
    exact alike
  | cons name rest ih =>
    obtain ⟨child, below, further⟩ := Option.bind_eq_some_iff.mp there
    cases root with
    | dir entries attributes =>
      refine look_dir_congr fun wanted => ?_
      rw [child?_map]
      by_cases same : wanted = name
      · rw [if_pos same, same, below, Option.map_some, Option.map_some, ih further, Option.map_some]
      · rw [if_neg same]
    | file | utility | device | link => simp [child?] at below

theorem look_setChild {directory old child : Node} {name : Text}
    (there : directory.child? name = some old) (alike : child.look = old.look) :
    (setChild name child directory).look = directory.look := by
  cases directory with
  | dir entries attributes =>
    refine look_dir_congr fun wanted => ?_
    rw [← setChild, child?_setChild]
    by_cases same : wanted = name
    · rw [if_pos same, same, there, Option.map_some, Option.map_some, alike]
    · rw [if_neg same]
  | file | utility | device | link => simp [child?] at there

theorem look_put {position : Position} {old child : Node} (there : root.at? position = some old)
    (alike : child.look = old.look) : (root.put position child).look = root.look := by
  rcases List.eq_nil_or_concat position with rfl | ⟨above, name, rfl⟩
  · obtain rfl : root = old := Option.some.inj there
    exact alike
  · rw [List.concat_eq_append, at?_concat] at there
    obtain ⟨directory, found, below⟩ := Option.bind_eq_some_iff.mp there
    simp only [put, List.concat_eq_append, List.getLast?_concat, List.dropLast_concat]
    exact look_modify found (look_setChild below alike)

theorem look_file (content content' : Bytes) (attributes attributes' : Attributes) :
    (file content attributes).look = (file content' attributes').look := by
  funext position
  cases position <;> rfl

end Node

end LineShell
