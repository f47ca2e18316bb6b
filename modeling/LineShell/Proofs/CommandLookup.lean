import LineShell.Proofs.ChangeDirectory
import LineShell.Proofs.CommandFiles
import LineShell.Proofs.WalkSteps

/-! Which file a command name stands for. Whether a path leads to a program depends on what walks
see and on which files may be executed, and the files that a command opens change neither for any
program: a file that is emptied keeps its permissions, and one that is made may not be executed
(`keeps_isExecutable`). So a name stands for the same file before and after the files of its command
are opened (`findExecutable_opened`). What that file is, is said in the words of the search list
(`isFound_iff`). -/

namespace LineShell

open Act

/-- A regular file that someone may execute; the programs of the machine are such files. -/
def Face.isProgram : Face → Bool
  | file _ attributes => attributes.isExecutable
  | utility _ => true
  | _ => false

/-- No new file may be executed, whatever the mask lets through. -/
theorem Attributes.isExecutable_of_made (mine : Bool) (bits now : Nat) :
    isExecutable ⟨mine, 0o666 &&& bits, now⟩ = false := by
  have off (i : Nat) (clear : Nat.testBit 0o666 i = false) : ¬ (0o666 &&& bits) / 2 ^ i % 2 = 1 := by
    have bit : (0o666 &&& bits).testBit i = false := by rw [Nat.testBit_and, clear, Bool.false_and]
    rwa [Nat.testBit_eq_decide_div_mod_eq, decide_eq_false_iff_not] at bit
  have owner := off 6 (by decide)
  have group := off 3 (by decide)
  have other := off 0 (by decide)
  rw [Nat.pow_zero, Nat.div_one] at other
  simp only [isExecutable, Bool.or_eq_false_iff, decide_eq_false_iff_not]
  exact ⟨⟨owner, group⟩, other⟩

namespace Node

open Resolve

variable {root root' : Node}

/-- There is a program at the position. -/
def holdsProgram (root : Node) (position : Position) : Bool :=
  (root.seen position).any Face.isProgram

/-- The path leads to a program that is part of the tree. -/
def Runs (root : Node) (here : Place) (path : Text) : Prop :=
  ∃ position, root.reach here path = .ok ⟨position, []⟩ ∧ root.holdsProgram position

theorem look_of_holdsProgram {position : Position} (holds : root.holdsProgram position) :
    root.look position = some .other := by
  obtain ⟨face, seen, program⟩ := (Option.any_eq_true _ _).mp holds
  rw [look_eq_seen, seen]
  cases face with
  | file | utility => rfl
  | device | link | dir => cases program

theorem runs_congr (alike : root.look = root'.look) (same : root.holdsProgram = root'.holdsProgram)
    (here : Place) (path : Text) : root.Runs here path ↔ root'.Runs here path := by
  simp only [Runs, reach_congr alike, same]

end Node

namespace Resolve

variable {root root' : Node} {place found : Place} {made : Position}

/-- A walk that comes to a file ends there. -/
theorem eq_of_walk_file {position : Position} (file : root.look position = some .other)
    {follow : Place → Text → List Text → Except Errno Destination} {parts : List Text}
    (walked : walk root .reach follow ⟨position, []⟩ parts = .ok (.found found)) :
    found = ⟨position, []⟩ := by
  cases parts with
  | nil => exact (Destination.found.inj (Except.ok.inj walked)).symm
  | cons => simp [walk_cons, Place.isLive, file] at walked

variable (alike : ∀ position, position ≠ made → root'.look position = root.look position)
  (new : root'.look made = some .other) (elsewhere : found ≠ ⟨made, []⟩)
include alike new elsewhere

/-- A walk that does not end at a new file has not needed it. -/
theorem walk_without {follow follow' : Place → Text → List Text → Except Errno Destination}
    (follows : ∀ place target rest, follow' place target rest = .ok (.found found) →
      follow place target rest = .ok (.found found)) {parts : List Text}
    (walked : walk root' .reach follow' place parts = .ok (.found found)) :
    walk root .reach follow place parts = .ok (.found found) := by
  induction parts generalizing place with
  | nil => exact walked
  | cons part rest ih =>
    have here (live : place.isLive = true) : root'.look place.base = root.look place.base := by
      refine alike _ fun there => ?_
      have same : place = ⟨made, []⟩ := by rw [← there, ← Place.isLive_iff.mp live]
      rw [same] at walked
      exact elsewhere (eq_of_walk_file new walked)
    have opened (live : place.isLive = true) (opened : root'.isOpen place.base) :
        root.isOpen place.base := by rwa [Node.isOpen, ← here live]
    have looksUp (looks : root'.LooksUp place part) : root.LooksUp place part :=
      ⟨looks.toNames, looks.live, opened looks.live looks.opened⟩
    rcases exists_step_of_found walked with ⟨next, takes, ended⟩ | ⟨target, stops, ended⟩
    · have same : root.Takes place part next := by
        cases takes with
        | slash directory => exact .slash fun live => here live ▸ directory live
        | stay admits => exact .stay fun live => opened live (admits live)
        | up admits => exact .up fun live => opened live (admits live)
        | down looks short there noLink =>
          have other : place.base ++ [part] ≠ made := by
            intro below
            have child : place.child part = ⟨made, []⟩ := by
              rw [Place.child, below, Place.isLive_iff.mp looks.live]
            rw [child] at ended
            exact elsewhere (eq_of_walk_file new ended)
          exact .down (looksUp looks) short (alike _ other ▸ there) noLink
      rw [walk_takes same]
      exact ih ended
    · have other : place.base ++ [part] ≠ made := by
        intro below
        cases (below ▸ stops.there).symm.trans new
      have same : root.Follows place part target :=
        ⟨looksUp stops.looks, stops.short, alike _ other ▸ stops.there⟩
      rw [walk_follows same]
      exact follows _ _ _ ended

theorem walkLinks_without {links : Nat} {parts : List Text}
    (walked : walkLinks root' .reach links place parts = .ok (.found found)) :
    walkLinks root .reach links place parts = .ok (.found found) := by
  induction links generalizing place parts with
  | zero => exact walk_without alike new elsewhere (fun _ _ _ failed => by cases failed) walked
  | succ links ih => exact walk_without alike new elsewhere (fun _ _ _ walked => ih walked) walked

end Resolve

namespace Node

open Resolve

variable {root root' : Node} {here : Place} {path : Text} {made : Position}

/-- A new file that may not be executed is no program, and no program is reached through it. -/
theorem runs_made {content : Bytes} {attributes : Attributes}
    (changed : root'.seen = Function.update root.seen made (some (.file content attributes)))
    (vacant : root.seen made = none) (plain : attributes.isExecutable = false) :
    root'.Runs here path ↔ root.Runs here path := by
  have seen : root'.seen made = some (.file content attributes) := by
    rw [changed, Function.update_self]
  obtain ⟨within, new⟩ := within_of_update changed (by simp [vacant])
  have alike (position : Position) (other : position ≠ made) :
      root'.seen position = root.seen position := by rw [changed, Function.update_of_ne other]
  have look (position : Position) (other : position ≠ made) :
      root'.look position = root.look position := by
    rw [look_eq_seen, look_eq_seen, alike position other]
  constructor
  · rintro ⟨position, reached, program⟩
    have other : position ≠ made := by
      rintro rfl
      rw [holdsProgram, seen] at program
      exact absurd program (by simp [Face.isProgram, plain])
    obtain ⟨nonempty, short, walked⟩ := reach_eq_ok.mp reached
    refine ⟨position, reach_eq_ok.mpr ⟨nonempty, short, ?_⟩, ?_⟩
    · exact walkLinks_without look new (by simp [other]) walked
    · rwa [holdsProgram, alike position other] at program
  · rintro ⟨position, reached, program⟩
    have other : position ≠ made := by
      rintro rfl
      rw [holdsProgram, vacant] at program
      cases program
    obtain ⟨nonempty, short, walked⟩ := reach_eq_ok.mp reached
    refine ⟨position, reach_eq_ok.mpr ⟨nonempty, short, ?_⟩, ?_⟩
    · exact walkLinks_made within (by rintro _ _ ⟨⟩) linkLimit walked
    · rwa [holdsProgram, alike position other]

/-- A file that is written to is a program as much as it was. -/
theorem runs_written {content content' : Bytes} {attributes attributes' : Attributes}
    (changed : root'.seen = Function.update root.seen made (some (.file content' attributes')))
    (there : root.seen made = some (.file content attributes))
    (same : attributes'.isExecutable = attributes.isExecutable) :
    root'.Runs here path ↔ root.Runs here path := by
  refine runs_congr ?_ ?_ here path <;> funext position
  · rw [look_eq_seen, look_eq_seen, changed, Function.update_apply]
    split
    · next same => rw [same, there]; rfl
    · rfl
  · rw [holdsProgram, holdsProgram, changed, Function.update_apply]
    split
    · next here => rw [here, there]; exact same
    · rfl

end Node

namespace Machine

variable {m m' : Machine} {opener : Opener} {mode : OpenMode} {path : Text} {stream : Nat}

/-- What a file is made with. -/
theorem root_of_made {directory : Position} {name : Text}
    (opens : m.openPath opener path mode = .ok (stream, m')) (creates : mode.creates = true)
    (ends : m.root.resolve opener.place .create path = .ok (.vacant directory name)) :
    m'.root = m.root.put (directory ++ [name])
      (.file [] ⟨true, 0o666 &&& (0o777 ^^^ opener.mask), m.now⟩) := by
  rw [openPath] at opens
  obtain ⟨d, ends', opens⟩ := bind_eq_ok.mp opens
  rw [creates, if_pos rfl, ends] at ends'
  obtain rfl := Except.ok.inj ends'
  obtain ⟨-, opens⟩ := unless_ok.mp opens
  cases there : m.root.at? directory with
  | none => simp [there] at opens
  | some node =>
    rw [there] at opens
    obtain ⟨-, opens⟩ := unless_ok.mp opens
    cases opens
    rfl

/-- To open a file makes no program and takes none away. -/
theorem runs_openPath (opens : m.openPath opener path mode = .ok (stream, m'))
    (here : Place) (target : Text) : m'.root.Runs here target ↔ m.root.Runs here target := by
  obtain ⟨endpoint, files, opened, -, root⟩ := openPath_opened opens
  have root : m'.root = files.root := by rw [root]
  cases opened with
  | made creates ends attributes =>
    obtain ⟨⟨own, directory⟩, free⟩ := Node.resolve_vacant ends
    obtain ⟨entries, there⟩ := Node.at?_of_look_dir directory
    rw [Node.look_eq_seen] at free
    have vacant := Option.map_eq_none_iff.mp free
    rw [root_of_made opens creates ends]
    exact Node.runs_made (Node.seen_put_vacant there vacant _ _) vacant
      (Attributes.isExecutable_of_made _ _ _)
  | @file position content attributes ends there =>
    rw [root]
    dsimp only
    split
    · exact Node.runs_written (Node.seen_put_file there _ _)
        (congrArg (Option.map Node.face) there) rfl
    · rfl
  | again ends there leads again =>
    rw [root]
    cases again with
    | file leads there =>
      exact Node.runs_written (Node.seen_put_file there _ _)
        (congrArg (Option.map Node.face) there) rfl
    | buffer | other => rfl
  | other =>
    rw [root]
    rfl

end Machine

namespace World

variable {world : World} {path : Text}

/-- The path can be handed to the system, and leads to a program. -/
def Runs (world : World) (path : Text) : Prop :=
  '\x00' ∉ path ∧ world.machine.root.Runs world.place path

theorem isExecutable_of_reach {place : Place} (reached : world.reach path = .ok place) :
    world.isExecutable path = (place.isLive && world.machine.root.holdsProgram place.base) := by
  rw [isExecutable, reached, Node.holdsProgram, Node.seen]
  dsimp only
  cases world.machine.root.at? place.base with
  | none => rfl
  | some node => cases node <;> rfl

theorem isExecutable_iff : world.isExecutable path ↔ world.Runs path := by
  rw [Runs, Node.Runs]
  cases reached : world.reach path with
  | error e =>
    constructor
    · intro executable
      rw [isExecutable, reached] at executable
      cases executable
    · rintro ⟨clean, position, leads, -⟩
      cases reached.symm.trans (reach_eq_ok.mpr ⟨clean, leads⟩)
  | ok place =>
    obtain ⟨clean, leads⟩ := reach_eq_ok.mp reached
    rw [isExecutable_of_reach reached, Bool.and_eq_true, Place.isLive_iff, leads]
    constructor
    · rintro ⟨live, program⟩
      exact ⟨clean, place.base, by rw [← live], program⟩
    · rintro ⟨-, position, same, program⟩
      obtain rfl := Except.ok.inj same
      exact ⟨rfl, program⟩

end World

/-! What a path leads to that ends with a slash. -/

namespace Resolve

variable {root : Node} {place found : Place}

/-- A slash at the end asks for a directory. -/
theorem look_of_walk_slash {follow : Place → Text → List Text → Except Errno Destination}
    (follows : ∀ place target rest, follow place target (rest ++ [[]]) = .ok (.found found) →
      ∃ attributes, root.look found.base = some (.dir attributes)) (live : found.lost = [])
    {parts : List Text}
    (walked : walk root .reach follow place (parts ++ [[]]) = .ok (.found found)) :
    ∃ attributes, root.look found.base = some (.dir attributes) := by
  induction parts generalizing place with
  | nil =>
    rcases exists_step_of_found walked with ⟨next, takes, ended⟩ | ⟨target, stops, -⟩
    · cases takes with
      | slash directory =>
        obtain rfl := Destination.found.inj (Except.ok.inj ended)
        exact directory (Place.isLive_iff.mpr live)
      | down looks => exact absurd rfl looks.ne_nil
    · exact absurd rfl stops.looks.ne_nil
  | cons part rest ih =>
    rcases exists_step_of_found walked with ⟨next, -, ended⟩ | ⟨target, -, ended⟩
    · exact ih ended
    · exact follows _ _ _ ended

theorem look_of_walkLinks_slash (live : found.lost = []) {links : Nat} {parts : List Text}
    (walked : walkLinks root .reach links place (parts ++ [[]]) = .ok (.found found)) :
    ∃ attributes, root.look found.base = some (.dir attributes) := by
  induction links generalizing place parts with
  | zero => exact look_of_walk_slash (fun _ _ _ failed => by cases failed) live walked
  | succ links ih =>
    refine look_of_walk_slash (fun _ _ _ walked => ?_) live walked
    rw [← List.append_assoc] at walked
    exact ih walked

end Resolve

theorem Node.not_runs_of_slash {root : Node} {here : Place} {path : Text} (rooted : root.isDir)
    (ends : path.getLast? = some '/') : ¬ root.Runs here path := by
  rintro ⟨position, reached, program⟩
  have file := look_of_holdsProgram program
  obtain ⟨-, -, walked⟩ := reach_eq_ok.mp reached
  by_cases nothing : Path.parts path = []
  · -- the path is nothing but slashes, and leads to the root
    have absolute : Path.isAbsolute path := by
      cases path with
      | nil => cases ends
      | cons c rest =>
        by_contra relative
        have other : c ≠ '/' := by simpa [Path.isAbsolute] using relative
        obtain ⟨part, there, -⟩ := Path.mem_parts_of_mem other (List.mem_cons_self (l := rest))
        rw [nothing] at there
        cases there
    have route : Resolve.route path = [] := by simp [Resolve.route, nothing]
    obtain ⟨follow, walks⟩ := Resolve.exists_walk root .reach Resolve.linkLimit
    rw [walks, route, Resolve.start, if_pos absolute] at walked
    obtain rfl : [] = position := congrArg Place.base (Destination.found.inj (Except.ok.inj walked))
    cases root with
    | dir => cases file
    | file | utility | device | link => cases rooted
  · have route : Resolve.route path = Path.parts path ++ [[]] := by
      simp [Resolve.route, nothing, ends]
    rw [route] at walked
    obtain ⟨attributes, directory⟩ := Resolve.look_of_walkLinks_slash rfl walked
    cases directory.symm.trans file

/-! The files of a command. -/

theorem keeps_isExecutable (path : Text) (mode : OpenMode) :
    (openFile path mode).Keeps World.isExecutable := by
  have kept (before after : World) (place : after.place = before.place)
      (runs : ∀ target, after.machine.root.Runs before.place target ↔
        before.machine.root.Runs before.place target) :
      after.isExecutable = before.isExecutable := by
    funext target
    rw [Bool.eq_iff_iff, World.isExecutable_iff, World.isExecutable_iff, World.Runs, World.Runs,
      place, runs]
  have asks : nextOpening.Keeps World.isExecutable := by
    intro world
    refine kept _ _ ?_ fun target => ?_
    · exact (Prod.mk.inj (keeps_nextOpening world)).2
    · simp only [nextOpening, Act.of, outcome, ExceptT.run]
      split <;> rfl
  rw [openFile]
  refine .bind (.ofExcept _) fun path => .bind asks fun _ =>
    .rebuild (fun world opened opens => ?_) fun _ _ => .pure _
  have opens := mapError_eq_ok.mp opens
  exact kept _ _ rfl (Machine.runs_openPath opens world.place)

theorem findExecutable_opened {r : Redirections} {files : OpenFiles} {world opened : World}
    (opens : r.openFiles.outcome world = (.ok files, opened)) (name : Text) :
    opened.findExecutable name = world.findExecutable name := by
  have kept := within_openFiles keeps_isExecutable (fun _ _ => rfl) r world
  have own := keeps_openFiles r world
  rw [opens] at kept own
  have environment : opened.environment = world.environment :=
    congrArg (fun own => own.1.vars.environment) own
  rw [World.findExecutable, World.findExecutable, World.getenv, World.getenv, environment, kept]

/-! The search list. -/

/-- What a name stands for in a directory of the search list. -/
def candidate (dir name : Text) : Text :=
  if dir = [] then "./".toList ++ name
  else if dir.getLast? = some '/' then dir ++ name
  else dir ++ '/' :: name

theorem candidates_eq {name : Text} (plain : '/' ∉ name) (searchPath : Text) :
    candidates searchPath name = (searchPath.splitOn ':').map (candidate · name) := by
  have relative : Path.isAbsolute name = false := by
    cases name with
    | nil => rfl
    | cons c rest => simpa [Path.isAbsolute, eq_comm] using List.ne_of_not_mem_cons plain
  rw [candidates, pieces_eq_splitOn]
  refine List.map_congr_left fun dir _ => ?_
  rw [candidate]
  cases dir with
  | nil => simp [Path.push, relative]
  | cons c rest => simp [Path.push, relative]

namespace World

variable {world : World} {name path : Text}

/-- The directories in which commands are looked for. -/
def searchList (world : World) : List Text :=
  ((world.getenv "PATH").getD defaultPath).splitOn ':'

/-- The file that a command name stands for: a name with a slash in it is itself a path, and any
other name stands for the first program among its candidates. -/
inductive IsFound (world : World) (name : Text) : Text → Prop
  | path (slash : '/' ∈ name) (runs : world.Runs name) : IsFound world name name
  | searched {before after : List Text} {dir : Text} (plain : '/' ∉ name)
      (list : world.searchList = before ++ dir :: after)
      (first : ∀ earlier ∈ before, ¬ world.Runs (candidate earlier name))
      (runs : world.Runs (candidate dir name)) : IsFound world name (candidate dir name)

theorem not_runs_candidate_nil (rooted : world.machine.root.isDir) (dir : Text) :
    ¬ world.Runs (candidate dir []) := by
  have ends : (candidate dir []).getLast? = some '/' := by
    rw [candidate]
    split
    · rfl
    · split <;> simp [*]
  exact fun ⟨_, runs⟩ => Node.not_runs_of_slash rooted ends runs

theorem findExecutable_eq_some (named : name ≠ []) (plain : '/' ∉ name) :
    world.findExecutable name = some path ↔ ∃ before dir after,
      world.searchList = before ++ dir :: after ∧ path = candidate dir name ∧
      (∀ earlier ∈ before, ¬ world.Runs (candidate earlier name)) ∧
      world.Runs (candidate dir name) := by
  rw [findExecutable, if_neg (by simpa using named), if_neg plain, candidates_eq plain,
    List.find?_map, Option.map_eq_some_iff]
  simp only [List.find?_eq_some_iff_append, Function.comp_apply, isExecutable_iff,
    Bool.not_eq_true', ← Bool.not_eq_true]
  constructor
  · rintro ⟨dir, ⟨runs, before, after, list, first⟩, rfl⟩
    exact ⟨before, dir, after, list, rfl, first, runs⟩
  · rintro ⟨before, dir, after, list, rfl, first, runs⟩
    exact ⟨dir, ⟨runs, before, after, list, first⟩, rfl⟩

/-- What a name stands for is a program, and it is a path with a slash in it. -/
theorem runs_of_findExecutable (found : world.findExecutable name = some path) :
    world.Runs path ∧ '/' ∈ path := by
  by_cases named : name = []
  · subst named
    cases found
  by_cases slash : '/' ∈ name
  · rw [findExecutable, if_neg (by simpa using named), if_pos slash] at found
    split at found <;> cases found
    next runs => exact ⟨isExecutable_iff.mp runs, slash⟩
  · obtain ⟨before, dir, after, -, rfl, -, runs⟩ := (findExecutable_eq_some named slash).mp found
    refine ⟨runs, ?_⟩
    rw [candidate]
    split
    · exact List.mem_append_left _ (by decide)
    · split
      · next ends => exact List.mem_append_left _ (List.mem_of_getLast? ends)
      · simp

/-- What a name stands for is found. The empty name stands for nothing, as its candidates are
directories. -/
theorem isFound_iff (rooted : name = [] → world.machine.root.isDir) :
    world.IsFound name path ↔ world.findExecutable name = some path := by
  by_cases named : name = []
  · subst named
    refine ⟨fun found => ?_, fun found => by cases found⟩
    cases found with
    | path slash => cases slash
    | searched plain list first runs => exact absurd runs (not_runs_candidate_nil (rooted rfl) _)
  by_cases slash : '/' ∈ name
  · rw [findExecutable, if_neg (by simpa using named), if_pos slash]
    constructor
    · rintro (⟨-, runs⟩ | ⟨plain, -, -, -⟩)
      · rw [if_pos (isExecutable_iff.mpr runs)]
      · exact absurd slash plain
    · intro found
      split at found <;> cases found
      next runs => exact .path slash (isExecutable_iff.mp runs)
  · rw [findExecutable_eq_some named slash]
    constructor
    · rintro (⟨there, -⟩ | ⟨-, list, first, runs⟩)
      · exact absurd there slash
      · exact ⟨_, _, _, list, rfl, first, runs⟩
    · rintro ⟨before, dir, after, list, rfl, first, runs⟩
      exact .searched slash list first runs

end World

end LineShell
