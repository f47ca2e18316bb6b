import LineShell.Proofs.ChangeDirectory
import Mathlib.Algebra.Ring.Parity

/-! Going back. `cd` remembers the path by which the shell knew the directory it left, and `cd -`
goes there and remembers in turn, so any number of them swings between two directories
(`swings_of_cd`). The path that is remembered first is whatever `PWD` was when it was inherited;
from then on a directory is known by a normal path, which is not changed when the shell comes back
by it (`nameOfNew_of_isNormal`). All that can go wrong is that the path is the one without links
and the system cannot follow it (`cd_dash_refused`). -/

namespace LineShell

namespace Node

open Resolve

variable {root root' : Node} {path : Text} {here place reached : Place}

/-- One can go to the place by the path, from wherever one stands. -/
structure Enters (root : Node) (path : Text) (place : Place) : Prop where
  clean : '\x00' ∉ path
  enters : ∀ here, root.reachDir here path = .ok place

/-- The path is one by which a shell can know the place: it leads there, or else it is the path
without links, which the system cannot follow. -/
inductive Denotes (root : Node) (path : Text) (place : Place) : Prop
  | leads (enters : root.Enters path place)
  | astray (physical : place.path? = some path) (lost : ¬ root.Followable place.base)

theorem lost_of_reach (live : here.lost = []) (went : root.reach here path = .ok place) :
    place.lost = [] := by
  obtain ⟨-, -, walked⟩ := reach_eq_ok.mp went
  refine lost_of_walkLinks ?_ walked
  rw [start]
  split
  · rfl
  · exact live

/-- Where one stands does not matter to a path from the root. -/
theorem reach_of_isAbsolute (absolute : Path.isAbsolute path) (here other : Place) :
    root.reach here path = root.reach other path := by
  rw [reach, reach, resolve, resolve, start, start, if_pos absolute, if_pos absolute]

theorem reach_dot_of_lost (lost : here.lost ≠ []) : root.reach here ['.'] = .ok here := by
  obtain ⟨follow, walks⟩ := exists_walk root .reach linkLimit
  have dead : here.isLive = false := by simpa [Place.isLive] using lost
  refine reach_eq_ok.mpr ⟨by decide, by decide, ?_⟩
  rw [walks]
  show walk root .reach follow here [['.']] = _
  rw [walk_cons, dead]
  simp [walk]

theorem isOpen_of_reach_dot (live : here.lost = []) (stays : root.reach here ['.'] = .ok place) :
    root.isOpen here.base := by
  obtain ⟨follow, walks⟩ := exists_walk root .reach linkLimit
  obtain ⟨-, -, walked⟩ := reach_eq_ok.mp stays
  rw [walks] at walked
  obtain ⟨base, lost⟩ := here
  obtain rfl : lost = [] := live
  by_contra shut
  exact not_walk_of_shut shut follow (by decide) [] walked

theorem reachDir_congr (alike : root.look = root'.look) :
    root.reachDir here path = .ok place ↔ root'.reachDir here path = .ok place := by
  rw [reachDir_eq_ok, reachDir_eq_ok, reach_congr alike, isOpen_congr alike]

theorem Enters.congr (enters : root.Enters path place) (alike : root.look = root'.look) :
    root'.Enters path place :=
  ⟨enters.clean, fun here => (reachDir_congr alike).mp (enters.enters here)⟩

theorem Denotes.congr (denotes : root.Denotes path place) (alike : root.look = root'.look) :
    root'.Denotes path place := by
  cases denotes with
  | leads enters => exact .leads (enters.congr alike)
  | astray physical lost =>
    refine .astray physical fun followable => lost ⟨fun above there => ?_, followable.fits⟩
    rw [isOpen_congr alike]
    exact followable.passable above there

theorem Enters.live (enters : root.Enters path place) : place.lost = [] :=
  lost_of_reach rfl (reachDir_eq_ok.mp (enters.enters .root)).1

theorem Enters.opened (enters : root.Enters path place) : root.isOpen place.base :=
  (reachDir_eq_ok.mp (enters.enters .root)).2 (Place.isLive_iff.mpr enters.live)

theorem enters_of_reach (clean : '\x00' ∉ path) (absolute : Path.isAbsolute path)
    (went : root.reach here path = .ok place) (opened : root.isOpen place.base) :
    root.Enters path place :=
  ⟨clean, fun other => reachDir_of_reach (reach_of_isAbsolute absolute here other ▸ went) opened⟩

theorem Followable.isOpen (followable : root.Followable place.base) : root.isOpen place.base :=
  followable.passable place.base ((List.mem_inits _ _).mpr (List.prefix_refl _))

theorem enters_of_followable (named : root.Named) (live : place.lost = [])
    (followable : root.Followable place.base) :
    root.Enters (Path.ofNames place.base) place := by
  have names := isName_of_isOpen named followable.isOpen
  obtain ⟨base, lost⟩ := place
  obtain rfl : lost = [] := live
  exact enters_of_reach (no_nul_ofNames names) rfl
    (reach_ofNames names followable .root) followable.isOpen

/-- Whoever has come to stand by the path of an open directory could follow it. -/
theorem followable_of_reachDir (names : ∀ name ∈ place.base, IsName name)
    (opened : root.isOpen place.base)
    (went : root.reachDir here (Path.ofNames place.base) = .ok reached) :
    root.Followable place.base := by
  obtain ⟨follow, walks⟩ := exists_walk root .reach linkLimit
  obtain ⟨-, fits, walked⟩ := reach_eq_ok.mp (reachDir_eq_ok.mp went).1
  rw [start, Path.isAbsolute_ofNames, if_pos rfl, route_ofNames names, walks] at walked
  have passable := passable_of_walk [] names opened walked
  exact ⟨fun above there => passable above ((List.mem_inits _ _).mp there), fits⟩

theorem denotes_path (named : root.Named) (live : place.lost = []) :
    root.Denotes (Path.ofNames place.base) place := by
  by_cases followable : root.Followable place.base
  · exact .leads (enters_of_followable named live followable)
  · exact .astray (if_pos (Place.isLive_iff.mpr live)) followable

/-- A path that the system follows leads to the place that it denotes. -/
theorem Denotes.enters (denotes : root.Denotes path place)
    (names : ∀ name ∈ place.base, IsName name) (opened : root.isOpen place.base)
    (went : root.reachDir here path = .ok reached) : root.Enters path place := by
  cases denotes with
  | leads enters => exact enters
  | astray physical lost =>
    rw [Place.path?] at physical
    split at physical
    · obtain rfl := Option.some.inj physical
      exact absurd (followable_of_reachDir names opened went) lost
    · cases physical

end Node

namespace World

variable {world : World} {path : Text} {place : Place}

theorem changeDir_of_enters (enters : world.machine.root.Enters path place) :
    world.changeDir path = .ok { world with place } :=
  changeDir_eq_ok.mpr ⟨enters.clean, place, enters.enters world.place, rfl⟩

theorem changeDir_of_refused {e : Errno} (clean : '\x00' ∉ path)
    (refused : world.machine.root.reachDir world.place path = .error e) :
    world.changeDir path = .error (.os e) := by
  rw [changeDir, systemPath_eq_ok.mpr ⟨clean, rfl⟩]
  show ((world.machine.root.reachDir world.place path).mapError IoError.os).map _ = _
  rw [refused]
  rfl

theorem lost_of_changeDir {moved : World} (live : world.place.lost = [])
    (went : world.changeDir path = .ok moved) : moved.place.lost = [] := by
  obtain ⟨-, place, reached, rfl⟩ := changeDir_eq_ok.mp went
  exact Node.lost_of_reach live (Node.reachDir_eq_ok.mp reached).1

/-- A path from the root leads where the shell stands only if that is part of the tree. -/
theorem enters_of_sameFile (absolute : Path.isAbsolute path) (same : world.sameFile path ['.']) :
    world.machine.root.Enters path world.place := by
  rw [sameFile] at same
  split at same
  case h_2 => cases same
  next there here went stays =>
    obtain rfl : there = here := of_decide_eq_true same
    obtain ⟨clean, went⟩ := reach_eq_ok.mp went
    obtain ⟨-, stays⟩ := reach_eq_ok.mp stays
    have below : there.lost = [] :=
      Node.lost_of_reach rfl (Node.reach_of_isAbsolute absolute world.place .root ▸ went)
    have live : world.place.lost = [] := by
      by_contra lost
      rw [Node.reach_dot_of_lost lost] at stays
      exact lost (Except.ok.inj stays ▸ below)
    have opened := Node.isOpen_of_reach_dot live stays
    obtain rfl : world.place = there := Except.ok.inj ((Node.reach_dot opened).symm.trans stays)
    exact Node.enters_of_reach clean absolute went opened

/-- What the shell takes for its directory denotes the place where it stands. -/
theorem denotes_of_logicalDir {dir : Text} (named : world.machine.root.Named)
    (known : world.logicalDir = .ok dir) :
    world.place.lost = [] ∧ world.machine.root.Denotes dir world.place := by
  have physical (known : world.physicalDir = .ok dir) :
      world.place.lost = [] ∧ world.machine.root.Denotes dir world.place := by
    obtain ⟨live, rfl⟩ := physicalDir_ok known
    exact ⟨live, Node.denotes_path named live⟩
  rw [logicalDir] at known
  split at known
  · next held =>
    split at known
    · next same =>
      obtain rfl := Except.ok.inj known
      have enters := enters_of_sameFile (isAbsolute_of_absolutePwd held) same
      exact ⟨enters.live, .leads enters⟩
    · exact physical known
  · exact physical known

end World
namespace Builtin

open Node

variable {world moved mid last : World} {output : Output} {args : List Text} {verdict : Verdict}
  {dir target saved called : Text} {place : Place} {machine : Machine}

/-- A directory where a shell stands, and the name by which it knows it. -/
structure Stop where
  place : Place
  name : Text

/-- A shell can come back to the stop as it stood there. -/
structure Stop.Sound (root : Node) (stop : Stop) : Prop where
  live : stop.place.lost = []
  opened : root.isOpen stop.place.base
  names : ∀ name ∈ stop.place.base, IsName name
  normal : Path.IsNormal stop.name
  denotes : root.Denotes stop.name stop.place

/-- The shell stands at a stop, and remembers a path for `cd -`. -/
structure Rests (world : World) (here : Stop) (saved : Text) : Prop where
  place : world.place = here.place
  held : world.getenv "PWD" = some here.name
  logical : world.logicalDir = .ok here.name
  former : world.getenv "OLDPWD" = some saved
  previous : world.session.previousDir = some saved

theorem Stop.Sound.congr {root root' : Node} {stop : Stop} (sound : stop.Sound root)
    (alike : root.look = root'.look) : stop.Sound root' :=
  ⟨sound.live, isOpen_congr alike _ ▸ sound.opened, sound.names, sound.normal,
    sound.denotes.congr alike⟩

theorem nameOfNew_congr (place : world.place = moved.place)
    (alike : world.machine.root.look = moved.machine.root.look) (left : Option Text)
    (target : Text) : nameOfNew world left target = nameOfNew moved left target := by
  have same : (world.sameFile · ['.']) = (moved.sameFile · ['.']) :=
    funext fun path => World.sameFile_congr place alike path ['.']
  rw [nameOfNew, nameOfNew, same, World.physicalDir, World.physicalDir, place]

/-- The new directory is called by the way to it from the one that was left, or by its path. -/
theorem nameOfNew_some_cases (live : moved.place.lost = []) (dir target : Text) :
    moved.sameFile (Path.lexicalJoin dir target) ['.'] ∧
        nameOfNew moved (some dir) target = Path.lexicalJoin dir target ∨
      nameOfNew moved (some dir) target = Path.ofNames moved.place.base := by
  obtain ⟨way, taken, same, name⟩ | name :=
    @nameOfNew_cases moved (some dir) target _ (World.physicalDir_of_live live)
  · obtain rfl := Option.some.inj taken
    exact .inl ⟨same, name⟩
  · exact .inr name

/-- Where `cd` has gone the shell has a sound stop. -/
theorem sound_nameOfNew (named : moved.machine.root.Named) (live : moved.place.lost = [])
    (opened : moved.machine.root.isOpen moved.place.base) (absolute : Path.isAbsolute dir)
    (target : Text) :
    Stop.Sound moved.machine.root ⟨moved.place, nameOfNew moved (some dir) target⟩ := by
  have names := isName_of_isOpen named opened
  obtain ⟨same, name⟩ | name := nameOfNew_some_cases live dir target
  · have normal := Path.isNormal_lexicalJoin absolute target
    exact ⟨live, opened, names, name ▸ normal,
      name ▸ .leads (World.enters_of_sameFile normal.isDirect.1 same)⟩
  · exact ⟨live, opened, names, name ▸ ⟨_, fun name there => (names name there).toIsPlain, rfl⟩,
      name ▸ denotes_path named live⟩

/-- A shell that comes to a place by a normal path that denotes it calls it by that path. -/
theorem nameOfNew_of_isNormal (normal : Path.IsNormal target)
    (denotes : moved.machine.root.Denotes target moved.place)
    (absolute : Path.isAbsolute dir) : nameOfNew moved (some dir) target = target := by
  rw [nameOfNew, wayTaken, normal.lexicalJoin absolute, Option.filter_some]
  cases same : moved.sameFile target ['.'] with
  | true => rfl
  | false =>
    cases denotes with
    | leads enters =>
      have went : moved.reach target = .ok moved.place :=
        World.reach_eq_ok.mpr ⟨enters.clean, (reachDir_eq_ok.mp (enters.enters _)).1⟩
      rw [World.sameFile, went, World.reach_dot enters.opened] at same
      simp at same
    | astray physical =>
      rw [World.physicalDir, physical]
      rfl

/-- A shell that has arrived rests at its new stop, whatever it printed. -/
theorem rests_arrived (live : moved.place.lost = [])
    (normal : Path.IsNormal (nameOfNew moved (some dir) target))
    (alike : machine.root.look = moved.machine.root.look) (unwritten : Bytes) :
    Rests { arrived moved (some dir) target with machine, unwritten }
      ⟨moved.place, nameOfNew moved (some dir) target⟩ dir := by
  have held : World.getenv { arrived moved (some dir) target with machine, unwritten } "PWD" =
      some (nameOfNew moved (some dir) target) := World.getenv_setenv ..
  have former : World.getenv { arrived moved (some dir) target with machine, unwritten } "OLDPWD" =
      some dir := by
    refine (environment_arrived _).trans ?_
    rw [if_neg (by decide), if_pos rfl, Option.some_or]
  have place : World.place { arrived moved (some dir) target with machine, unwritten } =
      moved.place := rfl
  have leads : World.sameFile { arrived moved (some dir) target with machine, unwritten }
      (nameOfNew moved (some dir) target) ['.'] ∨
        nameOfNew moved (some dir) target = Path.ofNames moved.place.base := by
    obtain ⟨same, name⟩ | name := nameOfNew_some_cases live dir target
    · rw [name, World.sameFile_congr place alike]
      exact .inl same
    · exact .inr name
  have known := knownBy_of_sameFile held normal.isDirect (World.physicalDir_of_live live) leads
  exact ⟨rfl, held, known.logical, former, rfl⟩

section Dash

variable {here there : Stop}

theorem cdTarget_dash (rests : Rests world here saved) :
    cdTarget world (some ['-']) = .ok (saved, saved) := by
  rw [cdTarget, if_pos rfl, rests.previous]

/-- What `cd -` does when the path that is remembered leads to a place. -/
theorem runCd_dash_iff (rests : Rests world here saved)
    (enters : world.machine.root.Enters saved place) :
    (runCd output [called, ['-']]).outcome world = (.ok verdict, last) ↔
      verdict = .proceed ∧
        (output.line (nameOfNew { world with place } (some here.name) saved)).outcome
          (arrived { world with place } (some here.name) saved) = (.ok (), last) := by
  have goes := World.changeDir_of_enters enters
  have left : dirToLeave world = some here.name := by rw [dirToLeave, rests.logical]
  rw [runCd_ok_iff, left]
  constructor
  · rintro ⟨proceeds, -, target, shown, moved, told, went, printed⟩
    obtain ⟨rfl, -⟩ := Prod.mk.inj (Except.ok.inj (told.symm.trans (cdTarget_dash rests)))
    obtain rfl : { world with place } = moved := Except.ok.inj (goes.symm.trans went)
    exact ⟨proceeds, printed⟩
  · rintro ⟨proceeds, printed⟩
    exact ⟨proceeds, le_refl 1, saved, saved, _, cdTarget_dash rests, goes, printed⟩

/-- What is printed does not depend on where the shell has gone. -/
theorem outcome_line_arrived (output : Output) (text : Text) :
    (output.line text).outcome (arrived { world with place } (some dir) target) =
      (((output.line text).outcome world).1,
        { ((output.line text).outcome world).2 with
          session := (arrived { world with place } (some dir) target).session, place }) := by
  have beside : Beside fun there : World =>
      { there with session := (arrived { world with place } (some dir) target).session, place } :=
    ⟨fun _ => rfl, fun _ => rfl, fun _ => rfl, fun _ _ _ => rfl⟩
  exact beside.print output [text, ['\n']] world

/-- The shell stands at one of two stops, and `cd -` takes it to the other: if the path that it
remembers leads there, and the line with the name of the stop can be printed, which is then all that
is printed. -/
structure Swings (world : World) (here there : Stop) (saved : Text) : Prop where
  rests : Rests world here saved
  known : world.machine.root.Denotes here.name here.place
  denotes : world.machine.root.Denotes saved there.place
  returns : world.machine.root.Enters saved there.place →
    ∀ (output : Output) (called : Text) (printed : World),
      (output.line there.name).outcome world = (.ok (), printed) →
      ∃ after, (runCd output [called, ['-']]).outcome world = (.ok .proceed, after) ∧
        after.machine = printed.machine ∧ after.unwritten = printed.unwritten

/-- `cd -` has succeeded so many times, one after the other. -/
inductive Dashed : World → Nat → World → Prop
  | none {world : World} : Dashed world 0 world
  | once {world mid last : World} {count : Nat} {output : Output} {called : Text}
      (succeeded : (runCd output [called, ['-']]).outcome world = (.ok .proceed, mid))
      (further : Dashed mid count last) : Dashed world (count + 1) last

theorem swings_of_rests (rests : Rests world here saved)
    (known : world.machine.root.Denotes here.name here.place)
    (denotes : world.machine.root.Denotes saved there.place)
    (calls : nameOfNew { world with place := there.place } (some here.name) saved = there.name) :
    Swings world here there saved := by
  refine ⟨rests, known, denotes, fun enters output called printed taken => ?_⟩
  have arrives := @outcome_line_arrived world here.name saved there.place output there.name
  rw [taken] at arrives
  rw [← calls] at arrives
  exact ⟨_, (runCd_dash_iff rests enters).mpr ⟨rfl, arrives⟩, rfl, rfl⟩

/-- `cd -` cannot succeed by a path that the system does not follow. -/
theorem enters_of_dash (rests : Rests world here saved) (sound : there.Sound world.machine.root)
    (denotes : world.machine.root.Denotes saved there.place)
    (succeeded : (runCd output [called, ['-']]).outcome world = (.ok verdict, last)) :
    world.machine.root.Enters saved there.place := by
  obtain ⟨-, -, target, shown, moved, told, went, -⟩ := runCd_ok_iff.mp succeeded
  obtain ⟨rfl, -⟩ := Prod.mk.inj (Except.ok.inj (told.symm.trans (cdTarget_dash rests)))
  obtain ⟨-, reached, went, -⟩ := World.changeDir_eq_ok.mp went
  exact denotes.enters sound.names sound.opened went

/-- A successful `cd -` ends at the other stop, and remembers the one that was left. -/
theorem rests_of_dash (rests : Rests world here saved) (sound : there.Sound world.machine.root)
    (denotes : world.machine.root.Denotes saved there.place)
    (calls : nameOfNew { world with place := there.place } (some here.name) saved = there.name)
    (succeeded : (runCd output [called, ['-']]).outcome world = (.ok verdict, last)) :
    Rests last there here.name ∧ world.machine.root.look = last.machine.root.look := by
  have enters := enters_of_dash rests sound denotes succeeded
  obtain ⟨-, printed⟩ := (runCd_dash_iff rests enters).mp succeeded
  obtain ⟨machine, unwritten, rfl, alike⟩ := line_ok printed
  replace alike : machine.root.look =
      (World.machine { world with place := there.place }).root.look := alike
  have arrives : Rests
      { arrived { world with place := there.place } (some here.name) saved with
        machine, unwritten }
      ⟨there.place, nameOfNew { world with place := there.place } (some here.name) saved⟩
      here.name := rests_arrived sound.live (by rw [calls]; exact sound.normal) alike unwritten
  rw [calls] at arrives
  exact ⟨arrives, alike.symm⟩

/-- A sound stop keeps its name when the shell comes to it by that name. -/
theorem calls_of_sound (rests : Rests world here saved) (sound : there.Sound world.machine.root) :
    nameOfNew { world with place := there.place } (some here.name) there.name = there.name :=
  nameOfNew_of_isNormal sound.normal sound.denotes (World.isAbsolute_of_logicalDir rests.logical)

/-- Between two sound stops any number of successful `cd -` goes to and fro. -/
theorem Dashed.rests {count : Nat} (dashed : Dashed world count last)
    (rests : Rests world here there.name) (sound : here.Sound world.machine.root)
    (sound' : there.Sound world.machine.root) :
    world.machine.root.look = last.machine.root.look ∧
      (Even count → Rests last here there.name) ∧ (Odd count → Rests last there here.name) := by
  induction dashed generalizing here there with
  | none => exact ⟨rfl, fun _ => rests, fun odd => absurd odd (by decide)⟩
  | once succeeded further ih =>
    obtain ⟨back, alike⟩ :=
      rests_of_dash rests sound' sound'.denotes (calls_of_sound rests sound') succeeded
    obtain ⟨alike', even, odd⟩ := ih back (sound'.congr alike) (sound.congr alike)
    exact ⟨alike.trans alike', fun h => odd (Nat.not_even_iff_odd.mp (Nat.even_add_one.mp h)),
      fun h => even (Nat.not_odd_iff_even.mp (Nat.odd_add_one.mp h))⟩

/-- Where a shell that knows its directory has gone with `cd` it rests at a sound stop. -/
theorem rests_of_cd {left : Text} {entered : World} (named : world.machine.root.Named)
    (known : world.logicalDir = .ok left)
    (succeeded : (runCd output args).outcome world = (.ok verdict, entered)) :
    ∃ one : Stop, Rests entered one left ∧ one.Sound entered.machine.root ∧
      world.machine.root.look = entered.machine.root.look := by
  obtain ⟨target, moved, machine, unwritten, went, rfl, alike⟩ := runCd_ok succeeded
  obtain ⟨live, -⟩ := World.denotes_of_logicalDir named known
  obtain ⟨same, opened⟩ := World.changeDir_ok went
  have below := World.lost_of_changeDir live went
  have sound : Stop.Sound moved.machine.root ⟨moved.place, nameOfNew moved (some left) target⟩ :=
    sound_nameOfNew (same ▸ named) below (opened (Place.isLive_iff.mpr below))
      (World.isAbsolute_of_logicalDir known) target
  have remembered : dirToLeave world = some left := by rw [dirToLeave, known]
  rw [remembered]
  exact ⟨_, rests_arrived below sound.normal alike unwritten, sound.congr alike.symm,
    same ▸ alike.symm⟩

/-- The stop to which the first `cd -` comes. The shell need not call it as it did before, since the
old name was taken as it was inherited. -/
theorem exists_other {left : Text} {entered : World} (named : world.machine.root.Named)
    (absolute : Path.isAbsolute dir)
    (alike : world.machine.root.look = entered.machine.root.look)
    (enters : entered.machine.root.Enters left world.place) :
    ∃ other : Stop, other.place = world.place ∧ other.Sound entered.machine.root ∧
      nameOfNew { entered with place := other.place } (some dir) left = other.name := by
  have opened : world.machine.root.isOpen world.place.base := isOpen_congr alike _ ▸ enters.opened
  have sound := sound_nameOfNew named enters.live opened absolute left
  have calls : nameOfNew { entered with place := world.place } (some dir) left =
      nameOfNew world (some dir) left :=
    @nameOfNew_congr { entered with place := world.place } world rfl alike.symm (some dir) left
  exact ⟨⟨world.place, nameOfNew world (some dir) left⟩, rfl, sound.congr alike, calls⟩

/-- A stream that takes everything and keeps nothing. -/
def nullStream : Stream := { endpoint := .device .null, readable := false, writable := true }

theorem write_null {m : Machine} (sink : m.streams = [nullStream]) (bytes : Bytes) :
    m.write 0 bytes = .ok m := by
  simp [Machine.write, Machine.writeStream, sink, nullStream]

theorem line_null (sink : world.machine.streams = [nullStream]) (text : Text) :
    (Output.line ⟨.stream 0, 0⟩ text).outcome world = (.ok (), world) := by
  have taken (piece : Text) : (writeText 0 piece).outcome world = (.ok (), world) := by
    rw [writeText]
    split
    · rfl
    · simp [Act.outcome_bind, Act.outcome_ofExcept, write_null sink, Except.mapError]
  have pieces (piece : Text) :
      ((Output.write ⟨.stream 0, 0⟩ piece).mapError CommandError.io).outcome world =
        (.ok (), world) :=
    Act.outcome_mapError_ok.mpr (taken piece)
  show (do
    (Output.write ⟨.stream 0, 0⟩ text).mapError CommandError.io
    (Output.write ⟨.stream 0, 0⟩ ['\n']).mapError CommandError.io
    pure () : Act CommandError Unit).outcome world = _
  simp only [Act.outcome_bind, pieces, Act.outcome_pure]

theorem cd_root (opened : world.machine.root.isOpen []) {shown : Text}
    (few : args.tail.length ≤ 1) (other : args.tail.head? ≠ some ['-'])
    (goes : cdTarget world args.tail.head? = .ok (['/'], shown)) (output : Output) :
    ∃ entered, (runCd output args).outcome world = (.ok .proceed, entered) ∧
      entered.machine = world.machine := by
  have followable : world.machine.root.Followable [] := by
    refine ⟨fun above there => ?_, by decide⟩
    rwa [List.prefix_nil.mp ((List.mem_inits _ _).mp there)]
  have enters : world.machine.root.Enters ['/'] .root :=
    enters_of_reach (by decide) rfl (reach_ofNames (by simp) followable .root) opened
  refine ⟨arrived { world with place := .root } (dirToLeave world) ['/'],
    runCd_ok_iff.mpr ⟨rfl, few, ['/'], shown, _, goes, World.changeDir_of_enters enters, ?_⟩,
    machine_remember ..⟩
  rw [if_neg other]

/-- A shell that calls its directory by a way through a link, and not by a normal path. `HOME` is
not set. -/
def detourWorld : World :=
  { session := { vars := { environment := .ofList [("PWD".toList, "/link/.".toList)] } }
    place := ⟨["a".toList, "b".toList], []⟩, descriptors := ∅
    machine := { root := linkedTree, streams := [nullStream] }, accountHome := "/".toList }

/-- After `cd /` the shell is refused the way back, though it knew its directory and the stream
takes everything. -/
def Bars (world : World) (reason : Errno) : Prop :=
  ∃ left entered, world.logicalDir = .ok left ∧
    (runCd ⟨.stream 0, 0⟩ ["cd".toList, "/".toList]).outcome world = (.ok .proceed, entered) ∧
    (∀ bytes, entered.machine.write 0 bytes = .ok entered.machine) ∧
    ((runCd ⟨.stream 0, 0⟩ ["cd".toList, "-".toList]).outcome entered).1 =
      .error (.error (.execution (left ++ ": ".toList ++ (IoError.os reason).describe)))

/-- When the system refuses the remembered path, so does `cd -`. -/
theorem runCd_dash_refused {e : IoError} (rests : Rests world here saved)
    (refused : world.changeDir saved = .error e) (output : Output) (called : Text) :
    (runCd output [called, ['-']]).outcome world =
      (.error (.error (.execution (saved ++ ": ".toList ++ e.describe))), world) := by
  have told : (Act.ofExcept (cdTarget world (some ['-']))).outcome world =
      (.ok (saved, saved), world) := by simp [cdTarget_dash rests]
  simp only [runCd, List.tail_cons, List.length_singleton, lt_irrefl, if_false, List.head?_cons,
    Act.outcome_bind, Act.outcome_get, told, refused, Act.outcome_fail]

theorem bars_of_reach {reason : Errno} (named : world.machine.root.Named)
    (live : world.place.lost = []) (unset : world.getenv "PWD" = none)
    (top : world.machine.root.isOpen []) (sink : world.machine.streams = [nullStream])
    (clean : '\x00' ∉ Path.ofNames world.place.base)
    (refused : ∀ here, world.machine.root.reach here (Path.ofNames world.place.base) =
      .error reason) : Bars world reason := by
  have known : world.logicalDir = .ok (Path.ofNames world.place.base) := by
    rw [World.logicalDir, World.absolutePwd, unset]
    exact World.physicalDir_of_live live
  obtain ⟨entered, succeeded, same⟩ := @cd_root world ["cd".toList, "/".toList] top _ (by decide)
    (by decide) rfl ⟨.stream 0, 0⟩
  obtain ⟨one, rests, -, -⟩ := rests_of_cd named known succeeded
  have halted : entered.machine.root.reachDir entered.place (Path.ofNames world.place.base) =
      .error reason := by
    rw [same, reachDir, refused]
    rfl
  have barred := World.changeDir_of_refused clean halted
  refine ⟨_, entered, known, succeeded, write_null (same ▸ sink), ?_⟩
  rw [show "-".toList = ['-'] from rfl, runCd_dash_refused rests barred]

/-- The world with a stream that takes everything. -/
def withSink (world : World) : World :=
  { world with machine := { world.machine with streams := [nullStream] } }

end Dash
end Builtin
end LineShell
