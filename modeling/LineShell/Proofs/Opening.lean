import LineShell.Machine.Stream
import LineShell.Proofs.Action
import LineShell.Proofs.FileView

/-! Opening files. `Machine.Opened` says all that an opening can come to, and from it comes what it
does to the files: to read leaves them alike, and for output only the file to which the path leads
is emptied, or made (`Files.OnlyEmptied`). -/

namespace LineShell

/-- What comes after a refusal that was not made. -/
theorem unless_ok {ε α : Type} {refuses : Prop} [Decidable refuses] {e : ε}
    {next : PUnit → Except ε α} {a : α} :
    (if refuses then throw e >>= next else next ⟨⟩) = .ok a ↔ ¬ refuses ∧ next ⟨⟩ = .ok a := by
  by_cases refused : refuses
  · have failed : (throw e >>= next) = .error e := rfl
    simp [refused, failed]
  · simp [refused]

/-- The pipe that an end belongs to. -/
def Endpoint.pipe? : Endpoint → Option Nat
  | pipeReader number | pipeWriter number => some number
  | _ => none

/-- The files of a machine: those of the tree, and those without a name. -/
structure Files where
  root : Node
  buffers : List Bytes

namespace Machine

def files (m : Machine) : Files := ⟨m.root, m.buffers⟩

/-- What opening a stream a second time has come to. -/
inductive Again (m : Machine) (mode : OpenMode) (s : Stream) : Endpoint → Files → Prop
  | file {position : Position} {content : Bytes} {attributes : Attributes}
      (leads : s.endpoint = .file position)
      (there : m.root.at? position = some (.file content attributes)) :
      Again m mode s (.file position)
        ⟨m.root.put position (.file (if mode.empties then [] else content) attributes), m.buffers⟩
  | buffer {number : Nat} (leads : s.endpoint = .buffer number) :
      Again m mode s (.buffer number)
        ⟨m.root, if mode.empties then m.buffers.set number [] else m.buffers⟩
  | other {endpoint : Endpoint} (pipe : endpoint.pipe? = s.endpoint.pipe?) :
      Again m mode s endpoint m.files

/-- What an opening has come to: where the new stream leads, and the files. -/
inductive Opened (m : Machine) (opener : Opener) (path : Text) (mode : OpenMode) :
    Endpoint → Files → Prop
  | made {directory : Position} {name : Text} (creates : mode.creates = true)
      (ends : m.root.resolve opener.place .create path = .ok (.vacant directory name))
      (attributes : Attributes) :
      Opened m opener path mode (.file (directory ++ [name]))
        ⟨m.root.put (directory ++ [name]) (.file [] attributes), m.buffers⟩
  | file {position : Position} {content : Bytes} {attributes : Attributes}
      (ends : m.root.resolve opener.place (if mode.creates then .create else .reach) path =
        .ok (.found ⟨position, []⟩))
      (there : m.root.at? position = some (.file content attributes)) :
      Opened m opener path mode (.file position)
        ⟨if mode.empties then
            m.root.put position (.file [] { attributes with modified := m.now })
          else m.root, m.buffers⟩
  | again {position : Position} {fd : Nat} {s : Stream} {endpoint : Endpoint} {files : Files}
      (ends : m.root.resolve opener.place (if mode.creates then .create else .reach) path =
        .ok (.found ⟨position, []⟩))
      (there : m.root.at? position = some (.device (.descriptor fd)))
      (leads : (opener.descriptors.stream? fd).bind (m.streams[·]?) = some s)
      (opens : m.Again mode s endpoint files) : Opened m opener path mode endpoint files
  | other {place : Place} {endpoint : Endpoint}
      (ends : m.root.resolve opener.place (if mode.creates then .create else .reach) path =
        .ok (.found place))
      (live : mode.writes = true → place.lost = [])
      (there : place.lost = [] → ∃ node, m.root.at? place.base = some node ∧
        ∀ content attributes, node ≠ .file content attributes)
      (pipe : endpoint.pipe? = none) : Opened m opener path mode endpoint m.files

/-- A path is the name of a descriptor that leads to an end of a pipe. -/
def NamesPipe (m : Machine) (opener : Opener) (path : Text) (mode : OpenMode) (k : Nat) : Prop :=
  ∃ position fd s, m.root.resolve opener.place (if mode.creates then .create else .reach) path =
      .ok (.found ⟨position, []⟩) ∧
    m.root.at? position = some (.device (.descriptor fd)) ∧
    (opener.descriptors.stream? fd).bind (m.streams[·]?) = some s ∧ s.endpoint.pipe? = some k

theorem Opened.namesPipe {m : Machine} {opener : Opener} {path : Text} {mode : OpenMode}
    {endpoint : Endpoint} {files : Files} {k : Nat}
    (opened : m.Opened opener path mode endpoint files) (ofPipe : endpoint.pipe? = some k) :
    m.NamesPipe opener path mode k := by
  cases opened with
  | made | file => cases ofPipe
  | other ends live there pipe => cases pipe.symm.trans ofPipe
  | again ends there leads opens =>
    cases opens with
    | file | buffer => cases ofPipe
    | other pipe => exact ⟨_, _, _, ends, there, leads, pipe.symm.trans ofPipe⟩

theorem reopen_ok {m m' : Machine} {opener : Opener} {fd : Nat} {mode : OpenMode} {stream : Nat}
    (opens : m.reopen opener fd mode = .ok (stream, m')) :
    ∃ s endpoint files, (opener.descriptors.stream? fd).bind (m.streams[·]?) = some s ∧
      m.Again mode s endpoint files ∧ stream = m.streams.length ∧ m' = { m with
        root := files.root
        buffers := files.buffers
        streams := m.streams ++ [⟨endpoint, mode.reads, mode.writes, mode.appends, 0⟩] } := by
  rw [reopen] at opens
  cases leads : (opener.descriptors.stream? fd).bind (m.streams[·]?) with
  | none => simp [leads] at opens
  | some s =>
    rw [leads] at opens
    dsimp only at opens
    cases leadsTo : s.endpoint with
    | file file =>
      rw [leadsTo] at opens
      dsimp only at opens
      split at opens
      · next content attributes there =>
        obtain ⟨-, opens⟩ := unless_ok.mp opens
        cases opens
        exact ⟨s, _, _, rfl, .file leadsTo there, rfl, rfl⟩
      · cases opens
    | directory =>
      rw [leadsTo] at opens
      dsimp only at opens
      split at opens <;> cases opens
      exact ⟨s, _, _, rfl, .other (by rw [leadsTo]), rfl, rfl⟩
    | buffer number =>
      rw [leadsTo] at opens
      refine ⟨s, .buffer number, _, rfl, .buffer leadsTo, ?_⟩
      cases empties : mode.empties <;> rw [empties] at opens <;> cases opens <;> exact ⟨rfl, rfl⟩
    | device =>
      rw [leadsTo] at opens
      cases opens
      exact ⟨s, _, _, rfl, .other (by rw [leadsTo]), rfl, rfl⟩
    | pipeReader | pipeWriter =>
      rw [leadsTo] at opens
      cases opens
      exact ⟨s, _, _, rfl, .other (by rw [leadsTo]; cases mode.writes <;> rfl), rfl, rfl⟩

theorem openPath_opened {m m' : Machine} {opener : Opener} {path : Text} {mode : OpenMode}
    {stream : Nat} (opens : m.openPath opener path mode = .ok (stream, m')) :
    ∃ endpoint files, m.Opened opener path mode endpoint files ∧
      stream = m.streams.length ∧ m' = { m with
        root := files.root
        buffers := files.buffers
        streams := m.streams ++ [⟨endpoint, mode.reads, mode.writes, mode.appends, 0⟩] } := by
  rw [openPath] at opens
  obtain ⟨d, ends, opens⟩ := bind_eq_ok.mp opens
  cases d with
  | vacant directory name =>
    obtain ⟨creates, opens⟩ := unless_ok.mp opens
    have creates : mode.creates = true := by simpa using creates
    rw [creates, if_pos rfl] at ends
    cases there : m.root.at? directory with
    | none => simp [there] at opens
    | some node =>
      rw [there] at opens
      obtain ⟨-, opens⟩ := unless_ok.mp opens
      cases opens
      exact ⟨_, _, .made creates ends _, rfl, rfl⟩
  | found place =>
    obtain ⟨-, opens⟩ := unless_ok.mp opens
    by_cases live : place.isLive
    · have empty : place.lost = [] := List.isEmpty_iff.mp live
      have same : place = ⟨place.base, []⟩ := by rw [← empty]
      rw [if_neg (by simp [live])] at opens
      cases there : m.root.at? place.base with
      | none => simp [there] at opens
      | some node =>
        rw [there] at opens
        obtain ⟨-, opens⟩ := unless_ok.mp opens
        obtain ⟨-, opens⟩ := unless_ok.mp opens
        have plain (endpoint : Endpoint) (pipe : endpoint.pipe? = none)
            (other : ∀ content attributes, node ≠ .file content attributes) :
            m.Opened opener path mode endpoint m.files :=
          .other ends (fun _ => empty) (fun _ => ⟨node, there, other⟩) pipe
        cases node with
        | file content attributes =>
          rw [same] at ends
          refine ⟨_, _, .file ends there, ?_⟩
          cases empties : mode.empties <;> rw [empties] at opens <;> cases opens <;> exact ⟨rfl, rfl⟩
        | device d =>
          cases d with
          | descriptor fd =>
            obtain ⟨s, endpoint, files, leads, again, rfl, rfl⟩ := reopen_ok opens
            rw [same] at ends
            exact ⟨_, _, .again ends there leads again, rfl, rfl⟩
          | terminal => cases opens
          | null | full | zero =>
            cases opens
            exact ⟨_, _, plain _ rfl (by simp), rfl, rfl⟩
        | utility | link | dir =>
          cases opens
          exact ⟨_, _, plain _ rfl (by simp), rfl, rfl⟩
    · rw [if_pos (by simp [live])] at opens
      split at opens
      · cases opens
      · next reads =>
        cases opens
        have empty : place.lost ≠ [] := fun empty => live (List.isEmpty_iff.mpr empty)
        exact ⟨_, _, .other ends (fun writes => absurd writes reads) (fun lost => absurd lost empty)
          rfl, rfl, rfl⟩

end Machine

namespace Files

variable {before mid after : Files} {here : Place} {outs : List Text} {out : Text}

/-- The same files with the same content, permissions and times. -/
structure Alike (before after : Files) : Prop where
  seen : after.root.seen = before.root.seen
  buffers : after.buffers = before.buffers

/-- The path is a name of a descriptor, through which any file may be opened. -/
def NamesDescriptor (files : Files) (here : Place) (out : Text) : Prop :=
  ∃ position fd, files.root.reach here out = .ok ⟨position, []⟩ ∧
    files.root.seen position = some (.device (.descriptor fd))

/-- All that has been done to the files is that those at the ends of some paths have been made or
emptied: they are there and empty, unless they are no regular files. -/
structure OnlyEmptied (before after : Files) (here : Place) (outs : List Text) : Prop where
  there : ∀ out ∈ outs, ∃ position, after.root.reach here out = .ok ⟨position, []⟩ ∧
    ∀ content attributes, after.root.seen position = some (.file content attributes) → content = []
  changed : ∀ position, after.root.seen position ≠ before.root.seen position →
    (∃ attributes, after.root.seen position = some (.file [] attributes)) ∧
      ∃ out ∈ outs, after.root.reach here out = .ok ⟨position, []⟩ ∨ after.NamesDescriptor here out
  nameless : ∀ number : Nat, after.buffers[number]? ≠ before.buffers[number]? →
    after.buffers[number]? = some [] ∧ ∃ out ∈ outs, after.NamesDescriptor here out

theorem Alike.refl (files : Files) : files.Alike files := ⟨rfl, rfl⟩

theorem Alike.trans (first : before.Alike mid) (second : mid.Alike after) : before.Alike after :=
  ⟨second.seen.trans first.seen, second.buffers.trans first.buffers⟩

theorem Alike.reach (alike : before.Alike after) (here : Place) (path : Text) :
    after.root.reach here path = before.root.reach here path :=
  Node.reach_congr (Node.look_of_seen alike.seen) here path

theorem Alike.onlyEmptied (alike : before.Alike after) (here : Place) :
    before.OnlyEmptied after here [] where
  there := fun _ absent => absurd absent List.not_mem_nil
  changed := fun position changed => absurd (congrFun alike.seen position) changed
  nameless := fun number changed => absurd (by rw [alike.buffers]) changed

theorem OnlyEmptied.congr (emptied : before.OnlyEmptied mid here outs) (alike : mid.Alike after) :
    before.OnlyEmptied after here outs := by
  have names (out : Text) : mid.NamesDescriptor here out → after.NamesDescriptor here out := by
    rintro ⟨position, fd, reached, named⟩
    exact ⟨position, fd, (alike.reach here out).trans reached, by rw [alike.seen, named]⟩
  constructor
  · intro out given
    obtain ⟨position, reached, empty⟩ := emptied.there out given
    rw [alike.seen]
    exact ⟨position, (alike.reach here out).trans reached, empty⟩
  · intro position changed
    rw [alike.seen] at changed ⊢
    obtain ⟨empty, out, given, leads⟩ := emptied.changed position changed
    exact ⟨empty, out, given, leads.imp ((alike.reach here out).trans ·) (names out)⟩
  · intro number changed
    rw [alike.buffers] at changed ⊢
    obtain ⟨empty, out, given, leads⟩ := emptied.nameless number changed
    exact ⟨empty, out, given, names out leads⟩

theorem OnlyEmptied.from (emptied : mid.OnlyEmptied after here outs) (alike : before.Alike mid) :
    before.OnlyEmptied after here outs where
  there := emptied.there
  changed := by
    rw [← alike.seen]
    exact emptied.changed
  nameless := by
    rw [← alike.buffers]
    exact emptied.nameless

/-- What is no regular file is left as it is. -/
theorem onlyEmptied_of_reach {place : Position}
    (reached : before.root.reach here out = .ok ⟨place, []⟩)
    (other : ∀ content attributes, before.root.seen place ≠ some (.file content attributes)) :
    before.OnlyEmptied before here [out] where
  there := by
    intro out' given
    obtain rfl := List.mem_singleton.mp given
    exact ⟨place, reached, fun content attributes held => absurd held (other content attributes)⟩
  changed := fun _ differs => absurd rfl differs
  nameless := fun _ differs => absurd rfl differs

/-- One file of the tree is emptied, or made. -/
theorem onlyEmptied_of_update {root : Node} {position place : Position} {attributes : Attributes}
    (changed : root.seen = Function.update before.root.seen position (some (.file [] attributes)))
    (reached : root.reach here out = .ok ⟨place, []⟩)
    (leads : place = position ∨ ∃ fd, root.seen place = some (.device (.descriptor fd))) :
    before.OnlyEmptied ⟨root, before.buffers⟩ here [out] := by
  have there : root.seen position = some (.file [] attributes) := by
    rw [changed, Function.update_self]
  constructor
  · intro other given
    obtain rfl := List.mem_singleton.mp given
    refine ⟨place, reached, fun content own held => ?_⟩
    rcases leads with rfl | ⟨fd, named⟩
    · cases there.symm.trans held
      rfl
    · cases named.symm.trans held
  · intro q differs
    have same : q = position := by
      by_contra other
      exact differs (by rw [changed, Function.update_of_ne other])
    subst same
    refine ⟨⟨attributes, there⟩, out, List.mem_singleton_self out, ?_⟩
    rcases leads with rfl | ⟨fd, named⟩
    · exact .inl reached
    · exact .inr ⟨place, fd, reached, named⟩
  · exact fun number differs => absurd rfl differs

end Files

namespace Machine

variable {m : Machine} {opener : Opener} {path : Text} {mode : OpenMode} {endpoint : Endpoint}
  {files : Files}

theorem Again.alike {s : Stream} (again : m.Again mode s endpoint files)
    (keeps : mode.empties = false) : m.files.Alike files := by
  cases again with
  | file leads there =>
    refine ⟨?_, rfl⟩
    rw [keeps, if_neg Bool.false_ne_true]
    have held := congrArg (Option.map Node.face) there
    exact (Node.seen_put_file there _ _).trans (Function.update_eq_self_iff.mpr held.symm)
  | buffer leads =>
    rw [keeps]
    exact .refl _
  | other => exact .refl _

/-- To open a file for reading leaves all files as they are. -/
theorem Opened.alike (opened : m.Opened opener path mode endpoint files)
    (finds : mode.creates = false) (keeps : mode.empties = false) : m.files.Alike files := by
  cases opened with
  | made creates => rw [finds] at creates; cases creates
  | file ends there =>
    rw [keeps]
    exact .refl _
  | again ends there leads again => exact again.alike keeps
  | other => exact .refl _

/-- To open a file for output makes it, or empties it. -/
theorem Opened.onlyEmptied (opened : m.Opened opener path .output endpoint files) :
    m.files.OnlyEmptied files opener.place [path] := by
  cases opened with
  | @made directory name _ ends attributes =>
    obtain ⟨⟨own, here⟩, free⟩ := Node.resolve_vacant ends
    have vacant : m.root.seen (directory ++ [name]) = none := by
      rw [Node.look_eq_seen] at free
      exact Option.map_eq_none_iff.mp free
    obtain ⟨entries, there⟩ := Node.at?_of_look_dir here
    have changed := Node.seen_put_vacant there vacant [] attributes
    obtain ⟨within, sees⟩ := Node.within_of_update changed (by simp [vacant])
    have reached := Node.reach_made within (by rintro _ _ ⟨⟩; exact sees) ends
    exact Files.onlyEmptied_of_update changed reached (.inl rfl)
  | @file position content attributes ends there =>
    have changed := Node.seen_put_file there [] { attributes with modified := m.now }
    have before : m.root.seen position = some (.file content attributes) :=
      congrArg (Option.map Node.face) there
    obtain ⟨within, -⟩ := Node.within_of_update changed (by rw [before]; rintro _ ⟨⟩; rfl)
    have reached := Node.reach_made within (by rintro _ _ ⟨⟩) ends
    exact Files.onlyEmptied_of_update changed reached (.inl rfl)
  | @again position fd s _ _ ends there leads again =>
    have device : m.root.seen position = some (.device (.descriptor fd)) :=
      congrArg (Option.map Node.face) there
    have stays {root' : Node} (within : m.root.Within root') :
        root'.reach opener.place path = .ok ⟨position, []⟩ :=
      Node.reach_made within (by rintro _ _ ⟨⟩) ends
    cases again with
    | @file file content attributes leads held =>
      have changed := Node.seen_put_file held [] attributes
      have before : m.root.seen file = some (.file content attributes) :=
        congrArg (Option.map Node.face) held
      obtain ⟨within, -⟩ := Node.within_of_update changed (by rw [before]; rintro _ ⟨⟩; rfl)
      have other : position ≠ file := by
        rintro rfl
        cases device.symm.trans before
      refine Files.onlyEmptied_of_update changed (stays within) (.inr ⟨fd, ?_⟩)
      exact (congrFun changed position).trans (by rw [Function.update_of_ne other, device])
    | @buffer number leads =>
      have reached : m.root.reach opener.place path = .ok ⟨position, []⟩ := stays fun _ _ => rfl
      constructor
      · intro out given
        obtain rfl := List.mem_singleton.mp given
        refine ⟨position, reached, fun content attributes held => ?_⟩
        cases device.symm.trans held
      · exact fun q differs => absurd rfl differs
      · intro n differs
        have same : n = number := by
          by_contra other
          exact differs (List.getElem?_set_ne (Ne.symm other))
        subst same
        refine ⟨?_, path, List.mem_singleton_self path, position, fd, reached, device⟩
        by_cases inside : n < m.buffers.length
        · exact List.getElem?_set_self inside
        · exact absurd (congrArg (·[n]?) (List.set_eq_of_length_le (Nat.not_lt.mp inside))) differs
    | other pipe =>
      refine Files.onlyEmptied_of_reach (stays fun _ _ => rfl) fun content attributes held => ?_
      cases device.symm.trans held
  | @other place _ ends live there pipe =>
    have empty := live rfl
    obtain ⟨node, held, other⟩ := there empty
    have reached : m.root.reach opener.place path = .ok ⟨place.base, []⟩ := by
      rw [Node.reach_made (fun _ _ => rfl) (by rintro _ _ ⟨⟩) ends, ← empty]
      rfl
    refine Files.onlyEmptied_of_reach reached fun content attributes file => ?_
    exact other content attributes
      (Option.some.inj (held.symm.trans (Node.at?_of_seen_file file)))

end Machine

end LineShell
