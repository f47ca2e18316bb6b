import LineShell.Proofs.Walk

/-! The tree as a map from positions. What is seen of a node says all there is to say of it but what
lies below, so a file that is written or made changes the view of one position (`seen_put_file`,
`seen_put_vacant`), and a walk that was to make the file reaches it afterwards
(`Resolve.resolve_made`). -/

namespace LineShell

/-- A node without what lies below it. -/
inductive Face
  | file (content : Bytes) (attributes : Attributes)
  | utility (utility : Utility)
  | device (device : Device)
  | link (target : Text)
  | dir (attributes : Attributes)
  deriving DecidableEq

def Face.sight : Face → Sight
  | dir attributes => .dir attributes
  | link target => .link target
  | _ => .other

namespace Node

def face : Node → Face
  | file content attributes => .file content attributes
  | utility u => .utility u
  | device d => .device d
  | link target => .link target
  | dir _ attributes => .dir attributes

/-- What is at a position. -/
def seen (root : Node) (position : Position) : Option Face := (root.at? position).map face

variable {root root' node : Node} {position : Position}

theorem look_eq_seen (root : Node) (position : Position) :
    root.look position = (root.seen position).map Face.sight := by
  rw [look, seen]
  cases root.at? position with
  | none => rfl
  | some node => cases node <;> rfl

theorem look_of_seen (alike : root.seen = root'.seen) : root.look = root'.look := by
  funext position
  rw [look_eq_seen, look_eq_seen, alike]

theorem at?_of_look_dir {attributes : Attributes} (there : root.look position = some (.dir attributes)) :
    ∃ entries, root.at? position = some (.dir entries attributes) := by
  obtain ⟨node, held, sight⟩ := Option.map_eq_some_iff.mp there
  cases node with
  | dir entries own =>
    cases sight
    exact ⟨entries, held⟩
  | file | utility | device | link => cases sight

theorem seen_cons (root : Node) (name : Text) (rest : Position) :
    root.seen (name :: rest) = (root.child? name).bind (·.seen rest) := by
  rw [seen, at?]
  cases root.child? name <;> rfl

theorem at?_of_seen_file {content : Bytes} {attributes : Attributes}
    (there : root.seen position = some (.file content attributes)) :
    root.at? position = some (.file content attributes) := by
  obtain ⟨node, held, face⟩ := Option.map_eq_some_iff.mp there
  cases node with
  | file => cases face; exact held
  | utility | device | link | dir => cases face

/-- A change below a position is seen below it only. -/
theorem seen_modify {change : Node → Node} (there : root.at? position = some node) (q : Position) :
    (root.modify change position).seen q =
      if position <+: q then (change node).seen (q.drop position.length) else root.seen q := by
  induction position generalizing root q with
  | nil =>
    obtain rfl : root = node := Option.some.inj there
    simp [modify]
  | cons name rest ih =>
    obtain ⟨child, below, further⟩ := Option.bind_eq_some_iff.mp there
    cases root with
    | dir entries attributes =>
      cases q with
      | nil => simp [seen, at?, modify, face]
      | cons first q =>
        rw [seen_cons, seen_cons, modify, child?_map]
        by_cases same : first = name
        · subst same
          simp [below, ih further]
        · simp [same, Ne.symm same]
    | file | utility | device | link => simp [child?] at below

theorem seen_setChild (name : Text) (child : Node) (entries : List (Text × Node))
    (attributes : Attributes) (first : Text) (q : Position) :
    (setChild name child (dir entries attributes)).seen (first :: q) =
      if first = name then child.seen q else (dir entries attributes).seen (first :: q) := by
  rw [seen_cons, child?_setChild, seen_cons]
  by_cases same : first = name
  · rw [if_pos same, if_pos same, Option.bind_some]
  · rw [if_neg same, if_neg same]

theorem seen_file (content : Bytes) (attributes : Attributes) (q : Position) :
    (file content attributes).seen q = if q = [] then some (.file content attributes) else none := by
  cases q with
  | nil => rfl
  | cons first q => rfl

/-- A file put where nothing lies below changes what is seen there, and nowhere else. -/
theorem seen_put_leaf {above : Position} {name : Text} {entries : List (Text × Node)}
    {attributes : Attributes} (there : root.at? above = some (.dir entries attributes))
    (leaf : ∀ q, q ≠ [] → root.seen (above ++ name :: q) = none) (content : Bytes)
    (own : Attributes) :
    (root.put (above ++ [name]) (.file content own)).seen =
      Function.update root.seen (above ++ [name]) (some (.file content own)) := by
  funext q
  simp only [put, List.getLast?_concat, List.dropLast_concat]
  rw [seen_modify there, Function.update_apply]
  by_cases below : above <+: q
  · obtain ⟨rest, rfl⟩ := below
    have inside : root.seen (above ++ rest) = (dir entries attributes).seen rest := by
      rw [seen, at?_append, there]
      rfl
    rw [if_pos (List.prefix_append _ _), List.drop_left]
    simp only [List.append_cancel_left_eq]
    cases rest with
    | nil =>
      rw [inside, if_neg (by simp)]
      rfl
    | cons first rest =>
      rw [seen_setChild, seen_file]
      by_cases same : first = name
      · subst same
        by_cases ends : rest = []
        · simp [ends]
        · simp [ends, leaf rest ends]
      · rw [if_neg same, inside, if_neg (by simp [same])]
  · rw [if_neg below, if_neg]
    rintro rfl
    exact below (List.prefix_append _ _)

theorem seen_put_vacant {above : Position} {name : Text} {entries : List (Text × Node)}
    {attributes : Attributes} (there : root.at? above = some (.dir entries attributes))
    (vacant : root.seen (above ++ [name]) = none) (content : Bytes) (own : Attributes) :
    (root.put (above ++ [name]) (.file content own)).seen =
      Function.update root.seen (above ++ [name]) (some (.file content own)) := by
  refine seen_put_leaf there (fun q _ => ?_) content own
  have nothing : root.at? (above ++ [name]) = none := Option.map_eq_none_iff.mp vacant
  rw [seen, List.append_cons, at?_append, nothing]
  rfl

theorem seen_put_file {content : Bytes} {attributes : Attributes}
    (there : root.at? position = some (.file content attributes)) (content' : Bytes)
    (attributes' : Attributes) :
    (root.put position (.file content' attributes')).seen =
      Function.update root.seen position (some (.file content' attributes')) := by
  rcases List.eq_nil_or_concat position with rfl | ⟨above, name, rfl⟩
  · obtain rfl : root = .file content attributes := Option.some.inj there
    funext q
    rw [put, List.getLast?_nil, Function.update_apply, seen_file, seen_file]
    split <;> rfl
  · rw [List.concat_eq_append] at there ⊢
    have inside := there
    rw [at?_concat] at inside
    obtain ⟨directory, found, child⟩ := Option.bind_eq_some_iff.mp inside
    cases directory with
    | dir entries own =>
      refine seen_put_leaf found (fun q below => ?_) content' attributes'
      rw [seen, List.append_cons, at?_append, there, Option.bind_some]
      cases q with
      | nil => contradiction
      | cons first q => rfl
    | file | utility | device | link => simp [child?] at child

end Node

/-- Where a walk ends once the file that it was to make has been made. -/
def Destination.place : Destination → Place
  | found place => place
  | vacant directory name => ⟨directory ++ [name], []⟩

/-- What a link leads to. -/
def Sight.target? : Sight → Option Text
  | link target => some target
  | dir _ | other => none

/-- Whatever is in the one tree is seen the same in the other. -/
def Node.Within (root root' : Node) : Prop :=
  ∀ position, root.look position ≠ none → root'.look position = root.look position

namespace Resolve

variable {root root' : Node} {purpose : Purpose} {d : Destination}
  {follow : Place → Text → List Text → Except Errno Destination} {place : Place} {part : Text}
  {rest : List Text}

/-- What the first part of a walk that does not fail comes to. To reach something in a tree that
holds as much it does the same. -/
theorem walk_step (ends : walk root purpose follow place (part :: rest) = .ok d) :
    (∃ next, walk root purpose follow next rest = .ok d ∧
      ∀ root' follow', root.Within root' →
        walk root' .reach follow' place (part :: rest) = walk root' .reach follow' next rest) ∨
    (∃ target, follow place target rest = .ok d ∧
      ∀ root' follow', root.Within root' →
        walk root' .reach follow' place (part :: rest) = follow' place target rest) ∨
    (rest = [] ∧ d = .vacant place.base part ∧
      (∃ attributes, root.look place.base = some (.dir attributes)) ∧
      root.look (place.base ++ [part]) = none ∧
      ∀ root' follow', root.Within root' → root'.look (place.base ++ [part]) = some .other →
        walk root' .reach follow' place (part :: rest) = .ok (.found d.place)) := by
  rw [walk_cons] at ends
  simp only [walk_cons]
  cases live : place.isLive with
  | false =>
    simp only [live, Bool.not_false, if_true] at ends ⊢
    left
    by_cases stays : part = [] ∨ part = ['.']
    · rw [if_pos stays] at ends
      exact ⟨place, ends, fun _ _ _ => if_pos stays⟩
    rw [if_neg stays] at ends
    by_cases up : part = ['.', '.']
    · rw [if_pos up] at ends
      exact ⟨place.parent, ends, fun _ _ _ => (if_neg stays).trans (if_pos up)⟩
    · rw [if_neg up] at ends
      cases ends
  | true =>
    simp only [live, Bool.not_true, Bool.false_eq_true, if_false] at ends ⊢
    cases here : root.look place.base with
    | none => simp [here] at ends
    | some sight =>
      have kept {root' : Node} (within : root.Within root') :
          root'.look place.base = some sight := (within _ (by simp [here])).trans here
      rw [here] at ends
      cases sight with
      | link | other => cases ends
      | dir attributes =>
        dsimp only at ends
        by_cases stays : part = []
        · rw [if_pos stays] at ends
          exact .inl ⟨place, ends, fun _ _ within => by simp [kept within, stays]⟩
        by_cases shut : (!attributes.permits .search) = true
        · rw [if_neg stays, if_pos shut] at ends
          cases ends
        by_cases dot : part = ['.']
        · rw [if_neg stays, if_neg shut, if_pos dot] at ends
          exact .inl ⟨place, ends, fun _ _ within => by
            simp only [kept within, if_neg stays, if_neg shut, if_pos dot]⟩
        by_cases up : part = ['.', '.']
        · rw [if_neg stays, if_neg shut, if_neg dot, if_pos up] at ends
          exact .inl ⟨place.parent, ends, fun _ _ within => by
            simp only [kept within, if_neg stays, if_neg shut, if_neg dot, if_pos up]⟩
        by_cases long : nameLimit < byteSize part
        · rw [if_neg stays, if_neg shut, if_neg dot, if_neg up, if_pos long] at ends
          cases ends
        by_cases slash : purpose = .create ∧ rest = [[]]
        · rw [if_neg stays, if_neg shut, if_neg dot, if_neg up, if_neg long, if_pos slash] at ends
          cases ends
        rw [if_neg stays, if_neg shut, if_neg dot, if_neg up, if_neg long, if_neg slash] at ends
        -- the name is looked up, which only what is there decides
        have looks {root' : Node}
            {follow' : Place → Text → List Text → Except Errno Destination}
            (within : root.Within root') {sight : Sight}
            (below : root'.look (place.base ++ [part]) = some sight) :
            walk root' .reach follow' place (part :: rest) =
              sight.target?.elim (walk root' .reach follow' (place.child part) rest)
                (follow' place · rest) := by
          rw [walk_cons]
          simp only [live, Bool.not_true, Bool.false_eq_true, if_false, kept within, if_neg stays,
            if_neg shut, if_neg dot, if_neg up, if_neg long, below, reduceCtorEq, false_and]
          cases sight <;> rfl
        simp only [walk_cons, live, Bool.not_true, Bool.false_eq_true, if_false] at looks
        cases below : root.look (place.base ++ [part]) with
        | some sight =>
          rw [below] at ends
          have same {root' : Node} (within : root.Within root') :
              root'.look (place.base ++ [part]) = some sight :=
            (within _ (by simp [below])).trans below
          cases sight with
          | link target =>
            exact .inr (.inl ⟨target, ends, fun _ _ within => looks within (same within)⟩)
          | dir | other =>
            exact .inl ⟨place.child part, ends, fun _ _ within => looks within (same within)⟩
        | none =>
          rw [below] at ends
          dsimp only at ends
          by_cases last : rest.isEmpty
          · rw [if_pos last] at ends
            obtain rfl : .vacant place.base part = d := Except.ok.inj ends
            obtain rfl : rest = [] := List.isEmpty_iff.mp last
            refine .inr (.inr ⟨rfl, rfl, ⟨attributes, rfl⟩, rfl, fun _ _ within made => ?_⟩)
            have empty : place.lost = [] := List.isEmpty_iff.mp live
            rw [looks within made]
            simp [walk, Place.child, Destination.place, Sight.target?, empty]
          · rw [if_neg last] at ends
            cases ends

/-- A name that a walk finds free is free, in a directory. -/
theorem walk_vacant {directory : Position} {name : Text} {parts : List Text}
    (follows : ∀ place target rest, follow place target rest = .ok (.vacant directory name) →
      (∃ attributes, root.look directory = some (.dir attributes)) ∧
        root.look (directory ++ [name]) = none)
    (ends : walk root purpose follow place parts = .ok (.vacant directory name)) :
    (∃ attributes, root.look directory = some (.dir attributes)) ∧
      root.look (directory ++ [name]) = none := by
  induction parts generalizing place with
  | nil => cases ends
  | cons part rest ih =>
    rcases walk_step ends with ⟨next, further, -⟩ | ⟨target, further, -⟩ | ⟨-, same, here, free, -⟩
    · exact ih further
    · exact follows _ _ _ further
    · cases same
      exact ⟨here, free⟩

theorem walk_made (within : root.Within root')
    (made : ∀ directory name, d = .vacant directory name →
      root'.look (directory ++ [name]) = some .other)
    {follow' : Place → Text → List Text → Except Errno Destination}
    (follows : ∀ place target rest, follow place target rest = .ok d →
      follow' place target rest = .ok (.found d.place))
    {parts : List Text} (ends : walk root purpose follow place parts = .ok d) :
    walk root' .reach follow' place parts = .ok (.found d.place) := by
  induction parts generalizing place with
  | nil =>
    obtain rfl : .found place = d := Except.ok.inj ends
    rfl
  | cons part rest ih =>
    rcases walk_step ends with ⟨next, further, step⟩ | ⟨target, further, step⟩ |
      ⟨-, same, -, -, step⟩
    · rw [step root' follow' within]
      exact ih further
    · rw [step root' follow' within]
      exact follows _ _ _ further
    · exact step root' follow' within (made _ _ same)

theorem walkLinks_vacant {directory : Position} {name : Text} (links : Nat) {parts : List Text}
    (ends : walkLinks root purpose links place parts = .ok (.vacant directory name)) :
    (∃ attributes, root.look directory = some (.dir attributes)) ∧
      root.look (directory ++ [name]) = none := by
  induction links generalizing place parts with
  | zero => exact walk_vacant (fun _ _ _ follows => by cases follows) ends
  | succ links ih => exact walk_vacant (fun _ _ _ follows => ih follows) ends

theorem walkLinks_made (within : root.Within root')
    (made : ∀ directory name, d = .vacant directory name →
      root'.look (directory ++ [name]) = some .other) (links : Nat) {parts : List Text}
    (ends : walkLinks root purpose links place parts = .ok d) :
    walkLinks root' .reach links place parts = .ok (.found d.place) := by
  induction links generalizing place parts with
  | zero => exact walk_made within made (fun _ _ _ follows => by cases follows) ends
  | succ links ih => exact walk_made within made (fun _ _ _ follows => ih follows) ends

end Resolve

namespace Node

variable {root root' : Node} {purpose : Resolve.Purpose} {here : Place} {path : Text}

theorem resolve_ok {d : Destination} (ends : root.resolve here purpose path = .ok d) :
    ¬ path.isEmpty ∧ ¬ Resolve.pathLimit ≤ byteSize path ∧
      Resolve.walkLinks root purpose Resolve.linkLimit (Resolve.start here path)
        (Resolve.route path) = .ok d := by
  rw [resolve] at ends
  split at ends
  · cases ends
  · split at ends
    · cases ends
    · exact ⟨‹_›, ‹_›, ends⟩

/-- A tree in which a file has been written or made. -/
theorem within_of_update {position : Position} {content : Bytes} {attributes : Attributes}
    (changed : root'.seen = Function.update root.seen position (some (.file content attributes)))
    (free : ∀ face, root.seen position = some face → face.sight = .other) :
    root.Within root' ∧ root'.look position = some .other := by
  have there : root'.look position = some .other := by
    rw [look_eq_seen, changed, Function.update_self]
    rfl
  refine ⟨fun q sees => ?_, there⟩
  by_cases same : q = position
  · subst same
    rw [there]
    rw [look_eq_seen] at sees ⊢
    cases face : root.seen q with
    | none => simp [face] at sees
    | some face' => rw [Option.map_some, free face' face]
  · rw [look_eq_seen, look_eq_seen, changed, Function.update_of_ne same]

theorem resolve_vacant {directory : Position} {name : Text}
    (ends : root.resolve here purpose path = .ok (.vacant directory name)) :
    (∃ attributes, root.look directory = some (.dir attributes)) ∧
      root.look (directory ++ [name]) = none :=
  Resolve.walkLinks_vacant _ (resolve_ok ends).2.2

/-- The path of a file that has been made, if need be, leads there. -/
theorem reach_made {d : Destination} (within : root.Within root')
    (made : ∀ directory name, d = .vacant directory name →
      root'.look (directory ++ [name]) = some .other)
    (ends : root.resolve here purpose path = .ok d) : root'.reach here path = .ok d.place := by
  obtain ⟨held, short, ends⟩ := resolve_ok ends
  rw [reach, resolve, if_neg held, if_neg short, Resolve.walkLinks_made within made _ ends]

end Node

end LineShell
