import LineShell.FileTree
import LineShell.Path

/-! What a directory holds, as a flat list, and what has changed between two such lists. -/

namespace LineShell

/-- What an inventory tells of a node. Permissions are not told, but they decide what can be seen. -/
inductive Entry
  | dir
  | file (content : Bytes)
  | link (target : Text)
  deriving Repr, DecidableEq

namespace Node

def entry : Node → Entry
  | file content attributes => .file (if attributes.permits .read then content else [])
  | utility _ | device _ => .file []
  | link target => .link target
  | dir _ _ => .dir

mutual

/-- The paths below a node, seen from `path`. -/
def entriesBelow (path : Text) : Node → List (Text × Entry)
  | dir entries attributes => if attributes.permits .read then entriesOf path entries else []
  | _ => []

def entriesOf (path : Text) : List (Text × Node) → List (Text × Entry)
  | [] => []
  | (name, node) :: rest =>
    let inner := Path.push path name
    (inner, node.entry) :: entriesBelow inner node ++ entriesOf path rest

end

/-- Everything below a position, by paths seen from there. -/
def inventory (root : Node) (position : Position) : List (Text × Entry) :=
  ((root.at? position).map (entriesBelow [])).getD []

end Node

/-- The paths that differ between two inventories, with what the later one tells of each. -/
def inventoryChanges (before after : List (Text × Entry)) : List (Text × Option Entry) :=
  let gone := before.filter fun old => after.all fun new => new.1 ≠ old.1
  let new := after.filter fun new => !before.any fun old => old = new
  gone.map (fun old => (old.1, none)) ++ new.map fun new => (new.1, some new.2)

end LineShell
