import LineShell.FileTree.Resolve

/-! Changes to the tree that are asked for by path: making directories, files and links, removing
and moving. They answer `none` when the change is refused. Whoever stands in a directory that goes
away or moves is told by the positions that come with the answer. -/

namespace LineShell.Node
open Resolve

/-- The directory and the name of the last part of a path, which need not exist and is not
followed if it is a link. -/
def locate? (root : Node) (here : Place) (path : Text) : Option (Position × Text) := do
  let parts := Path.parts path
  let name ← parts.getLast?
  if name = ['.'] ∨ name = ['.', '.'] then none
  match walkLinks root .reach linkLimit (start here path) parts.dropLast with
  | .ok (.found place) =>
    if place.isLive && (root.at? place.base).any isDir then some (place.base, name) else none
  | _ => none

/-- A new directory, unless one is there already. -/
def makeDir? (root : Node) (here : Place) (path : Text) : Option Node :=
  match root.resolve here .reach path with
  | .ok (.found place) =>
    if place.isLive && (root.at? place.base).any isDir then some root else none
  | .ok (.vacant directory name) => some (root.put (directory ++ [name]) (dir [] .ownDir))
  | .error _ => none

/-- A new directory with all directories above it that are missing. -/
def makeDirs? (root : Node) (here : Place) (path : Text) : Option Node :=
  let parts := Path.parts path
  (List.range parts.length).foldlM (fun root n =>
    let above := join '/' (parts.take (n + 1))
    root.makeDir? here (if Path.isAbsolute path then '/' :: above else above)) root

/-- A file with the given content; one that is there keeps its permissions. -/
def writeFile? (root : Node) (here : Place) (path : Text) (content : Bytes) : Option Node :=
  match root.resolve here .create path with
  | .ok (.vacant directory name) => some (root.put (directory ++ [name]) (file content .ownFile))
  | .ok (.found place) =>
    match root.at? place.base with
    | some (file _ attributes) =>
      if attributes.permits .write then some (root.put place.base (file content attributes)) else none
    | some (device _) => some root
    | _ => none
  | .error _ => none

/-- Another mode for what is at the end of a path, which has to belong to the user of the shell. -/
def setMode? (root : Node) (here : Place) (path : Text) (mode : Nat) : Option Node :=
  match root.reach here path with
  | .ok place => do
    let node ← if place.isLive then root.at? place.base else none
    if node.attributes.mine then
      some (root.modify (withAttributes { node.attributes with mode }) place.base)
    else none
  | .error _ => none

/-- A new link, where nothing is yet. -/
def makeLink? (root : Node) (here : Place) (path target : Text) : Option Node := do
  let (directory, name) ← root.locate? here path
  if target.isEmpty || (root.at? (directory ++ [name])).isSome then none
  else some (root.put (directory ++ [name]) (link target))

/-- The tree without what is at the end of a path, and the position that has gone. -/
def remove? (root : Node) (here : Place) (path : Text) : Option (Node × Position) := do
  let (directory, name) ← root.locate? here path
  let position := directory ++ [name]
  if (root.at? position).isNone then none
  some (root.erase position, position)

/-- Whether a node may take the place of another: a directory only that of an empty one, and
anything else only that of something that is no directory. -/
def mayReplace : Node → Node → Bool
  | dir _ _, dir entries _ => entries.isEmpty
  | dir _ _, _ => false
  | _, dir _ _ => false
  | _, _ => true

/-- The tree with a node moved, and its old and new positions. A directory cannot be moved below
itself. -/
def move? (root : Node) (here : Place) (source target : Text) :
    Option (Node × Position × Position) := do
  let (sourceDir, sourceName) ← root.locate? here source
  let (targetDir, targetName) ← root.locate? here target
  let sourcePosition := sourceDir ++ [sourceName]
  let targetPosition := targetDir ++ [targetName]
  let node ← root.at? sourcePosition
  if sourcePosition = targetPosition then some (root, sourcePosition, targetPosition)
  else if sourcePosition.isPrefixOf targetPosition then none
  else if (root.at? targetPosition).all (node.mayReplace ·) then
    some ((root.erase sourcePosition).put targetPosition node, sourcePosition, targetPosition)
  else none

end LineShell.Node
