import LineShell.FileTree.Edit
import LineShell.World

/-! Changes that come from outside the shell while it stands in its world: other hands make,
write, link, remove and move files, and set variables of its environment. Paths are seen from a
directory of theirs, not from the one the shell stands in. -/

namespace LineShell.World

/-- The world with a change of its files, if the change is made. -/
def changeFiles? (world : World) (change : Node → Option Node) : Option World :=
  (change world.machine.root).map fun root =>
    { world with machine := { world.machine with root } }

/-- Something is removed; who stands below it stands in a removed directory. -/
def removeOutside? (world : World) (here : Place) (path : Text) : Option World :=
  (world.machine.root.remove? here path).map fun (root, position) =>
    { world with
      machine := { world.machine with root }
      place := world.place.afterRemoval position }

/-- Something is moved, and who stands below it moves along. -/
def moveOutside? (world : World) (here : Place) (source target : Text) : Option World :=
  (world.machine.root.move? here source target).map fun (root, source, target) =>
    { world with
      machine := { world.machine with root }
      place := world.place.afterMove source target }

/-- The environment is changed behind the back of the variable table. -/
def changeEnvironment (world : World) (change : Environment → Environment) : World :=
  let vars := world.session.vars
  let vars := { vars with environment := change vars.environment }
  { world with session := { world.session with vars } }

end LineShell.World
