import LineShell.World

/-! The working directory as the user went to it. `PWD` holds it as long as it is an absolute path
that leads where the shell stands; after that the directory is known by its path without links. -/

namespace LineShell.World

/-- The home directory: `HOME` says which it is, or else the accounts of the system. An empty name
is none. -/
def home (world : World) : Except EnvError Text :=
  let named (home : Option Text) : Option Text := home.filter (!·.isEmpty)
  match (named (world.getenv "HOME")).or (named world.accountHome) with
  | some home => .ok home
  | none => .error .homeNotSet

/-- A path with a leading `~` replaced. -/
def expandTilde (world : World) (path : Text) : Except EnvError Text :=
  Path.expandTilde world.home path

/-- `PWD`, if it is an absolute path. -/
def absolutePwd (world : World) : Option Text :=
  (world.getenv "PWD").filter Path.isAbsolute

def logicalDir (world : World) : Except IoError Text :=
  match world.absolutePwd with
  | some pwd => if world.sameFile pwd ['.'] then .ok pwd else world.physicalDir
  | none => world.physicalDir

end LineShell.World
