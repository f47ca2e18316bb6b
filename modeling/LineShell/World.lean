import LineShell.IoError
import LineShell.JobTable
import LineShell.Machine.Children

/-! A shell and the machine it runs on, and what the shell can ask of the machine. Every request
is an action: it changes the world, and gives a value or a failure. The changes made before a
failure stay. -/

namespace LineShell

/-- What lives as long as the shell does: the directory that `cd -` returns to, the variables, and
the lines that were entered, in order. -/
structure Session where
  previousDir : Option Text := none
  vars : Variables := {}
  history : List Text := []
  deriving DecidableEq

structure World where
  session : Session := {}
  place : Place
  descriptors : Descriptors
  jobs : JobTable := .empty
  machine : Machine
  /-- The home directory of the user by the accounts of the system. -/
  accountHome : Option Text := none
  /-- What has been printed to standard output and has not been written yet. -/
  unwritten : Bytes := []

/-- What a shell does in its world. -/
abbrev Act (ε α : Type) := ExceptT (Failure ε) (StateM World) α

namespace Act

variable {ε ε' α : Type}

/-- An action from what it does to a world. -/
def of (f : World → Except (Failure ε) α × World) : Act ε α := f

def fail (e : ε) : Act ε α := throw (.error e)

def ofExcept : Except ε α → Act ε α
  | .ok a => pure a
  | .error e => fail e

/-- The same action, with its errors put into other words. -/
def mapError (f : ε → ε') (act : Act ε α) : Act ε' α := of fun world =>
  match act.run world with
  | (.ok a, world) => (.ok a, world)
  | (.error e, world) => (.error (e.map f), world)

/-- The action carried out for its changes; its failure becomes a value. -/
def attempt (act : Act ε α) : Act ε (Except (Failure ε) α) := of fun world =>
  match act.run world with
  | (result, world) => (.ok result, world)

/-- The action, which has to succeed: its failure brings the shell down. -/
def insist (act : Act ε α) : Act ε' α := of fun world =>
  match act.run world with
  | (.ok a, world) => (.ok a, world)
  | (.error _, world) => (.error .crash, world)

/-- The action, and then `cleanup`, whether the action has failed or not. -/
def ensuring (cleanup : World → World) (act : Act ε α) : Act ε α := of fun world =>
  match act.run world with
  | (result, world) => (result, cleanup world)

end Act

namespace World

def environment (world : World) : Environment := world.session.vars.environment

/-- The value of an environment variable. -/
def getenv (world : World) (name : String) : Option Text := world.environment.get? name.toList

/-- The world with an environment variable set. -/
def setenv (world : World) (name : String) (value : Text) : World :=
  let vars := world.session.vars
  let environment := vars.environment.insert name.toList value
  { world with session := { world.session with vars := { vars with environment } } }

/-- The file or directory to which a path leads. -/
def reach (world : World) (path : Text) : Except IoError Place := do
  let path ← systemPath path
  (world.machine.root.reach world.place path).mapError .os

/-- Whether two paths lead to the same file or directory. -/
def sameFile (world : World) (a b : Text) : Bool :=
  match world.reach a, world.reach b with
  | .ok a, .ok b => a = b
  | _, _ => false

/-- The working directory without links, as long as it is part of the tree. -/
def physicalDir (world : World) : Except IoError Text :=
  match world.place.path? with
  | some path => .ok path
  | none => .error (.os .noEntry)

/-- The world after a change of the working directory. -/
def changeDir (world : World) (path : Text) : Except IoError World := do
  let path ← systemPath path
  let place ← (world.machine.root.reachDir world.place path).mapError .os
  return { world with place }

/-- Whether a path leads to a file that someone may execute. -/
def isExecutable (world : World) (path : Text) : Bool :=
  match world.reach path with
  | .error _ => false
  | .ok place =>
    place.isLive && (world.machine.root.at? place.base).any fun node => match node with
      | .file _ attributes => attributes.isExecutable
      | .utility _ => true
      | _ => false

/-- The shell as it opens files. -/
def opener (world : World) : Machine.Opener := ⟨world.place, 0o022, world.descriptors⟩

/-- The streams that the shell holds. -/
def held (world : World) : List Nat :=
  world.descriptors.entries.map fun entry => entry.2.stream

/-- The bytes of the file at the end of a path. -/
def readFile (world : World) (path : Text) : Except IoError Bytes := do
  let path ← systemPath path
  let (stream, machine) ← (world.machine.openPath world.opener path .input).mapError .os
  (machine.contents stream).mapError .os

/-- The world without some descriptors of the shell. -/
def close (world : World) (fds : List Nat) : World :=
  { world with descriptors := Descriptors.closeAll world.descriptors fds }

end World

/-- Takes the next answer of the system to an opening. -/
def nextOpening : Act IoError Unit := Act.of fun world =>
  let refusals := world.machine.refusals
  let (refusal, opens) := Machine.nextRefusal refusals.opens
  let world := { world with
    machine := { world.machine with refusals := { refusals with opens } } }
  match refusal with
  | some e => (.error (.error (.os e)), world)
  | none => (.ok (), world)

/-- Opens a file on a descriptor of the shell. -/
def openFile (path : Text) (mode : OpenMode) : Act IoError Nat := do
  let path ← Act.ofExcept (systemPath path)
  nextOpening
  let world ← get
  let (stream, machine) ←
    Act.ofExcept ((world.machine.openPath world.opener path mode).mapError .os)
  let (fd, descriptors) := Descriptors.add world.descriptors stream
  set { world with machine, descriptors }
  return fd

/-- Opens a file for reading. -/
def openInput (path : Text) : Act IoError Nat := openFile path .input

/-- Opens a file for writing, made or emptied. -/
def openOutput (path : Text) : Act IoError Nat := openFile path .output

/-- Writes a text to a stream. Nothing is asked of the system for an empty text. -/
def writeText (stream : Nat) (text : Text) : Act IoError Unit := do
  if text.isEmpty then return
  let world ← get
  let machine ← Act.ofExcept ((world.machine.write stream (encode text)).mapError .os)
  set { world with machine }

/-- The stream behind a descriptor of the shell. -/
def World.streamOf (world : World) (fd : Nat) : Nat :=
  (Descriptors.stream? world.descriptors fd).getD world.machine.streams.length

end LineShell
