import LineShell.ChildState
import LineShell.Errno
import LineShell.FileTree

/-! What a program is to the system: a tree of requests. A program ends with a status, or asks for
something and goes on with the answer, or splits in two. Nothing is carried out here; the machine
answers one request of one process at a time, and what the others do in between is its affair.

Programs see texts as bytes: in a path, an argument or a variable each character stands for one
byte (`octets`). -/

namespace LineShell

/-- How a file is to be opened. -/
structure OpenMode where
  reads : Bool := false
  writes : Bool := false
  /-- A file that is missing is made. -/
  creates : Bool := false
  /-- A file that is there is emptied. -/
  empties : Bool := false
  /-- Writing goes to the end of the file. -/
  appends : Bool := false
  /-- A file that is there already is refused. -/
  exclusive : Bool := false
  deriving Repr, DecidableEq

namespace OpenMode

def input : OpenMode := { reads := true }
def output : OpenMode := { writes := true, creates := true, empties := true }
def append : OpenMode := { writes := true, creates := true, appends := true }
def update : OpenMode := { reads := true, writes := true, creates := true }
def fresh : OpenMode := { writes := true, creates := true, exclusive := true }

end OpenMode

/-- Where the offset of a move is counted from. -/
inductive Origin
  | start
  | current
  | finish
  deriving Repr, DecidableEq

/-- What tells two open files apart. -/
inductive Identity
  | node (position : Position)
  | gone
  | device (device : Device)
  | buffer (number : Nat)
  | pipe (number : Nat)
  deriving Repr, DecidableEq

inductive FileKind
  | regular
  | directory
  | link
  | device
  | pipe
  deriving Repr, DecidableEq

structure FileStatus where
  kind : FileKind
  attributes : Attributes
  size : Nat
  identity : Identity
  deriving Repr, DecidableEq

/-- What a process does when a signal reaches it: what the signal does by itself, nothing, or
something of its own. -/
inductive SignalAction
  | standard
  | ignored
  | handled
  deriving Repr, DecidableEq

/-- What a process can ask of the system. -/
inductive Request
  | openFile (path : Text) (mode : OpenMode)
  | close (fd : Nat)
  /-- The second descriptor is to lead where the first one leads. -/
  | redirect (source target : Nat)
  /-- A new descriptor, not below a bound, that leads where another one leads. -/
  | duplicate (source least : Nat) (closeOnExec : Bool)
  | pipe
  | read (fd count : Nat)
  | write (fd : Nat) (bytes : Bytes)
  | seek (fd : Nat) (origin : Origin) (offset : Int)
  | status (fd : Nat)
  | statusAt (path : Text) (follow : Bool)
  | permits (path : Text) (permission : Permission)
  /-- The names in a directory. -/
  | list (path : Text)
  | setMode (path : Text) (mode : Nat)
  /-- Another mask for new files; the answer is the mask before. -/
  | setMask (mask : Nat)
  | changeDir (path : Text)
  | currentDir
  /-- Becomes another program; there is an answer only if that fails. -/
  | execute (path : Text) (args : List Text) (environment : List (Text × Text))
  /-- Collects a child that has ended, a given one or any. -/
  | wait (child : Option Nat) (blocks : Bool)
  | kill (target : Int) (signal : Nat)
  | setSignal (signal : Nat) (action : SignalAction)
  /-- The handled signals that have come in since the last time. -/
  | takeSignals
  /-- Does nothing for some millionths of a second. -/
  | pause (time : Nat)
  /-- The numbers of the process and of its parent. -/
  | identity
  /-- Works without asking for anything. -/
  | work (time : Nat)

/-- What the answer to a request is. -/
def Request.Reply : Request → Type
  | openFile _ _ | duplicate _ _ _ => Except Errno Nat
  | close _ | redirect _ _ | setMode _ _ | changeDir _ | kill _ _ => Except Errno Unit
  | pipe => Except Errno (Nat × Nat)
  | read _ _ => Except Errno Bytes
  | write _ _ | seek _ _ _ => Except Errno Nat
  | status _ | statusAt _ _ => Except Errno FileStatus
  | permits _ _ => Bool
  | list _ => Except Errno (List Text)
  | setMask _ => Nat
  | currentDir => Except Errno Text
  | execute _ _ _ => Errno
  | wait _ _ => Except Errno (Option (Nat × StatusWord))
  | setSignal _ _ => SignalAction
  | takeSignals => List Nat
  | pause _ => Bool
  | work _ => Unit
  | identity => Nat × Nat

/-- What a process does next, and after that. A split gives its first part to a new process, and
the second one learns the number of that process. -/
inductive Code
  | exit (status : Nat)
  | call (request : Request) (next : request.Reply → Code)
  | fork (child : Code) (next : Except Errno Nat → Code)

instance : Inhabited Code := ⟨.exit 0⟩

/-- A part of a program that gives a value to what follows it. -/
def Program (α : Type) : Type := (α → Code) → Code

namespace Program

variable {α β : Type}

instance : Monad Program where
  pure a := fun next => next a
  bind p f := fun next => p fun a => f a next

/-- Ends the process, whatever would follow. -/
def exit (status : Nat) : Program α := fun _ => .exit status

def request (r : Request) : Program r.Reply := fun next => .call r next

def fork (child : Code) : Program (Except Errno Nat) := fun next => .fork child next

instance : Inhabited (Program α) := ⟨exit 0⟩

def openFile (path : Text) (mode : OpenMode) : Program (Except Errno Nat) :=
  request (.openFile path mode)

def close (fd : Nat) : Program Unit := do
  let _ ← request (.close fd)

def redirect (source target : Nat) : Program (Except Errno Unit) :=
  request (.redirect source target)

def duplicate (source least : Nat) (closeOnExec : Bool) : Program (Except Errno Nat) :=
  request (.duplicate source least closeOnExec)

def pipe : Program (Except Errno (Nat × Nat)) := request .pipe

def read (fd count : Nat) : Program (Except Errno Bytes) := request (.read fd count)

def write (fd : Nat) (bytes : Bytes) : Program (Except Errno Nat) := request (.write fd bytes)

def seek (fd : Nat) (origin : Origin) (offset : Int) : Program (Except Errno Nat) :=
  request (.seek fd origin offset)

def status (fd : Nat) : Program (Except Errno FileStatus) := request (.status fd)

def statusAt (path : Text) (follow : Bool := true) : Program (Except Errno FileStatus) :=
  request (.statusAt path follow)

def permits (path : Text) (permission : Permission) : Program Bool :=
  request (.permits path permission)

def list (path : Text) : Program (Except Errno (List Text)) := request (.list path)

def setMode (path : Text) (mode : Nat) : Program (Except Errno Unit) :=
  request (.setMode path mode)

def setMask (mask : Nat) : Program Nat := request (.setMask mask)

def changeDir (path : Text) : Program (Except Errno Unit) := request (.changeDir path)

def currentDir : Program (Except Errno Text) := request .currentDir

def execute (path : Text) (args : List Text) (environment : List (Text × Text)) : Program Errno :=
  request (.execute path args environment)

def wait (child : Option Nat) (blocks : Bool) :
    Program (Except Errno (Option (Nat × StatusWord))) := request (.wait child blocks)

def kill (target : Int) (signal : Nat) : Program (Except Errno Unit) :=
  request (.kill target signal)

def setSignal (signal : Nat) (action : SignalAction) : Program SignalAction :=
  request (.setSignal signal action)

def takeSignals : Program (List Nat) := request .takeSignals

/-- Whether the whole time has passed; a signal may end it before. -/
def pause (time : Nat) : Program Bool := request (.pause time)

def identity : Program (Nat × Nat) := request .identity

def work (time : Nat) : Program Unit := request (.work time)

/-- Writes all bytes, in as many requests as it takes. Every request that succeeds writes a byte
at least. -/
def writeAll (fd : Nat) (bytes : Bytes) : Program (Except Errno Unit) :=
  go bytes.length bytes
where
  go : Nat → Bytes → Program (Except Errno Unit)
    | 0, _ => pure (.ok ())
    | fuel + 1, bytes =>
      if bytes.isEmpty then pure (.ok ())
      else do
        match ← write fd bytes with
        | .ok n => go fuel (bytes.drop n)
        | .error e => if e = .interrupted then go fuel bytes else return .error e

/-- The whole program as what its process does. -/
def code (p : Program Nat) : Code := p .exit

end Program
end LineShell
