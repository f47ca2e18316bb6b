import LineShell.ChildTable
import LineShell.Descriptors
import LineShell.FileTree.Resolve
import LineShell.IoError
import LineShell.Program
import LineShell.Variables

/-! The machine on which a shell runs: its files, the open streams of all processes, the pipes, a
clock, and the processes that the shell and its children have started. Every process has a clock of
its own and acts when it is the one that is furthest behind; the shell itself is no process of the
machine, but acts on it at the machine's own time. -/

namespace LineShell

/-- What an open stream leads to. A buffer is a file without a name. -/
inductive Endpoint
  | file (position : Position)
  | directory
  | device (device : Device)
  | buffer (number : Nat)
  | pipeReader (number : Nat)
  | pipeWriter (number : Nat)
  deriving Repr, DecidableEq

/-- An open stream, with the offset that all descriptors leading to it share. A stream that
appends writes at the end of its file whatever its offset is. -/
structure Stream where
  endpoint : Endpoint
  readable : Bool
  writable : Bool
  appends : Bool := false
  offset : Nat := 0
  deriving Repr, DecidableEq

/-- What a process starts with. -/
structure Image where
  args : List Text
  environment : Environment
  place : Place
  descriptors : Descriptors
  deriving DecidableEq

/-- A child of the shell as it is started. Its program is looked up beforehand, and there is none
when the look-up failed. The image has the descriptors of its parent; the child wires them
itself. -/
structure Process where
  pid : Nat
  program : Option Text
  image : Image
  io : ChildIo
  deriving DecidableEq

/-- The descriptors of a child that has done its wiring. -/
def Process.wired? (p : Process) : Option Descriptors := p.io.wire? p.image.descriptors

/-- A process at work. -/
structure Task where
  pid : Nat
  parent : Nat
  /-- When it acts next. -/
  clock : Nat
  code : Code
  descriptors : Descriptors
  place : Place
  /-- The bits that new files do not get. -/
  mask : Nat := 0o022
  ignored : List Nat := []
  handled : List Nat := []
  /-- Handled signals that have come in. -/
  caught : List Nat := []
  /-- When a pause ends that has begun. -/
  deadline : Option Nat := none
  /-- What it asks for has to wait for another process. -/
  isBlocked : Bool := false
  isStopped : Bool := false

/-- A process that has ended and that its parent has not collected. -/
structure Ended where
  pid : Nat
  parent : Nat
  word : StatusWord
  deriving Repr, DecidableEq

/-- The next answers of the system to calls that hardly ever fail, the nearest first: `none` lets
a call go on, and so does the end of a list. -/
structure Refusals where
  opens : List (Option Errno) := []
  pipes : List (Option Errno) := []
  forks : List (Option Errno) := []
  waits : List (Option Errno) := []
  /-- Why no lines can be read at all. -/
  editor : Option ReadError := none
  /-- Why the shell cannot hear of its children, and of interrupts. -/
  reaper : Option Text := none
  interrupts : Option Text := none
  deriving Repr, DecidableEq

structure Machine where
  root : Node
  streams : List Stream := []
  buffers : List Bytes := []
  pipes : List Bytes := []
  /-- The time in millionths of a second. -/
  now : Nat := 0
  /-- The children of the shell. -/
  children : ChildTable := {}
  /-- The processes at work, in the order in which they were started. -/
  tasks : List Task := []
  ended : List Ended := []
  nextPid : Nat := 1002
  refusals : Refusals := {}

namespace Machine

/-- The number of the shell as a process. -/
def shellPid : Nat := 1001

/-- How many bytes a pipe holds, and how many are always written in one piece. -/
def pipeSize : Nat := 65536
def pipePiece : Nat := 4096

end Machine
end LineShell
