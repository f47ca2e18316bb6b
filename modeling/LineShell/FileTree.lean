import LineShell.Table
import LineShell.Text.Utf8

/-! The files of the machine as a tree. A position is the list of names that leads to a node from
the root, so two paths lead to the same file just when they lead to the same position: there are
no hard links. Programs and devices of the machine are nodes of their own kinds. Files and
directories belong to the user of the shell or to someone else, and permit accordingly. -/

namespace LineShell

/-- The programs that belong to the machine. -/
inductive Utility
  | cat
  | chmod
  | echo
  | env
  | exitFalse
  | exitTrue
  | head
  | printenv
  | printf
  | pwd
  | script
  | sleep
  | sort
  | tail
  | wc
  | yes
  deriving Repr, DecidableEq

/-- An empty file that swallows what is written, a file that is always full, a file of zeros
without end, the terminal, which no process here has, and what a descriptor of the process that
looks leads to. -/
inductive Device
  | null
  | full
  | zero
  | terminal
  | descriptor (fd : Nat)
  deriving Repr, DecidableEq

/-- What a process wants to do with a file: the bits of a mode that are asked for. -/
inductive Permission
  | search
  | write
  | read
  deriving Repr, DecidableEq

def Permission.bit : Permission → Nat
  | search => 1
  | write => 2
  | read => 4

/-- Whom a file belongs to, what it permits, and when it was last written. -/
structure Attributes where
  /-- The file belongs to the user of the shell. -/
  mine : Bool
  mode : Nat
  modified : Nat := 0
  deriving Repr, DecidableEq

namespace Attributes

/-- The three bits of the mode that count for the user of the shell. -/
def bits (a : Attributes) : Nat := (if a.mine then a.mode / 64 else a.mode) % 8

def permits (a : Attributes) (p : Permission) : Bool := a.bits / p.bit % 2 = 1

/-- Some class of users may execute the file. -/
def isExecutable (a : Attributes) : Bool :=
  a.mode / 64 % 2 = 1 || a.mode / 8 % 2 = 1 || a.mode % 2 = 1

/-- A program of the machine, or a directory of it. -/
def standard : Attributes := ⟨false, 0o755, 0⟩

/-- A device is there for everyone. -/
def device : Attributes := ⟨false, 0o666, 0⟩

def ownDir : Attributes := ⟨true, 0o755, 0⟩

def ownFile : Attributes := ⟨true, 0o644, 0⟩

end Attributes

inductive Node
  | file (content : Bytes) (attributes : Attributes)
  | utility (utility : Utility)
  | device (device : Device)
  | link (target : Text)
  | dir (entries : List (Text × Node)) (attributes : Attributes)

/-- The names that lead to a node from the root. -/
abbrev Position := List Text

namespace Node

def isDir : Node → Bool
  | dir _ _ => true
  | _ => false

def attributes : Node → Attributes
  | file _ a | dir _ a => a
  | utility _ => .standard
  | device _ => .device
  | link _ => ⟨true, 0o777, 0⟩

/-- The node with other attributes; programs, devices and links keep theirs. -/
def withAttributes (a : Attributes) : Node → Node
  | file content _ => file content a
  | dir entries _ => dir entries a
  | node => node

def permits (node : Node) (p : Permission) : Bool := node.attributes.permits p

/-- The node under a name of a directory. -/
def child? : Node → Text → Option Node
  | dir entries _, name => (entries.find? fun entry => entry.1 = name).map Prod.snd
  | _, _ => none

/-- The node at a position. -/
def at? : Node → Position → Option Node
  | node, [] => some node
  | node, name :: rest => (node.child? name).bind (at? · rest)

/-- The tree with `change` applied to the node at a position, if there is one. -/
def modify (change : Node → Node) : Position → Node → Node
  | [], node => change node
  | name :: rest, dir entries a =>
    dir (entries.map fun entry =>
      if entry.1 = name then (entry.1, modify change rest entry.2) else entry) a
  | _ :: _, node => node

/-- The directory with `child` under `name`. -/
def setChild (name : Text) (child : Node) : Node → Node
  | dir entries a => dir (Table.put name child entries) a
  | node => node

/-- The directory without `name`. -/
def eraseChild (name : Text) : Node → Node
  | dir entries a => dir (entries.filter fun entry => entry.1 ≠ name) a
  | node => node

/-- The tree with `child` at a position whose directory exists. -/
def put (root : Node) (position : Position) (child : Node) : Node :=
  match position.getLast? with
  | none => child
  | some name => root.modify (setChild name child) position.dropLast

/-- The tree without the node at a position. -/
def erase (root : Node) (position : Position) : Node :=
  match position.getLast? with
  | none => root
  | some name => root.modify (eraseChild name) position.dropLast

end Node
end LineShell
