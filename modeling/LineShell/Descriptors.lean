import LineShell.Table

/-! The descriptors of a process, and how a child is wired before it becomes another program. A
descriptor leads to an open stream; several may lead to the same one, also in different
processes. The wiring puts pipe ends in place first and files after them, so that a file wins over
a pipe on the same stream, and then closes what it was given. -/

namespace LineShell

/-- What a descriptor leads to, and whether it is closed when its process becomes another
program. -/
structure Handle where
  stream : Nat
  closeOnExec : Bool := false
  deriving Repr, DecidableEq

abbrev Descriptors := Table Nat Handle

namespace Descriptors

def stdin : Nat := 0
def stdout : Nat := 1
def stderr : Nat := 2

/-- The stream behind a descriptor. -/
def stream? (table : Descriptors) (fd : Nat) : Option Nat := (table.get? fd).map (·.stream)

/-- The lowest number from `least` on that is not in use. -/
def lowestFreeFrom (table : Descriptors) (least : Nat) : Nat :=
  (((List.range table.keys.length).map (least + ·)).find? fun fd => fd ∉ table.keys).getD
    (least + table.keys.length)

/-- The lowest number that is not in use. -/
def lowestFree (table : Descriptors) : Nat := table.lowestFreeFrom 0

/-- A new descriptor for a stream. The descriptors a shell opens do not outlive an exec. -/
def add (table : Descriptors) (stream : Nat) : Nat × Descriptors :=
  (table.lowestFree, table.insert table.lowestFree ⟨stream, true⟩)

def close (table : Descriptors) (fd : Nat) : Descriptors := table.erase fd

def closeAll (table : Descriptors) (fds : List Nat) : Descriptors := fds.foldl close table

/-- `target` leads where `source` leads, and stays open in another program; `none` when `source`
is not open. -/
def redirect? (table : Descriptors) (source target : Nat) : Option Descriptors :=
  (table.get? source).map fun handle =>
    if source = target then table else table.insert target ⟨handle.stream, false⟩

/-- What is left of the table in another program. -/
def afterExec (table : Descriptors) : Descriptors :=
  ⟨table.entries.filter fun entry => !entry.2.closeOnExec,
    (List.filter_sublist.map Prod.fst).nodup table.nodup⟩

end Descriptors

/-- The descriptors a child wires up: pipe ends and files in place of standard input and output,
and others that it must not keep. -/
structure ChildIo where
  pipeIn : Option Nat := none
  pipeOut : Option Nat := none
  fileIn : Option Nat := none
  fileOut : Option Nat := none
  extraClose : List Nat := []
  deriving Repr, DecidableEq

namespace ChildIo

/-- The descriptors to be closed once the standard ones are in place; the standard ones never
are. -/
def opened (io : ChildIo) : List Nat :=
  ([io.pipeIn, io.pipeOut, io.fileIn, io.fileOut].filterMap id ++ io.extraClose).filter
    (Descriptors.stderr < ·)

/-- Which descriptor goes where, in the order in which it is done. -/
def wiring (io : ChildIo) : List (Option Nat × Nat) :=
  [(io.pipeIn, Descriptors.stdin), (io.pipeOut, Descriptors.stdout),
   (io.fileIn, Descriptors.stdin), (io.fileOut, Descriptors.stdout)]

/-- One step of the wiring. -/
def connect? (table : Descriptors) : Option Nat × Nat → Option Descriptors
  | (none, _) => some table
  | (some source, target) => table.redirect? source target

/-- The child's table once it is wired, before it becomes another program; `none` when one of the
descriptors is not open. -/
def wire? (io : ChildIo) (table : Descriptors) : Option Descriptors :=
  (io.wiring.foldlM connect? table).map (·.closeAll io.opened)

end ChildIo
end LineShell
