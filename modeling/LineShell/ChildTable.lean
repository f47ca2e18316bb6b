import LineShell.ChildState

/-! The children of a process, as the system keeps them. A child that has ended keeps its status
word until someone collects it; the word is given out once, and from then on the system answers
that there is no such child. -/

namespace LineShell

inductive ChildStatus
  | running
  | ended (word : StatusWord)
  | collected
  deriving Repr, DecidableEq

/-- What the system answers when one child is asked for without blocking. -/
inductive Collected
  | pending
  | status (word : StatusWord)
  | noChild
  deriving Repr, DecidableEq

/-- The children in the order in which they were started. -/
structure ChildTable where
  children : List (Nat × ChildStatus) := []
  deriving Repr, DecidableEq

namespace ChildTable

def status? (t : ChildTable) (pid : Nat) : Option ChildStatus :=
  (t.children.find? fun child => child.1 = pid).map Prod.snd

def setStatus (t : ChildTable) (pid : Nat) (status : ChildStatus) : ChildTable :=
  ⟨t.children.map fun child => if child.1 = pid then (pid, status) else child⟩

/-- A new child, which runs. -/
def start (t : ChildTable) (pid : Nat) : ChildTable := ⟨t.children ++ [(pid, .running)]⟩

/-- A running child ends. -/
def finish (t : ChildTable) (pid : Nat) (word : StatusWord) : ChildTable :=
  if t.status? pid = some .running then t.setStatus pid (.ended word) else t

/-- Asks for one child. -/
def collect (t : ChildTable) (pid : Nat) : Collected × ChildTable :=
  match t.status? pid with
  | some .running => (.pending, t)
  | some (.ended word) => (.status word, t.setStatus pid .collected)
  | some .collected | none => (.noChild, t)

/-- The children that have ended and whose words nobody has collected. -/
def ended (t : ChildTable) : List (Nat × StatusWord) :=
  t.children.filterMap fun (pid, status) =>
    match status with
    | .ended word => some (pid, word)
    | _ => none

/-- Collects every child that has ended. -/
def collectEnded (t : ChildTable) : ChildTable :=
  ⟨t.children.map fun (pid, status) =>
    match status with
    | .ended _ => (pid, .collected)
    | _ => (pid, status)⟩

end ChildTable
end LineShell
