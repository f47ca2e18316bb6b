import LineShell.ChildTable

/-! The background jobs of a shell: sixty-four slots, each free, held by a job that runs, or held
by a job that is done and waits to be reported. Reaping asks for every running job, and then, as
long as no foreground wait is going on, sweeps up every other child that has ended; a swept child
that is not in the table yet takes a free slot, so that tracking it later finds it done. -/

namespace LineShell

inductive Slot
  | free
  | running (pid : Nat)
  /-- A job that is done; `none` when someone else has collected its word. -/
  | done (pid : Nat) (word : Option StatusWord)
  deriving Repr, DecidableEq

def Slot.isDoneWith (pid : Nat) : Slot → Bool
  | done p _ => p = pid
  | _ => false

def Slot.isRunningWith (pid : Nat) : Slot → Bool
  | running p => p = pid
  | _ => false

structure JobTable where
  slots : List Slot
  /-- The number of foreground waits going on. -/
  foreground : Nat := 0
  deriving Repr, DecidableEq

namespace JobTable

def capacity : Nat := 64

def empty : JobTable := { slots := List.replicate capacity .free }

def slot (jobs : JobTable) (i : Nat) : Slot := jobs.slots.getD i .free

def setSlot (jobs : JobTable) (i : Nat) (slot : Slot) : JobTable :=
  { jobs with slots := jobs.slots.set i slot }

/-- A running job is done. -/
def finish (jobs : JobTable) (i : Nat) (word : Option StatusWord) : JobTable :=
  match jobs.slot i with
  | .running pid => jobs.setSlot i (.done pid word)
  | _ => jobs

/-- The slot of a job that is done. -/
def doneSlot? (jobs : JobTable) (pid : Nat) : Option Nat :=
  jobs.slots.findIdx? (Slot.isDoneWith pid)

/-- The slot of a job that runs. -/
def runningSlot? (jobs : JobTable) (pid : Nat) : Option Nat :=
  jobs.slots.findIdx? (Slot.isRunningWith pid)

def freeSlot? (jobs : JobTable) : Option Nat := jobs.slots.findIdx? (· = .free)

/-- A running job turns out to be no child any more: if another slot reports it the slot is given
back, and otherwise the job is done without a word. -/
def settle (jobs : JobTable) (i : Nat) (pid : Nat) : JobTable :=
  match jobs.doneSlot? pid with
  | some j => if j = i then jobs else jobs.setSlot i .free
  | none => jobs.finish i none

/-- A swept child: its job is done, or a free slot takes it, if there is one. -/
def record (jobs : JobTable) (pid : Nat) (word : StatusWord) : JobTable :=
  match jobs.runningSlot? pid with
  | some i => jobs.finish i (some word)
  | none =>
    match jobs.freeSlot? with
    | some i => jobs.setSlot i (.done pid (some word))
    | none => jobs

/-- Asks for the job in one slot. -/
def poll (state : JobTable × ChildTable) (i : Nat) : JobTable × ChildTable :=
  let (jobs, children) := state
  match jobs.slot i with
  | .running pid =>
    match children.collect pid with
    | (.status word, children) => (jobs.finish i (some word), children)
    | (.noChild, children) => (jobs.settle i pid, children)
    | (.pending, children) => (jobs, children)
  | _ => (jobs, children)

/-- Collects every child that has ended, in the order in which the children were started. -/
def sweep (state : JobTable × ChildTable) : JobTable × ChildTable :=
  let (jobs, children) := state
  (children.ended.foldl (fun jobs child => jobs.record child.1 child.2) jobs,
    children.collectEnded)

/-- One pass over the slots, and a sweep unless a foreground wait is going on. -/
def reap (jobs : JobTable) (children : ChildTable) : JobTable × ChildTable :=
  let polled := (List.range jobs.slots.length).foldl poll (jobs, children)
  if polled.1.foreground = 0 then sweep polled else polled

/-- Takes a background child into the table. The answer is whether it will be reported. -/
def track (jobs : JobTable) (pid : Nat) : Bool × JobTable :=
  if (jobs.doneSlot? pid).isSome then (true, jobs)
  else match jobs.freeSlot? with
    | some i => (true, jobs.setSlot i (.running pid))
    | none => (false, jobs)

/-- The state that a slot reports, if its job is done. -/
def report? : Slot → Option (Nat × ChildState)
  | .done pid word => some (pid, (word.map ChildState.ofWord).getD .reaped)
  | _ => none

/-- Takes every job that is done out of the table. -/
def drain (jobs : JobTable) : List (Nat × ChildState) × JobTable :=
  (jobs.slots.filterMap report?,
    { jobs with slots := jobs.slots.map fun slot => if (report? slot).isSome then .free else slot })

def enter (jobs : JobTable) : JobTable := { jobs with foreground := jobs.foreground + 1 }

def leave (jobs : JobTable) : JobTable := { jobs with foreground := jobs.foreground - 1 }

end JobTable
end LineShell
