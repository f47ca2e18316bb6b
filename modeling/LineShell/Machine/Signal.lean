import LineShell.Machine.Stream

/-! How processes end and what signals do to them. A process that has ended is kept until its
parent collects it; one whose parent has gone is kept by nobody. Whoever waits for something looks
again whenever another process has done anything that may matter. -/

namespace LineShell

namespace Signal

def interrupt : Nat := 2
def quit : Nat := 3
def kill : Nat := 9
def brokenPipe : Nat := 13
def terminate : Nat := 15
def childEnded : Nat := 17
def resume : Nat := 18
def stop : Nat := 19

/-- What a signal does by itself to a process. -/
inductive Effect
  | ends
  | stops
  | resumes
  | nothing
  deriving Repr, DecidableEq

def effect (signal : Nat) : Effect :=
  if signal = resume then .resumes
  else if signal = stop ∨ signal = 20 ∨ signal = 21 ∨ signal = 22 then .stops
  else if signal = 0 ∨ signal = childEnded ∨ signal = 23 ∨ signal = 28 then .nothing
  else .ends

/-- The greatest number of a signal. -/
def greatest : Nat := 64

end Signal

namespace Machine

/-- How long it takes until a process that has been waiting goes on. -/
def wakeTime : Nat := 30

/-- Everyone who waits looks again. -/
def wake (m : Machine) : Machine :=
  { m with tasks := m.tasks.map fun task =>
      if task.isBlocked then
        { task with isBlocked := false, clock := max task.clock (m.now + wakeTime) }
      else task }

def task? (m : Machine) (pid : Nat) : Option Task := m.tasks.find? fun task => task.pid = pid

def setTask (m : Machine) (task : Task) : Machine :=
  { m with tasks := m.tasks.map fun old => if old.pid = task.pid then task else old }

/-- A process has ended. -/
def finish (m : Machine) (task : Task) (ending : Ending) : Machine :=
  let others := (m.tasks.filter fun other => other.pid ≠ task.pid).map fun other =>
    if other.parent = task.pid then { other with parent := 0 }
    else if other.pid = task.parent ∧ Signal.childEnded ∈ other.handled then
      { other with caught := other.caught ++ [Signal.childEnded] }
    else other
  let ended := m.ended.filter fun other => other.parent ≠ task.pid
  let isKept : Bool := others.any fun other => other.pid = task.parent
  let own : List Ended := if isKept then [⟨task.pid, task.parent, ending.word⟩] else []
  let m : Machine := { m with tasks := others, ended := ended ++ own }
  let m := if task.parent = shellPid then
      { m with children := m.children.finish task.pid ending.word }
    else m
  m.wake

/-- A signal reaches a process. -/
def deliver (m : Machine) (task : Task) (signal : Nat) : Machine :=
  if signal = Signal.kill then m.finish task (.signaled signal)
  else if signal = Signal.stop then m.setTask { task with isStopped := true }
  else
    let task := if signal = Signal.resume ∧ task.isStopped then
        { task with isStopped := false, clock := max task.clock m.now } else task
    if signal ∈ task.handled then
      (m.setTask { task with
        caught := if signal ∈ task.caught then task.caught else task.caught ++ [signal]
        clock := if task.deadline.isSome then m.now else task.clock }).wake
    else if signal ∈ task.ignored then m.setTask task
    else match Signal.effect signal with
      | .ends => m.finish task (.signaled signal)
      | .stops => m.setTask { task with isStopped := true }
      | .resumes | .nothing => m.setTask task

/-- Sends a signal to a process; the machine knows no groups of processes. -/
def send (m : Machine) (target : Int) (signal : Nat) : Except Errno Machine :=
  if Signal.greatest < signal then .error .invalidArgument
  else if target = 1 then .error .notPermitted
  else if target = Int.ofNat shellPid then .ok m
  else match m.tasks.find? fun task => Int.ofNat task.pid = target with
    | some task => .ok (m.deliver task signal)
    | none =>
      if m.ended.any fun ended => Int.ofNat ended.pid = target then .ok m
      else .error .noProcess

end Machine
end LineShell
