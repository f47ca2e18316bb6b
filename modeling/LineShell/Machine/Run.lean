import LineShell.Machine.Load

/-! The processes of the machine at work. One step takes the process that is furthest behind and
carries out what it asks for, which takes some time; a process that has to wait for others is left
out until one of them has done something. -/

namespace LineShell.Machine

/-! How long things take, in millionths of a second: any request, to split off a process, until the
new process begins, and to become another program. -/

def requestTime : Nat := 2
def forkTime : Nat := 120
def startTime : Nat := 220
def executeTime : Nat := 500

/-- The process that acts next. -/
def next? (m : Machine) : Option Task :=
  (m.tasks.filter fun task => !task.isBlocked && !task.isStopped).foldl
    (fun (first : Option Task) task => match first with
      | some other => if task.clock < other.clock then some task else first
      | none => some task) none

/-- A process has got an answer, and goes on after some time. -/
def goOn (m : Machine) (task : Task) (code : Code) (time : Nat) : Machine :=
  m.setTask { task with code, clock := m.now + time, deadline := none }

/-- What a process asks for is carried out. The streams are those that the shell holds. -/
def carryOut (m : Machine) (held : List Nat) (task : Task) (request : Request)
    (next : request.Reply → Code) : Machine :=
  match m.answer held task request with
  | .blocked => m.setTask { task with isBlocked := true }
  | .killed signal => m.finish task (.signaled signal)
  | .answered value task after wakes =>
    let after := after.goOn task (next value) requestTime
    if wakes then after.wake else after

/-- One step of a process. -/
def step (m : Machine) (held : List Nat) (task : Task) : Machine :=
  let m := { m with now := max m.now task.clock }
  match task.code with
  | .exit status => m.finish task (.exited status)
  | .fork child next =>
    let new : Task := { task with
      pid := m.nextPid, parent := task.pid, code := child, clock := m.now + startTime, caught := []
      deadline := none }
    let m := { m with nextPid := m.nextPid + 1, tasks := m.tasks ++ [new] }
    m.goOn task (next (.ok new.pid)) forkTime
  | .call (.execute path args environment) next =>
    match m.become task path args environment with
    | .ok after => (m.setTask { after with clock := m.now + executeTime }).wake
    | .error e => m.goOn task (next e) requestTime
  | .call (.pause time) next =>
    match task.deadline with
    | none =>
      if task.caught.isEmpty then
        m.setTask { task with deadline := some (m.now + time), clock := m.now + time }
      else m.goOn task (next false) requestTime
    | some deadline => m.goOn task (next (decide (deadline ≤ m.now))) requestTime
  | .call (.work time) next => m.goOn task (next ()) time
  | .call request next => m.carryOut held task request next

/-- The processes act until something holds, or none of them can act, for at most so many steps. -/
def run (held : List Nat) (isOver : Machine → Bool) : (steps : Nat) → Machine → Machine
  | 0, m => m
  | steps + 1, m =>
    if isOver m then m
    else match m.next? with
      | none => m
      | some task => run held isOver steps (m.step held task)

/-- More steps than any run takes. -/
def stepBound : Nat := 1000000000

/-- Everything that happens until now has happened. -/
def settle (m : Machine) (held : List Nat) : Machine :=
  let now := m.now
  { m.run held (fun m => m.next?.all fun task => now < task.clock) stepBound with now }

/-- Everyone has ended who ends. -/
def settleAll (m : Machine) (held : List Nat) : Machine := m.run held (fun _ => false) stepBound

end LineShell.Machine
