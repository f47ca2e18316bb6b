import LineShell.Script.Context

/-! The jobs of a script: processes that are started for one command. A job has a number, which is
free again when it has ended and its status has been asked for. -/

namespace LineShell.Script

/-- What is told of a process that a signal has ended. -/
def signalText (signal : Nat) : Text :=
  let texts : List String :=
    ["Unknown signal 0", "Hangup", "Interrupt", "Quit", "Illegal instruction",
     "Trace/breakpoint trap", "Aborted", "Bus error", "Floating point exception", "Killed",
     "User defined signal 1", "Segmentation fault", "User defined signal 2", "Broken pipe",
     "Alarm clock", "Terminated", "Stack fault", "Child exited", "Continued", "Stopped (signal)",
     "Stopped", "Stopped (tty input)", "Stopped (tty output)", "Urgent I/O condition",
     "CPU time limit exceeded", "File size limit exceeded", "Virtual timer expired",
     "Profiling timer expired", "Window changed", "I/O possible", "Power failure",
     "Bad system call"]
  match texts[signal]? with
  | some text => text.toList
  | none => "Real-time signal ".toList ++ decimal (signal - 34)

namespace Job

/-- How a job stands. -/
def stateText (job : Job) : Text :=
  if !job.isDone then "Running".toList
  else match job.processes.getLast? with
    | some (_, some word) =>
      match ChildState.ofWord word with
      | .signaled signal => signalText signal
      | .exited 0 | .running | .reaped | .stopped _ => "Done".toList
      | .exited status => "Done(".toList ++ decimal status ++ [')']
    | _ => []

/-- A line about a job; `place` is its place among the jobs. -/
def line (job : Job) (place : Nat) (showsPid : Bool) : Text :=
  let pids := job.processes.map fun process => process.1
  let sign : Char := if place = 0 then '+' else if place = 1 then '-' else ' '
  let front := '[' :: decimal job.number ++ [']', ' ', sign, ' ']
  let full := front ++ (if showsPid then decimal (pids.headD 0) ++ [' '] else []) ++ job.stateText
  let fill (width : Nat) : Text := List.replicate (max 1 (33 - width)) ' '
  if showsPid then
    full ++ fill full.length ++
      pids.tail.flatMap (fun pid =>
        let text := " |\n".toList ++ List.replicate front.length ' ' ++ decimal pid ++ [' ']
        text ++ fill (text.length - 3)) ++ ['\n']
  else full ++ fill full.length ++ (pids.tail.flatMap fun _ => " | ".toList) ++ ['\n']

end Job

namespace Run

/-- A new job, and its number. -/
def newJob : Run Nat := do
  let c ← get
  let isFree (number : Nat) : Bool :=
    (c.jobs.filter fun job => job.number = number).all fun job => job.isDone && job.isWaited
  let number := (((List.range (c.jobs.length + 1)).map (· + 1)).find? isFree).getD 1
  let jobs := c.jobs.filter fun job => job.number ≠ number
  set { c with jobs := { number, processes := [] } :: jobs }
  return number

def updateJob (number : Nat) (change : Job → Job) : Run Unit := modify fun c =>
  { c with jobs := c.jobs.map fun job => if job.number = number then change job else job }

/-- A process belongs to a job. -/
def addProcess (number pid : Nat) : Run Unit :=
  updateJob number fun job => { job with processes := job.processes ++ [(pid, none)] }

def forgetJob (number : Nat) : Run Unit := modify fun c =>
  { c with jobs := c.jobs.filter fun job => job.number ≠ number }

/-- A process has ended. If its job is waited for, it is told how, when a signal was the reason. -/
def noteEnd (waited : Option Nat) (pid : Nat) (word : StatusWord) : Run Unit := do
  let c ← get
  match c.jobs.find? fun job => !job.isDone && job.processes.any (·.1 = pid) with
  | none => pure ()
  | some job =>
    updateJob job.number fun job => { job with
      processes := job.processes.map fun process =>
        if process.1 = pid then (pid, some word) else process }
    if waited = some job.number then
      match ChildState.ofWord word with
      | .signaled signal => if signal ≠ 2 && signal ≠ 13 then tell (signalText signal ++ ['\n'])
      | _ => pure ()

/-- Signals that have come in are taken note of. -/
def noteSignals : Run Unit := do
  let signals ← ask Program.takeSignals
  modify fun c => { c with pending := c.pending ++ signals }

/-- Collects all processes that have ended. -/
def collectEnded (waited : Option Nat) : (bound : Nat) → Run Unit
  | 0 => pure ()
  | bound + 1 => do
    match ← ask (Program.wait none false) with
    | .ok (some (pid, word)) =>
      noteEnd waited pid word
      collectEnded waited bound
    | .error .interrupted =>
      noteSignals
      collectEnded waited bound
    | _ => pure ()

/-- More than a script can have processes, or a loop rounds. -/
def roundBound : Nat := 1000000000

/-- Waits until `isOver` holds; signals that come in matter only where `heeds` says so. The answer
tells whether the wait has not been cut short. -/
def waitUntil (isOver : Context → Bool) (waited : Option Nat) (heeds : Bool) :
    (bound : Nat) → Run Bool
  | 0 => return true
  | bound + 1 => do
    if isOver (← get) then return true
    if heeds && !(← get).pending.isEmpty then return false
    match ← ask (Program.wait none true) with
    | .ok (some (pid, word)) =>
      noteEnd waited pid word
      waitUntil isOver waited heeds bound
    | .ok none => return true
    | .error e =>
      if e = .interrupted then
        noteSignals
        waitUntil isOver waited heeds bound
      else return true

/-- Whether a job has ended, or is not known. -/
def isOver (number : Nat) (c : Context) : Bool :=
  c.jobs.all fun job => job.number ≠ number || job.isDone

/-- Waits for a job and forgets it; the answer is its status. -/
def finishJob (number : Nat) : Run Nat := do
  let _ ← waitUntil (isOver number) (some number) false roundBound
  collectEnded (some number) roundBound
  let c ← get
  let status := ((c.jobs.find? fun job => job.number = number).map Job.status).getD 0
  forgetJob number
  return status

/-- The job that a text like `%1` names. -/
def jobOf (text : Text) : Run Job := do
  let c ← get
  let found? : Option Job := match text with
    | '%' :: [] | ['%', '%'] | ['%', '+'] => c.jobs.head?
    | ['%', '-'] => c.jobs[1]?
    | '%' :: number =>
      (digits? number).bind fun n => c.jobs.find? fun job => job.number = n
    | number =>
      (digits? number).bind fun n => c.jobs.find? fun job =>
        job.processes.getLast?.any (·.1 = n)
  match found? with
  | some job => return job
  | none =>
    match text with
    | '%' :: [] | ['%', '%'] | ['%', '+'] => fail "No current job".toList
    | ['%', '-'] => fail "No previous job".toList
    | text => fail ("No such job: ".toList ++ text)

end Run
end LineShell.Script
