import LineShell.Script.Jobs
import LineShell.Script.Search

/-! Commands of the language about jobs, signals and what names stand for. -/

namespace LineShell.Script

/-! ### Signals -/

/-- The name of every signal; the end of a script counts as the first one. -/
def signalNames : List Text :=
  let low : List String :=
    ["EXIT", "HUP", "INT", "QUIT", "ILL", "TRAP", "ABRT", "BUS", "FPE", "KILL", "USR1", "SEGV",
     "USR2", "PIPE", "ALRM", "TERM", "16", "CHLD", "CONT", "STOP", "TSTP", "TTIN", "TTOU", "URG",
     "XCPU", "XFSZ", "VTALRM", "PROF", "WINCH", "IO", "PWR", "SYS", "32", "33", "RTMIN"]
  low.map String.toList ++
    (List.range 15).map (fun n => "RTMIN+".toList ++ decimal (n + 1)) ++
    ((List.range 14).reverse.map fun n => "RTMAX-".toList ++ decimal (n + 1)) ++ ["RTMAX".toList]

/-- The number of a signal, by number or name. -/
def signalOf (text : Text) (least : Nat) : Option Nat :=
  match digits? text with
  | some n => if n < signalNames.length then some n else none
  | none =>
    let upper := text.map Char.toUpper
    (List.range signalNames.length).find? fun n => least ≤ n && signalNames[n]? = some upper

namespace Run

/-- Another action for a signal, unless it was ignored from the start. -/
def setSignal (signal : Nat) (action : SignalAction) : Run Unit := do
  let c ← get
  if c.lostSignals.contains signal then return
  let before ← ask (Program.setSignal signal action)
  if !c.knownSignals.contains signal then
    modify fun c => { c with knownSignals := signal :: c.knownSignals }
    if before = .ignored && action ≠ .ignored then
      let _ ← ask (Program.setSignal signal .ignored)
      modify fun c => { c with lostSignals := signal :: c.lostSignals }

/-- Says what is to be done about a signal. -/
def setTrap (signal : Nat) (action : Option Text) : Run Unit := do
  modify fun c =>
    let others := c.traps.filter (·.1 ≠ signal)
    { c with traps := match action with
        | some action => (signal, action) :: others
        | none => others }
  if signal ≠ 0 then
    setSignal signal (match action with
      | none => .standard
      | some [] => .ignored
      | some _ => .handled)

/-- A process that has been split off does by itself what signals ask for, as far as they were not
ignored. -/
def clearTraps : Run Unit := do
  for (signal, action) in (← get).traps do
    if !action.isEmpty then setTrap signal none

end Run

def runTrap (args : List Text) : Run Nat := do
  let (_, operands) ← Run.readLetters [] args
  match operands with
  | [] =>
    let traps := (← get).traps
    (List.range signalNames.length).forM fun n =>
      match traps.lookup n with
      | some action =>
        Run.say ("trap -- ".toList ++ quotedText action ++ ' ' :: signalNames.getD n [] ++ ['\n'])
      | none => pure ()
    return 0
  | first :: rest =>
    let isNumber : Bool := ((digits? first).bind fun _ => signalOf first 0).isSome
    let (action, names) : Option Text × List Text :=
      if rest.isEmpty || isNumber then (none, operands)
      else (if first = ['-'] then none else some first, rest)
    names.foldlM (fun status name => do
      if status ≠ 0 then return status
      match signalOf name 0 with
      | some signal =>
        Run.setTrap signal action
        return 0
      | none =>
        Run.tell ("trap: ".toList ++ name ++ ": bad trap\n".toList)
        return 1) 0

/-- What `kill` does when it is not used as it should be. -/
def killUsage : Text :=
  "Usage: kill [-s sigspec | -signum | -sigspec] [pid | job]... or\nkill -l [exitstatus]".toList

/-- Sends a signal to what an operand names. -/
def killOperand (signal : Nat) (operand : Text) : Run Nat := do
  let target : Int ← match operand with
    | '%' :: _ =>
      let job ← Run.jobOf operand
      pure (-Int.ofNat ((job.processes.head?.map Prod.fst).getD 0))
    | '-' :: number => pure (-Int.ofNat (← readNumber number))
    | number => pure (Int.ofNat (← readNumber number))
  match ← Run.ask (Program.kill target signal) with
  | .ok () => return 0
  | .error e =>
    Run.warn (e.text ++ ['\n'])
    return 1

def runKill (args : List Text) : Run Nat := do
  let (signal, isList, operands) : Option Nat × Bool × List Text ← match args with
    | ('-' :: word) :: rest =>
      match signalOf word 1 with
      | some signal => pure (some signal, false, rest)
      | none =>
        let (options, operands) ← Run.readOptions [('l', false), ('s', true)]
          (sumOf (args.map List.length) + args.length + 1) args
        let signal ← options.foldlM (fun (signal : Option Nat) (option : Char × Text) => do
          if option.1 = 's' then
            match signalOf option.2 1 with
            | some signal => return some signal
            | none => Run.fail ("invalid signal number or name: ".toList ++ option.2)
          else return signal) none
        pure (signal, options.any (·.1 = 'l'), operands)
    | args => pure (none, false, args)
  if args.isEmpty || isList && signal.isSome || !isList && operands.isEmpty then Run.fail killUsage
  if isList then
    match operands with
    | [] =>
      Run.say ['0', '\n']
      signalNames.tail.forM fun name => Run.say (name ++ ['\n'])
    | text :: _ =>
      let n ← readNumber text
      let n := if 128 < n then n - 128 else n
      match (if n = 0 then none else signalNames[n]?) with
      | some name => Run.say (name ++ ['\n'])
      | none => Run.fail ("invalid signal number or exit status: ".toList ++ text)
    return 0
  else
    operands.foldlM (fun status operand => do
      return if (← killOperand (signal.getD 15) operand) = 0 then status else 1) 0

/-! ### Jobs -/

def runJobs (args : List Text) : Run Nat := do
  let (letters, operands) ← Run.readLetters ['l', 'p'] args
  Run.collectEnded none Run.roundBound
  let jobs := (← get).jobs
  let meant ← if operands.isEmpty then pure jobs else operands.mapM Run.jobOf
  meant.forM fun job => do
    if letters.getLast? = some 'p' then
      Run.say (decimal ((job.processes.head?.map Prod.fst).getD 0) ++ ['\n'])
    else
      let place := (jobs.findIdx? fun other => other.number = job.number).getD 2
      Run.say (job.line place (letters.getLast? = some 'l'))
      if job.isDone then Run.forgetJob job.number
  return 0

/-- The status of a job that has ended, or the signal that came in before. -/
def waitForJob (job : Job) : Run (Option Nat) := do
  if ← Run.waitUntil (Run.isOver job.number) (some job.number) true Run.roundBound then
    Run.updateJob job.number fun job => { job with isWaited := true }
    let found := (← get).jobs.find? fun other => other.number = job.number
    return some ((found.map Job.status).getD 0)
  else return none

def runWait (args : List Text) : Run Nat := do
  let (_, operands) ← Run.readLetters [] args
  let interrupted : Run Nat := do
    return 128 + ((← get).pending.getLast?.getD 0)
  if operands.isEmpty then
    let areOver (c : Context) : Bool := c.jobs.all Job.isDone
    if ← Run.waitUntil areOver none true Run.roundBound then
      modify fun c => { c with jobs := c.jobs.map fun job => { job with isWaited := true } }
      return 0
    else interrupted
  else
    let status? ← operands.foldlM (fun (status? : Option Nat) operand => do
      match status? with
      | none => return none
      | some _ =>
        match operand with
        | '%' :: _ => waitForJob (← Run.jobOf operand)
        | number =>
          let pid ← readNumber number
          match (← get).jobs.find? fun job => job.processes.getLast?.any (·.1 = pid) with
          | some job => waitForJob job
          | none => return status?) (some 127)
    match status? with
    | some status => return status
    | none => interrupted

/-- `fg` and `bg`; no job here can be moved. -/
def runMove (args : List Text) : Run Nat := do
  let (_, operands) ← Run.readLetters [] args
  let refuse (name : Text) : Run Nat :=
    Run.fail ("job ".toList ++ name ++ " not created under job control".toList)
  match operands with
  | [] =>
    let _ ← Run.jobOf ['%', '%']
    refuse "(null)".toList
  | name :: _ =>
    let _ ← Run.jobOf name
    refuse name

def runTimes : Run Nat := do
  Run.say "0m0.000000s 0m0.000000s\n0m0.000000s 0m0.000000s\n".toList
  return 0

def runUlimit (args : List Text) : Run Nat := do
  let (letters, operands) ← Run.readLetters "HSatfdsmcpnvwr".toList args
  if operands.isEmpty && !letters.contains 'a' then Run.say "unlimited\n".toList
  return 0

/-! ### Names -/

/-- Where a remembered command stands among the others. -/
def commandBucket (name : Text) : Nat :=
  match name with
  | [] => 0
  | c :: _ => (16 * c.toNat + sumOf (name.map Char.toNat)) % 32768 % 31

def runHash (args : List Text) : Run Nat := do
  let (letters, operands) ← Run.readLetters ['r'] args
  if letters.contains 'r' then
    modify fun c => { c with found := [] }
    return 0
  if operands.isEmpty then
    let found := (← get).found.reverse
    (List.range 31).forM fun n =>
      (found.filter fun entry => commandBucket entry.1 = n).forM fun entry =>
        Run.say (entry.2 ++ ['\n'])
    return 0
  operands.foldlM (fun status name => do
    modify fun c => { c with found := c.found.filter (·.1 ≠ name) }
    match ← Run.search name none false true with
    | .unknown => return 1
    | _ => return status) 0

/-- Tells what a name stands for, at length or in brief. -/
def describe (name : Text) (path : Option Text) (atLength : Bool) : Run Nat := do
  let c ← get
  let front : Text := if atLength then name else []
  let tell (brief : Text) (text : String) : Run Nat := do
    Run.say (if atLength then front ++ text.toList ++ ['\n'] else brief ++ ['\n'])
    return 0
  let missing : Run Nat := do
    if atLength then Run.say (front ++ ": not found\n".toList)
    return 127
  let located (place : Text) (isKnown : Bool) : Run Nat := do
    Run.say (if atLength then
        front ++ (if isKnown then " is a tracked alias for ".toList else " is ".toList) ++ place ++ ['\n']
      else place ++ ['\n'])
    return 0
  if Token.keywords.any (·.toList = name) then tell name " is a shell keyword"
  else match c.aliases.lookup name with
    | some value =>
      if atLength then Run.say (front ++ " is an alias for ".toList ++ value ++ ['\n'])
      else Run.say ("alias ".toList ++ name ++ '=' :: quotedText value ++ ['\n'])
      return 0
    | none =>
      match c.functions.lookup name, traitsOf? name, c.found.lookup name with
      | some _, _, _ => tell name " is a shell function"
      | none, some traits, _ =>
        tell name (if traits.isSpecial then " is a special shell builtin" else " is a shell builtin")
      | none, none, some place => located place true
      | none, none, none =>
        if '/' ∈ name then
          match ← Run.ask (Program.statusAt name) with
          | .ok _ => located name false
          | .error _ => missing
        else
          match ← Run.firstProgram (pathsFor (path.getD c.searchPath) name) .noEntry with
          | .ok place =>
            if path.isNone then modify fun c => { c with found := (name, place) :: c.found }
            located place false
          | .error _ => missing

def runType (args : List Text) : Run Nat := do
  args.foldlM (fun status name => do
    let found ← describe name none true
    return if found = 0 then status else found) 0

/-- `command` as far as it tells of a name. -/
def runDescribe (args : List Text) : Run Nat := do
  let (letters, operands) ← Run.readLetters ['p', 'v', 'V'] args
  match operands, (letters.filter (· ≠ 'p')).getLast? with
  | name :: _, some letter =>
    describe name (if letters.contains 'p' then some standardPath else none) (letter = 'V')
  | _, _ => return 0

end LineShell.Script
