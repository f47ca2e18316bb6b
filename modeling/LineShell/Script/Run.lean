import LineShell.Machine.Signal
import LineShell.Script.Builtin.Directory
import LineShell.Script.Builtin.Output
import LineShell.Script.Builtin.Process
import LineShell.Script.Builtin.Test
import LineShell.Script.Builtin.Variable
import LineShell.Script.Redirect

/-! Carrying out commands. What is asked of a command besides its status is whether the process is
to end with it, and whether its status is tested, so that a failure does not end the script. Commands
that run beside the script, or whose output it reads, are carried out by processes that it splits
off. -/

namespace LineShell.Script

/-- What is asked of a command. -/
structure Aim where
  /-- The process ends with the command. -/
  ends : Bool := false
  /-- The status is tested. -/
  isTested : Bool := false

/-- Why a process is split off. -/
inductive Purpose
  | foreground
  /-- To run beside the script; the first process of a job reads nothing. -/
  | background (isFirst : Bool)
  | substitution
  deriving Repr, DecidableEq

/-- The command and words of a simple command as they are found out. -/
structure Summons where
  /-- All fields so far, and how many of them stand in front of the name. -/
  fields : List Text
  start : Nat := 0
  /-- The words that have not been expanded yet. -/
  rest : List Word
  skipsFunctions : Bool := false
  path : Option Text := none
  /-- The command is a special one; nothing is known of that before one is met. -/
  isSpecial : Option Bool := none
  /-- What is assigned in front of the command holds for it only. -/
  keepsLocal : Bool := true
  assigns : Bool := false
  found : Found := .unknown

namespace Summons

def args (s : Summons) : List Text := s.fields.drop s.start

def name (s : Summons) : Text := s.args.headD []

/-- Expands words until there is another field behind the first `count` ones. -/
def fill (substitute : Substitution) (count : Nat) : (bound : Nat) → Summons → Run Summons
  | 0, s => return s
  | bound + 1, s => do
    if count < s.args.length then return s
    match s.rest with
    | [] => return s
    | word :: rest =>
      let fields ← expandFields substitute word
      fill substitute count bound { s with fields := s.fields ++ fields, rest }

/-- The command behind `command` and its options, unless these are not for running it. -/
def behindCommand (substitute : Substitution) : (bound : Nat) → Summons → Run (Option Summons)
  | 0, _ => return none
  | bound + 1, s => do
    -- The field at the start is the name, or an option that has been read.
    let s ← fill substitute 1 (s.rest.length + 1) s
    match s.args with
    | _ :: ['-', '-'] :: _ =>
      let s ← fill substitute 1 (s.rest.length + 1) { s with start := s.start + 1 }
      return if 1 < s.args.length then some { s with start := s.start + 1 } else none
    | _ :: ('-' :: c :: letters) :: _ =>
      if (c :: letters).all (· = 'p') then
        behindCommand substitute bound { s with start := s.start + 1, path := some standardPath }
      else return none
    | _ :: _ :: _ => return some { s with start := s.start + 1 }
    | _ => return none

/-- What a name stands for, as far as it is no program. -/
def known (c : Context) (s : Summons) : Found :=
  match (if s.skipsFunctions then none else c.functions.lookup s.name), traitsOf? s.name with
  | some body, _ => .function body
  | none, some traits => .builtin traits
  | none, none => .unknown

/-- Finds out the command, behind any number of times that it is called by `command`. -/
def resolve (substitute : Substitution) : (bound : Nat) → Summons → Run Summons
  | 0, s => return s
  | bound + 1, s => do
    let c ← get
    let found := s.known c
    match found with
    | .builtin traits =>
      let s := { s with
        found, assigns := traits.assigns, isSpecial := some (s.isSpecial.getD traits.isSpecial)
        keepsLocal := if s.isSpecial.isNone then !traits.isSpecial else true }
      if s.name ≠ "command".toList then return s
      match ← behindCommand substitute bound { s with path := none } with
      | none => return s
      | some next => resolve substitute bound { next with skipsFunctions := true }
    | found => return { s with found, keepsLocal := true }

/-- All fields. -/
def complete (substitute : Substitution) (s : Summons) : Run Summons := do
  let fields ← s.rest.foldlM (fun fields (word : Word) => do
    if s.assigns && word.isAssignment then
      return fields ++ [← expandText substitute { isAssignment := true } word]
    else return fields ++ (← expandFields substitute word)) s.fields
  return { s with fields, rest := [] }

end Summons

namespace Run

/-- Goes on for a moment without asking for anything. -/
def tick : Run Unit := ask (Program.work 1)

/-- What a run does as a process of its own. -/
def codeOf (run : Run Unit) (c : Context) : Code :=
  (run.run c : Program (Except Break Unit × Context)) fun _ => .exit 0

/-- What a process that has been split off does first. -/
def enterChild (purpose : Purpose) : Run Unit := do
  modify fun c => { c with jobs := [], out := [], pending := [], isSplit := true }
  clearTraps
  match purpose with
  | .background isFirst =>
    for signal in [Signal.interrupt, Signal.quit] do
      setSignal signal .ignored
      modify fun c => { c with lostSignals := signal :: c.lostSignals }
    if isFirst then
      ask (Program.close 0)
      match ← ask (Program.openFile "/dev/null".toList .input) with
      | .ok 0 => pure ()
      | _ => fail "Can't open /dev/null".toList
  | _ => pure ()

/-- The rest of some loops is left out, and the innermost one takes note of it: whether it goes on,
and whether it ends at once. -/
def passLoop : Run (Bool × Bool) := do
  match (← get).skip with
  | .nothing => return (true, false)
  | .loops count goesOn =>
    if count ≤ 1 then
      modify fun c => { c with skip := .nothing }
      return (goesOn, true)
    modify fun c => { c with skip := .loops (count - 1) goesOn }
    return (false, true)
  | .body _ => return (false, true)

/-- Where commands are shown: on standard error as it is without the redirections of a command. -/
def traceFd (c : Context) (isRedirected : Bool) : Nat :=
  match (if isRedirected then c.redirected else []) with
  | frame :: _ => ((frame.lookup 2).bind id).getD 2
  | [] => 2

/-- Shows what has been read of a file, if the script asks for that. -/
def showRead (text : Text) : Run Unit := do
  if (← get).hasMode 'v' then tell text

end Run

/-- Reads the rest of an open file, and takes the file for its text. -/
def Run.readBlock (fd : Nat) : (bound : Nat) → Run (Option Text)
  | 0 => return none
  | bound + 1 => do
    match ← ask (Program.read fd 8192) with
    | .ok [] => return none
    | .ok bytes => return some ((byteOctets bytes).filter (· ≠ '\x00'))
    | .error e =>
      if e = .interrupted then
        noteSignals
        Run.readBlock fd bound
      else return none

mutual

/-- Carries out a command, or none. -/
def carryOut : (bound : Nat) → Option Command → Aim → Run Nat
  | 0, _, _ => throw .finish
  | bound + 1, command, aim => do
    let (status, isChecked) ← match command with
      | none => pure (none, false)
      | some command =>
        if (← get).hasMode 'n' then pure (none, false)
        else
          runTraps bound
          carryOutPlain bound command aim
    match status with
    | some status => modify fun c => { c with status }
    | none => pure ()
    runTraps bound
    if isChecked && !aim.isTested && status.any (· ≠ 0) && (← get).hasMode 'e' then throw .finish
    if aim.ends then throw .finish
    return (← get).status

/-- The status of a command, if it sets one, and whether a failure ends a script that heeds
failures. -/
def carryOutPlain : (bound : Nat) → Command → Aim → Run (Option Nat × Bool)
  | 0, _, _ => throw .finish
  | bound + 1, command, aim => do
    let inner : Aim := { isTested := aim.isTested }
    let atLine (line : Nat) : Run Unit :=
      if line = 0 then pure () else modify fun c => { c with line }
    let second (next : Option Command) : Run (Option Nat × Bool) := do
      match next with
      | none => return (some 0, false)
      | some next => return (some (← carryOut bound (some next) aim), false)
    match command with
    | .negation command =>
      let status ← carryOut bound (some command) { isTested := true }
      return (some (if status = 0 then 1 else 0), false)
    | .redirected line body redirections =>
      atLine line
      let prepared ← redirections.mapM (Redirection.prepare (substitute bound))
      Run.openFrame
      let status ← Run.applyAll (substitute bound) true prepared
      let status ← if status ≠ 0 then pure status else carryOut bound (some body) inner
      Run.closeFrame false
      return (some status, true)
    | .simple line assignments words redirections =>
      atLine line
      return (some (← runSimple bound assignments words redirections aim), true)
    | .forEach line name words body =>
      atLine line
      let fields ← words.foldlM (fun fields word => do
        return fields ++ (← expandFields (substitute bound) word)) []
      modify fun c => { c with loops := c.loops + 1 }
      let status ← runFor bound name fields body inner 0
      modify fun c => { c with loops := c.loops - 1 }
      return (some status, false)
    | .repetition isUntil condition body =>
      modify fun c => { c with loops := c.loops + 1 }
      let status ← runLoop bound isUntil condition body inner 0
      modify fun c => { c with loops := c.loops - 1 }
      return (some status, false)
    | .choice line word clauses =>
      atLine line
      let text ← expandText (substitute bound) { hasTilde := true } word
      match ← chooseClause bound text clauses with
      | some (some body) => return (some (← carryOut bound (some body) aim), false)
      | _ => return (some 0, false)
    | .subshell line body redirections =>
      atLine line
      let prepared ← redirections.mapM (Redirection.prepare (substitute bound))
      let inside (aim : Aim) : Run Unit := do
        prepared.forM (Run.apply (substitute bound) false)
        let _ ← carryOut bound (some body) aim
      if aim.ends && (← get).traps.all (·.2.isEmpty) then
        inside aim
        return (none, true)
      let job ← Run.newJob
      let pid ← split bound .foreground (inside { aim with ends := true })
      Run.addProcess job pid
      return (some (← Run.finishJob job), true)
    | .background line body redirections =>
      atLine line
      let prepared ← redirections.mapM (Redirection.prepare (substitute bound))
      let job ← Run.newJob
      let pid ← split bound (.background true) do
        prepared.forM (Run.apply (substitute bound) false)
        let _ ← carryOut bound (some body) { ends := true }
      Run.addProcess job pid
      modify fun c => { c with background := some pid }
      return (some 0, true)
    | .pipe parts isBackground =>
      let job ← Run.newJob
      runPipe bound job isBackground { aim with ends := true } none true parts
      if isBackground then return (some 0, true)
      else return (some (← Run.finishJob job), true)
    | .both left right =>
      let status ← carryOut bound (some left) { isTested := true }
      if status ≠ 0 || (← get).skip ≠ .nothing then return (none, false)
      second right
    | .either left right =>
      let status ← carryOut bound (some left) { isTested := true }
      if status = 0 || (← get).skip ≠ .nothing then return (none, false)
      second right
    | .sequence first next =>
      let _ ← carryOut bound (some first) inner
      if (← get).skip ≠ .nothing then return (none, false)
      second next
    | .branch condition whenTrue whenFalse =>
      let status ← carryOut bound (some condition) { isTested := true }
      if (← get).skip ≠ .nothing then return (none, false)
      second (if status = 0 then some whenTrue else whenFalse)
    | .definition line name body =>
      atLine line
      modify fun c => { c with
        functions := (name, body) :: c.functions.filter (·.1 ≠ name) }
      return (some 0, false)

/-- Splits off a process; the answer is its number. -/
def split : (bound : Nat) → Purpose → Run Unit → Run Nat
  | 0, _, _ => throw .finish
  | bound + 1, purpose, inside => do
    let child : Run Unit := do
      let result ← Run.attempt do
        Run.enterChild purpose
        inside
      endProcess bound (match result with
        | .ok () => .finish
        | .error how => how)
    match ← Run.ask (Program.fork (Run.codeOf child (← get))) with
    | .ok pid => return pid
    | .error _ => Run.fail "Cannot fork".toList

/-- The process ends: what is to be done at the end is done, and its status is what it is by then. -/
def endProcess : (bound : Nat) → Break → Run Unit
  | 0, _ => Run.quit 2
  | bound + 1, how => do
    reset how
    let c ← get
    match c.traps.lookup 0 with
    | none => pure ()
    | some action =>
      set { c with traps := c.traps.filter (·.1 ≠ 0), ending := some c.status }
      match ← Run.attempt (runText bound action {}) with
      | .ok _ =>
        modify fun c => { c with skip := .body false }
        reset .finish
      | .error how => reset how
    let _ ← Run.flush
    Run.quit ((← get).status % 256)
where
  /-- Everything that was under way is given up. -/
  reset (how : Break) : Run Unit := do
    modify fun c => { c with
      status := if how = .leave || c.skip = .body false then c.ending.getD c.status else c.status
      ending := none, skip := .nothing, loops := 0, isTracing := false, out := [], command := none }
    Run.closeFramesTo 0 Run.roundBound

/-- The output of a command. -/
def substitute : (bound : Nat) → Option Command → Run Text
  | 0, _ => throw .finish
  | bound + 1, command => do
    match command with
    | none => return []
    | some command =>
      match ← Run.ask Program.pipe with
      | .error _ => Run.fail "Pipe call failed".toList
      | .ok (readEnd, writeEnd) =>
        let job ← Run.newJob
        let isTrap : Bool := match command with
          | .simple _ _ (word :: _) _ => Word.plain? word = some "trap".toList
          | _ => false
        let traps := (← get).traps
        let pid ← split bound .substitution do
          if isTrap then modify fun c => { c with traps }
          Run.ask (Program.close readEnd)
          if writeEnd ≠ 1 then
            let _ ← Run.ask (Program.redirect writeEnd 1)
            Run.ask (Program.close writeEnd)
          let _ ← carryOut bound (some command) { ends := true }
        Run.addProcess job pid
        Run.ask (Program.close writeEnd)
        let text ← collect readEnd Run.roundBound []
        Run.ask (Program.close readEnd)
        let status ← Run.finishJob job
        modify fun c => { c with substituted := status }
        return text
where
  collect (fd : Nat) : (bound : Nat) → List Text → Run Text
    | 0, blocks => return blocks.reverse.flatten
    | bound + 1, blocks => do
      match ← Run.readBlock fd Run.roundBound with
      | none => return blocks.reverse.flatten
      | some block => collect fd bound (block :: blocks)

/-- What is to be done about signals that have come in. -/
def runTraps : (bound : Nat) → Run Unit
  | 0 => throw .finish
  | bound + 1 => do
    let c ← get
    if c.traps.isEmpty && c.pending.isEmpty then return
    Run.noteSignals
    let c ← get
    if c.pending.isEmpty then return
    let status := c.ending.getD c.status
    set { c with ending := some status }
    runPending bound status ((List.range signalNames.length).filter c.pending.contains)
    modify fun after => { after with ending := c.ending }

def runPending : (bound : Nat) → (status : Nat) → List Nat → Run Unit
  | 0, _, _ => throw .finish
  | _, _, [] => pure ()
  | bound + 1, status, signal :: rest => do
    let c ← get
    if c.skip ≠ .nothing then return
    set { c with pending := c.pending.filter (· ≠ signal) }
    match c.traps.lookup signal with
    | none => pure ()
    | some action =>
      let _ ← runText bound action {}
      if (← get).skip ≠ .body true then modify fun c => { c with status }
    runPending bound status rest

/-- Carries out the commands of a text. -/
def runText : (bound : Nat) → Text → Aim → Run Nat
  | 0, _, _ => throw .finish
  | bound + 1, text, aim => do
    runTextOn bound { text, isWhole := true, line := 1 } aim 0

def runTextOn : (bound : Nat) → Reader → Aim → (status : Nat) → Run Nat
  | 0, _, _, _ => throw .finish
  | bound + 1, reader, aim, status => do
    let c ← get
    let reader := { reader with
      aliases := c.aliases, documents := c.documents, nextDocument := c.nextDocument }
    match reader.command with
    | .finish | .needsMore => return status
    | .syntaxError line text =>
      modify fun c => { c with line }
      Run.fail ("Syntax error: ".toList ++ text)
    | .command command rest =>
      set { c with documents := rest.documents, nextDocument := rest.nextDocument }
      let found ← carryOut bound command aim
      let status := if command.isNone then status else found
      if (← get).skip ≠ .nothing then return status
      runTextOn bound rest aim status

/-- Carries out the commands of an open file, which is read piece by piece. -/
def runFile : (bound : Nat) → (fd : Nat) → Reader → (status : Nat) → Run Nat
  | 0, _, _, _ => throw .finish
  | bound + 1, fd, reader, status => do
    let c ← get
    let reader := { reader with
      aliases := c.aliases, documents := c.documents, nextDocument := c.nextDocument }
    match reader.command with
    | .finish => return status
    | .needsMore =>
      match ← Run.readBlock fd Run.roundBound with
      | none => runFile bound fd { reader with isWhole := true } status
      | some text => runFile bound fd { reader with text := reader.text ++ text } status
    | .syntaxError line text =>
      let count := line - reader.line + 1
      Run.showRead (((lines reader.text).take count).flatMap (· ++ ['\n']))
      modify fun c => { c with line }
      Run.fail ("Syntax error: ".toList ++ text)
    | .command command rest =>
      Run.showRead (reader.text.take (reader.text.length - rest.text.length))
      set { c with documents := rest.documents, nextDocument := rest.nextDocument }
      let found ← carryOut bound command {}
      let status := if command.isNone then status else found
      match (← get).skip with
      | .nothing => runFile bound fd rest status
      | .body _ =>
        modify fun c => { c with skip := .nothing }
        return status
      | .loops _ _ => return status

/-- The rounds of a loop over fields. -/
def runFor : (bound : Nat) → (name : Text) → List Text → (body : Command) → Aim → (status : Nat) →
    Run Nat
  | 0, _, _, _, _, _ => throw .finish
  | _, _, [], _, _, status => return status
  | bound + 1, name, field :: rest, body, aim, _ => do
    Run.tick
    Run.assign name (some field)
    let status ← carryOut bound (some body) aim
    let (goesOn, _) ← Run.passLoop
    if goesOn then runFor bound name rest body aim status else return status

/-- The rounds of a loop with a condition. -/
def runLoop : (bound : Nat) → (isUntil : Bool) → (condition body : Command) → Aim →
    (status : Nat) → Run Nat
  | 0, _, _, _, _, _ => throw .finish
  | bound + 1, isUntil, condition, body, aim, status => do
    Run.tick
    let found ← carryOut bound (some condition) { isTested := true }
    let isReturning : Bool := (← get).skip = .body true
    let (goesOn, skips) ← Run.passLoop
    let status := if isReturning then found else status
    if skips then
      if goesOn then runLoop bound isUntil condition body aim status else return status
    else if (found = 0) = isUntil then return status
    else
      let status ← carryOut bound (some body) aim
      let (goesOn, _) ← Run.passLoop
      if goesOn then runLoop bound isUntil condition body aim status else return status

/-- The body of the first clause that fits a text. -/
def chooseClause : (bound : Nat) → Text → List Clause → Run (Option (Option Command))
  | 0, _, _ => throw .finish
  | _, _, [] => return none
  | bound + 1, text, .clause patterns body :: rest => do
    if ← fitsAny bound text patterns then return some body
    else chooseClause bound text rest

def fitsAny : (bound : Nat) → Text → List Word → Run Bool
  | 0, _, _ => throw .finish
  | _, _, [] => return false
  | bound + 1, text, word :: rest => do
    let stretches ← expandWord (substitute bound) { hasTilde := true } word
    let pattern := Glyph.pattern (stretches.flatMap Stretch.glyphs)
    if pattern.doesMatch text then return true else fitsAny bound text rest

/-- The processes of a pipe, from left to right; `before` is the end from which the next one
reads. -/
def runPipe : (bound : Nat) → (job : Nat) → (isBackground : Bool) → Aim → (before : Option Nat) →
    (isFirst : Bool) → List Command → Run Unit
  | 0, _, _, _, _, _, _ => throw .finish
  | _, _, _, _, _, _, [] => pure ()
  | bound + 1, job, isBackground, aim, before, isFirst, part :: rest => do
    let ends : Option (Nat × Nat) ← if rest.isEmpty then pure none
      else match ← Run.ask Program.pipe with
        | .ok ends => pure (some ends)
        | .error _ => Run.fail "Pipe call failed".toList
    let pid ← split bound (if isBackground then .background isFirst else .foreground) do
      match ends with
      | some (readEnd, _) => Run.ask (Program.close readEnd)
      | none => pure ()
      match before with
      | some fd =>
        if 0 < fd then
          let _ ← Run.ask (Program.redirect fd 0)
          Run.ask (Program.close fd)
      | none => pure ()
      match ends with
      | some (_, writeEnd) =>
        if 1 < writeEnd then
          let _ ← Run.ask (Program.redirect writeEnd 1)
          Run.ask (Program.close writeEnd)
      | none => pure ()
      let _ ← carryOut bound (some part) aim
    Run.addProcess job pid
    if isBackground then modify fun c => { c with background := some pid }
    match before with
    | some fd => Run.ask (Program.close fd)
    | none => pure ()
    match ends with
    | some (_, writeEnd) => Run.ask (Program.close writeEnd)
    | none => pure ()
    runPipe bound job isBackground aim (ends.map Prod.fst) false rest

/-- A simple command: its words are expanded and tell what it is, then its redirections are applied
and its assignments made, and then it is run. -/
def runSimple : (bound : Nat) → (assignments words : List Word) → List Redirection → Aim → Run Nat
  | 0, _, _, _, _ => throw .finish
  | bound + 1, assignments, words, redirections, aim => do
    modify fun c => { c with substituted := 0 }
    let s ← Summons.fill (substitute bound) 0 (words.length + 1) { fields := [], rest := words }
    let isEmpty : Bool := s.fields.isEmpty
    let s ← if isEmpty then pure { s with keepsLocal := false, found := .builtin {} }
      else do Summons.complete (substitute bound) (← Summons.resolve (substitute bound) bound s)
    let isSpecial : Bool := s.isSpecial.getD false
    let isExec : Bool := match s.found with
      | .builtin _ => s.name = "exec".toList
      | _ => false
    let c ← get
    let savedDepth := c.saved.length
    let frameDepth := c.redirected.length
    if s.keepsLocal then modify fun c => { c with saved := [] :: c.saved }
    let prepared ← redirections.mapM (Redirection.prepare (substitute bound))
    if !redirections.isEmpty then Run.openFrame
    let status ← Run.applyAll (substitute bound) true prepared
    let status ← if status ≠ 0 then do
        modify fun c => { c with status }
        if isSpecial then throw .error
        pure status
      else do
        let assigned ← assignments.foldlM (fun assigned word => do
          let text ← expandText (substitute bound) { isAssignment := true } word
          let (name, value) := Run.nameAndValue text
          if s.keepsLocal then Run.assignLocal name value true
          else Run.assign name value (isExec && 1 < s.args.length)
          return assigned ++ [text]) []
        trace bound (!redirections.isEmpty) (assigned ++ s.fields)
        runFound bound s isEmpty isSpecial isExec aim
    if !redirections.isEmpty then Run.closeFrame isExec
    Run.closeFramesTo frameDepth Run.roundBound
    Run.restoreTo savedDepth Run.roundBound
    return status

/-- Shows a command that is to be run. -/
def trace : (bound : Nat) → (isRedirected : Bool) → List Text → Run Unit
  | 0, _, _ => throw .finish
  | bound + 1, isRedirected, words => do
    let c ← get
    if c.hasMode 'x' && !c.isTracing then
      set { c with isTracing := true }
      let front ← expandPrompt (substitute bound) ((c.value? "PS4".toList).getD [])
      modify fun c => { c with isTracing := false }
      let _ ← Run.send (Run.traceFd c isRedirected) (front ++ join ' ' words ++ ['\n'])

/-- Runs what has been found; the answer is the status. -/
def runFound : (bound : Nat) → Summons → (isEmpty isSpecial isExec : Bool) → Aim → Run Nat
  | 0, _, _, _, _, _ => throw .finish
  | bound + 1, s, isEmpty, isSpecial, isExec, aim => do
    let found ← match s.found with
      | .builtin traits => pure (Found.builtin traits)
      | .function body => pure (.function body)
      | _ => Run.search s.name s.path s.skipsFunctions true
    match found with
    | .unknown =>
      modify fun c => { c with status := 127 }
      return 127
    | .program =>
      if aim.ends && (← get).traps.all (·.2.isEmpty) then Run.become s.args s.path
      else
        let job ← Run.newJob
        let pid ← split bound .foreground (Run.become s.args s.path)
        Run.addProcess job pid
        Run.finishJob job
    | .function body =>
      let before ← get
      set { before with
        arguments := s.args.tail, scanned := 1, scannedLetters := none, loops := 0
        isInFunction := true }
      let result ← Run.attempt (carryOut bound (some body) { isTested := aim.isTested })
      modify fun c => { c with
        arguments := before.arguments, scanned := before.scanned
        scannedLetters := before.scannedLetters, loops := before.loops
        isInFunction := before.isInFunction
        skip := match c.skip with
          | .body _ => .nothing
          | skip => skip }
      match result with
      | .ok _ => return (← get).status
      | .error how => throw how
    | .builtin _ =>
      let before := (← get).command
      modify fun c => { c with command := if isEmpty then none else some s.name }
      let result ← Run.attempt (runBuiltin bound (if isEmpty then [] else s.args) isExec aim)
      match result with
      | .ok status =>
        let status ← match ← Run.flush with
          | .ok () => pure status
          | .error _ =>
            Run.warn (s.name ++ ": I/O error".toList)
            pure (if status % 2 = 0 then status + 1 else status)
        modify fun c => { c with status, command := before }
        return status
      | .error how =>
        modify fun c => { c with out := [], command := before }
        if how = .error && !isSpecial then return (← get).status
        throw how

/-- Runs a command of the language. -/
def runBuiltin : (bound : Nat) → (words : List Text) → (isExec : Bool) → Aim → Run Nat
  | 0, _, _, _ => throw .finish
  | bound + 1, words, _, aim => do
    let args := words.tail
    let loopLevel : Run Nat := match args with
      | [] => return 1
      | text :: _ => do
        let n ← readNumber text
        if n = 0 then Run.fail ("Illegal number: ".toList ++ text)
        return n
    match String.ofList (words.headD []) with
    | "" => return (← get).substituted
    | "." =>
      let (_, operands) ← Run.readLetters [] args
      match operands with
      | [] => return 0
      | name :: _ =>
        let path ← if '/' ∈ name then pure name else findText name
        match ← Run.ask (Program.openFile path .input) with
        | .error e =>
          Run.fail ("cannot open ".toList ++ path ++ ": ".toList ++ Run.openText e)
        | .ok opened =>
          let fd ← match ← Run.ask (Program.duplicate opened firstSpare true) with
            | .ok fd =>
              Run.ask (Program.close opened)
              pure fd
            | .error _ => pure opened
          modify fun c => { c with command := some path }
          let result ← Run.attempt (runFile bound fd { text := [], isWhole := false, line := 1 } 0)
          Run.ask (Program.close fd)
          match result with
          | .ok status => return status
          | .error how => throw how
    | ":" | "true" => return 0
    | "false" => return 1
    | "[" => runTest true args
    | "test" => runTest false args
    | "alias" => runAlias args
    | "unalias" => runUnalias args
    | "bg" | "fg" => runMove args
    | "break" | "continue" =>
      let n ← loopLevel
      modify fun c =>
        let n := min n c.loops
        if n = 0 then c else { c with skip := .loops n (words.head? = some "continue".toList) }
      return 0
    | "cd" | "chdir" => runCd args
    | "command" => runDescribe args
    | "echo" => runEcho args
    | "eval" =>
      match args with
      | [] => return 0
      | args => runText bound (join ' ' args) { isTested := aim.isTested }
    | "exec" =>
      let (_, operands) ← Run.readLetters [] args
      match operands with
      | [] => return 0
      | operands => Run.become operands none
    | "exit" =>
      match args with
      | [] => pure ()
      | text :: _ =>
        let n ← readNumber text
        modify fun c => { c with ending := some n }
      throw .leave
    | "export" => runMark "export" true false args
    | "readonly" => runMark "readonly" false true args
    | "local" => runLocal args
    | "getopts" => runGetopts args
    | "hash" => runHash args
    | "jobs" => runJobs args
    | "kill" => runKill args
    | "printf" => runPrintf args
    | "pwd" => runPwd args
    | "read" => runRead args
    | "return" =>
      match args with
      | [] =>
        modify fun c => { c with skip := .body false }
        return (← get).status
      | text :: _ =>
        let n ← readNumber text
        modify fun c => { c with skip := .body true }
        return n
    | "set" => runSet args
    | "shift" => runShift args
    | "times" => runTimes
    | "trap" => runTrap args
    | "type" => runType args
    | "ulimit" => runUlimit args
    | "umask" => runUmask args
    | "unset" => runUnset args
    | "wait" => runWait args
    | _ => return 127
where
  /-- The file with commands that a name stands for. -/
  findText (name : Text) : Run Text := do
    let rec go : List Text → Run Text
      | [] => Run.fail (name ++ ": not found".toList)
      | path :: rest => do
        match ← Run.ask (Program.statusAt path) with
        | .ok status => if status.kind = .regular then return path else go rest
        | .error _ => go rest
    go (pathsFor (← get).searchPath name)

end

end LineShell.Script
