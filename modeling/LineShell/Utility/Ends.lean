import LineShell.Utility.Copying
import LineShell.Utility.Number

/-! `head` and `tail`, which pass on the beginning or the end of what they read, by lines or by
bytes. What is read beyond the end of a beginning is given back where that is possible, so that the
next reader of the same stream goes on there. -/

namespace LineShell.Utility

/-- Whether a line with the name stands above each operand. -/
inductive Headers
  | never
  | always
  | forSeveral
  deriving Repr, DecidableEq

/-- What is to be passed on. -/
structure Portion where
  byLines : Bool := true
  amount : Nat := 10
  /-- For a beginning: everything but the last parts. For an end: everything from a part on. -/
  isInverse : Bool := false
  headers : Headers := .forSeveral
  /-- The byte that ends a line. -/
  lineEnd : UInt8 := 10
  deriving Repr, DecidableEq

namespace Portion

/-- The name of an operand in messages and headers. -/
def operandName (operand : Text) : Text :=
  if operand = ['-'] then "standard input".toList else operand

def showsHeaders (portion : Portion) (operands : List Text) : Bool :=
  portion.headers = .always || portion.headers = .forSeveral && 1 < operands.length

/-- The line that stands above what comes from one of several operands. -/
def header (isFirst : Bool) (operand : Text) : Text :=
  (if isFirst then [] else ['\n']) ++ "==> ".toList ++ operandName operand ++ " <==\n".toList

/-- The portion with a count; one that is no number ends the program. -/
def withAmount (portion : Portion) (byLines : Bool) (text : Text) : Tool Portion := do
  let fault := if byLines then "invalid number of lines: ".toList
    else "invalid number of bytes: ".toList
  match size? text with
  | .ok amount => return { portion with byLines, amount }
  | .error .tooLarge => Tool.die (fault ++ shownText text ++ ": ".toList ++ Errno.overflow.text) 1
  | .error _ => Tool.die (fault ++ shownText text) 1

/-- Writes output; if that fails the program ends. -/
def emit (bytes : Bytes) : Tool Unit := do
  if bytes.isEmpty then return ()
  match ← Tool.put bytes with
  | .ok () => return ()
  | .error e =>
    modify fun bench => { bench with isLossy := false }
    Tool.complainOf "error writing 'standard output'".toList e
    Tool.finish 1

/-- A complaint about reading. -/
def readFault (operand : Text) (e : Errno) : Tool Unit :=
  Tool.complainOf ("error reading ".toList ++ shownQuoted (operandName operand)) e

/-- Each operand in turn; the answer of `part` tells whether all went well with it. -/
def passAll (portion : Portion) (operands : List Text) (part : Text → Nat → Tool Bool) : Tool Nat :=
  go operands true 0
where
  go : List Text → Bool → Nat → Tool Nat
    | [], _, status => return status
    | operand :: rest, isFirst, status => do
      match ← Tool.openOperand operand with
      | .error e =>
        Tool.complain ("cannot open ".toList ++ shownQuoted (operandName operand) ++
          " for reading: ".toList ++ e.text)
        go rest isFirst 1
      | .ok fd =>
        let hasHeader := portion.showsHeaders operands
        if hasHeader then Tool.say (header isFirst operand)
        let isFine ← part operand fd
        Tool.closeOperand operand fd
        go rest (isFirst && !hasHeader) (if isFine then status else 1)

end Portion

/-! ### Beginnings -/

/-- The first `n` lines of some bytes, and how many of the lines are still missing. -/
def takeLines (lineEnd : UInt8) : Nat → Bytes → List UInt8 → Bytes × Nat
  | 0, _, out => (out.reverse, 0)
  | n, [], out => (out.reverse, n)
  | n + 1, b :: rest, out =>
    if b = lineEnd then takeLines lineEnd n rest (b :: out)
    else takeLines lineEnd (n + 1) rest (b :: out)

/-- How much is read at a time. -/
def readSize : Nat := 8192

/-- Passes on the first lines, and gives back what was read behind them. -/
def headLines (portion : Portion) (operand : Text) (fd : Nat) : (bound : Nat) → Nat → Tool Bool
  | 0, _ | _, 0 => return true
  | bound + 1, n + 1 => do
    match ← Program.read fd readSize with
    | .error e =>
      Portion.readFault operand e
      return false
    | .ok [] => return true
    | .ok bytes =>
      let (passed, missing) := takeLines portion.lineEnd (n + 1) bytes []
      let excess := bytes.length - passed.length
      if missing = 0 then
        let _ ← Program.seek fd .current (-Int.ofNat excess)
      Portion.emit passed
      headLines portion operand fd bound missing

/-- Passes on the first bytes. -/
def headBytes (operand : Text) (fd : Nat) : (bound : Nat) → Nat → Tool Bool
  | 0, _ | _, 0 => return true
  | bound + 1, n + 1 => do
    match ← Program.read fd (min readSize (n + 1)) with
    | .error e =>
      Portion.readFault operand e
      return false
    | .ok [] => return true
    | .ok bytes =>
      Portion.emit bytes
      headBytes operand fd bound (n + 1 - bytes.length)

/-- Lines with their ends; the last one may have none. -/
def splitLines (lineEnd : UInt8) (bytes : Bytes) : List Bytes :=
  let step (b : UInt8) (lines : List Bytes) : List Bytes :=
    match lines with
    | line :: more => if b = lineEnd then [b] :: line :: more else (b :: line) :: more
    | [] => [[b]]
  -- From the right: a line end begins a line of its own, to be met by what is before it.
  match bytes.reverse with
  | [] => []
  | last :: before => before.foldl (fun lines b => step b lines) [[last]]

/-- The last `n` parts of some bytes, and what is before them. -/
def Portion.splitEnd (portion : Portion) (n : Nat) (bytes : Bytes) : Bytes × Bytes :=
  if portion.byLines then
    let lines := splitLines portion.lineEnd bytes
    let kept := lines.length - n
    ((lines.take kept).flatten, (lines.drop kept).flatten)
  else (bytes.take (bytes.length - n), bytes.drop (bytes.length - n))

/-- Passes on everything but the last parts. -/
def headExcept (portion : Portion) (operand : Text) (fd : Nat) : Tool Bool := do
  match ← Program.status fd with
  | .error e =>
    Tool.complainOf ("cannot fstat ".toList ++ shownQuoted (Portion.operandName operand)) e
    return false
  | .ok status =>
    let start := (← Program.seek fd .current 0).toOption
    match ← Tool.readAll fd with
    | .error e =>
      Portion.readFault operand e
      return false
    | .ok bytes =>
      let (passed, _) := portion.splitEnd portion.amount bytes
      Portion.emit passed
      if status.kind = .regular then
        let _ ← Program.seek fd .start (Int.ofNat (start.getD 0 + passed.length))
      return true

/-- The letters behind the digits of an option that is a number. -/
def oldLetters (portion : Portion) : Text → Option Char → Except Char (Portion × Option Char)
  | [], unit => .ok (portion, unit)
  | 'c' :: rest, _ => oldLetters { portion with byLines := false } rest none
  | 'b' :: rest, _ => oldLetters { portion with byLines := false } rest (some 'b')
  | 'k' :: rest, _ => oldLetters { portion with byLines := false } rest (some 'k')
  | 'm' :: rest, _ => oldLetters { portion with byLines := false } rest (some 'm')
  | 'l' :: rest, unit => oldLetters { portion with byLines := true } rest unit
  | 'q' :: rest, unit => oldLetters { portion with headers := .never } rest unit
  | 'v' :: rest, unit => oldLetters { portion with headers := .always } rest unit
  | 'z' :: rest, unit => oldLetters { portion with lineEnd := 0 } rest unit
  | c :: _, _ => .error c

def endOptions : Options where
  letters := [('c', .something), ('n', .something), ('q', .nothing), ('v', .nothing), ('z', .nothing)] ++
    "0123456789".toList.map (·, .nothing)
  long :=
    [("bytes", .something, "c"), ("lines", .something, "n"),
     ("-presume-input-pipe", .nothing, "pipe"), ("quiet", .nothing, "q"), ("silent", .nothing, "q"),
     ("verbose", .nothing, "v"), ("zero-terminated", .nothing, "z"), ("help", .nothing, "help"),
     ("version", .nothing, "version")]

/-- The portion of a beginning with an option. -/
def Portion.takeHead (portion : Portion) (key : String) (argument : Option Text) : Tool Portion := do
  match key, argument with
  | "c", some count | "n", some count =>
    let isInverse : Bool := count.head? = some '-'
    { portion with isInverse }.withAmount (key = "n") (if isInverse then count.tail else count)
  | "q", _ => return { portion with headers := .never }
  | "v", _ => return { portion with headers := .always }
  | "z", _ => return { portion with lineEnd := 0 }
  | "pipe", _ => return portion
  | "help", _ | "version", _ => Tool.finish 0
  | key, _ =>
    Tool.complain ("invalid trailing option -- ".toList ++ key.toList)
    Tool.usage 1

/-- A first argument that is a number behind a dash, and the other arguments. -/
def oldHead (args : List Text) : Tool (Portion × List Text) := do
  match args with
  | ('-' :: c :: more) :: rest =>
    if !c.isDigit then return ({}, args)
    let digits := (c :: more).takeWhile Char.isDigit
    match oldLetters {} ((c :: more).drop digits.length) none with
    | .ok (portion, unit) =>
      return (← portion.withAmount portion.byLines (digits ++ unit.toList), rest)
    | .error letter =>
      Tool.complain ("invalid trailing option -- ".toList ++ [letter])
      Tool.usage 1
  | args => return ({}, args)

def runHead (args : List Text) : Tool Nat := do
  let (portion, args) ← oldHead args
  let (portion, operands) ← Tool.withOptions endOptions args 1 Portion.takeHead portion
  let operands := inputs operands
  let status ← portion.passAll operands fun operand fd =>
    if portion.isInverse then headExcept portion operand fd
    else if portion.byLines then headLines portion operand fd loopBound portion.amount
    else headBytes operand fd loopBound portion.amount
  checkStdin operands ['-']
  return status

/-! ### Ends -/

/-- Everything behind the first `n` parts. -/
def Portion.skip (portion : Portion) (n : Nat) (bytes : Bytes) : Bytes :=
  if portion.byLines then ((splitLines portion.lineEnd bytes).drop n).flatten else bytes.drop n

/-- Passes on the end of an operand. Where bytes are counted and the stream can be moved, one that
cannot be read ends the program. -/
def tailPart (portion : Portion) (isForever : Bool) (operand : Text) (fd : Nat) : Tool Bool := do
  match ← Program.status fd with
  | .error e =>
    Tool.complainOf ("cannot fstat ".toList ++ shownQuoted (Portion.operandName operand)) e
    return false
  | .ok status =>
    match ← Tool.readAll fd with
    | .error e =>
      Portion.readFault operand e
      if status.kind = .directory then
        if !portion.byLines then Tool.finish 1
        if isForever then
          Tool.complain (Portion.operandName operand ++
            ": cannot follow end of this type of file; giving up on this name".toList)
      return false
    | .ok bytes =>
      Portion.emit (if portion.isInverse then portion.skip portion.amount bytes
        else (portion.splitEnd portion.amount bytes).2)
      return true

/-- Whether and how what is written behind an end later is passed on as well. -/
structure Following where
  isForever : Bool := false
  byName : Bool := false
  /-- A file that cannot be opened is to be tried again. -/
  retries : Bool := false
  /-- The process with whose end the following ends; zero is none. -/
  watched : Nat := 0
  deriving Repr, DecidableEq

/-- An end to be passed on. -/
structure Tailing where
  portion : Portion := {}
  following : Following := {}
  deriving Repr, DecidableEq

/-- A whole number of an option, which must not be above a bound. -/
def optionNumber (fault text : Text) (greatest : Nat) : Tool Nat := do
  let digits := match text.dropWhile isSpaceOctet with
    | '+' :: rest => rest
    | rest => rest
  let front := fault ++ ": ".toList ++ shownText text
  if digits.isEmpty || !digits.all Char.isDigit then Tool.die front 1
  let value := valueIn 10 digits
  if value ≤ greatest then return value
  Tool.die (front ++ ": ".toList ++ Errno.overflow.text) 1

/-- Whether a text is a time in seconds. -/
def isSeconds (text : Text) : Bool :=
  let reading := BinaryReading.ofText .double text
  reading.length ≠ 0 && reading.length = text.length &&
    match reading.value with
    | .finite negative m _ => !negative || m = 0
    | .infinite negative => !negative && !reading.isOutOfRange
    | .undefined _ => false

/-- An end with an option. -/
def Tailing.take (tailing : Tailing) (key : String) (argument : Option Text) : Tool Tailing := do
  let portion := tailing.portion
  let following := tailing.following
  match key, argument with
  | "c", some count | "n", some count =>
    let isInverse : Bool := portion.isInverse || count.head? = some '+'
    let portion ← { portion with isInverse }.withAmount (key = "n")
      (if count.head? = some '-' then count.tail else count)
    return { tailing with portion }
  | "q", _ => return { tailing with portion := { portion with headers := .never } }
  | "v", _ => return { tailing with portion := { portion with headers := .always } }
  | "z", _ => return { tailing with portion := { portion with lineEnd := 0 } }
  | "F", _ =>
    return { tailing with following := { following with isForever := true, byName := true, retries := true } }
  | "f", none =>
    return { tailing with following := { following with isForever := true, byName := false } }
  | "f", some word =>
    let byName ← Tool.readWord 1 "--follow".toList [("descriptor", false), ("name", true)] word
    return { tailing with following := { following with isForever := true, byName } }
  | "retry", _ => return { tailing with following := { following with retries := true } }
  | "pid", some text =>
    let watched ← optionNumber "invalid PID".toList text (Nat.pow 2 31 - 1)
    return { tailing with following := { following with watched } }
  | "max", some text =>
    let _ ← optionNumber "invalid maximum number of unchanged stats between opens".toList text
      (Nat.pow 2 64 - 1)
    return tailing
  | "s", some text =>
    if isSeconds text then return tailing
    Tool.die ("invalid number of seconds: ".toList ++ shownText text) 1
  | "help", _ | "version", _ => Tool.finish 0
  | key, _ =>
    if key.toList.all Char.isDigit then
      Tool.die ("option used in invalid context -- ".toList ++ key.toList) 1
    else return tailing

def tailOptions : Options where
  letters := endOptions.letters ++ [('f', .nothing), ('F', .nothing), ('s', .something)]
  long :=
    [("bytes", .something, "c"), ("follow", .perhaps, "f"), ("lines", .something, "n"),
     ("max-unchanged-stats", .something, "max"), ("-disable-inotify", .nothing, "inotify"),
     ("pid", .something, "pid"), ("-presume-input-pipe", .nothing, "pipe"),
     ("quiet", .nothing, "q"), ("retry", .nothing, "retry"), ("silent", .nothing, "q"),
     ("sleep-interval", .something, "s"), ("verbose", .nothing, "v"),
     ("zero-terminated", .nothing, "z"), ("help", .nothing, "help"),
     ("version", .nothing, "version")]

/-- Whether the arguments have the old form: one word of options, and one operand at most. -/
def isOldTail : List Text → Bool
  | [_] => true
  | [_, operand] => !(operand.head? = some '-' && 1 < operand.length) || operand = ['-', '-']
  | [_, second, _] => second = ['-', '-']
  | _ => false

/-- An end in the old form: a sign, a number, and letters. -/
def oldTail? (word : Text) : Option Tailing := do
  let (isInverse, rest) ← match word with
    | '+' :: rest => some (true, rest)
    | '-' :: 'c' :: c :: rest => some (false, 'c' :: c :: rest)
    | ['-', 'c'] | ['-'] => none
    | '-' :: rest => some (false, rest)
    | _ => none
  let digits := rest.takeWhile Char.isDigit
  let (byLines, factor, behind) : Bool × Nat × Text := match rest.drop digits.length with
    | 'b' :: behind => (false, 512, behind)
    | 'c' :: behind => (false, 1, behind)
    | 'l' :: behind => (true, 1, behind)
    | behind => (true, 1, behind)
  let isForever : Bool := behind.head? = some 'f'
  if !(if isForever then behind.tail else behind).isEmpty then none
  let count := if digits.isEmpty then 10 else valueIn 10 digits
  return ⟨{ byLines, amount := count * factor, isInverse }, { isForever }⟩

/-- What can be followed: a name, where it is read, and how much has been there. -/
structure Followed where
  operand : Text
  fd : Nat
  size : Nat

/-- Opens what is to be followed, and goes to its end; a pipe that is standard input is not
followed. Also tells whether there is anything but such a pipe. -/
def Tailing.followed (tailing : Tailing) : List Text → Tool (List Followed × Bool)
  | [] => return ([], false)
  | operand :: rest => do
    let found : Option Followed × Bool ← match ← Tool.openOperand operand with
      | .error _ => pure (none, true)
      | .ok fd =>
        match ← Program.status fd with
        | .error _ => pure (none, true)
        | .ok status =>
          if operand = ['-'] && status.kind = .pipe then pure (none, false)
          else if status.kind = .directory then
            Tool.closeOperand operand fd
            pure (none, true)
          else
            let _ ← Program.seek fd .finish 0
            pure (some ⟨operand, fd, status.size⟩, true)
    let (more, isAny) ← tailing.followed rest
    return (found.1.toList ++ more, found.2 || isAny)

/-- Passes on what has been added to the files since the last time. The operand that was passed on
last needs no new header. -/
def Tailing.passAdded (tailing : Tailing) (showsHeaders : Bool) :
    List Followed → Text → Tool (List Followed × Text)
  | [], last => return ([], last)
  | file :: rest, last => do
    let size := match ← Program.status file.fd with
      | .ok status => status.size
      | .error _ => file.size
    if size < file.size then
      Tool.complain (file.operand ++ ": file truncated".toList)
      let _ ← Program.seek file.fd .start 0
    let added := (← Tool.readAll file.fd).toOption.getD []
    if !added.isEmpty then
      if showsHeaders && file.operand ≠ last then Tool.say (Portion.header false file.operand)
      Portion.emit added
    let (files, last) ←
      tailing.passAdded showsHeaders rest (if added.isEmpty then last else file.operand)
    return ({ file with size } :: files, last)

/-- How long it takes until the files are looked at again, in millionths of a second. -/
def followInterval : Nat := 5000

/-- Passes on what is added, until the process ends that is waited for. -/
def Tailing.follow (tailing : Tailing) (showsHeaders : Bool) :
    (bound : Nat) → List Followed → Text → Tool Unit
  | 0, _, _ => return ()
  | bound + 1, files, last => do
    let isOver : Bool ← if tailing.following.watched = 0 then pure false
      else pure ((← Program.kill (Int.ofNat tailing.following.watched) 0).toBool = false)
    let (files, last) ← tailing.passAdded showsHeaders files last
    match ← Tool.flush with
    | .error _ => return ()
    | .ok () =>
      if isOver then return ()
      let _ ← Program.pause followInterval
      tailing.follow showsHeaders bound files last

def runTail (args : List Text) : Tool Nat := do
  let old? := if isOldTail args then args.head?.bind oldTail? else none
  if old?.any fun old => Nat.pow 2 64 ≤ old.portion.amount then
    Tool.die ("invalid number: ".toList ++ shownText (args.headD [])) 1
  let (start, args) := match old? with
    | some old => (old, args.tail)
    | none => ({}, args)
  let (tailing, operands) ← Tool.withOptions tailOptions args 1 Tailing.take start
  let ⟨portion, following⟩ := tailing
  if following.retries then
    if !following.isForever then
      Tool.complain "warning: --retry ignored; --retry is useful only when following".toList
    else if !following.byName then
      Tool.complain "warning: --retry only effective for the initial open".toList
  if following.watched ≠ 0 && !following.isForever then
    Tool.complain "warning: PID ignored; --pid=PID is useful only when following".toList
  let operands := inputs operands
  if following.byName && operands.contains ['-'] then
    Tool.die ("cannot follow ".toList ++ shownQuoted ['-'] ++ " by name".toList) 1
  if portion.amount = 0 && !portion.isInverse && !following.isForever then return 0
  let portion := if portion.isInverse then { portion with amount := portion.amount - 1 } else portion
  let status ← portion.passAll operands (tailPart portion following.isForever)
  if following.isForever then
    let (files, isAny) ← tailing.followed operands
    if isAny then
      if files.isEmpty then
        Tool.complain "no files remaining".toList
        return 1
      let _ ← Tool.flush
      tailing.follow (portion.showsHeaders operands) loopBound files (operands.getLastD [])
  checkStdin operands ['-']
  return status

end LineShell.Utility
