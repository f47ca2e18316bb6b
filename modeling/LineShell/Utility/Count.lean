import LineShell.Utility.Copying

/-! `wc`, which counts lines, words and bytes. -/

namespace LineShell.Utility

/-- Which counts are shown. -/
structure Columns where
  lines : Bool := false
  words : Bool := false
  chars : Bool := false
  bytes : Bool := false
  longest : Bool := false
  deriving Repr, DecidableEq

def Columns.all : Columns := { lines := true, words := true, bytes := true }

def Columns.flags (c : Columns) : List Bool := [c.lines, c.words, c.chars, c.bytes, c.longest]

/-- Lines, words, bytes, and the width of the longest line. -/
structure Count where
  lines : Nat := 0
  words : Nat := 0
  bytes : Nat := 0
  longest : Nat := 0
  deriving Repr, DecidableEq

def Count.add (a b : Count) : Count :=
  ⟨a.lines + b.lines, a.words + b.words, a.bytes + b.bytes, max a.longest b.longest⟩

/-- A count that goes on: whether a word is open, and the width of the open line. -/
structure Counting where
  count : Count := {}
  inWord : Bool := false
  width : Nat := 0
  deriving Repr, DecidableEq

namespace Counting

/-- A line ends, or begins anew. -/
def breakLine (c : Counting) : Counting :=
  { c with count := { c.count with longest := max c.count.longest c.width }, width := 0, inWord := false }

/-- Counts one byte more; a word begins with a visible ASCII character and ends at a blank. -/
def step (c : Counting) (b : UInt8) : Counting :=
  let c := { c with count := { c.count with bytes := c.count.bytes + 1 } }
  if b = 10 then { c with count := { c.count with lines := c.count.lines + 1 } }.breakLine
  else if b = 13 || b = 12 then c.breakLine
  else if b = 9 then { c with width := c.width + (8 - c.width % 8), inWord := false }
  else if b = 32 then { c with width := c.width + 1, inWord := false }
  else if b = 11 then { c with inWord := false }
  else if 33 ≤ b && b ≤ 126 then
    let words := if c.inWord then c.count.words else c.count.words + 1
    { c with count := { c.count with words }, width := c.width + 1, inWord := true }
  else c

def finish (c : Counting) : Count := c.breakLine.count

end Counting

/-- A line of counts: the columns asked for, and the name if the operand was given. -/
def Count.row (count : Count) (columns : Columns) (width : Nat) (name : Option Text) : Text :=
  let numbers := [(columns.lines, count.lines), (columns.words, count.words),
    (columns.chars, count.bytes), (columns.bytes, count.bytes), (columns.longest, count.longest)]
  let shown := (numbers.filter Prod.fst).map fun column => padLeft width (decimal column.2)
  join ' ' (shown ++ name.toList) ++ ['\n']

/-- Counts what is read from a descriptor; none if reading fails, which is told. -/
def countFrom (label : Text) (fd : Nat) : (bound : Nat) → Counting → Tool (Bool × Counting)
  | 0, c => return (true, c)
  | bound + 1, c => do
    match ← Program.read fd 16384 with
    | .error e =>
      Tool.complainOf (shown label) e
      return (false, c)
    | .ok [] => return (true, c)
    | .ok bytes => countFrom label fd bound (bytes.foldl Counting.step c)

/-- The unit in which a file's size is not trusted. -/
def pageSize : Nat := 4096

/-- The number of bytes that are left in a file, if it can be told without reading. -/
def bytesLeft? (fd : Nat) : Tool (Option Nat) := do
  match ← Program.status fd, ← Program.seek fd .current 0 with
  | .ok status, .ok offset =>
    if status.kind = .regular && status.size % pageSize ≠ 0 then return some (status.size - offset)
    else return none
  | _, _ => return none

/-- Counts one open operand. -/
def countOpen (columns : Columns) (label : Text) (fd : Nat) : Tool (Bool × Count) := do
  let isBytesOnly : Bool := !columns.lines && !columns.words && !columns.longest
  if isBytesOnly then
    if let some bytes ← bytesLeft? fd then return (true, { bytes })
  let (isFine, counting) ← countFrom label fd loopBound {}
  return (isFine, counting.finish)

/-- Why an operand must not be what it is; operands may have been read from a file. -/
def operandFault? (namesFrom : Option Text) (number : Nat) (operand : Option Text) : Option Text :=
  let fault := "invalid zero-length file name".toList
  match operand, namesFrom with
  | some [], none => some fault
  | some [], some file => some (shown file ++ ':' :: decimal number ++ ": ".toList ++ fault)
  | some ['-'], some ['-'] =>
    some ("when reading file names from stdin, no file name of ".toList ++ shownQuoted ['-'] ++
      " allowed".toList)
  | _, _ => none

/-- Counts one operand after the other; the answer is the sum and the status. -/
def countAll (columns : Columns) (width : Nat) (namesFrom : Option Text) :
    List (Option Text × Nat) → Count → (status : Nat) → Tool (Count × Nat)
  | [], total, status => return (total, status)
  | (operand, number) :: rest, total, status => do
    if let some fault := operandFault? namesFrom number operand then
      Tool.complain fault
      countAll columns width namesFrom rest total 1
    else
      match ← Tool.openOperand (operand.getD ['-']) with
      | .error e =>
        Tool.complainOf (shown (operand.getD [])) e
        countAll columns width namesFrom rest total 1
      | .ok fd =>
        let (isFine, count) ← countOpen columns (operand.getD "standard input".toList) fd
        Tool.say (count.row columns width operand)
        Tool.closeOperand (operand.getD ['-']) fd
        countAll columns width namesFrom rest (total.add count) (if isFine then status else 1)

/-- The width of the columns: a single count of a single operand stands alone, otherwise there is
room for the size of all files together, and for seven digits where one is no regular file. -/
def countWidth (columns : Columns) (operands : List Text) : Tool Nat := do
  let isSingle : Bool := operands.length = 1 && (columns.flags.filter id).length = 1
  if isSingle then return 1
  let statuses ← operands.mapM fun operand =>
    if operand = ['-'] then Program.status Tool.stdin else Program.statusAt operand
  let known := statuses.filterMap Except.toOption
  let total := sumOf ((known.filter (·.kind = .regular)).map (·.size))
  let least := if known.all (·.kind = .regular) then 1 else 7
  return max least (decimal total).length

def wcOptions : Options where
  letters := "clLmw".toList.map (·, .nothing)
  long :=
    [("bytes", .nothing, "c"), ("chars", .nothing, "m"), ("lines", .nothing, "l"),
     ("words", .nothing, "w"), ("files0-from", .something, "files"),
     ("max-line-length", .nothing, "L"), ("help", .nothing, "help"), ("version", .nothing, "version")]

/-- What `wc` is to do: the columns, and the file that holds the names of the operands. -/
structure CountPlan where
  columns : Columns := {}
  namesFrom : Option Text := none

/-- The plan with an option. -/
def CountPlan.take (plan : CountPlan) (key : String) (argument : Option Text) : Tool CountPlan := do
  match key with
  | "c" => return { plan with columns.bytes := true }
  | "m" => return { plan with columns.chars := true }
  | "l" => return { plan with columns.lines := true }
  | "w" => return { plan with columns.words := true }
  | "L" => return { plan with columns.longest := true }
  | "files" => return { plan with namesFrom := argument }
  | _ => Tool.finish 0

/-- The operands that are named in a file, and whether the file was read as a whole before the
first of them is counted. -/
def namedIn (file : Text) : Tool (List Text × Bool) := do
  match ← Tool.openOperand file with
  | .error e =>
    Tool.complainOf ("cannot open ".toList ++ shownQuoted file ++ " for reading".toList) e
    Tool.finish 1
  | .ok fd =>
    let isRegular : Bool := (← Program.status fd).toOption.any (·.kind = .regular)
    match ← Tool.readAll fd with
    | .error e =>
      if isRegular then Tool.die ("cannot read file names from ".toList ++ shownQuoted file) 1
      Tool.complainOf (shown file ++ ": read error".toList) e
      Tool.finish 1
    | .ok bytes => return (namesIn bytes, isRegular)

def runWc (args : List Text) : Tool Nat := do
  modify fun bench => { bench with byLine := true }
  let (plan, operands) ← Tool.withOptions wcOptions args 1 CountPlan.take {}
  let columns := if plan.columns = {} then .all else plan.columns
  let (operands, isKnown) ← match plan.namesFrom with
    | none => pure (operands, true)
    | some file =>
      if let first :: _ := operands then
        Tool.complain ("extra operand ".toList ++ shownQuoted first)
        Tool.tell "file operands cannot be combined with --files0-from\n".toList
        Tool.usage 1
      namedIn file
  let isNone : Bool := operands.isEmpty && plan.namesFrom.isNone
  let width ← if !isKnown || (operands.isEmpty && !isNone) then pure 1
    else countWidth columns (inputs operands)
  let named := if isNone then [none] else operands.map some
  let (total, status) ← countAll columns width plan.namesFrom (named.zipIdx 1) {} 0
  if 1 < operands.length then Tool.say (total.row columns width (some "total".toList))
  checkStdin (inputs operands) ['-']
  return status

end LineShell.Utility
