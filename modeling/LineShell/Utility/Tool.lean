import LineShell.Program
import LineShell.Utility.Quoting

/-! What the programs of the machine share: output that is gathered and written in blocks, and
complaints on standard error, before which everything gathered is written. That output cannot be
written is told at the very end, unless a program tells it before. -/

namespace LineShell.Utility

/-- A program at work: what it is called, what it has been given, and its output so far. -/
structure Bench where
  name : Text
  environment : List (Text × Text)
  /-- Output that has not been written yet, the latest piece first, and its size. -/
  pending : List Bytes := []
  size : Nat := 0
  /-- Output was lost. -/
  isLossy : Bool := false
  /-- The status with which a program ends that could not write its output. -/
  failure : Nat := 1
  /-- Every line is written at once. -/
  byLine : Bool := false

/-- Everything that has been gathered. -/
def Bench.gathered (bench : Bench) : Bytes := bench.pending.reverse.flatten

abbrev Tool := StateT Bench Program

/-- How much output is gathered. -/
def blockSize : Nat := 4096

/-- How long a loop may be; no loop that ends is as long as that. -/
def loopBound : Nat := 1000000000000

namespace Tool

variable {α : Type}

def stdin : Nat := 0
def stdout : Nat := 1
def stderr : Nat := 2

/-- Writes bytes to standard output at once. -/
def send (bytes : Bytes) : Tool (Except Errno Unit) := do
  match ← Program.writeAll stdout bytes with
  | .ok () => return .ok ()
  | .error e =>
    modify fun bench => { bench with isLossy := true }
    return .error e

/-- Writes what has been gathered. -/
def flush : Tool (Except Errno Unit) := do
  let bench ← get
  if bench.size = 0 then return .ok ()
  set { bench with pending := [], size := 0 }
  send bench.gathered

/-- Puts bytes to the output, and writes whole blocks of it. -/
def put (bytes : Bytes) : Tool (Except Errno Unit) := do
  let bench ← get
  let gathered : Bench := { bench with pending := bytes :: bench.pending, size := bench.size + bytes.length }
  if bench.byLine && bytes.contains 10 then
    set gathered
    flush
  else if gathered.size ≤ blockSize then
    set gathered
    return .ok ()
  else
    let all := gathered.gathered
    let whole := gathered.size / blockSize * blockSize
    set { bench with pending := [], size := 0 }
    match ← send (all.take whole) with
    | .error e => return .error e
    | .ok () =>
      modify fun bench => { bench with pending := [all.drop whole], size := gathered.size - whole }
      return .ok ()

/-- Puts a text to the output, whatever becomes of it. -/
def say (text : Text) : Tool Unit := do
  let _ ← put (octetBytes text)

/-- A text on standard error, as it stands. -/
def tell (text : Text) : Tool Unit := do
  let _ ← Program.writeAll stderr (octetBytes text)

/-- A complaint: the program and what it has to say. -/
def complain (text : Text) : Tool Unit := do
  let _ ← flush
  tell ((← get).name ++ ": ".toList ++ text ++ ['\n'])

/-- A complaint with a reason. -/
def complainOf (text : Text) (e : Errno) : Tool Unit := complain (text ++ ": ".toList ++ e.text)

/-- Ends the program, after its output has been written. -/
def finish (status : Nat) : Tool α := do
  let wasLossy := (← get).isLossy
  match ← flush with
  | .error e =>
    complainOf "write error".toList e
    Program.exit (← get).failure
  | .ok () =>
    if !wasLossy then Program.exit status
    else
      match ← Program.status stdout with
      | .error e => complainOf "write error".toList e
      | .ok _ => complain "write error".toList
      Program.exit (← get).failure

/-- Ends the program with a complaint. -/
def die (text : Text) (status : Nat) : Tool α := do
  complain text
  finish status

/-- Ends the program with a hint at how it is used. -/
def usage (status : Nat) : Tool α := do
  tell ("Try '".toList ++ (← get).name ++ " --help' for more information.\n".toList)
  finish status

/-- Repeats a step until it says that it is done. -/
def repeatUntilDone (step : Tool Bool) : (bound : Nat) → Tool Unit
  | 0 => pure ()
  | bound + 1 => do
    if ← step then return ()
    repeatUntilDone step bound

/-- Opens an operand for reading; a dash is standard input. -/
def openOperand (operand : Text) : Tool (Except Errno Nat) := do
  if operand = ['-'] then return .ok stdin
  Program.openFile operand .input

/-- Lets go of an operand. -/
def closeOperand (operand : Text) (fd : Nat) : Tool Unit := do
  if operand ≠ ['-'] then Program.close fd

/-- Everything that can still be read from a descriptor. -/
def readAll (fd : Nat) : Tool (Except Errno Bytes) := go loopBound []
where
  go : Nat → List Bytes → Tool (Except Errno Bytes)
    | 0, blocks => return .ok blocks.reverse.flatten
    | bound + 1, blocks => do
      match ← Program.read fd 65536 with
      | .error e => return .error e
      | .ok [] => return .ok blocks.reverse.flatten
      | .ok block => go bound (block :: blocks)

end Tool

/-- A program as it is run: its arguments, the first of which is its name, and its environment. -/
def Tool.start (tool : List Text → Tool Nat) (args : List Text)
    (environment : List (Text × Text)) : Code :=
  ((do Tool.finish (← tool args.tail)).run'
    { name := args.headD [], environment } : Program Nat).code

end LineShell.Utility
