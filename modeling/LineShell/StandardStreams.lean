import LineShell.World

/-! What the shell itself writes to its standard streams. A stream whose descriptor is not open
takes everything. A message goes to standard error as a whole. What is printed to standard output is
kept until a line of it is complete, and what is refused is kept for the next time. -/

namespace LineShell

/-- Writes to a standard stream of the shell. -/
def Machine.writeStandard (m : Machine) (stream : Nat) (bytes : Bytes) : Except Errno Machine :=
  match m.write stream bytes with
  | .ok m => .ok m
  | .error e => if e = .badDescriptor then .ok m else .error e

/-- Writes bytes to a standard stream. Nothing is asked of the system for no bytes. -/
def writeStandard (stream : Nat) (bytes : Bytes) : Act IoError Unit := do
  if bytes.isEmpty then return
  let world ← get
  let machine ← Act.ofExcept ((world.machine.writeStandard stream bytes).mapError .os)
  set { world with machine }

/-- A message of the shell itself. -/
def tell {ε : Type} (text : Text) : Act ε Unit := do
  let stream := (← get).streamOf Descriptors.stderr
  (writeStandard stream (encode (text ++ ['\n']))).insist

namespace StandardOutput

/-- How many bytes are kept at most. -/
def capacity : Nat := 1024

/-- Writes bytes at once. -/
def write (bytes : Bytes) : Act IoError Unit := do
  writeStandard ((← get).streamOf Descriptors.stdout) bytes

/-- Writes what is kept. -/
def flush : Act IoError Unit := do
  write (← get).unwritten
  modify fun world => { world with unwritten := [] }

/-- Keeps bytes, unless they are too many. When there is no room for them, what is kept is written
before. -/
def keep (bytes : Bytes) : Act IoError Unit := do
  if capacity < (← get).unwritten.length + bytes.length then flush
  if capacity ≤ bytes.length then write bytes
  else modify fun world => { world with unwritten := world.unwritten ++ bytes }

/-- The bytes up to the last line break and with it. -/
def completeLines (bytes : Bytes) : Bytes := (bytes.reverse.dropWhile (· ≠ 10)).reverse

/-- The bytes after the last line break. -/
def openLine (bytes : Bytes) : Bytes := (bytes.reverse.takeWhile (· ≠ 10)).reverse

/-- Prints bytes: the lines that they complete are written, and the rest is kept. -/
def print (bytes : Bytes) : Act IoError Unit := do
  let kept := (← get).unwritten
  if (completeLines bytes).isEmpty then
    -- A line that is complete and still kept has been refused before.
    if kept.getLast? = some 10 then flush
  else if kept.isEmpty then write (completeLines bytes)
  else
    keep (completeLines bytes)
    flush
  keep (openLine bytes)

end StandardOutput

/-- The world after an attempt to write what is kept for standard output. -/
def World.flushed (world : World) : World := (StandardOutput.flush.run world).2

end LineShell
