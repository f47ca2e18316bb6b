import LineShell.Machine.Standard
import LineShell.Shell

/-! The shell as a program. It runs on a machine of its own, which holds nothing but the programs
that belong to it, and starts in the root directory; what it reads and writes goes through the
standard streams of the program. -/

namespace LineShell

/-- The variables that are taken over from the environment. -/
def inheritedNames : List String := ["HOME", "OLDPWD", "PATH", "PWD"]

/-- Everything that comes from a stream. -/
partial def readToEnd (stream : IO.FS.Stream) (bytes : ByteArray) : IO ByteArray := do
  let chunk ← stream.read 4096
  if chunk.isEmpty then return bytes
  readToEnd stream (bytes ++ chunk)

end LineShell

open LineShell

def main (args : List String) : IO UInt32 := do
  let input ← readToEnd (← IO.getStdin) .empty
  let mut environment : Environment := ∅
  for name in inheritedNames do
    if let some value ← IO.getEnv name then
      environment := environment.insert name.toList value.toList
  let (descriptors, machine) := Machine.standard.withStreams input.toList
  let world : World :=
    { session := { vars := { environment } }, place := .root, descriptors, machine }
  let (status, world) := runOnInput (args.map String.toList) world
  let stdout ← IO.getStdout
  let stderr ← IO.getStderr
  stdout.write ⟨(world.machine.buffers.getD Descriptors.stdout []).toArray⟩
  stderr.write ⟨(world.machine.buffers.getD Descriptors.stderr []).toArray⟩
  stdout.flush
  return UInt32.ofNat status
