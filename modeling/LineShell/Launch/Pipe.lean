import LineShell.Launch

/-! Two commands joined by a pipe. All files are opened first, in the order in which they are
written, then the pipe; the left child is started, the shell lets go of the writing end, the right
child is started, and the shell lets go of the reading end. Whatever fails, what has been opened is
closed and who has been started is waited for. -/

namespace LineShell

/-- A pipe, with both ends on descriptors of the shell: the reading end and the writing end. -/
def openPipe : Act ProcessError (Nat × Nat) := Act.of fun world =>
  let refusals := world.machine.refusals
  let (refusal, pipes) := Machine.nextRefusal refusals.pipes
  let machine := { world.machine with refusals := { refusals with pipes } }
  match refusal with
  | some e => (.error (.error (.pipe (.os e))), { world with machine })
  | none =>
    let ((reader, writer), machine) := machine.addPipe
    let (readEnd, descriptors) := Descriptors.add world.descriptors reader
    let (writeEnd, descriptors) := Descriptors.add descriptors writer
    (.ok (readEnd, writeEnd), { world with machine, descriptors })

/-- The action, closing some descriptors if it fails. -/
def closingOnFailure {ε α : Type} (fds : List Nat) (act : Act ε α) : Act ε α := do
  match ← Act.attempt act with
  | .ok a => return a
  | .error e =>
    modify (·.close fds)
    throw e

/-- Starts both sides. When the right side cannot be started the left one is waited for. -/
def startPipe (left right : Stage) : Act ProcessError (Nat × Nat) := do
  let leftFiles ← left.redirections.openFiles
  let rightFiles ← closingOnFailure leftFiles.fds right.redirections.openFiles
  let (readEnd, writeEnd) ← closingOnFailure (leftFiles.fds ++ rightFiles.fds) openPipe
  let leftPid ← closingOnFailure (readEnd :: rightFiles.fds) <|
    (spawn left.args { leftFiles.io with pipeOut := some writeEnd, extraClose := [readEnd] }).ensuring
      (·.close (writeEnd :: leftFiles.fds))
  let rightPid ← Act.attempt <|
    (spawn right.args { rightFiles.io with pipeIn := some readEnd }).ensuring
      (·.close (readEnd :: rightFiles.fds))
  match rightPid with
  | .ok rightPid => return (leftPid, rightPid)
  | .error e =>
    let _ ← Act.attempt (waitFor leftPid)
    throw e

/-- Runs both sides to their ends; the answer is the state of the right one. -/
def runPipe (left right : Stage) : Act ProcessError ChildState := inForeground do
  let (leftPid, rightPid) ← startPipe left right
  let leftState ← Act.attempt (waitFor leftPid)
  let rightState ← waitFor rightPid
  match leftState with
  | .ok _ => return rightState
  | .error e => throw e

end LineShell
