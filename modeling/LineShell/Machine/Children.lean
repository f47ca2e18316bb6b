import LineShell.Machine.Run

/-! The children of the shell on their machine. A child wires its descriptors and becomes its
program; while the shell waits for one of them, all processes are at work. -/

namespace LineShell

/-- Messages of a child that does not become another program. -/
def notFoundText (name : Text) : Text := name ++ ": command not found\n".toList
def cannotExecuteText (name : Text) : Text := name ++ ": cannot execute\n".toList
def cannotRedirectText : Text := "vena: cannot set up redirection\n".toList

namespace Process

/-- Ends with a message on standard error. -/
def fail (message : Text) (status : Nat) : Program Nat := do
  let _ ← Program.writeAll Descriptors.stderr (encode message)
  return status

/-- What a child does once it is wired. -/
def becomeProgram (p : Process) : Program Nat :=
  let name := p.image.args.headD []
  match p.program with
  | none => fail (notFoundText name) 1
  | some path => do
    let environment := p.image.environment.entries.map fun (name, value) => (octets name, octets value)
    let e ← Program.execute (octets path) (p.image.args.map octets) environment
    if e = .noEntry then fail (notFoundText name) 1 else fail (cannotExecuteText name) 126

/-- The child as a process at work from a time on. -/
def task (p : Process) (parent clock : Nat) : Task :=
  match p.wired? with
  | none =>
    { pid := p.pid, parent, clock, code := (fail cannotRedirectText 1).code
      descriptors := p.image.descriptors, place := p.image.place }
  | some descriptors =>
    { pid := p.pid, parent, clock, code := p.becomeProgram.code
      descriptors, place := p.image.place }

end Process

namespace Machine

/-- The next answer of a list of refusals, and the rest of the list. -/
def nextRefusal : List (Option Errno) → Option Errno × List (Option Errno)
  | [] => (none, [])
  | answer :: rest => (answer, rest)

/-- Starts a child of the shell. -/
def fork (m : Machine) (program : Option Text) (image : Image) (io : ChildIo) :
    Except Errno Nat × Machine :=
  let (refusal, forks) := nextRefusal m.refusals.forks
  let m := { m with refusals := { m.refusals with forks } }
  match refusal with
  | some e => (.error e, m)
  | none =>
    let child : Process := { pid := m.nextPid, program, image, io }
    (.ok m.nextPid,
      { m with
        now := m.now + forkTime
        nextPid := m.nextPid + 1
        tasks := m.tasks ++ [child.task shellPid (m.now + startTime)]
        children := m.children.start m.nextPid })

/-- Waits until a child has ended, and collects it. -/
def await (m : Machine) (held : List Nat) (pid : Nat) : Collected × Machine :=
  let m := m.run held (fun m => m.children.status? pid ≠ some .running) stepBound
  let (answer, children) := m.children.collect pid
  (answer, { m with children })

end Machine
end LineShell
