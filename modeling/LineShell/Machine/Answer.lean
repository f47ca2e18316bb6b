import LineShell.Machine.Signal

/-! The answers of the system to the requests of a process. A request may change the process and
the machine, may have to wait for another process, or may end the process that makes it. To become
another program and to let time pass are no matter of an answer, and are left to the run. -/

namespace LineShell

/-- What comes of a request. -/
inductive Outcome (α : Type)
  /-- The answer, the process and the machine after it, and whether others have to look again. -/
  | answered (value : α) (task : Task) (machine : Machine) (wakes : Bool)
  | blocked
  | killed (signal : Nat)

namespace Machine

def Opener.ofTask (task : Task) : Opener := ⟨task.place, task.mask, task.descriptors⟩

/-- A new descriptor of a process. -/
def addDescriptor (task : Task) (stream least : Nat) (closeOnExec : Bool) : Nat × Task :=
  let fd := task.descriptors.lowestFreeFrom least
  (fd, { task with descriptors := task.descriptors.insert fd ⟨stream, closeOnExec⟩ })

/-- The answer to a request for bytes. -/
def answerRead (m : Machine) (held : List Nat) (task : Task) (fd count : Nat) :
    Outcome (Except Errno Bytes) :=
  match task.descriptors.stream? fd with
  | none => .answered (.error .badDescriptor) task m false
  | some stream =>
    match m.readStream held stream count with
    | .done (bytes, m) => .answered (.ok bytes) task m true
    | .failed e => .answered (.error e) task m false
    | .blocked =>
      if task.caught.isEmpty then .blocked else .answered (.error .interrupted) task m false
    | .broken => .answered (.error .brokenPipe) task m false

/-- The answer to a request that bytes be written. -/
def answerWrite (m : Machine) (held : List Nat) (task : Task) (fd : Nat) (bytes : Bytes) :
    Outcome (Except Errno Nat) :=
  match task.descriptors.stream? fd with
  | none => .answered (.error .badDescriptor) task m false
  | some stream =>
    match m.writeStream held stream bytes with
    | .done (n, m) => .answered (.ok n) task m true
    | .failed e => .answered (.error e) task m false
    | .blocked =>
      if task.caught.isEmpty then .blocked else .answered (.error .interrupted) task m false
    | .broken =>
      if Signal.brokenPipe ∈ task.ignored then .answered (.error .brokenPipe) task m false
      else if Signal.brokenPipe ∈ task.handled then
        .answered (.error .brokenPipe)
          { task with caught := task.caught ++ [Signal.brokenPipe] } m false
      else .killed Signal.brokenPipe

/-- The answer to a request for a child that has ended. -/
def answerWait (m : Machine) (task : Task) (child : Option Nat) (blocks : Bool) :
    Outcome (Except Errno (Option (Nat × StatusWord))) :=
  let isMeant (pid parent : Nat) : Bool := parent = task.pid && child.all (· = pid)
  match m.ended.find? fun ended => isMeant ended.pid ended.parent with
  | some found =>
    .answered (.ok (some (found.pid, found.word))) task
      { m with ended := m.ended.filter fun ended => ended.pid ≠ found.pid } false
  | none =>
    if !m.tasks.any fun other => isMeant other.pid other.parent then
      .answered (.error .noChild) task m false
    else if !blocks then .answered (.ok none) task m false
    else if !task.caught.isEmpty then .answered (.error .interrupted) task m false
    else .blocked

/-- The answer to a request that a signal be sent, which may reach the sender itself. -/
def answerKill (m : Machine) (task : Task) (target : Int) (signal : Nat) :
    Outcome (Except Errno Unit) :=
  match m.send target signal with
  | .error e => .answered (.error e) task m false
  | .ok after =>
    match after.task? task.pid with
    | some task => .answered (.ok ()) task after true
    | none => .killed signal

/-- The answer to a request that a file have another mode. -/
def answerSetMode (m : Machine) (task : Task) (path : Text) (mode : Nat) :
    Except Errno Machine := do
  let place ← m.root.reach task.place (ofOctets path)
  if !place.isLive then return m
  let some node := m.root.at? place.base | throw .noEntry
  if !node.attributes.mine then throw .notPermitted
  let attributes : Attributes := { node.attributes with mode }
  return { m with root := m.root.modify (Node.withAttributes attributes) place.base }

/-- Whether a process may do something with what is at the end of a path. -/
def mayUse (m : Machine) (task : Task) (path : Text) (permission : Permission) : Bool :=
  match m.pathStatus (.ofTask task) (ofOctets path) true with
  | .ok status => status.attributes.permits permission
  | .error _ => false

/-- The names in a directory. -/
def names (m : Machine) (task : Task) (path : Text) : Except Errno (List Text) := do
  let place ← m.root.reach task.place (ofOctets path)
  if !place.isLive then return []
  match m.root.at? place.base with
  | some (.dir entries attributes) =>
    if attributes.permits .read then return entries.map fun entry => octets entry.1
    else throw .accessDenied
  | _ => throw .notDirectory

/-- The answer to a request. -/
def answer (m : Machine) (held : List Nat) (task : Task) : (r : Request) → Outcome r.Reply
  | .openFile path mode =>
    match m.openPath (.ofTask task) (ofOctets path) mode with
    | .error e => .answered (.error e) task m false
    | .ok (stream, m) =>
      let (fd, task) := addDescriptor task stream 0 false
      .answered (.ok fd) task m false
  | .close fd =>
    if (task.descriptors.get? fd).isNone then .answered (.error .badDescriptor) task m false
    else .answered (.ok ()) { task with descriptors := task.descriptors.close fd } m true
  | .redirect source target =>
    match task.descriptors.redirect? source target with
    | none => .answered (.error .badDescriptor) task m false
    | some descriptors => .answered (.ok ()) { task with descriptors } m true
  | .duplicate source least closeOnExec =>
    match task.descriptors.stream? source with
    | none => .answered (.error .badDescriptor) task m false
    | some stream =>
      let (fd, task) := addDescriptor task stream least closeOnExec
      .answered (.ok fd) task m false
  | .pipe =>
    let ((reader, writer), m) := m.addPipe
    let (readEnd, task) := addDescriptor task reader 0 false
    let (writeEnd, task) := addDescriptor task writer 0 false
    .answered (.ok (readEnd, writeEnd)) task m false
  | .read fd count => m.answerRead held task fd count
  | .write fd bytes => m.answerWrite held task fd bytes
  | .seek fd origin offset =>
    match task.descriptors.stream? fd with
    | none => .answered (.error .badDescriptor) task m false
    | some stream =>
      match m.seekStream stream origin offset with
      | .ok (position, m) => .answered (.ok position) task m false
      | .error e => .answered (.error e) task m false
  | .status fd =>
    match task.descriptors.stream? fd with
    | none => .answered (.error .badDescriptor) task m false
    | some stream => .answered (m.streamStatus stream) task m false
  | .statusAt path follow =>
    .answered (m.pathStatus (.ofTask task) (ofOctets path) follow) task m false
  | .permits path permission => .answered (m.mayUse task path permission) task m false
  | .list path => .answered (m.names task path) task m false
  | .setMode path mode =>
    match m.answerSetMode task path mode with
    | .ok m => .answered (.ok ()) task m false
    | .error e => .answered (.error e) task m false
  | .setMask mask => .answered task.mask { task with mask := mask % 512 } m false
  | .changeDir path =>
    match m.root.reachDir task.place (ofOctets path) with
    | .ok place => .answered (.ok ()) { task with place } m false
    | .error e => .answered (.error e) task m false
  | .currentDir =>
    match task.place.path? with
    | some path => .answered (.ok (octets path)) task m false
    | none => .answered (.error .noEntry) task m false
  | .execute _ _ _ => .answered Errno.notExecutable task m false
  | .wait child blocks => m.answerWait task child blocks
  | .kill target signal => m.answerKill task target signal
  | .setSignal signal action =>
    let before : SignalAction :=
      if signal ∈ task.ignored then .ignored
      else if signal ∈ task.handled then .handled else .standard
    let ignored := task.ignored.filter (· ≠ signal)
    let handled := task.handled.filter (· ≠ signal)
    let task := match action with
      | .standard => { task with ignored, handled }
      | .ignored => { task with ignored := signal :: ignored, handled }
      | .handled => { task with ignored, handled := signal :: handled }
    .answered before task m false
  | .takeSignals => .answered task.caught { task with caught := [] } m false
  | .pause _ => .answered true task m false
  | .identity => .answered (task.pid, task.parent) task m false
  | .work _ => .answered () task m false

end Machine
end LineShell
