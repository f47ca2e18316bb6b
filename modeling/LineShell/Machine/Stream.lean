import LineShell.FileTree.Edit
import LineShell.Machine

/-! Opening, reading and writing. Reading takes from where a stream stands and moves it on; a
write to a file goes to the stream's offset, over what is there. A pipe that is empty is at its end
only when nobody can write to it any more, and one that is full takes more once somebody has read
from it. -/

namespace LineShell

/-- `new` written over `old` at an offset; a gap is filled with zeros. -/
def overwrite (old : Bytes) (offset : Nat) (new : Bytes) : Bytes :=
  if old.length = offset then old ++ new
  else
    old.take offset ++ List.replicate (offset - old.length) 0 ++ new ++
      old.drop (offset + new.length)

/-- What an attempt to read or write meets. -/
inductive Transfer (α : Type)
  | done (value : α)
  | failed (e : Errno)
  /-- Somebody else has to act first. -/
  | blocked
  /-- Nobody reads the pipe. -/
  | broken

namespace Machine

/-- What a stream leads to. -/
def endpoint? (m : Machine) (stream : Nat) : Option Endpoint :=
  (m.streams[stream]?).map Stream.endpoint

/-- A new stream, and its number. -/
def addStream (m : Machine) (stream : Stream) : Nat × Machine :=
  (m.streams.length, { m with streams := m.streams ++ [stream] })

/-- A new file without a name. -/
def addBuffer (m : Machine) (content : Bytes) : Nat × Machine :=
  (m.buffers.length, { m with buffers := m.buffers ++ [content] })

/-- A new pipe: the streams of its reading and its writing end. -/
def addPipe (m : Machine) : (Nat × Nat) × Machine :=
  let number := m.pipes.length
  let m := { m with pipes := m.pipes ++ [[]] }
  let (reader, m) := m.addStream ⟨.pipeReader number, true, false, false, 0⟩
  let (writer, m) := m.addStream ⟨.pipeWriter number, false, true, false, 0⟩
  ((reader, writer), m)

def updateStream (m : Machine) (stream : Nat) (change : Stream → Stream) : Machine :=
  { m with streams := m.streams.modify stream change }

/-- A process, or the shell with its descriptors, as far as opening is concerned. -/
structure Opener where
  place : Place
  mask : Nat
  descriptors : Descriptors

/-- The stream that is opened anew through a descriptor. -/
def reopen (m : Machine) (opener : Opener) (fd : Nat) (mode : OpenMode) :
    Except Errno (Nat × Machine) := do
  let some stream := (opener.descriptors.stream? fd).bind (m.streams[·]?) | throw .noEntry
  let again : Stream := ⟨stream.endpoint, mode.reads, mode.writes, mode.appends, 0⟩
  match stream.endpoint with
  | .file position =>
    match m.root.at? position with
    | some (.file content attributes) =>
      if mode.reads && !attributes.permits .read || mode.writes && !attributes.permits .write then
        throw .accessDenied
      let content := if mode.empties then [] else content
      return { m with root := m.root.put position (.file content attributes) }.addStream again
    | _ => throw .noEntry
  | .directory => if mode.writes then throw .isDirectory else return m.addStream again
  | .device _ => return m.addStream again
  | .buffer number =>
    return (if mode.empties then { m with buffers := m.buffers.set number [] } else m).addStream again
  | .pipeReader number | .pipeWriter number =>
    let endpoint : Endpoint := if mode.writes then .pipeWriter number else .pipeReader number
    return m.addStream { again with endpoint }

/-- Opens what is at the end of a path. -/
def openPath (m : Machine) (opener : Opener) (path : Text) (mode : OpenMode) :
    Except Errno (Nat × Machine) := do
  let purpose : Resolve.Purpose := if mode.creates then .create else .reach
  let stream (endpoint : Endpoint) : Stream := ⟨endpoint, mode.reads, mode.writes, mode.appends, 0⟩
  match ← m.root.resolve opener.place purpose path with
  | .vacant directory name =>
    if !mode.creates then throw .noEntry
    match m.root.at? directory with
    | some node =>
      if !node.permits .write then throw .accessDenied
      let position := directory ++ [name]
      let attributes : Attributes := ⟨true, 0o666 &&& (0o777 ^^^ opener.mask), m.now⟩
      let m := { m with root := m.root.put position (.file [] attributes) }
      return m.addStream (stream (.file position))
    | none => throw .noEntry
  | .found place =>
    if mode.exclusive then throw .alreadyExists
    if !place.isLive then
      if mode.writes then throw .isDirectory else return m.addStream (stream .directory)
    let some node := m.root.at? place.base | throw .noEntry
    if node.isDir && (mode.writes || mode.creates) then throw .isDirectory
    if mode.reads && !node.permits .read || mode.writes && !node.permits .write then
      throw .accessDenied
    match node with
    | .file _ attributes =>
      let m := if mode.empties then
          { m with root := m.root.put place.base (.file [] { attributes with modified := m.now }) }
        else m
      return m.addStream (stream (.file place.base))
    | .device .terminal => throw .noDevice
    | .device (.descriptor fd) => m.reopen opener fd mode
    | .device device => return m.addStream (stream (.device device))
    | .dir _ _ => return m.addStream (stream .directory)
    | _ => return m.addStream (stream (.file place.base))

/-- The content of the file at a position. -/
def fileContent (m : Machine) (position : Position) : Bytes :=
  match m.root.at? position with
  | some (.file content _) => content
  | _ => []

/-- Whether some process, or the shell through the streams it holds, has an end of a pipe. -/
def isHeld (m : Machine) (held : List Nat) (pipeEnd : Endpoint) : Bool :=
  let leads (stream : Nat) : Bool := m.endpoint? stream = some pipeEnd
  m.tasks.any (fun task => task.descriptors.entries.any fun entry => leads entry.2.stream) ||
    held.any leads

/-- Reads up to `count` bytes from a stream. -/
def readStream (m : Machine) (held : List Nat) (stream count : Nat) :
    Transfer (Bytes × Machine) :=
  match m.streams[stream]? with
  | none => .failed .badDescriptor
  | some s =>
    if !s.readable then .failed .badDescriptor
    else
      let moved (bytes : Bytes) : Transfer (Bytes × Machine) :=
        .done (bytes, m.updateStream stream fun s => { s with offset := s.offset + bytes.length })
      match s.endpoint with
      | .file position => moved (((m.fileContent position).drop s.offset).take count)
      | .buffer number => moved (((m.buffers.getD number []).drop s.offset).take count)
      | .directory => .failed .isDirectory
      | .device .full | .device .zero => .done (List.replicate count 0, m)
      | .device _ => .done ([], m)
      | .pipeReader number =>
        let bytes := m.pipes.getD number []
        if !bytes.isEmpty || count = 0 then
          .done (bytes.take count, { m with pipes := m.pipes.set number (bytes.drop count) })
        else if m.isHeld held (.pipeWriter number) then .blocked
        else .done ([], m)
      | .pipeWriter _ => .failed .badDescriptor

/-- The size of the regular file behind a stream. -/
def fileSize? (m : Machine) (stream : Nat) : Option Nat :=
  match m.endpoint? stream with
  | some (.file position) => some (m.fileContent position).length
  | some (.buffer number) => some (m.buffers.getD number []).length
  | _ => none

/-- Writes bytes to a stream; the answer tells how many. -/
def writeStream (m : Machine) (held : List Nat) (stream : Nat) (bytes : Bytes) :
    Transfer (Nat × Machine) :=
  match m.streams[stream]? with
  | none => .failed .badDescriptor
  | some s =>
    if !s.writable then .failed .badDescriptor
    else match s.endpoint with
      | .file position =>
        match m.root.at? position with
        | some (.file content attributes) =>
          let offset := if s.appends then content.length else s.offset
          let node : Node := .file (overwrite content offset bytes) { attributes with modified := m.now }
          let m := { m with root := m.root.put position node }
          .done (bytes.length, m.updateStream stream fun s => { s with offset := offset + bytes.length })
        | _ => .failed .badDescriptor
      | .buffer number =>
        .done (bytes.length, { m with buffers := m.buffers.modify number (· ++ bytes) })
      | .device .full => if bytes.isEmpty then .done (0, m) else .failed .noSpace
      | .device _ => .done (bytes.length, m)
      | .pipeWriter number =>
        if !m.isHeld held (.pipeReader number) then .broken
        else
          let there := m.pipes.getD number []
          let room := pipeSize - there.length
          if bytes.length ≤ room then
            .done (bytes.length, { m with pipes := m.pipes.set number (there ++ bytes) })
          else if bytes.length ≤ pipePiece || room = 0 then .blocked
          else .done (room, { m with pipes := m.pipes.set number (there ++ bytes.take room) })
      | .directory | .pipeReader _ => .failed .badDescriptor

/-- Writes to a stream for the shell, which never waits for a reader. -/
def write (m : Machine) (stream : Nat) (bytes : Bytes) : Except Errno Machine :=
  match m.writeStream [] stream bytes with
  | .done (_, m) => .ok m
  | .failed e => .error e
  | .blocked | .broken => .error .brokenPipe

/-- Everything that can be read from a stream at once; what never ends counts as nothing. -/
def contents (m : Machine) (stream : Nat) : Except Errno Bytes := do
  let some s := m.streams[stream]? | throw .badDescriptor
  match s.endpoint with
  | .file position => return (m.fileContent position).drop s.offset
  | .buffer number => return (m.buffers.getD number []).drop s.offset
  | .pipeReader number => return m.pipes.getD number []
  | .directory => throw .isDirectory
  | .device _ | .pipeWriter _ => return []

/-- Moves a stream; the answer is the new offset. -/
def seekStream (m : Machine) (stream : Nat) (origin : Origin) (offset : Int) :
    Except Errno (Nat × Machine) := do
  let some s := m.streams[stream]? | throw .badDescriptor
  match s.endpoint with
  | .pipeReader _ | .pipeWriter _ => throw .illegalSeek
  | .device _ => return (0, m)
  | .file _ | .buffer _ | .directory =>
    let base : Nat := match origin with
      | .start => 0
      | .current => s.offset
      | .finish => (m.fileSize? stream).getD 0
    let target := Int.ofNat base + offset
    if target < 0 then throw .invalidArgument
    return (target.toNat, m.updateStream stream fun s => { s with offset := target.toNat })

/-- What a stream leads to, as a file. -/
def streamStatus (m : Machine) (stream : Nat) : Except Errno FileStatus := do
  let some s := m.streams[stream]? | throw .badDescriptor
  match s.endpoint with
  | .file position =>
    let attributes := ((m.root.at? position).map Node.attributes).getD .ownFile
    return ⟨.regular, attributes, (m.fileContent position).length, .node position⟩
  | .buffer number => return ⟨.regular, .ownFile, (m.buffers.getD number []).length, .buffer number⟩
  | .directory => return ⟨.directory, .ownDir, 4096, .gone⟩
  | .device device => return ⟨.device, .device, 0, .device device⟩
  | .pipeReader number | .pipeWriter number => return ⟨.pipe, ⟨true, 0o600, 0⟩, 0, .pipe number⟩

/-- What is at the end of a path, as a file. -/
def nodeStatus (m : Machine) (opener : Opener) (place : Place) : Except Errno FileStatus := do
  if !place.isLive then return ⟨.directory, .ownDir, 0, .gone⟩
  match m.root.at? place.base with
  | none => throw .noEntry
  | some (.device (.descriptor fd)) =>
    match opener.descriptors.stream? fd with
    | some stream => m.streamStatus stream
    | none => throw .noEntry
  | some node =>
    let identity := Identity.node place.base
    match node with
    | .file content attributes => return ⟨.regular, attributes, content.length, identity⟩
    | .utility _ => return ⟨.regular, node.attributes, 4096, identity⟩
    | .device device => return ⟨.device, node.attributes, 0, .device device⟩
    | .link target => return ⟨.link, node.attributes, byteSize target, identity⟩
    | .dir _ attributes => return ⟨.directory, attributes, 4096, identity⟩

/-- What is at the end of a path; a link at the very end is followed only if `follow` says so. -/
def pathStatus (m : Machine) (opener : Opener) (path : Text) (follow : Bool) :
    Except Errno FileStatus := do
  let link? : Option Place := do
    if follow || path.getLast? = some '/' then none
    let (directory, name) ← m.root.locate? opener.place path
    let place : Place := ⟨directory ++ [name], []⟩
    match m.root.at? directory, m.root.at? place.base with
    | some node, some (.link _) => if node.permits .search then some place else none
    | _, _ => none
  match link? with
  | some place => m.nodeStatus opener place
  | none => m.nodeStatus opener (← m.root.reach opener.place path)

end Machine
end LineShell
