import LineShell.Machine.Children

/-! A machine as it is before anything has happened on it: its programs under `/usr/bin`, the
devices under `/dev`, and an empty `/tmp`. -/

namespace LineShell.Machine

/-- The programs of the machine by name. -/
def programs : List (Text × Node) :=
  [("sh".toList, .utility .script), ("cat".toList, .utility .cat), ("sort".toList, .utility .sort),
   ("head".toList, .utility .head), ("tail".toList, .utility .tail), ("wc".toList, .utility .wc),
   ("printf".toList, .utility .printf), ("printenv".toList, .utility .printenv),
   ("true".toList, .utility .exitTrue), ("false".toList, .utility .exitFalse),
   ("echo".toList, .utility .echo), ("env".toList, .utility .env), ("pwd".toList, .utility .pwd),
   ("chmod".toList, .utility .chmod), ("yes".toList, .utility .yes),
   ("sleep".toList, .utility .sleep)]

/-- What the descriptors of a process lead to has names too. -/
def descriptorNodes : List (Text × Node) :=
  (List.range 16).map fun fd => (decimal fd, .device (.descriptor fd))

def devices : List (Text × Node) :=
  [("null".toList, .device .null), ("full".toList, .device .full), ("zero".toList, .device .zero),
   ("tty".toList, .device .terminal), ("stdin".toList, .device (.descriptor 0)),
   ("stdout".toList, .device (.descriptor 1)), ("stderr".toList, .device (.descriptor 2)),
   ("fd".toList, .dir descriptorNodes .standard)]

/-- Everyone may write there. -/
def sharedDir : Attributes := ⟨false, 0o1777, 0⟩

def standardRoot : Node :=
  let dir (entries : List (Text × Node)) : Node := .dir entries .standard
  dir
    [("usr".toList, dir
       [("bin".toList, dir programs), ("local".toList, dir [("bin".toList, dir [])])]),
     ("bin".toList, .link "usr/bin".toList),
     ("dev".toList, dir devices),
     ("tmp".toList, .dir [] sharedDir)]

def standard : Machine := { root := standardRoot }

/-- The machine with three nameless files on new streams: one to be read, and two to be written,
and the descriptors that lead to them as standard streams. -/
def withStreams (m : Machine) (input : Bytes) : Descriptors × Machine :=
  let (stdin, m) := m.addBuffer input
  let (stdout, m) := m.addBuffer []
  let (stderr, m) := m.addBuffer []
  let stream (number : Nat) (readable writable : Bool) : Stream :=
    { endpoint := .buffer number, readable, writable }
  let (stdin, m) := m.addStream (stream stdin true false)
  let (stdout, m) := m.addStream (stream stdout false true)
  let (stderr, m) := m.addStream (stream stderr false true)
  (Table.ofList [(0, ⟨stdin, false⟩), (1, ⟨stdout, false⟩), (2, ⟨stderr, false⟩)], m)

end LineShell.Machine
