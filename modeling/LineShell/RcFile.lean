import LineShell.Flags
import LineShell.Text.Blank
import LineShell.WorkingDirectory

/-! The file of lines that the shell runs before its input. It is the one asked for, which has to
be there, or the usual one in the home directory, which need not. Blank lines and lines that begin
with `#` are left out, and white space at the ends of a line. -/

namespace LineShell

inductive ConfigError
  | fileNotFound (path : Text)
  | io (path : Text) (cause : IoError)
  deriving Repr, DecidableEq

def ConfigError.message : ConfigError → Text
  | fileNotFound path => path ++ ": config file not found".toList
  | io path cause => path ++ ": ".toList ++ cause.describe

/-- Where the file is, and whether it was asked for. -/
structure RcFile where
  path : Text
  explicit : Bool
  deriving Repr, DecidableEq

namespace RcFile

def usualName : Text := ".venarc".toList

/-- The file to be read; there is none if it was not asked for and the home directory is not
known. -/
def ofFlags? (world : World) (flags : Flags) : Option RcFile :=
  match flags.config with
  | some path => some ⟨path, true⟩
  | none => world.home.toOption.map fun home => ⟨Path.push home usualName, false⟩

/-- The lines of a file without their line breaks. A break may begin with a carriage return. The
last line need not end with a break, and then it is kept as it is; if it is empty, it is none. -/
def contentLines (content : Text) : List Text :=
  let parts := pieces '\n' content
  parts.dropLast.map (dropTrailing '\r') ++ parts.getLast?.toList.filter (!·.isEmpty)

def isKept (line : Text) : Bool := !line.isEmpty && line.head? ≠ some '#'

/-- The lines of a file that are to be run. -/
def linesOf (content : Text) : List Text := ((contentLines content).map trim).filter isKept

/-- The text of a file. -/
def readText (world : World) (path : Text) : Except IoError Text := do
  match decode? (← world.readFile path) with
  | some text => return text
  | none => throw .notText

def load (world : World) (rc : RcFile) : Except ConfigError (List Text) :=
  match readText world rc.path with
  | .ok content => .ok (linesOf content)
  | .error e =>
    if e.isNotFound then if rc.explicit then .error (.fileNotFound rc.path) else .ok []
    else .error (.io rc.path e)

end RcFile
end LineShell
