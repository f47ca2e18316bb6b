import LineShell.Text

/-! Paths as texts: joining them, and folding `.` and `..` without looking at any file. A path is
kept exactly as it was joined, with its doubled and trailing slashes; only `lexicalJoin` brings it
to the form in which each name is met once. -/

namespace LineShell.Path

def isAbsolute (path : Text) : Bool := path.head? = some '/'

/-- `path` seen from `base`: an absolute path stands alone, any other follows one slash. -/
def push (base path : Text) : Text :=
  if isAbsolute path then path
  else if base.isEmpty || base.getLast? = some '/' then base ++ path
  else base ++ '/' :: path

def pushAll (base : Text) (parts : List Text) : Text := parts.foldl push base

/-- The parts of a path between slashes, without the empty ones. -/
def parts (path : Text) : List Text := (pieces '/' path).filter fun part => !part.isEmpty

/-- The names above, the latest first, after one more part; the root is its own parent. -/
def descend (above : List Text) (part : Text) : List Text :=
  if part = ['.'] then above
  else if part = ['.', '.'] then above.tail
  else part :: above

/-- The names that lead down from the start of a path when `..` takes back the name before it. -/
def fold (path : Text) : List Text := ((parts path).foldl descend []).reverse

/-- The path of the given names from the root. -/
def ofNames (names : List Text) : Text := '/' :: join '/' names

/-- `target` seen from `base`, with `.` and `..` folded. -/
def lexicalJoin (base target : Text) : Text :=
  let path := push base target
  let names := fold path
  if isAbsolute path || names.isEmpty then ofNames names else join '/' names

/-- The path without its last part; empty when nothing is left of it. -/
def parent (path : Text) : Text :=
  let above := join '/' (parts path).dropLast
  if isAbsolute path then '/' :: above else above

/-- A leading `~` that stands alone or before a slash is the home directory; any other path is
kept as it is. -/
def expandTilde {ε : Type} (home : Except ε Text) (path : Text) : Except ε Text :=
  match path with
  | ['~'] => home
  | '~' :: '/' :: rest => home.map (pushAll · (parts rest))
  | path => .ok path

end LineShell.Path
