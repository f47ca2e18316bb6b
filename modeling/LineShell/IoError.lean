import LineShell.Errno

/-! Failures of reading, writing and naming files. Most carry the number the system gave; a few
are found before the system is asked, or after it has answered. -/

namespace LineShell

inductive IoError
  | os (errno : Errno)
  | custom (text : Text)
  deriving Repr, DecidableEq

namespace IoError

/-- A path with a NUL in it cannot be handed to the system. -/
def nulInPath : IoError := .custom "file name contained an unexpected NUL byte".toList

/-- A text file that holds bytes which are not UTF-8. -/
def notText : IoError := .custom "stream did not contain valid UTF-8".toList

/-- What a number from the system is followed by. -/
def numberMark : Text := " (os error".toList

/-- The text in full: one from the system ends with its number. -/
def text : IoError → Text
  | os errno => errno.text ++ numberMark ++ ' ' :: decimalInt errno.code ++ [')']
  | custom text => text

/-- The text as the shell shows it, without the number. -/
def describe (e : IoError) : Text := before numberMark e.text

/-- Only the system's answer that a name leads nowhere counts as a file not being there. -/
def isNotFound (e : IoError) : Bool := e = .os .noEntry

end IoError

/-- Why no line can be read. -/
inductive ReadError
  | endOfInput
  | interrupted
  | io (cause : IoError)
  deriving Repr, DecidableEq

def ReadError.message : ReadError → Text
  | endOfInput => "EOF".toList
  | interrupted => "Interrupted".toList
  | io cause => cause.text

/-- The path itself, if it can be handed to the system. -/
def systemPath (path : Text) : Except IoError Text :=
  if '\x00' ∈ path then .error .nulInPath else .ok path

end LineShell
