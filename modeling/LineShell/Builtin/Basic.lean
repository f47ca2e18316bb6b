import LineShell.Builtin
import LineShell.StandardStreams
import LineShell.WorkingDirectory

/-! What builtins share: why one fails, what the shell does after one, and where one writes. -/

namespace LineShell

inductive CommandError
  | invalidArguments (message : Text)
  | execution (message : Text)
  | io (cause : IoError)
  | env (cause : EnvError)
  deriving Repr, DecidableEq

def CommandError.message : CommandError → Text
  | invalidArguments message => message
  | execution message => message
  | io cause => cause.describe
  | env cause => cause.message

/-- What the shell does after a command: it goes on, or it ends with a status. -/
inductive Verdict
  | proceed
  | leave (status : Int)
  deriving Repr, DecidableEq

/-- Where a builtin prints: to a stream, or to the standard output of the shell. -/
inductive Sink
  | stream (number : Nat)
  | standard
  deriving Repr, DecidableEq

instance : Coe Nat Sink := ⟨.stream⟩

/-- Where a builtin writes. Its standard error is that of the shell. -/
structure Output where
  stdout : Sink
  stderr : Nat
  deriving Repr, DecidableEq

namespace Output

def write (output : Output) (text : Text) : Act IoError Unit :=
  match output.stdout with
  | .stream number => writeText number text
  | .standard => StandardOutput.print (encode text)

/-- Prints the pieces of a text, one after the other. -/
def print (output : Output) (pieces : List Text) : Act CommandError Unit :=
  pieces.forM fun piece => (output.write piece).mapError .io

def line (output : Output) (text : Text) : Act CommandError Unit := output.print [text, ['\n']]

/-- Prints rows, each in pieces of its own. -/
def lines (output : Output) (rows : List (List Text)) : Act CommandError Unit :=
  rows.forM output.print

def complain (output : Output) (text : Text) : Act CommandError Unit :=
  (writeStandard output.stderr (encode (text ++ ['\n']))).mapError .io

/-- Writes what has been printed and is kept. Streams keep nothing. -/
def flush (output : Output) : Act IoError Unit :=
  match output.stdout with
  | .stream _ => pure ()
  | .standard => StandardOutput.flush

end Output

/-- A text on the left of a column, and what fills the column. -/
def leftAligned (width : Nat) (text : Text) : List Text :=
  text :: List.replicate (width - text.length) [' ']

/-- A text on the right of a column, and before it what fills the column. -/
def rightAligned (width : Nat) (text : Text) : List Text :=
  List.replicate (width - text.length) [' '] ++ [text]

namespace Builtin

def tooManyArguments : CommandError := .invalidArguments "too many arguments".toList

/-- The usual complaint where a number is asked for. -/
def notNumeric (text : Text) : Text := text ++ ": numeric argument required".toList

end Builtin
end LineShell
