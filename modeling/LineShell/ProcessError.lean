import LineShell.IoError
import LineShell.Text.Quoted

/-! Why a command cannot be started or waited for. -/

namespace LineShell

inductive ProcessError
  | fork (cause : IoError)
  | pipe (cause : IoError)
  | wait (cause : IoError)
  | redirect (path : Text) (cause : IoError)
  | emptyCommand
  | invalidArgument (argument : Text)
  | signalSetup (reason : Text)
  deriving Repr, DecidableEq

def ProcessError.message : ProcessError → Text
  | fork cause => "fork failed: ".toList ++ cause.describe
  | pipe cause => "pipe failed: ".toList ++ cause.describe
  | wait cause => "wait failed: ".toList ++ cause.describe
  | redirect path cause => path ++ ": ".toList ++ cause.describe
  | emptyCommand => "empty command".toList
  | invalidArgument argument => "argument contains a NUL byte: ".toList ++ quoted argument
  | signalSetup reason => "signal setup failed: ".toList ++ reason

end LineShell
