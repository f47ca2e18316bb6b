import LineShell.Builtin.Basic
import LineShell.LineError
import LineShell.ProcessError
import LineShell.RcFile

/-! Everything that can go wrong in a shell, from its command line to its last line of input. -/

namespace LineShell

inductive ShellError
  | readLine (cause : ReadError)
  | io (cause : IoError)
  | parse (cause : LineError)
  | builtin (name : Text) (cause : CommandError)
  | process (cause : ProcessError)
  | config (cause : ConfigError)
  | flag (message : Text)
  | interruptHandler (reason : Text)
  deriving Repr, DecidableEq

def ShellError.message : ShellError → Text
  | readLine cause => "input error: ".toList ++ cause.message
  | io cause => cause.describe
  | parse cause => cause.message
  | builtin name cause => name ++ ": ".toList ++ cause.message
  | process cause => cause.message
  | config cause => "config error: ".toList ++ cause.message
  | flag message => message
  | interruptHandler reason => "Ctrl-C handler error: ".toList ++ reason

end LineShell
