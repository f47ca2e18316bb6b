import LineShell.Text

/-! Why a line cannot be read. -/

namespace LineShell

inductive QuoteMark
  | single
  | double
  deriving Repr, DecidableEq

inductive LineError
  | unterminatedQuote (mark : QuoteMark)
  | trailingEscape
  | missingRedirectTarget (operator : Text)
  | missingCommand
  | emptyPipelineSide
  deriving Repr, DecidableEq

def LineError.message : LineError → Text
  | .unterminatedQuote .single => "syntax error: unterminated single quote".toList
  | .unterminatedQuote .double => "syntax error: unterminated double quote".toList
  | .trailingEscape => "syntax error: nothing to escape after \\".toList
  | .missingRedirectTarget operator => "syntax error: no file after ".toList ++ operator
  | .missingCommand => "syntax error: missing command".toList
  | .emptyPipelineSide => "syntax error near unexpected token `|'".toList

end LineShell
