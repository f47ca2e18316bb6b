import LineShell.Text

/-! The commands that run inside the shell. -/

namespace LineShell

inductive Builtin
  | cd
  | exit
  | pwd
  | echo
  | setExport
  | unset
  | env
  | history
  | type
  | help
  deriving Repr, DecidableEq

namespace Builtin

/-- All builtins, in the order in which they are listed. -/
def all : List Builtin :=
  [cd, exit, pwd, echo, setExport, unset, env, history, type, help]

theorem mem_all (b : Builtin) : b ∈ all := by cases b <;> simp [all]

def name : Builtin → Text
  | cd => "cd".toList
  | exit => "exit".toList
  | pwd => "pwd".toList
  | echo => "echo".toList
  | setExport => "export".toList
  | unset => "unset".toList
  | env => "env".toList
  | history => "history".toList
  | type => "type".toList
  | help => "help".toList

def usage : Builtin → Text
  | cd => "cd [dir | -]".toList
  | exit => "exit [n]".toList
  | pwd => "pwd [-P]".toList
  | echo => "echo [-n] [arg ...]".toList
  | setExport => "export [name[=value] ...]".toList
  | unset => "unset name ...".toList
  | env => "env".toList
  | history => "history [n]".toList
  | type => "type name ...".toList
  | help => "help [builtin]".toList

def summary : Builtin → Text
  | cd => "Change the working directory; `-` returns to the previous one.".toList
  | exit => "Leave the shell with status n (default 0).".toList
  | pwd => "Print the working directory; -P resolves symbolic links.".toList
  | echo => "Print arguments separated by spaces; -n omits the newline.".toList
  | setExport => "Set environment variables, or export shell variables.".toList
  | unset => "Remove variables from the shell and the environment.".toList
  | env => "List environment variables sorted by name.".toList
  | history => "List the lines entered this session, optionally the last n.".toList
  | type => "Tell whether a name is a builtin or where it is on PATH.".toList
  | help => "List builtins, or show usage for one.".toList

/-- The builtin of a name, in which the case of ASCII letters does not matter. -/
def lookup? (name : Text) : Option Builtin :=
  all.find? fun b => b.name = name.map Char.toLower

theorem lookup?_name (b : Builtin) : lookup? b.name = some b := by cases b <;> rfl

end Builtin
end LineShell
