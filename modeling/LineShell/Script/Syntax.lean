import LineShell.Text.Utf8

/-! The command language of scripts as trees. A word is a list of parts, and a part is a character,
a mark where a quote opens or closes, or something that is still to be expanded; a command is made
of words, redirections and other commands. -/

namespace LineShell.Script

/-- What is done with the value of a parameter. -/
inductive Operation
  | value
  | length
  | orElse
  | orAssign
  | orFail
  | andThen
  | withoutEnd (longest : Bool)
  | withoutStart (longest : Bool)
  /-- What was written is no operation. -/
  | bad
  deriving Repr, DecidableEq

/-- How a redirection opens its file. -/
inductive Opening
  | input
  | output
  /-- Like `output`, also where that is forbidden for files that exist. -/
  | overwrite
  | append
  | both
  deriving Repr, DecidableEq

mutual

inductive Part
  | char (c : Char) (quoted : Bool)
  /-- A quote opens or closes. -/
  | mark
  /-- A parameter; with `nullToo` an empty value counts as none. -/
  | parameter (name : Text) (operation : Operation) (nullToo : Bool) (word : List Part)
  | command (body : Option Command)
  | arithmetic (expression : List Part)

inductive Redirection
  | file (fd : Nat) (opening : Opening) (target : List Part)
  /-- A descriptor is to lead where another one leads; `fixed` says that the other one is written
  out, and a dash closes. -/
  | duplicate (fd : Nat) (fixed : Bool) (target : List Part)
  /-- The text that follows in the script, by its number. -/
  | document (fd : Nat) (number : Nat) (expands : Bool)

/-- The pattern words of a branch, and its commands. -/
inductive Clause
  | clause (patterns : List (List Part)) (body : Option Command)

inductive Command
  | simple (line : Nat) (assignments words : List (List Part)) (redirections : List Redirection)
  | pipe (parts : List Command) (background : Bool)
  | redirected (line : Nat) (body : Command) (redirections : List Redirection)
  | background (line : Nat) (body : Command) (redirections : List Redirection)
  | subshell (line : Nat) (body : Command) (redirections : List Redirection)
  | both (left right : Command)
  | either (left right : Command)
  | sequence (first second : Command)
  | branch (condition whenTrue : Command) (whenFalse : Option Command)
  | repetition (isUntil : Bool) (condition body : Command)
  | forEach (line : Nat) (name : Text) (words : List (List Part)) (body : Command)
  | choice (line : Nat) (word : List Part) (clauses : List Clause)
  | definition (line : Nat) (name : Text) (body : Command)
  | negation (command : Command)

end

abbrev Word := List Part

instance : Inhabited Command := ⟨.simple 0 [] [] []⟩

/-! ### Names -/

def isNameStart (c : Char) : Bool := c.isAlpha || c = '_'
def isNameChar (c : Char) : Bool := isNameStart c || c.isDigit

/-- Parameters that are named by one character that is no letter. -/
def isSpecial (c : Char) : Bool :=
  c ∈ ['#', '?', '$', '!', '-', '*', '@'] || c.isDigit

/-- The name in front of a text. -/
def nameOf (text : Text) : Text :=
  match text with
  | c :: rest => if isNameStart c then c :: rest.takeWhile isNameChar else []
  | [] => []

def isName (text : Text) : Bool := !text.isEmpty && nameOf text = text

namespace Word

/-- The text of a word in which nothing is quoted and nothing has to be expanded. -/
def plain? (word : Word) : Option Text :=
  word.mapM fun part => match part with
    | .char c false => some c
    | _ => none

/-- A word as it is written, less its quotes; parts that are to be expanded are left out. -/
def bare (word : Word) : Text :=
  word.filterMap fun part => match part with
    | .char c _ => some c
    | _ => none

/-- The unquoted characters at the start of a word. -/
def front (word : Word) : Text :=
  (word.takeWhile fun part => match part with
    | .char _ false => true
    | _ => false).filterMap fun part => match part with
      | .char c _ => some c
      | _ => none

/-- Whether a word is a name, an equals sign and anything else. -/
def isAssignment (word : Word) : Bool :=
  let text := front word
  let name := nameOf text
  !name.isEmpty && (text.drop name.length).head? = some '='

/-- The word for a plain text. -/
def ofText (text : Text) : Word := text.map (.char · false)

end Word
end LineShell.Script
