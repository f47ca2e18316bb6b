import LineShell.Token

/-! What a line asks for: one command, or two joined by a pipe, each with files in place of its
standard input or output, and perhaps in the background. A final bare `&` is taken first, then
the first bare `|` splits, and then each side is read as items: a bare `<` or `>` takes the next
word as its file, whatever that word is, and every other word is an argument. -/

namespace LineShell

/-- Files in place of standard input and output. -/
structure Redirections where
  input : Option Text := none
  output : Option Text := none
  deriving Repr, DecidableEq

def Redirections.isEmpty (r : Redirections) : Bool := r.input.isNone && r.output.isNone

/-- One command: its words, the first of which names the program, and its files. -/
structure Stage where
  args : List Text
  redirections : Redirections := {}
  deriving Repr, DecidableEq

def Stage.program (stage : Stage) : Text := stage.args.headD []

/-- A line that asks for something. Only the first bare `|` splits it, so there are at most two
stages. -/
structure Pipeline where
  left : Stage
  right : Option Stage := none
  background : Bool := false
  deriving Repr, DecidableEq

def Pipeline.isPipeline (p : Pipeline) : Bool := p.right.isSome

/-- A part of one side of a line. -/
inductive Item
  | word (text : Text)
  | input (path : Text)
  | output (path : Text)
  deriving Repr, DecidableEq

namespace Item

def ofTokens : List Token → Except LineError (List Item)
  | [] => .ok []
  | token :: rest =>
    if token.isOperator ['<'] then
      match rest with
      | [] => .error (.missingRedirectTarget ['<'])
      | target :: rest => (ofTokens rest).map (.input target.text :: ·)
    else if token.isOperator ['>'] then
      match rest with
      | [] => .error (.missingRedirectTarget ['>'])
      | target :: rest => (ofTokens rest).map (.output target.text :: ·)
    else (ofTokens rest).map (.word token.text :: ·)

def word? : Item → Option Text
  | word text => some text
  | _ => none

def input? : Item → Option Text
  | input path => some path
  | _ => none

def output? : Item → Option Text
  | output path => some path
  | _ => none

end Item

/-- The words of a side in order; of several files for one stream the last counts. -/
def Stage.ofItems (items : List Item) : Stage where
  args := items.filterMap Item.word?
  redirections := ⟨(items.filterMap Item.input?).getLast?, (items.filterMap Item.output?).getLast?⟩

def Stage.ofTokens (tokens : List Token) : Except LineError Stage :=
  (Item.ofTokens tokens).map Stage.ofItems

namespace Pipeline

/-- The tokens without a final bare `&`, and whether there was one. -/
def splitBackground (tokens : List Token) : List Token × Bool :=
  match tokens.getLast? with
  | some token => if token.isOperator ['&'] then (tokens.dropLast, true) else (tokens, false)
  | none => (tokens, false)

/-- The tokens before the first bare `|`, and those after it if there is one. -/
def splitPipe (tokens : List Token) : List Token × Option (List Token) :=
  match tokens.dropWhile fun token => !token.isOperator ['|'] with
  | [] => (tokens, none)
  | _ :: right => (tokens.takeWhile fun token => !token.isOperator ['|'], some right)

/-- `none` for no tokens at all. -/
def ofTokens (tokens : List Token) : Except LineError (Option Pipeline) := do
  if tokens.isEmpty then return none
  let (tokens, background) := splitBackground tokens
  let (left, right) := splitPipe tokens
  let left ← Stage.ofTokens left
  match right with
  | none =>
    if left.args.isEmpty then throw .missingCommand
    return some ⟨left, none, background⟩
  | some right =>
    let right ← Stage.ofTokens right
    if left.args.isEmpty || right.args.isEmpty then throw .emptyPipelineSide
    return some ⟨left, some right, background⟩

end Pipeline
end LineShell
