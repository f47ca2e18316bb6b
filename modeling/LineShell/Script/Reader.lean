import LineShell.Script.Syntax

/-! Reading characters and words of a script. A reader has the text that is left of the script, in
front of it the texts of aliases that have been put in its place, and what the words and
redirections before have left to be done. Where a script is read piece by piece the reader may find
that it needs more of it; then the command is read again from its beginning. -/

namespace LineShell.Script

/-- Why reading stops. -/
inductive Stop
  | needsMore
  | syntaxError (line : Nat) (text : Text)
  deriving Repr, DecidableEq

/-- What stands between words, or that a word or redirection was read. -/
inductive Token
  | finish
  | newline
  | semicolon
  | background
  | both
  | either
  | pipe
  | opening
  | closing
  | clauseEnd
  | redirection
  | word
  | keyword (name : String)
  deriving Repr, DecidableEq

namespace Token

def shown : Token → Text
  | finish => "end of file".toList
  | newline => "newline".toList
  | semicolon => "\";\"".toList
  | background => "\"&\"".toList
  | both => "\"&&\"".toList
  | either => "\"||\"".toList
  | pipe => "\"|\"".toList
  | opening => "\"(\"".toList
  | closing => "\")\"".toList
  | clauseEnd => "\";;\"".toList
  | redirection => "redirection".toList
  | word => "word".toList
  | keyword name => '"' :: name.toList ++ ['"']

def keywords : List String :=
  ["!", "case", "do", "done", "elif", "else", "esac", "fi", "for", "if", "in", "then", "until",
   "while", "\x7b", "\x7d"]

/-- Whether a list of commands ends where the token stands. -/
def endsList : Token → Bool
  | finish | closing | clauseEnd => true
  | keyword name => name ∈ ["do", "done", "elif", "else", "esac", "fi", "then", "\x7d"]
  | _ => false

end Token

/-- What a word may be besides a word. -/
structure Checks where
  keyword : Bool := false
  aliased : Bool := false
  newline : Bool := false
  /-- The word ends a document, so that nothing in it is expanded. -/
  documentEnd : Bool := false
  deriving Repr, DecidableEq

def Checks.or (a b : Checks) : Checks :=
  ⟨a.keyword || b.keyword, a.aliased || b.aliased, a.newline || b.newline,
    a.documentEnd || b.documentEnd⟩

/-- The text of an alias that is read in its place. -/
structure Inserted where
  text : Text
  name : Text
  /-- It ends with a blank, so that the next word may be an alias as well. -/
  endsBlank : Bool

/-- A document that is still to be read. -/
structure Awaited where
  number : Nat
  ending : Text
  stripsTabs : Bool
  isPlain : Bool

structure Reader where
  text : Text
  /-- Nothing follows the text. -/
  isWhole : Bool
  line : Nat
  inserted : List Inserted := []
  aliases : List (Text × Text) := []
  token : Token := .newline
  /-- The token has been given back. -/
  isHeld : Bool := false
  checks : Checks := {}
  word : Word := []
  /-- Something in the word is quoted. -/
  isQuoted : Bool := false
  redirection : Option Redirection := none
  /-- A document that the next word ends: its number, and whether tabs are stripped from it. -/
  document : Option (Nat × Bool) := none
  awaited : List Awaited := []
  documents : List (Nat × Word) := []
  nextDocument : Nat := 0

abbrev Read := StateT Reader (Except Stop)

namespace Read

def fail {α : Type} (text : String) : Read α := do
  throw (.syntaxError (← get).line text.toList)

/-- The token is not what may stand here. -/
def unexpected {α : Type} (expected : Option Token) : Read α := do
  let r ← get
  let expectation := match expected with
    | some token => " (expecting ".toList ++ token.shown ++ [')']
    | none => []
  throw (.syntaxError r.line ((r.token.shown ++ " unexpected".toList ++ expectation).take 63))

/-- The next character, or none at the end. -/
def next : Read (Option Char) := do
  let r ← get
  let used := r.inserted.takeWhile fun i => i.text.isEmpty
  let r := { r with
    inserted := r.inserted.drop used.length
    checks := { r.checks with aliased := r.checks.aliased || used.any (·.endsBlank) } }
  match r.inserted, r.text with
  | i :: more, _ =>
    set { r with inserted := { i with text := i.text.tail } :: more }
    return i.text.head?
  | [], c :: rest =>
    set { r with text := rest }
    return some c
  | [], [] =>
    if !r.isWhole then throw .needsMore
    set r
    return none

/-- Gives a character back. -/
def back (c : Option Char) : Read Unit :=
  match c with
  | none => pure ()
  | some c => modify fun r =>
    match r.inserted with
    | i :: more => { r with inserted := { i with text := c :: i.text } :: more }
    | [] => { r with text := c :: r.text }

def countLine : Read Unit := modify fun r => { r with line := r.line + 1 }

/-- The next character that is not a line break behind a backslash. -/
def nextJoined : (bound : Nat) → Read (Option Char)
  | 0 => next
  | bound + 1 => do
    match ← next with
    | some '\\' =>
      match ← next with
      | some '\n' =>
        countLine
        nextJoined bound
      | c =>
        back c
        return some '\\'
    | c => return c

end Read

/-- How long anything in a script may be. -/
def readBound : Nat := 1000000000

def Read.joined : Read (Option Char) := Read.nextJoined readBound

/-! ### Words -/

/-- How characters are read: as they come, between double quotes, between single quotes, or in an
arithmetic expression. -/
inductive Style
  | bare
  | double
  | single
  | arithmetic
  deriving Repr, DecidableEq

/-- What a character is in a style. -/
inductive Role
  | finish
  | newline
  | plain
  | quoted
  | backslash
  | singleQuote
  | doubleQuote
  | endQuote
  | dollar
  | closingBrace
  | backquote
  | openParen
  | closeParen
  | special
  deriving Repr, DecidableEq

def Style.role (style : Style) : Option Char → Role
  | none => .finish
  | some '\n' => .newline
  | some c =>
    match style with
    | .bare =>
      match c with
      | '\\' => .backslash
      | '\'' => .singleQuote
      | '"' => .doubleQuote
      | '\x60' => .backquote
      | '$' => .dollar
      | '\x7d' => .closingBrace
      | c => if c ∈ ['<', '>', '(', ')', ';', '&', '|', ' ', '\t'] then .special else .plain
    | .double =>
      match c with
      | '\\' => .backslash
      | '"' => .endQuote
      | '\x60' => .backquote
      | '$' => .dollar
      | '\x7d' => .closingBrace
      | _ => .quoted
    | .single => if c = '\'' then .endQuote else .quoted
    | .arithmetic =>
      match c with
      | '\\' => .backslash
      | '\x60' => .backquote
      | '$' => .dollar
      | '\x7d' => .closingBrace
      | '(' => .openParen
      | ')' => .closeParen
      | _ => .plain

/-- A level of quoting. -/
structure Layer where
  style : Style
  /-- Between double quotes inside of braces. -/
  innerDouble : Bool := false
  /-- The level was opened by a brace, and is closed with it. -/
  isBraced : Bool := false
  isDouble : Bool := false
  braces : Nat := 0
  parens : Nat := 0
  /-- How many of the braces stand between double quotes. -/
  doubleBraces : Nat := 0

/-- A word while it is read: the levels of quoting, the innermost first, the parts so far, the latest
first, and for everything that is open the parts before it and what is made of the parts inside. -/
structure Writing where
  layer : Layer
  outer : List Layer := []
  out : List Part := []
  enclosing : List (List Part × (List Part → Part)) := []
  isQuoted : Bool := false

namespace Writing

def emit (w : Writing) (part : Part) : Writing := { w with out := part :: w.out }

def emitChar (w : Writing) (c : Char) (quoted : Bool) : Writing := w.emit (.char c quoted)

/-- Parts that belong to something that is opened. -/
def enter (w : Writing) (make : List Part → Part) : Writing :=
  { w with out := [], enclosing := (w.out, make) :: w.enclosing }

/-- What has been opened last is closed. -/
def leave (w : Writing) : Writing :=
  match w.enclosing with
  | (before, make) :: rest => { w with out := make w.out.reverse :: before, enclosing := rest }
  | [] => w

def push (w : Writing) (layer : Layer) : Writing :=
  { w with layer, outer := w.layer :: w.outer }

def pop (w : Writing) : Writing :=
  match w.outer with
  | layer :: outer => { w with layer, outer }
  | [] => w

end Writing

/-- The end of a document, if the word is one. -/
structure DocumentEnd where
  text : Text
  stripsTabs : Bool

/-- Takes the line that ends a document, if it comes next. -/
def takeDocumentEnd (ending : DocumentEnd) : Read Bool := do
  let r ← get
  -- A document is never read from an alias, but from the script itself.
  let line := if ending.stripsTabs then r.text.dropWhile (· = '\t') else r.text
  if ending.text.isPrefixOf line then
    match line.drop ending.text.length with
    | '\n' :: rest =>
      set { r with text := rest, line := r.line + 1 }
      return true
    | [] =>
      if !r.isWhole then throw .needsMore
      set { r with text := [] }
      return true
    | _ => pure ()
  else if line.isPrefixOf ending.text && !r.isWhole then throw .needsMore
  if ending.stripsTabs then set { r with text := line }
  return false

/-- The letters of a parameter's name, and the character behind them. -/
def readName (keep : Char → Bool) : (bound : Nat) → Option Char → Text → Read (Text × Option Char)
  | 0, c, name => return (name, c)
  | bound + 1, c, name =>
    match c with
    | some d =>
      if keep d then do readName keep bound (← Read.joined) (name ++ [d])
      else return (name, c)
    | none => return (name, c)

/-- What was written behind a dollar sign, as far as it is no command. -/
inductive Reference
  | nothing
  /-- A parameter with nothing more to be read. -/
  | simple (name : Text) (operation : Operation)
  /-- A parameter with an operation whose word follows up to a brace; the word of the operations that
  cut something off is read as if it stood alone. -/
  | braced (name : Text) (operation : Operation) (nullToo : Bool) (isPattern : Bool)

/-- The operation behind a name in braces; the character that shows it has been read. -/
def readOperation (name : Text) (c : Option Char) : Read Reference := do
  let plain (nullToo : Bool) (c : Option Char) : Reference :=
    match c with
    | some '-' => .braced name .orElse nullToo false
    | some '+' => .braced name .andThen nullToo false
    | some '?' => .braced name .orFail nullToo false
    | some '=' => .braced name .orAssign nullToo false
    | some '\x7d' => if nullToo then .braced name .bad true false else .simple name .value
    | _ => .braced name .bad nullToo false
  match c with
  | some ':' => return plain true (← Read.joined)
  | some '%' | some '#' =>
    let second ← Read.joined
    let longest := second = c
    if !longest then Read.back second
    return .braced name (if c = some '#' then .withoutStart longest else .withoutEnd longest) false true
  | c => return plain false c

/-- Whether a character can stand in a parameter's name at its start. -/
def startsParameter (c : Char) : Bool := isNameStart c || isSpecial c

/-- The name behind the start of a parameter, and the character behind it. -/
def readParameterName (isLong : Bool) (c : Char) : Read (Text × Option Char) := do
  if isNameStart c then readName isNameChar readBound (some c) []
  else if c.isDigit && isLong then readName Char.isDigit readBound (some c) []
  else return ([c], ← Read.joined)

/-- A parameter between braces; the opening one has been read. -/
def readBraced : Read Reference := do
  let bad (c : Option Char) : Read Reference := do
    Read.back c
    return .braced [] .bad false false
  match ← Read.joined with
  | none => bad none
  | some '\x7d' => bad (some '\x7d')
  | some '#' =>
    match ← Read.joined with
    | some c =>
      if c = '_' || c.isAlphanum then
        let (name, c) ← readParameterName true c
        if c = some '\x7d' then return .simple name .length
        else
          Read.back c
          return .braced name .bad false false
      else
        let behind ← Read.joined
        if c = '\x7d' || behind ≠ some '\x7d' then
          -- The number of arguments, with or without an operation.
          Read.back behind
          readOperation ['#'] (some c)
        else if isSpecial c then return .simple [c] .length
        else bad behind
    | none => readOperation ['#'] none
  | some c =>
    if isNameStart c || c.isDigit then
      let (name, c) ← readParameterName true c
      readOperation name c
    else
      let behind ← Read.joined
      if isSpecial c then readOperation [c] behind
      else bad behind

/-- What stands behind a dollar sign that is followed by `c`, which begins no command. -/
def readReference (c : Char) : Read Reference := do
  if c = '\x7b' then readBraced
  else
    let (name, behind) ← readParameterName false c
    Read.back behind
    return .simple name .value

namespace Writing

/-- A parameter is met. -/
def refer (w : Writing) : Reference → Writing
  | .nothing => w.emitChar '$' false
  | .simple name operation => w.emit (.parameter name operation false [])
  | .braced name operation nullToo isPattern =>
    let style := if isPattern then .bare
      else if w.layer.style = .arithmetic then .double else w.layer.style
    let w := w.enter (.parameter name operation nullToo)
    let w := if style ≠ w.layer.style || w.layer.innerDouble then
        w.push { style, isBraced := true, isDouble := style ≠ .bare }
      else w
    { w with layer := { w.layer with
        braces := w.layer.braces + 1
        doubleBraces := if w.layer.isDouble then w.layer.doubleBraces + 1 else w.layer.doubleBraces } }

/-- A closing brace is met. -/
def closeBrace (w : Writing) : Writing :=
  let layer := w.layer
  if !layer.innerDouble && 0 < layer.braces then
    let w := if layer.braces = 1 && layer.isBraced then w.pop
      else { w with layer := { layer with
        braces := layer.braces - 1
        doubleBraces := layer.doubleBraces - 1 } }
    w.leave
  else w.emitChar '\x7d' (layer.style = .double)

/-- A quote mark is written, unless the word is a document. -/
def mark (w : Writing) (isDocument : Bool) : Writing := if isDocument then w else w.emit .mark

/-- A double quote opens or closes. -/
def toggleDouble (w : Writing) (isDocument : Bool) : Writing :=
  let w := if 0 < w.layer.braces then
      { w with layer := { w.layer with innerDouble := !w.layer.innerDouble } }
    else w
  w.mark isDocument

/-- A quote that may close is met. -/
def endQuote (w : Writing) (c : Char) (isDocument : Bool) : Writing :=
  if isDocument && w.layer.braces = 0 then w.emitChar c true
  else
    let w := if w.layer.doubleBraces = 0 then
        { w with layer := { w.layer with style := .bare, isDouble := false } }
      else w
    let w := { w with isQuoted := true }
    if c = '"' then w.toggleDouble isDocument else w.mark isDocument

/-- A backslash is met, and the character behind it. -/
def escape (w : Writing) (c : Option Char) (isDocument : Bool) : Writing :=
  match c with
  | none => w.emitChar '\\' true
  | some c =>
    let keeps : Bool := w.layer.isDouble && c ≠ '\\' && c ≠ '\x60' && c ≠ '$' &&
      (c ≠ '"' || (isDocument && w.layer.braces = 0)) && (c ≠ '\x7d' || w.layer.braces = 0)
    let w := if keeps then w.emitChar '\\' true else w
    { w.emitChar c true with isQuoted := true }

end Writing

/-- The text up to a closing backquote, with its backslashes read once. -/
def readBackquoted (isDouble : Bool) : (bound : Nat) → Text → Read Text
  | 0, out => return out.reverse
  | bound + 1, out => do
    match ← Read.joined with
    | none => Read.fail "EOF in backquote substitution"
    | some '\x60' => return out.reverse
    | some '\\' =>
      match ← Read.next with
      | none => readBackquoted isDouble bound ('\\' :: out)
      | some c =>
        let keeps : Bool := c ≠ '\\' && c ≠ '\x60' && c ≠ '$' && !(isDouble && c = '"')
        readBackquoted isDouble bound (if keeps then c :: '\\' :: out else c :: out)
    | some c =>
      if c = '\n' then Read.countLine
      readBackquoted isDouble bound (c :: out)

/-- The operator of a redirection, whose first character has been read, behind a descriptor if one
was written. -/
def readRedirection (c : Char) (fd : Option Nat) : Read Unit := do
  let file (usual : Nat) (opening : Opening) : Read Unit :=
    modify fun r => { r with redirection := some (.file (fd.getD usual) opening []), document := none }
  let duplicate (usual : Nat) : Read Unit :=
    modify fun r => { r with redirection := some (.duplicate (fd.getD usual) false []), document := none }
  if c = '>' then
    match ← Read.joined with
    | some '>' => file 1 .append
    | some '|' => file 1 .overwrite
    | some '&' => duplicate 1
    | c =>
      Read.back c
      file 1 .output
  else
    match ← Read.joined with
    | some '<' =>
      let second ← Read.joined
      let stripsTabs := second = some '-'
      if !stripsTabs then Read.back second
      modify fun r => { r with
        redirection := some (.document (fd.getD 0) r.nextDocument true)
        document := some (r.nextDocument, stripsTabs)
        nextDocument := r.nextDocument + 1 }
    | some '&' => duplicate 0
    | some '>' => file 0 .both
    | c =>
      Read.back c
      file 0 .input

end LineShell.Script
