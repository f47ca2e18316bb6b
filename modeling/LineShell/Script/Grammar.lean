import LineShell.Script.Reader

/-! Reading commands. A script is read one complete command at a time, up to the end of a line, so
that what a command does can matter for how the next one is read. A word may hold commands, so
words and commands are read by each other. -/

namespace LineShell.Script

/-- Commands that no function can be named after. -/
def specialNames : List String :=
  [".", ":", "break", "continue", "eval", "exec", "exit", "export", "readonly", "return", "set",
   "shift", "times", "trap", "unset"]

namespace Read

/-- A new aspect to the next token. -/
def check (checks : Checks) : Read Unit := modify fun r => { r with checks }

def commandChecks : Checks := { keyword := true, aliased := true }
def breakChecks : Checks := { keyword := true, aliased := true, newline := true }

/-- Gives the token back. -/
def hold : Read Unit := modify fun r => { r with isHeld := true }

/-- The word that has just been read, as a token of its own kind. -/
def keep (token : Token) : Read Token := do
  modify fun r => { r with token }
  return token

/-- Puts the text of an alias in the place of the word. -/
def insertAlias (name value : Text) : Read Unit := do
  if !value.isEmpty then
    let endsBlank := value.getLast? = some ' ' || value.getLast? = some '\t'
    modify fun r => { r with inserted := ⟨value, name, endsBlank⟩ :: r.inserted }

/-- The alias a word stands for, if it is one and is not being read already. -/
def aliasFor? (r : Reader) : Option (Text × Text) := do
  let text ← r.word.plain?
  let value ← r.aliases.lookup text
  if r.inserted.any (·.name = text) then none else some (text, value)

/-- Everything up to the end of a line. -/
def skipComment : (bound : Nat) → Read Unit
  | 0 => pure ()
  | bound + 1 => do
    match ← next with
    | some '\n' => back (some '\n')
    | none => pure ()
    | some _ => skipComment bound

/-- A redirection with the word behind it. -/
def completeRedirection (word : Word) (isQuoted : Bool) : Read Redirection := do
  let r ← get
  match r.redirection, r.document with
  | some (.document fd number _), some (_, stripsTabs) =>
    let awaited : Awaited := ⟨number, word.bare, stripsTabs, isQuoted⟩
    set { r with awaited := r.awaited ++ [awaited], document := none }
    return .document fd number (!isQuoted)
  | some (.duplicate fd _ _), _ =>
    let isFixed : Bool := match word with
      | [.char c _] => c.isDigit || c = '-'
      | _ => false
    return .duplicate fd isFixed word
  | some (.file fd opening _), _ => return .file fd opening word
  | other, _ => return other.getD (.file 0 .input word)

end Read

/-- The words that stand for all arguments. -/
def allArguments : Word := [.mark, .parameter ['@'] .value false [], .mark]

mutual

/-- The rest of a word, from the character `c` on. -/
def readWord (document : Option DocumentEnd) : (bound : Nat) → Option Char → Writing →
    Read (Writing × Option Char)
  | 0, c, w => return (w, c)
  | bound + 1, c, w => do
    let isDocument := document.isSome
    let isNameless := (← get).checks.documentEnd
    let goOn (w : Writing) : Read (Writing × Option Char) := do
      let c ← if w.layer.style = .single then Read.next else Read.joined
      readWord document bound c w
    match w.layer.style.role c with
    | .finish => return (w, none)
    | .newline =>
      if w.layer.style = .bare && w.layer.braces = 0 then return (w, c)
      Read.countLine
      let w := w.emitChar '\n' (w.layer.style = .double || w.layer.style = .single)
      match document with
      | some ending =>
        -- Only the text of the document itself can hold the line that ends it.
        if ← takeDocumentEnd ending then return (w, none)
        goOn w
      | none => goOn w
    | .plain => goOn (w.emitChar (c.getD ' ') false)
    | .quoted => goOn (w.emitChar (c.getD ' ') true)
    | .backslash =>
      let c ← Read.next
      goOn (w.escape c isDocument)
    | .singleQuote => goOn ({ w with layer := { w.layer with style := .single } }.mark isDocument)
    | .doubleQuote =>
      goOn ({ w with layer := { w.layer with style := .double, isDouble := true } }.toggleDouble
        isDocument)
    | .endQuote => goOn (w.endQuote (c.getD '"') isDocument)
    | .closingBrace => goOn w.closeBrace
    | .openParen =>
      goOn ({ w with layer := { w.layer with parens := w.layer.parens + 1 } }.emitChar '(' false)
    | .closeParen =>
      if 0 < w.layer.parens then
        goOn ({ w with layer := { w.layer with parens := w.layer.parens - 1 } }.emitChar ')' false)
      else
        match ← Read.joined with
        | some ')' => goOn w.pop.leave
        | c =>
          Read.back c
          goOn (w.emitChar ')' false)
    | .backquote =>
      if isNameless then goOn (w.emitChar '\x60' false)
      else goOn (w.emit (.command (← readOldCommand bound w.layer.isDouble)))
    | .dollar =>
      match ← Read.joined with
      | some '(' =>
        if isNameless then
          Read.back (some '(')
          goOn (w.emitChar '$' false)
        else
          match ← Read.joined with
          | some '(' =>
            goOn ((w.enter .arithmetic).push { style := .arithmetic, isDouble := true })
          | c =>
            Read.back c
            goOn (w.emit (.command (← readNewCommand bound)))
      | c =>
        match c with
        | some d =>
          if isNameless || !(d = '\x7b' || startsParameter d) then
            Read.back c
            goOn (w.refer .nothing)
          else goOn (w.refer (← readReference d))
        | none => goOn (w.refer .nothing)
    | .special =>
      if w.layer.braces = 0 then return (w, c)
      goOn (w.emitChar (c.getD ' ') false)

/-- The commands between backquotes. -/
def readOldCommand : (bound : Nat) → (isDouble : Bool) → Read (Option Command)
  | 0, _ => return none
  | bound + 1, isDouble => do
    let text ← readBackquoted isDouble readBound []
    let outer ← get
    set { outer with text, isWhole := true, inserted := [], line := 1, isHeld := false
                     awaited := [] }
    let body ← readList bound 2
    readDocuments bound
    modify fun r => { r with
      text := outer.text, isWhole := outer.isWhole, inserted := outer.inserted, line := outer.line
      isHeld := false, awaited := outer.awaited, checks := outer.checks, token := outer.token }
    return body

/-- The commands between parentheses behind a dollar sign. -/
def readNewCommand : (bound : Nat) → Read (Option Command)
  | 0 => return none
  | bound + 1 => do
    let outer ← get
    set { outer with isHeld := false, awaited := [] }
    let body ← readList bound 2
    if (← readToken bound) ≠ .closing then Read.unexpected (some .closing)
    -- Documents whose text has not come yet are empty.
    let behind ← get
    set { behind with text := [], isWhole := true, inserted := [] }
    readDocuments bound
    modify fun r => { r with
      text := behind.text, isWhole := behind.isWhole, inserted := behind.inserted
      line := behind.line, isHeld := false, awaited := outer.awaited, checks := outer.checks
      token := outer.token }
    return body

/-- The texts of the documents that are awaited. -/
def readDocuments : (bound : Nat) → Read Unit
  | 0 => pure ()
  | bound + 1 => do
    match (← get).awaited with
    | [] => pure ()
    | document :: rest =>
      modify fun r => { r with awaited := rest, checks := {} }
      let ending : DocumentEnd := ⟨document.ending, document.stripsTabs⟩
      let layer : Layer := { style := if document.isPlain then .single else .double
                             isDouble := !document.isPlain }
      let word ← if ← takeDocumentEnd ending then pure []
        else
          let c ← if document.isPlain then Read.next else Read.joined
          let (w, _) ← readWord (some ending) bound c { layer }
          if w.layer.style = .arithmetic then Read.fail "Missing '))'"
          if 0 < w.layer.braces then Read.fail "Missing '\x7d'"
          pure w.out.reverse
      modify fun r => { r with documents := (document.number, word) :: r.documents }
      readDocuments bound

/-- The next token as it comes. -/
def readPlainToken : (bound : Nat) → Read Token
  | 0 => return .finish
  | bound + 1 => do
    let r ← get
    if r.isHeld then
      set { r with isHeld := false }
      return r.token
    match ← Read.joined with
    | some ' ' | some '\t' => readPlainToken bound
    | some '#' =>
      Read.skipComment readBound
      readPlainToken bound
    | some '\n' =>
      Read.countLine
      Read.keep .newline
    | none => Read.keep .finish
    | some '&' =>
      match ← Read.joined with
      | some '&' => Read.keep .both
      | c =>
        Read.back c
        Read.keep .background
    | some '|' =>
      match ← Read.joined with
      | some '|' => Read.keep .either
      | c =>
        Read.back c
        Read.keep .pipe
    | some ';' =>
      match ← Read.joined with
      | some ';' => Read.keep .clauseEnd
      | c =>
        Read.back c
        Read.keep .semicolon
    | some '(' => Read.keep .opening
    | some ')' => Read.keep .closing
    | c =>
      let (w, c) ← readWord none bound c { layer := { style := .bare } }
      if w.layer.style = .arithmetic then Read.fail "Missing '))'"
      if w.layer.style ≠ .bare then Read.fail "Unterminated quoted string"
      if 0 < w.layer.braces then Read.fail "Missing '\x7d'"
      let word := w.out.reverse
      let fd? : Option (Option Nat) := match word with
        | [] => some none
        | [.char d false] => if d.isDigit then some (some (d.toNat - '0'.toNat)) else none
        | _ => none
      match c, fd? with
      | some '<', some fd => readRedirection '<' fd; Read.keep .redirection
      | some '>', some fd => readRedirection '>' fd; Read.keep .redirection
      | c, _ =>
        Read.back c
        modify fun r => { r with word, isQuoted := w.isQuoted }
        Read.keep .word

/-- The next token; where line breaks do not count they are passed over. -/
def readCheckedToken : (bound : Nat) → (checks : Checks) → Read Token
  | 0, _ => return .finish
  | bound + 1, checks => do
    let token ← readPlainToken bound
    if checks.newline && token = .newline then
      readDocuments bound
      readCheckedToken bound checks
    else
      let r ← get
      let checks := checks.or r.checks
      set { r with checks := {} }
      if token ≠ .word || r.isQuoted then return token
      let text := r.word.plain?
      match (if checks.keyword then Token.keywords.find? fun k => text = some k.toList else none) with
      | some keyword => Read.keep (.keyword keyword)
      | none =>
        match (if checks.aliased then Read.aliasFor? r else none) with
        | some (name, value) =>
          Read.insertAlias name value
          readCheckedToken bound checks
        | none => return token

def readToken : (bound : Nat) → Read Token
  | 0 => return .finish
  | bound + 1 => do
    readCheckedToken bound (← get).checks

/-- A list of commands. A complete command (1) goes to the end of its line; a list inside of another
command goes on over line breaks, and may be empty (2) or not (0). -/
def readList : (bound : Nat) → (kind : Nat) → Read (Option Command)
  | 0, _ => return none
  | bound + 1, kind => readListOn bound kind none

def readListOn : (bound : Nat) → (kind : Nat) → Option Command → Read (Option Command)
  | 0, _, read => return read
  | bound + 1, kind, read => do
    let isTop := kind % 2 = 1
    Read.check (if isTop then Read.commandChecks else Read.breakChecks)
    let token ← readToken bound
    if token = .newline then
      readDocuments bound
      return read
    if token = .finish then
      readDocuments bound
      modify fun r => { r with isHeld := true, token := .finish }
      return read
    Read.hold
    if kind = 2 && token.endsList then return read
    let kind := if kind < 2 then kind + 2 else kind
    let command ← readAndOr bound
    let token ← readToken bound
    let command : Command :=
      if token = .background then
        match command with
        | .pipe parts _ => .pipe parts true
        | .redirected line body redirections => .background line body redirections
        | command => .background 0 command []
      else command
    let read := match read with
      | none => command
      | some first => .sequence first command
    match token with
    | .newline | .finish =>
      Read.hold
      readListOn bound kind (some read)
    | .background | .semicolon => readListOn bound kind (some read)
    | _ =>
      if isTop then Read.unexpected none
      Read.hold
      return some read

/-- Pipes joined by `&&` and `||`. -/
def readAndOr : (bound : Nat) → Read Command
  | 0 => return default
  | bound + 1 => do
    let command ← readPipe bound
    readAndOrOn bound command

def readAndOrOn : (bound : Nat) → Command → Read Command
  | 0, left => return left
  | bound + 1, left => do
    match ← readToken bound with
    | .both =>
      Read.check Read.breakChecks
      let right ← readPipe bound
      readAndOrOn bound (.both left right)
    | .either =>
      Read.check Read.breakChecks
      let right ← readPipe bound
      readAndOrOn bound (.either left right)
    | _ =>
      Read.hold
      return left

def readPipe : (bound : Nat) → Read Command
  | 0 => return default
  | bound + 1 => do
    let isNegated := (← readToken bound) = .keyword "!"
    if isNegated then Read.check Read.commandChecks else Read.hold
    let first ← readCommand bound
    let parts ← readPipeOn bound [first]
    let command : Command := match parts with
      | [one] => one
      | parts => .pipe parts false
    return if isNegated then .negation command else command

def readPipeOn : (bound : Nat) → List Command → Read (List Command)
  | 0, parts => return parts
  | bound + 1, parts => do
    if (← readToken bound) = .pipe then
      Read.check Read.breakChecks
      let part ← readCommand bound
      readPipeOn bound (parts ++ [part])
    else
      Read.hold
      return parts

/-- A keyword that has to come next. -/
def readKeyword : (bound : Nat) → (keyword : String) → Read Unit
  | 0, _ => pure ()
  | bound + 1, keyword => do
    if (← readToken bound) ≠ .keyword keyword then Read.unexpected (some (.keyword keyword))

/-- A list inside of another command. -/
def readInner : (bound : Nat) → Read Command
  | 0 => return default
  | bound + 1 => do
    match ← readList bound 0 with
    | some command => return command
    | none => return default

/-- What follows the condition of a branch. -/
def readBranch : (bound : Nat) → Read Command
  | 0 => return default
  | bound + 1 => do
    let condition ← readInner bound
    readKeyword bound "then"
    let whenTrue ← readInner bound
    match ← readToken bound with
    | .keyword "elif" => return .branch condition whenTrue (some (← readBranch bound))
    | .keyword "else" => return .branch condition whenTrue (some (← readInner bound))
    | _ =>
      Read.hold
      return .branch condition whenTrue none

/-- Words up to something that is none. -/
def readWords : (bound : Nat) → List Word → Read (List Word)
  | 0, words => return words
  | bound + 1, words => do
    if (← readToken bound) = .word then readWords bound (words ++ [(← get).word])
    else return words

/-- The patterns of a clause; the first of them has been read. -/
def readPatterns : (bound : Nat) → List Word → Read (List Word)
  | 0, patterns => return patterns
  | bound + 1, patterns => do
    let patterns := patterns ++ [(← get).word]
    if (← readToken bound) = .pipe then
      let _ ← readToken bound
      readPatterns bound patterns
    else return patterns

/-- The clauses of a choice; the token in front of the first one has been read. -/
def readClauses : (bound : Nat) → Token → List Clause → Read (List Clause)
  | 0, _, clauses => return clauses
  | bound + 1, token, clauses => do
    if token = .keyword "esac" then return clauses
    if token = .opening then
      let _ ← readToken bound
    let patterns ← readPatterns bound []
    if (← get).token ≠ .closing then Read.unexpected (some .closing)
    let body ← readList bound 2
    let clauses := clauses ++ [Clause.clause patterns body]
    Read.check { keyword := true, newline := true }
    let token ← readToken bound
    if token = .keyword "esac" then return clauses
    if token ≠ .clauseEnd then Read.unexpected (some .clauseEnd)
    Read.check { keyword := true, newline := true }
    let token ← readToken bound
    readClauses bound token clauses

/-- Redirections behind a command. -/
def readRedirections : (bound : Nat) → List Redirection → Read (List Redirection)
  | 0, redirections => return redirections
  | bound + 1, redirections => do
    if (← readToken bound) = .redirection then
      let redirection ← readTarget bound
      readRedirections bound (redirections ++ [redirection])
    else
      Read.hold
      return redirections

/-- The word behind the operator of a redirection. -/
def readTarget : (bound : Nat) → Read Redirection
  | 0 => return .file 0 .input []
  | bound + 1 => do
    if (← get).document.isSome then Read.check { documentEnd := true }
    let held := (← get).redirection
    let document := (← get).document
    if (← readToken bound) ≠ .word then Read.unexpected none
    modify fun r => { r with redirection := held, document }
    let r ← get
    Read.completeRedirection r.word r.isQuoted

def readCommand : (bound : Nat) → Read Command
  | 0 => return default
  | bound + 1 => do
    let line := (← get).line
    let withRedirections (command : Command) : Read Command := do
      Read.check Read.commandChecks
      let redirections ← readRedirections bound []
      if redirections.isEmpty then return command
      match command with
      | .subshell line body _ => return .subshell line body redirections
      | command => return .redirected line command redirections
    match ← readToken bound with
    | .keyword "if" =>
      let command ← readBranch bound
      readKeyword bound "fi"
      withRedirections command
    | .keyword "while" =>
      let condition ← readInner bound
      readKeyword bound "do"
      let body ← readInner bound
      readKeyword bound "done"
      withRedirections (.repetition false condition body)
    | .keyword "until" =>
      let condition ← readInner bound
      readKeyword bound "do"
      let body ← readInner bound
      readKeyword bound "done"
      withRedirections (.repetition true condition body)
    | .keyword "for" =>
      let token ← readToken bound
      let r ← get
      let name := (r.word.plain?).getD []
      if token ≠ .word || r.isQuoted || !isName name then Read.fail "Bad for loop variable"
      Read.check Read.breakChecks
      let token ← readToken bound
      let words ← if token = .keyword "in" then do
          let words ← readWords bound []
          let token := (← get).token
          if token ≠ .newline && token ≠ .semicolon then Read.unexpected none
          pure words
        else do
          if token ≠ .semicolon then Read.hold
          pure [allArguments]
      Read.check Read.breakChecks
      readKeyword bound "do"
      let body ← readInner bound
      readKeyword bound "done"
      withRedirections (.forEach line name words body)
    | .keyword "case" =>
      if (← readToken bound) ≠ .word then Read.unexpected (some .word)
      let word := (← get).word
      Read.check Read.breakChecks
      readKeyword bound "in"
      Read.check { keyword := true, newline := true }
      let token ← readToken bound
      let clauses ← readClauses bound token []
      withRedirections (.choice line word clauses)
    | .opening =>
      let body ← readInner bound
      if (← readToken bound) ≠ .closing then Read.unexpected (some .closing)
      withRedirections (.subshell line body [])
    | .keyword "\x7b" =>
      let body ← readInner bound
      readKeyword bound "\x7d"
      withRedirections body
    | .word | .redirection =>
      Read.hold
      let line := (← get).line
      readSimple bound line { aliased := true } [] [] []
    | _ => Read.unexpected none

/-- A simple command, or the definition of a function. -/
def readSimple : (bound : Nat) → (line : Nat) → Checks → (assignments words : List Word) →
    List Redirection → Read Command
  | 0, _, _, _, _, _ => return default
  | bound + 1, line, checks, assignments, words, redirections => do
    Read.check checks
    match ← readToken bound with
    | .word =>
      let word := (← get).word
      if checks.aliased && word.isAssignment then
        readSimple bound line checks (assignments ++ [word]) words redirections
      else readSimple bound line {} assignments (words ++ [word]) redirections
    | .redirection =>
      let redirection ← readTarget bound
      readSimple bound line checks assignments words (redirections ++ [redirection])
    | .opening =>
      match words with
      | [word] =>
        if assignments.isEmpty && redirections.isEmpty then
          if (← readToken bound) ≠ .closing then Read.unexpected (some .closing)
          let name := word.plain?.getD []
          if !isName name || specialNames.any (·.toList = name) then Read.fail "Bad function name"
          Read.check Read.breakChecks
          let line := (← get).line
          return .definition line name (← readCommand bound)
        else
          Read.hold
          return .simple line assignments words redirections
      | words =>
        Read.hold
        return .simple line assignments words redirections
    | _ =>
      Read.hold
      return .simple line assignments words redirections

end

/-- What comes of reading a script a little further. -/
inductive Reading
  /-- A command, or none on an empty line, and the reader behind it. -/
  | command (command : Option Command) (rest : Reader)
  | finish
  | needsMore
  | syntaxError (line : Nat) (text : Text)

/-- Reads the next complete command. -/
def Reader.command (r : Reader) : Reading :=
  let r := { r with isHeld := false, checks := {}, awaited := [] }
  match (readList readBound 1).run r with
  | .error .needsMore => .needsMore
  | .error (.syntaxError line text) => .syntaxError line text
  | .ok (command, rest) =>
    if command.isNone && rest.isHeld && rest.token = .finish then .finish
    else .command command rest

end LineShell.Script
