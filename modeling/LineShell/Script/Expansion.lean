import LineShell.Script.Arithmetic
import LineShell.Script.Field
import LineShell.Script.Grammar

/-! Expanding words: what a tilde, a parameter, an arithmetic expression or the output of a command
stands for, and the names of files that fit a pattern. How the output of a command is got is a
parameter. A word that becomes fields is expanded so that its arguments stay apart; everywhere else
they are joined. -/

namespace LineShell.Script

/-- How a word is expanded. -/
structure Manner where
  /-- It becomes fields. -/
  isFull : Bool := false
  /-- It stands between double quotes. -/
  isQuoted : Bool := false
  /-- A tilde at its start is a directory. -/
  hasTilde : Bool := false
  /-- It is an assignment: a tilde is one behind the equals sign and behind colons too. -/
  isAssignment : Bool := false
  /-- Its equals sign has come. -/
  isBehindEquals : Bool := false
  /-- It is the word of an operation, in which plain text is cut as well. -/
  isInner : Bool := false

/-- The directories of users. -/
def homeOf (user : Text) : Option Text :=
  let homes : List (String × String) :=
    [("root", "/root"), ("daemon", "/usr/sbin"), ("bin", "/bin"), ("sys", "/dev"),
     ("games", "/usr/games"), ("man", "/var/cache/man"), ("mail", "/var/mail"),
     ("nobody", "/nonexistent"), ("www-data", "/var/www"), ("backup", "/var/backups")]
  (homes.find? fun entry => entry.1.toList = user).map fun entry => entry.2.toList

def glyphs (text : Text) (quoted : Bool) : List Glyph := text.map (.char · quoted)

/-- The characters at the start of a word that are quoted, or all of which are not. In an assignment
characters behind which a tilde may stand are not among them. -/
def plainRun (quoted isAssignment : Bool) (word : Word) : Text :=
  (word.takeWhile fun part => match part with
    | .char c q => q = quoted && (quoted || !isAssignment || (c ≠ ':' && c ≠ '='))
    | _ => false).filterMap fun part => match part with
      | .char c _ => some c
      | _ => none

namespace Context

/-- The characters that separate fields. -/
def separators (c : Context) : Text := (c.value? "IFS".toList).getD standardSeparators

/-- The letters of the options that are set, in the order in which they are told. -/
def modeLetters (c : Context) : Text :=
  ['p', 'u', 'b', 'a', 'C', 'E', 'V', 'v', 'x', 's', 'n', 'm', 'i', 'I', 'f', 'e'].filter c.modes.contains

/-- The arguments, joined or with gaps between them. -/
def allArguments (c : Context) (manner : Manner) (isList : Bool) : List Glyph :=
  let separator : List Glyph :=
    if manner.isFull && (isList || !manner.isQuoted) then
      if manner.isQuoted || (c.value? "IFS".toList).isSome then [.gap] else [.char ' ' false]
    else match c.value? "IFS".toList with
      | none => [.char ' ' manner.isQuoted]
      | some [] => []
      | some (first :: _) => [.char first manner.isQuoted]
  match c.arguments with
  | [] => []
  | first :: rest =>
    glyphs first manner.isQuoted ++
      rest.flatMap fun argument => separator ++ glyphs argument manner.isQuoted

/-- What a parameter stands for. -/
def parameter? (c : Context) (manner : Manner) (name : Text) : Option (List Glyph) :=
  let plain (text : Text) : Option (List Glyph) := some (glyphs text manner.isQuoted)
  match name with
  | ['$'] => plain (decimal c.pid)
  | ['?'] => plain (decimal c.status)
  | ['#'] => plain (decimal c.arguments.length)
  | ['!'] => c.background.bind fun pid => plain (decimal pid)
  | ['-'] => plain c.modeLetters
  | ['@'] => some (c.allArguments manner true)
  | ['*'] => some (c.allArguments manner false)
  | name =>
    match digits? name with
    | some 0 => plain c.name
    | some n => (c.arguments[n - 1]?).bind plain
    | none => (c.value? name).bind plain

end Context

/-- The name of a user behind a tilde, and the parts behind it; none if it is no plain name. -/
def tildeName (endsAtColon : Bool) (word : Word) : Option (Text × Word) :=
  let isName (part : Part) : Bool := match part with
    | .char '/' false => false
    | .char ':' false => !endsAtColon
    | .char _ false => true
    | _ => false
  let name := word.takeWhile isName
  let rest := word.drop name.length
  match rest with
  | .char _ true :: _ | .mark :: _ | .parameter .. :: _ | .command _ :: _ | .arithmetic _ :: _ => none
  | rest => some (Word.bare name, rest)

/-- A tilde at the start of a word, as far as it stands for a directory: that one, and the rest. -/
def expandTilde (c : Context) (endsAtColon : Bool) (word : Word) : Option (Text × Word) :=
  match word with
  | .char '~' false :: rest => do
    let (name, rest) ← tildeName endsAtColon rest
    let home ← if name.isEmpty then c.value? "HOME".toList else homeOf name
    some (home, rest)
  | _ => none

/-- The way to the output of a command. -/
abbrev Substitution := Option Command → Run Text

/-- Text without the line breaks at its end. -/
def dropLineEnds (text : Text) : Text := (text.reverse.dropWhile (· = '\n')).reverse

/-- A parameter that has no value. -/
def failUnset {α : Type} (name : Text) (nullToo : Bool) : Run α :=
  Run.fail (name ++ ": parameter not set".toList ++ (if nullToo then " or null".toList else []))

mutual

/-- The stretches of a word. The ones before the rest are given, the latest first. -/
def expandParts (substitute : Substitution) : (bound : Nat) → Manner → (inQuotes : Bool) →
    List Stretch → Word → Run (List Stretch)
  | 0, _, _, done, _ => return done.reverse
  | bound + 1, manner, inQuotes, done, word => do
    let goOn (inQuotes : Bool) (done : List Stretch) (rest : Word) : Run (List Stretch) :=
      expandParts substitute bound { manner with hasTilde := false } inQuotes done rest
    let inner : Manner := { manner with hasTilde := false, isQuoted := manner.isQuoted || inQuotes }
    let c ← get
    match (if manner.hasTilde then expandTilde c manner.isAssignment word else none) with
    | some (home, rest) => goOn inQuotes (⟨glyphs home true, .whole⟩ :: done) rest
    | none =>
      match word with
      | [] => return done.reverse
      | .mark :: rest =>
        match (if inQuotes then [] else rest) with
        | .parameter ['@'] .value _ _ :: .mark :: rest =>
          let value ← expandParameter substitute bound { inner with isQuoted := true } ['@'] .value
            false []
          goOn false (value.reverse ++ done) rest
        | _ => goOn (!inQuotes) (⟨[.mark], .whole⟩ :: done) rest
      | .char c quoted :: rest =>
        let run := plainRun quoted manner.isAssignment word
        let cutting : Cutting := if manner.isInner && !inner.isQuoted && !quoted then .loose else .whole
        if run.isEmpty then
          -- A place in an assignment behind which a tilde may stand.
          let isPlace := c = ':' || !manner.isBehindEquals
          expandParts substitute bound
            { manner with hasTilde := isPlace, isBehindEquals := manner.isBehindEquals || c = '=' }
            inQuotes (⟨[.char c inner.isQuoted], cutting⟩ :: done) rest
        else
          goOn inQuotes (⟨glyphs run (quoted || inner.isQuoted), cutting⟩ :: done)
            (word.drop run.length)
      | .parameter name operation nullToo word :: rest =>
        let value ← expandParameter substitute bound inner name operation nullToo word
        goOn inQuotes (value.reverse ++ done) rest
      | .command body :: rest =>
        let text := dropLineEnds (← substitute body)
        let cutting : Cutting := if inner.isQuoted then .whole else .loose
        goOn inQuotes (⟨glyphs text inner.isQuoted, cutting⟩ :: done) rest
      | .arithmetic expression :: rest =>
        let text ← expandParts substitute bound {} false [] expression
        let n ← evaluateArithmetic (textOf text)
        let cutting : Cutting := if inner.isQuoted then .whole else .loose
        goOn inQuotes (⟨glyphs (decimalInt n) inner.isQuoted, cutting⟩ :: done) rest

/-- The stretches of a parameter and its operation. -/
def expandParameter (substitute : Substitution) : (bound : Nat) → Manner → Text → Operation →
    (nullToo : Bool) → Word → Run (List Stretch)
  | 0, _, _, _, _, _ => return []
  | bound + 1, manner, name, operation, nullToo, word => do
    let c ← get
    if operation = .bad then Run.fail "Bad substitution".toList
    let value? := c.parameter? manner name
    let cutting : Cutting :=
      if !manner.isQuoted then .loose
      else if name = ['@'] && !c.arguments.isEmpty then .strict else .whole
    let whole (value : List Glyph) : List Stretch := [⟨value, cutting⟩]
    let isThere : Bool := value?.any fun value => !(nullToo && value.isEmpty)
    let inner : Run (List Stretch) := expandParts substitute bound
      { manner with hasTilde := true, isInner := true } false [] word
    let demanded : Run (List Glyph) := match value? with
      | some value => return value
      | none => if c.hasMode 'u' then failUnset name false else return []
    match operation with
    | .bad => return []
    | .value => return whole (← demanded)
    | .length => return whole (glyphs (decimal (Glyph.counted (← demanded)).length) manner.isQuoted)
    | .orElse => if isThere then return whole (value?.getD []) else inner
    | .andThen => if isThere then inner else return []
    | .orAssign =>
      if isThere then return whole (value?.getD [])
      else
        let text ← expandParts substitute bound { hasTilde := true } false [] word
        Run.assign name (some (textOf text))
        return whole (((← get).parameter? manner name).getD [])
    | .orFail =>
      if isThere then return whole (value?.getD [])
      else if word.isEmpty then failUnset name nullToo
      else
        let text ← expandParts substitute bound { hasTilde := true } false [] word
        Run.fail (name ++ ": ".toList ++ textOf text)
    | .withoutEnd longest | .withoutStart longest =>
      let value := Glyph.counted (← demanded)
      if value?.isNone then return whole []
      let pattern ← expandParts substitute bound { hasTilde := true } false [] word
      let pattern := Glyph.pattern (pattern.flatMap Stretch.glyphs)
      let text := match operation with
        | .withoutEnd _ => pattern.cutEnd longest value
        | _ => pattern.cutStart longest value
      return whole (text.map fun c => if c = '\x00' then .gap else .char c manner.isQuoted)

end

/-- How deep and how long a word may be. -/
def wordBound : Nat := 1000000000

def expandWord (substitute : Substitution) (manner : Manner) (word : Word) : Run (List Stretch) :=
  expandParts substitute wordBound manner false [] word

/-- The text of a word that is not cut. -/
def expandText (substitute : Substitution) (manner : Manner) (word : Word) : Run Text :=
  return textOf (← expandWord substitute manner word)

/-! ### Names of files -/

/-- The paths behind `front` that fit a pattern, one part of the pattern after the other. -/
def pathsOf : (bound : Nat) → (front : Text) → Pattern → Run (List Text)
  | 0, _, _ => return []
  | bound + 1, front, pattern => do
    if !pattern.isOpen then
      let path := front ++ pattern.map (·.char)
      match ← Run.ask (Program.statusAt path false) with
      | .ok _ => return [path]
      | .error _ => return []
    -- The parts in front of the first one that is open are taken as they are.
    let closed := openStart pattern
    let front := front ++ (pattern.take closed).map (·.char)
    let part := (pattern.drop closed).takeWhile fun sign => sign.char ≠ '/'
    let behind := pattern.drop (closed + part.length)
    match ← Run.ask (Program.list (if front.isEmpty then ['.'] else front)) with
    | .error _ => return []
    | .ok names =>
      let showsHidden : Bool := part.head?.any (·.char = '.')
      let names := if showsHidden then ['.'] :: ['.', '.'] :: names else names
      let names := names.filter fun name =>
        (showsHidden || name.head? ≠ some '.') && Pattern.doesMatch part name
      match behind with
      | [] => return names.map (front ++ ·)
      | _ :: behind =>
        names.foldlM (fun found name => do
          let more ← pathsOf bound (front ++ name ++ ['/']) behind
          return found ++ more) []
where
  /-- How many signs stand in front of the first part that is open. -/
  openStart (pattern : Pattern) : Nat :=
    match (List.range pattern.length).find? fun n =>
        (pattern[n]?).any (·.char = '/') && !Pattern.isOpen (pattern.take n) &&
          Pattern.isOpen ((pattern.drop (n + 1)).takeWhile fun sign => sign.char ≠ '/') with
    | some n => if Pattern.isOpen (pattern.takeWhile fun sign => sign.char ≠ '/') then 0 else n + 1
    | none => 0

/-- The names that a field stands for: those of the files that fit it, or else itself. -/
def expandNames (field : List Glyph) : Run (List Text) := do
  let text := Glyph.text field
  let pattern := Glyph.pattern field
  if (← get).hasMode 'f' || !pattern.isOpen then return [text]
  let paths ← pathsOf (pattern.length + 1) [] pattern
  return if paths.isEmpty then [text] else paths.mergeSort comesFirst

/-- The fields of a word. -/
def expandFields (substitute : Substitution) (word : Word) : Run (List Text) := do
  let stretches ← expandWord substitute { isFull := true, hasTilde := true } word
  let fields := fieldsOf (← get).separators none stretches
  fields.foldlM (fun names field => return names ++ (← expandNames field)) []

/-- A text expanded as if it stood between double quotes. -/
def expandPrompt (substitute : Substitution) (text : Text) : Run Text := do
  if !text.any fun c => c = '$' || c = '\x60' || c = '\\' then return text
  let c ← get
  let reader : Reader := { text, isWhole := true, line := 1, aliases := c.aliases }
  let read : Read Word := do
    let (w, _) ← readWord (some ⟨['\x00'], false⟩) readBound (← Read.joined)
      { layer := { style := .double, isDouble := true } }
    return w.out.reverse
  match read.run reader with
  | .error _ => return text
  | .ok (word, _) =>
    match ← Run.attempt (expandText substitute { isQuoted := true } word) with
    | .ok text => return text
    | .error _ => return text

end LineShell.Script
