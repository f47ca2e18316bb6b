import LineShell.Utility.Tool

/-! Options in front of and between operands. Letters can be written together behind one dash, and
the argument of the last of them right behind it or as the next word; a long option can be
shortened as long as only one is meant. Two dashes end the options. -/

namespace LineShell.Utility

/-- Whether an option takes an argument. -/
inductive Takes
  | nothing
  | something
  /-- An argument, if it is written right behind the option. -/
  | perhaps
  deriving Repr, DecidableEq

/-- An option as it was met, or why something is none. -/
inductive Met
  | option (key : String) (argument : Text)
  | bare (key : String)
  | fault (text : Text)
  deriving Repr, DecidableEq

/-- The options of a program. Each has a key, which is its letter or a name. -/
structure Options where
  letters : List (Char × Takes)
  long : List (String × Takes × String)
  /-- Options may stand behind operands. -/
  mixes : Bool := true
  /-- What an operand stands for that is really an option, given the words behind it, and whether
  the next word belongs to it. -/
  key? : Text → List Text → Option (Met × Bool) := fun _ _ => none

namespace Options

/-- The options of a program that are the same but for their names count as one. -/
def isSame (a b : String × Takes × String) : Bool := a.2 = b.2

/-- The long option meant by a name. -/
def long? (options : Options) (name whole : Text) : Except Text (String × Takes × String) :=
  match options.long.find? fun option => option.1.toList = name with
  | some option => .ok option
  | none =>
    match options.long.filter fun option => name.isPrefixOf option.1.toList with
    | [] => .error ("unrecognized option '--".toList ++ whole ++ ['\''])
    | first :: others =>
      let others := others.filter fun other => !isSame first other
      if others.isEmpty then .ok first
      else
        let shown := (first :: others).flatMap fun option =>
          " '--".toList ++ option.1.toList ++ ['\'']
        .error ("option '--".toList ++ whole ++ "' is ambiguous; possibilities:".toList ++ shown)

/-- What a word of letters holds, and the key of an option whose argument is the next word. -/
def cluster (options : Options) : Text → List Met × Option Char
  | [] => ([], none)
  | c :: rest =>
    match options.letters.lookup c with
    | none => ([.fault ("invalid option -- '".toList ++ [c, '\''])], none)
    | some .nothing =>
      let (met, next) := cluster options rest
      (.bare (String.singleton c) :: met, next)
    | some .something =>
      if rest.isEmpty then ([], some c) else ([.option (String.singleton c) rest], none)
    | some .perhaps =>
      ([if rest.isEmpty then .bare (String.singleton c) else .option (String.singleton c) rest],
        none)

/-- The options of a list of words, each with the words behind it, and the operands. -/
def scan (options : Options) : (words : List Text) → List (Met × List Text) × List Text
  | [] => ([], [])
  | ['-', '-'] :: rest => ([], rest)
  | ('-' :: '-' :: word) :: rest =>
    let name := word.takeWhile (· ≠ '=')
    let stop (text : Text) : List (Met × List Text) × List Text := ([(.fault text, rest)], [])
    match options.long? name word, cut? '=' word with
    | .error text, _ => stop text
    | .ok (long, .nothing, _), some _ =>
      stop ("option '--".toList ++ long.toList ++ "' doesn't allow an argument".toList)
    | .ok (_, _, key), some (_, argument) =>
      let (met, operands) := scan options rest
      ((.option key argument, rest) :: met, operands)
    | .ok (long, .something, key), none =>
      match rest with
      | [] => stop ("option '--".toList ++ long.toList ++ "' requires an argument".toList)
      | argument :: rest =>
        let (met, operands) := scan options rest
        ((.option key argument, rest) :: met, operands)
    | .ok (_, _, key), none =>
      let (met, operands) := scan options rest
      ((.bare key, rest) :: met, operands)
  | ('-' :: c :: word) :: rest =>
    match options.cluster (c :: word), rest with
    | (met, none), rest =>
      let (more, operands) := scan options rest
      (met.map (·, rest) ++ more, operands)
    | (met, some letter), [] =>
      (met.map (·, rest) ++
        [(.fault ("option requires an argument -- '".toList ++ [letter, '\'']), rest)], [])
    | (met, some letter), argument :: rest =>
      let (more, operands) := scan options rest
      (met.map (·, rest) ++ (.option (String.singleton letter) argument, rest) :: more, operands)
  | operand :: rest =>
    if !options.mixes then ([], operand :: rest)
    else
      match options.key? operand rest, rest with
      | none, rest =>
        let (met, operands) := scan options rest
        (met, operand :: operands)
      | some (met, true), _ :: rest =>
        let (more, operands) := scan options rest
        ((met, rest) :: more, operands)
      | some (met, _), rest =>
        let (more, operands) := scan options rest
        ((met, rest) :: more, operands)

end Options

namespace Tool

/-- Ends the program over an option, with a hint. -/
def faulty {α : Type} (text : Text) (status : Nat) : Tool α := do
  tell ((← get).name ++ ": ".toList ++ text ++ ['\n'])
  usage status

/-- Takes the options in order; the first fault ends the program. -/
def withOptions {σ : Type} (options : Options) (args : List Text) (status : Nat)
    (take : σ → String → Option Text → Tool σ) (start : σ) : Tool (σ × List Text) := do
  let isStrict := (← get).environment.any fun entry => entry.1 = "POSIXLY_CORRECT".toList
  let (met, operands) := { options with mixes := options.mixes && !isStrict }.scan args
  let final ← met.foldlM (fun state (m : Met × List Text) => do
    match m.1 with
    | .bare key => take state key none
    | .option key argument => take state key (some argument)
    | .fault text => faulty text status) start
  return (final, operands)

/-- Words that mean the same, one behind the other on a line. -/
def listed {β : Type} [BEq β] : Option β → List (String × β) → Text
  | _, [] => []
  | last, (word, meaning) :: rest =>
    (if last == some meaning then ", ".toList else "\n  - ".toList) ++ shownText word.toList ++
      listed (some meaning) rest

/-- What is meant by the argument of an option, a word that may be shortened. -/
def readWord {β : Type} [BEq β] (status : Nat) (label : Text) (words : List (String × β)) (argument : Text) :
    Tool β := do
  match words.find? fun word => word.1.toList = argument with
  | some word => return word.2
  | none =>
    match words.filter fun word => argument.isPrefixOf word.1.toList with
    | [word] => return word.2
    | found =>
      if let first :: others := found then
        if others.all (·.2 == first.2) then return first.2
      let kind := if found.isEmpty then "invalid".toList else "ambiguous".toList
      complain (kind ++ " argument ".toList ++ shownText argument ++ " for ".toList ++
        shownText label)
      tell ("Valid arguments are:".toList ++ listed none words ++ ['\n'])
      usage status

end Tool
end LineShell.Utility
