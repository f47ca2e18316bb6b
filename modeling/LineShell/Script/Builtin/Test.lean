import LineShell.Script.Arithmetic

/-! The command `test`: conditions on texts, numbers and files, joined by `-a`, `-o` and `!`. With
up to four arguments their number tells how they are read. -/

namespace LineShell.Script

namespace Condition

/-- What a word of a condition is. -/
inductive Sign
  | unary (letter : Char)
  | binary (name : Text)
  | not
  | both
  | either
  | opening
  | closing
  | operand
  | finish
  deriving Repr, DecidableEq

/-- The operator a word may be. -/
def operator? (word : Text) : Option Sign :=
  let binary : List String :=
    ["=", "!=", "<", ">", "-eq", "-ne", "-ge", "-gt", "-le", "-lt", "-nt", "-ot", "-ef"]
  match word with
  | ['-', 'a'] => some .both
  | ['-', 'o'] => some .either
  | ['!'] => some .not
  | ['('] => some .opening
  | [')'] => some .closing
  | ['-', letter] =>
    if letter ∈ "rwxefdcbpugkstznhOGLS".toList then some (.unary letter) else none
  | word => if binary.any (·.toList = word) then some (.binary word) else none

def isBinary (word : Text) : Bool :=
  match operator? word with
  | some (.binary _) => true
  | _ => false

/-- What the first word is, by the words behind it. -/
def sign (words : List Text) : Sign :=
  match words with
  | [] => .finish
  | word :: rest =>
    match operator? word with
    | none => .operand
    | some (.unary letter) =>
      match rest with
      | [] => .operand
      | [_] => .unary letter
      | next :: _ => if isBinary next then .operand else .unary letter
    | some .opening => if rest.isEmpty then .operand else .opening
    | some sign => sign

/-- The words from the one that is looked at. -/
abbrev Check := StateT (List Text) Run

def fail {α : Type} (word : Text) (text : String) : Check α :=
  Run.fail (if word.isEmpty then text.toList else word ++ ": ".toList ++ text.toList)

/-- Goes on to another word. -/
def skip (n : Nat) : Check Sign := do
  modify (·.drop n)
  return sign (← get)

/-- What the next word is. -/
def peek : Check Sign := return sign ((← get).drop 1)

/-- A whole number. -/
def integer (text : Text) : Check Int := do
  let isBlank (c : Char) : Bool := c = ' ' || ('\t' ≤ c && c ≤ '\r')
  let body := text.dropWhile isBlank
  let (isNegative, body) : Bool × Text := match body with
    | '-' :: body => (true, body)
    | '+' :: body => (false, body)
    | body => (false, body)
  let number := body.takeWhile Char.isDigit
  match digits? number with
  | some n =>
    let n : Int := if isNegative then -n else n
    if (body.drop number.length).all isBlank && n = Arithmetic.clamp n then return n
    Run.fail ("Illegal number: ".toList ++ text)
  | none => Run.fail ("Illegal number: ".toList ++ text)

def statusOf (path : Text) (follow : Bool) : Check (Option FileStatus) := do
  match ← Run.ask (Program.statusAt path follow) with
  | .ok status => return some status
  | .error _ => return none

/-- Whether a condition holds of one operand. -/
def unary (letter : Char) (operand : Text) : Check Bool := do
  match letter with
  | 'z' => return operand.isEmpty
  | 'n' => return !operand.isEmpty
  | 't' =>
    let _ ← integer operand
    return false
  | 'r' => Run.ask (Program.permits operand .read)
  | 'w' => Run.ask (Program.permits operand .write)
  | 'x' => Run.ask (Program.permits operand .search)
  | letter =>
    let isLink : Bool := letter = 'h' || letter = 'L'
    match ← statusOf operand (!isLink) with
    | none => return false
    | some status =>
      match letter with
      | 'e' => return true
      | 'f' => return status.kind = .regular
      | 'd' => return status.kind = .directory
      | 'c' => return status.kind = .device
      | 'p' => return status.kind = .pipe
      | 'h' | 'L' => return status.kind = .link
      | 's' => return status.size ≠ 0
      | 'u' => return status.attributes.mode / 2048 % 2 = 1
      | 'g' => return status.attributes.mode / 1024 % 2 = 1
      | 'k' => return status.attributes.mode / 512 % 2 = 1
      | 'O' | 'G' => return status.attributes.mine
      | _ => return false

/-- Whether a condition holds of two operands. -/
def binary (name left right : Text) : Check Bool := do
  let compare (holds : Int → Int → Bool) : Check Bool :=
    return holds (← integer left) (← integer right)
  let files (holds : FileStatus → FileStatus → Bool) : Check Bool := do
    match ← statusOf left true, ← statusOf right true with
    | some a, some b => return holds a b
    | _, _ => return false
  match String.ofList name with
  | "=" => return left = right
  | "!=" => return left ≠ right
  | "<" => return left < right
  | ">" => return right < left
  | "-eq" => compare (· = ·)
  | "-ne" => compare (· ≠ ·)
  | "-ge" => compare (· ≥ ·)
  | "-gt" => compare (· > ·)
  | "-le" => compare (· ≤ ·)
  | "-lt" => compare (· < ·)
  | "-nt" => files fun a b => b.attributes.modified < a.attributes.modified
  | "-ot" => files fun a b => a.attributes.modified < b.attributes.modified
  | _ => files fun a b => a.identity = b.identity

mutual

/-- Conditions joined by `-o`. -/
def alternatives : (bound : Nat) → Sign → Check Bool
  | 0, _ => return false
  | bound + 1, s => do
    let found ← conjunction bound s
    if (← peek) ≠ .either then return found
    return (← alternatives bound (← skip 2)) || found

/-- Conditions joined by `-a`. -/
def conjunction : (bound : Nat) → Sign → Check Bool
  | 0, _ => return false
  | bound + 1, s => do
    let found ← negation bound s
    if (← peek) ≠ .both then return found
    return (← conjunction bound (← skip 2)) && found

def negation : (bound : Nat) → Sign → Check Bool
  | 0, _ => return false
  | bound + 1, s => do
    if s ≠ .not then primary bound s
    else
      let next ← peek
      if next ≠ .finish then modify (·.drop 1)
      return !(← negation bound next)

def primary : (bound : Nat) → Sign → Check Bool
  | 0, _ => return false
  | bound + 1, s => do
    let words ← get
    match s with
    | .finish => return false
    | .opening =>
      let next ← skip 1
      if next = .closing then return false
      let found ← alternatives bound next
      if (← skip 1) ≠ .closing then fail [] "closing paren expected"
      return found
    | .unary letter =>
      let _ ← skip 1
      match words[1]? with
      | none => fail ['-', letter] "argument expected"
      | some operand => unary letter operand
    | _ =>
      match ← peek with
      | .binary name =>
        let _ ← skip 2
        match words[2]? with
        | none => fail name "argument expected"
        | some right => binary name (words.headD []) right
      | _ => return (words.headD []) ≠ []

end

/-- The value of a condition. -/
def value (words : List Text) : Run Bool := do
  let whole : Check Bool := do
    let (start, words) : Sign × List Text := match words with
      | [a, b, c] =>
        if isBinary b then (.operand, words)
        else if a = ['('] && c = [')'] then (sign [b], [b])
        else if a = ['!'] then (.not, words) else (sign words, words)
      | [a, b, c, d] =>
        if a = ['('] && d = [')'] then (sign [b, c], [b, c])
        else if a = ['!'] then (.not, words) else (sign words, words)
      | words => (sign words, words)
    set words
    let found ← alternatives (8 * words.length + 8) start
    match ← get with
    | word :: _ :: _ => fail word "unexpected operator"
    | _ => return found
  whole.run' words

end Condition

/-- Whether a condition holds, as a status. -/
def runTest (isBracket : Bool) (args : List Text) : Run Nat := do
  if isBracket && args.getLast? ≠ some [']'] then Run.fail "missing ]".toList
  let words := if isBracket then args.dropLast else args
  if words.isEmpty then return 1
  return if ← Condition.value words then 0 else 1

end LineShell.Script
