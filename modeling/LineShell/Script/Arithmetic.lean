import LineShell.Script.Context

/-! Arithmetic expressions. They are evaluated while they are read, on whole numbers of 64 bits, and
may assign to variables; what does not count for the value is read without being evaluated. -/

namespace LineShell.Script

namespace Arithmetic

/-- The operators between two numbers. -/
inductive Operator
  | times | into | rest | plus | minus | left | right
  | less | lessEqual | greater | greaterEqual | equal | unequal
  | bitAnd | bitXor | bitOr
  deriving Repr, DecidableEq

namespace Operator

/-- How loosely an operator binds. -/
def level : Operator → Nat
  | times | into | rest => 0
  | plus | minus => 1
  | left | right => 2
  | less | lessEqual | greater | greaterEqual => 3
  | equal | unequal => 4
  | bitAnd => 5
  | bitXor => 6
  | bitOr => 7

/-- More than the level of every operator. -/
def topLevel : Nat := 8

end Operator

inductive Token
  | finish
  | bad
  | number (n : Int)
  | variable (name : Text)
  | operator (op : Operator)
  /-- An assignment, also one that combines the old value with the new one. -/
  | assign (op : Option Operator)
  | opening | closing | negation | complement | question | colon | both | either
  deriving Repr, DecidableEq

/-- The number with 64 bits that is equal up to a multiple of two to the 64. -/
def wrap (n : Int) : Int := (n + Int.pow 2 63) % Int.pow 2 64 - Int.pow 2 63

/-- A number between the bounds of 64 bits. -/
def clamp (n : Int) : Int := max (-Int.pow 2 63) (min (Int.pow 2 63 - 1) n)

/-- The number at the start of a text, in base ten, sixteen or eight by its first characters, and
the text behind it. -/
def readDigits (text : Text) : Nat × Text :=
  let hex? (c : Char) : Option Nat :=
    if c.isDigit then some (c.toNat - '0'.toNat)
    else if 'a' ≤ c.toLower && c.toLower ≤ 'f' then some (c.toLower.toNat - 'a'.toNat + 10)
    else none
  let inBase (base : Nat) (text : Text) : Nat × Text :=
    let digits := text.takeWhile fun c => (hex? c).any (· < base)
    (digits.foldl (fun n c => base * n + (hex? c).getD 0) 0, text.drop digits.length)
  match text with
  | '0' :: x :: c :: rest =>
    if x.toLower = 'x' && (hex? c).isSome then inBase 16 (c :: rest) else inBase 8 text
  | '0' :: _ => inBase 8 text
  | _ => inBase 10 text

/-- The tokens of an expression. What is no token is the last one. -/
def tokens : (bound : Nat) → Text → List Token
  | 0, _ => []
  | _, [] => []
  | bound + 1, c :: rest =>
    let sign (token : Token) (n : Nat) : List Token := token :: tokens bound (rest.drop n)
    /- An operator, or the assignment that combines with it, from the character behind it on. -/
    let either (op : Operator) (n : Nat) : List Token :=
      if (rest.drop n).head? = some '=' then sign (.assign (some op)) (n + 1)
      else sign (.operator op) n
    if c = ' ' || c = '\t' || c = '\n' then tokens bound rest
    else if c.isDigit then
      let (n, behind) := readDigits (c :: rest)
      .number (clamp n) :: tokens bound behind
    else if isNameStart c then
      let name := nameOf (c :: rest)
      .variable name :: tokens bound ((c :: rest).drop name.length)
    else match c, rest.head? with
      | '=', some '=' => sign (.operator .equal) 1
      | '=', _ => sign (.assign none) 0
      | '>', some '=' => sign (.operator .greaterEqual) 1
      | '>', some '>' => either .right 1
      | '>', _ => sign (.operator .greater) 0
      | '<', some '=' => sign (.operator .lessEqual) 1
      | '<', some '<' => either .left 1
      | '<', _ => sign (.operator .less) 0
      | '|', some '|' => sign .either 1
      | '|', _ => either .bitOr 0
      | '&', some '&' => sign .both 1
      | '&', _ => either .bitAnd 0
      | '!', some '=' => sign (.operator .unequal) 1
      | '!', _ => sign .negation 0
      | '^', _ => either .bitXor 0
      | '*', _ => either .times 0
      | '/', _ => either .into 0
      | '%', _ => either .rest 0
      | '+', _ => either .plus 0
      | '-', _ => either .minus 0
      | '(', _ => sign .opening 0
      | ')', _ => sign .closing 0
      | '~', _ => sign .complement 0
      | '?', _ => sign .question 0
      | ':', _ => sign .colon 0
      | _, _ => [.bad]

/-- An expression while it is evaluated: the tokens that are left, and the last one that was
looked at. -/
structure Work where
  text : Text
  rest : List Token
  last : Token := .finish

abbrev Reckon := StateT Work Run

def fail {α : Type} (text : String) : Reckon α := do
  Run.fail ("arithmetic expression: ".toList ++ text.toList ++ ": \"".toList ++ (← get).text ++ ['"'])

/-- The next token. -/
def next : Reckon Token := do
  match (← get).rest with
  | [] => return .finish
  | [.bad] => return .bad
  | token :: rest =>
    modify fun w => { w with rest }
    return token

def look (token : Token) : Reckon Unit := modify fun w => { w with last := token }

/-- The number that is the value of a variable. -/
def valueOf (name : Text) : Reckon Int := do
  let text := ((← getThe Context).value? name).getD []
  let isBlank (c : Char) : Bool := c = ' ' || ('\t' ≤ c && c ≤ '\r')
  let body := text.dropWhile isBlank
  let (isNegative, body) : Bool × Text := match body with
    | '-' :: body => (true, body)
    | '+' :: body => (false, body)
    | body => (false, body)
  let bad : Reckon Int := Run.fail ("Illegal number: ".toList ++ text)
  match body with
  | [] => if text.all isBlank then return 0 else bad
  | c :: _ =>
    if !c.isDigit then bad
    else
      let (n, behind) := readDigits body
      let n : Int := if isNegative then -n else n
      if behind.all isBlank && n = clamp n then return n else bad

/-- Gives a variable a number as its value. -/
def setVariable (name : Text) (n : Int) : Reckon Unit := do
  Run.assign name (some (decimalInt n))

def truth (b : Bool) : Int := if b then 1 else 0

/-- Bits of a number, as they are with 64 bits. -/
def bits (n : Int) : Nat := (n % Int.pow 2 64).toNat

/-- The value of two numbers under an operator. -/
def apply (op : Operator) (a b : Int) : Reckon Int := do
  match op with
  | .times => return wrap (a * b)
  | .plus => return wrap (a + b)
  | .minus => return wrap (a - b)
  | .into => if b = 0 then fail "division by zero" else return wrap (a.tdiv b)
  | .rest => if b = 0 then fail "division by zero" else return a.tmod b
  | .left => return wrap (a * Int.pow 2 (bits b % 64))
  | .right => return a >>> (bits b % 64)
  | .less => return truth (a < b)
  | .lessEqual => return truth (a ≤ b)
  | .greater => return truth (b < a)
  | .greaterEqual => return truth (b ≤ a)
  | .equal => return truth (a = b)
  | .unequal => return truth (a ≠ b)
  | .bitAnd => return wrap (bits a &&& bits b)
  | .bitXor => return wrap (bits a ^^^ bits b)
  | .bitOr => return wrap (bits a ||| bits b)

mutual

/-- A number, a variable or something between parentheses, with the signs in front of it: the token
it begins with, and the one behind that. -/
def primary : (bound : Nat) → (isIdle : Bool) → (token behind : Token) → Reckon Int
  | 0, _, _, _ => fail "expecting primary"
  | bound + 1, isIdle, token, behind => do
    match token with
    | .opening =>
      let n ← assignment bound isIdle behind
      if (← get).last ≠ .closing then fail "expecting ')'"
      look (← next)
      return n
    | .number n =>
      look behind
      return n
    | .variable name =>
      look behind
      if isIdle then return 0 else valueOf name
    | .operator .plus => primary bound isIdle behind (← next)
    | .operator .minus => return wrap (-(← primary bound isIdle behind (← next)))
    | .negation => return truth ((← primary bound isIdle behind (← next)) = 0)
    | .complement => return wrap (-(← primary bound isIdle behind (← next)) - 1)
    | _ => fail "expecting primary"

/-- What follows a number and an operator, as far as it binds closer than `level`. -/
def operation : (bound : Nat) → (isIdle : Bool) → Int → Operator → (level : Nat) → Reckon Int
  | 0, _, a, _, _ => return a
  | bound + 1, isIdle, a, op, level => do
    let token ← next
    let b ← primary bound isIdle token (← next)
    let b ← match (← get).last with
      | .operator closer =>
        if closer.level < op.level then operation bound isIdle b closer op.level else pure b
      | _ => pure b
    let a ← if isIdle then pure b else apply op a b
    match (← get).last with
    | .operator more => if level ≤ more.level then return a else operation bound isIdle a more level
    | _ => return a

def sum : (bound : Nat) → (isIdle : Bool) → (token behind : Token) → Reckon Int
  | 0, _, _, _ => return 0
  | bound + 1, isIdle, token, behind => do
    let a ← primary bound isIdle token behind
    match (← get).last with
    | .operator op => operation bound isIdle a op Operator.topLevel
    | _ => return a

def conjunction : (bound : Nat) → (isIdle : Bool) → (token behind : Token) → Reckon Int
  | 0, _, _, _ => return 0
  | bound + 1, isIdle, token, behind => do
    let a ← sum bound isIdle token behind
    if (← get).last ≠ .both then return a
    let token ← next
    let b ← conjunction bound (isIdle || a = 0) token (← next)
    return truth (a ≠ 0 && b ≠ 0)

def disjunction : (bound : Nat) → (isIdle : Bool) → (token behind : Token) → Reckon Int
  | 0, _, _, _ => return 0
  | bound + 1, isIdle, token, behind => do
    let a ← conjunction bound isIdle token behind
    if (← get).last ≠ .either then return a
    let token ← next
    let b ← disjunction bound (isIdle || a ≠ 0) token (← next)
    return truth (a ≠ 0 || b ≠ 0)

def choice : (bound : Nat) → (isIdle : Bool) → (token behind : Token) → Reckon Int
  | 0, _, _, _ => return 0
  | bound + 1, isIdle, token, behind => do
    let a ← disjunction bound isIdle token behind
    if (← get).last ≠ .question then return a
    let b ← assignment bound (isIdle || a = 0) (← next)
    if (← get).last ≠ .colon then fail "expecting ':'"
    let token ← next
    let c ← choice bound (isIdle || a ≠ 0) token (← next)
    return if a ≠ 0 then b else c

def assignment : (bound : Nat) → (isIdle : Bool) → (token : Token) → Reckon Int
  | 0, _, _ => return 0
  | bound + 1, isIdle, token => do
    let behind ← next
    match token, behind with
    | .variable name, .assign op =>
      let n ← assignment bound isIdle (← next)
      if isIdle then return n
      let n ← match op with
        | none => pure n
        | some op => apply op (← valueOf name) n
      setVariable name n
      return n
    | token, behind => choice bound isIdle token behind

end

end Arithmetic

/-- The value of an expression. -/
def evaluateArithmetic (text : Text) : Run Int := do
  let tokens := Arithmetic.tokens (text.length + 1) text
  let expression : Arithmetic.Reckon Int := do
    let n ← Arithmetic.assignment (8 * tokens.length + 64) false (← Arithmetic.next)
    if (← get).last ≠ .finish then Arithmetic.fail "expecting EOF"
    return n
  expression.run' { text, rest := tokens }

end LineShell.Script
