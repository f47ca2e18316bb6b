import LineShell.Table
import LineShell.Utility.Copying
import LineShell.Utility.Format

/-! Programs that write what they are told, or tell about themselves: `echo`, `yes`, `env`,
`pwd`; and `sleep`, which writes nothing. -/

namespace LineShell.Utility

def helpOptions : List (String × Takes × String) :=
  [("help", .nothing, "help"), ("version", .nothing, "version")]

/-- A program that knows no options of its own. -/
def withoutOptions (mixes : Bool) (args : List Text) : Tool (List Text) := do
  let ((), operands) ← Tool.withOptions { letters := [], long := helpOptions, mixes } args 1
    (fun () _ _ => Tool.finish 0) ()
  return operands

/-! ### Lines that are told -/

/-- Whether an argument is made of option letters of `echo`. -/
def isEchoOption : Text → Bool
  | '-' :: c :: more => (c :: more).all (· ∈ ['n', 'e', 'E'])
  | _ => false

/-- A text with its escapes written out, and whether it says that nothing more follows. -/
def echoText : (bound : Nat) → Text → Text → Text × Bool
  | 0, _, out => (out.reverse, false)
  | _, [], out => (out.reverse, false)
  | bound + 1, '\\' :: c :: rest, out =>
    match c with
    | 'c' => (out.reverse, true)
    | 'x' =>
      let digits := (rest.take 2).takeWhile fun c => (hexDigit? c).isSome
      if digits.isEmpty then echoText bound rest ('x' :: '\\' :: out)
      else echoText bound (rest.drop digits.length) (Format.octet (valueIn 16 digits) :: out)
    | c =>
      if isOctal c then
        let digits := if c = '0' then (rest.take 3).takeWhile isOctal
          else ((c :: rest).take 3).takeWhile isOctal
        let behind := if c = '0' then rest.drop digits.length else (c :: rest).drop digits.length
        echoText bound behind (Format.octet (valueIn 8 digits) :: out)
      else match if c = '"' then none else Format.simpleEscape? c with
        | some plain => echoText bound rest (plain :: out)
        | none => echoText bound rest (c :: '\\' :: out)
  | bound + 1, c :: rest, out => echoText bound rest (c :: out)

/-- Arguments with their escapes written out, and a blank between each two. -/
def echoWords : List Text → Text × Bool
  | [] => ([], false)
  | [word] => echoText word.length word []
  | word :: rest =>
    match echoText word.length word [] with
    | (text, true) => (text, true)
    | (text, false) =>
      let (more, stopped) := echoWords rest
      (text ++ ' ' :: more, stopped)

def runEcho (args : List Text) : Tool Nat := do
  let isStrict : Bool := (← get).environment.any fun entry => entry.1 = "POSIXLY_CORRECT".toList
  let allows : Bool := !isStrict || args.head? = some ['-', 'n']
  if allows && (args = ["--help".toList] || args = ["--version".toList]) then return 0
  let optionWords := if allows then args.takeWhile isEchoOption else []
  let words := args.drop optionWords.length
  let letters := optionWords.flatMap List.tail
  let escapes : Bool := isStrict || (letters.filter (· ≠ 'n')).getLast? = some 'e'
  let (text, stopped) := if escapes then echoWords words else (join ' ' words, false)
  Tool.say (if stopped || 'n' ∈ letters then text else text ++ ['\n'])
  return 0

/-- Writes a block to standard output until nobody reads it any more. -/
def repeatBlock (block : Bytes) : (bound : Nat) → Tool Nat
  | 0 => return 0
  | bound + 1 => do
    match ← Program.writeAll Tool.stdout block with
    | .ok () => repeatBlock block bound
    | .error e =>
      Tool.complainOf "standard output".toList e
      return 1

def runYes (args : List Text) : Tool Nat := do
  let operands ← withoutOptions true args
  let line := octetBytes (join ' ' (if operands.isEmpty then [['y']] else operands) ++ ['\n'])
  repeatBlock (List.replicate (max 1 (8192 / line.length)) line).flatten loopBound

/-! ### The working directory -/

def runPwd (args : List Text) : Tool Nat := do
  let environment := (← get).environment
  let isStrict := environment.any fun entry => entry.1 = "POSIXLY_CORRECT".toList
  let options : Options := {
    letters := [('L', .nothing), ('P', .nothing)]
    long := [("logical", .nothing, "L"), ("physical", .nothing, "P")] ++ helpOptions }
  let (isLogical, operands) ← Tool.withOptions options args 1 (fun (_ : Bool) key _ => do
    match key with
    | "L" => return true
    | "P" => return false
    | _ => Tool.finish 0) isStrict
  if !operands.isEmpty then Tool.complain "ignoring non-option arguments".toList
  let path := (environment.lookup "PWD".toList).getD []
  let isPlain : Bool := path.head? = some '/' &&
    (pieces '/' path).all fun part => part ≠ ['.'] && part ≠ ['.', '.']
  if isLogical && isPlain then
    match ← Program.statusAt path, ← Program.statusAt ['.'] with
    | .ok a, .ok b =>
      if a.identity = b.identity then
        Tool.say (path ++ ['\n'])
        Tool.finish 0
    | _, _ => pure ()
  match ← Program.currentDir with
  | .ok path =>
    Tool.say (path ++ ['\n'])
    return 0
  | .error _ => Tool.die "couldn't find directory entry in '..' with matching i-node".toList 1

/-! ### Time -/

/-- A span of time in millionths of a second: a number and perhaps a unit. -/
def duration? (text : Text) : Option Nat :=
  let reading := BinaryReading.ofText .extended text
  let seconds? : Option Nat := match text.drop reading.length with
    | [] | ['s'] => some 1
    | ['m'] => some 60
    | ['h'] => some 3600
    | ['d'] => some 86400
    | _ => none
  if reading.length = 0 then none
  else match seconds?, reading.value with
    | some seconds, .finite negative m e =>
      if negative && m ≠ 0 then none
      else
        let parts := Nat.pow 2 (-e).toNat
        some ((m * Nat.pow 2 e.toNat * seconds * 1000000 + (parts - 1)) / parts)
    | some _, .infinite false => some (Nat.pow 2 60)
    | _, _ => none

def runSleep (args : List Text) : Tool Nat := do
  let operands ← withoutOptions true args
  if args.isEmpty then
    Tool.complain "missing operand".toList
    Tool.usage 1
  let bad := operands.filter fun operand => (duration? operand).isNone
  for operand in bad do
    Tool.complain ("invalid time interval ".toList ++ shownText operand)
  if !bad.isEmpty then Tool.usage 1
  let _ ← Program.pause (sumOf (operands.filterMap duration?))
  return 0

end LineShell.Utility
