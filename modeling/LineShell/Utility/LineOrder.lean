import LineShell.Text.Utf8
import LineShell.Utility.Number

/-! How lines are put in order: by keys, each of which is a stretch of the line that is compared in
a way of its own, and at last byte by byte. -/

namespace LineShell.Utility

/-- Which characters do not count when bytes are compared. -/
inductive Skipped
  | nothing
  /-- All but blanks, letters and digits. -/
  | punctuation
  | unprintable
  deriving Repr, DecidableEq

/-- How a key is ordered. -/
structure KeyOrder where
  skipsStart : Bool := false
  skipsEnd : Bool := false
  skipped : Skipped := .nothing
  folds : Bool := false
  general : Bool := false
  human : Bool := false
  month : Bool := false
  numeric : Bool := false
  random : Bool := false
  reverse : Bool := false
  version : Bool := false
  deriving Repr, DecidableEq

namespace KeyOrder

/-- Nothing is said but perhaps that the order is reversed. -/
def isDefault (o : KeyOrder) : Bool := { o with reverse := false } = {}

/-- The order with a letter; `start` and `finish` tell for which ends of a key it stands. -/
def with? (o : KeyOrder) (start finish : Bool) : Char → Option KeyOrder
  | 'b' => some { o with skipsStart := o.skipsStart || start, skipsEnd := o.skipsEnd || finish }
  | 'd' => some { o with skipped := .punctuation }
  | 'f' => some { o with folds := true }
  | 'g' => some { o with general := true }
  | 'h' => some { o with human := true }
  | 'i' => some (if o.skipped = .nothing then { o with skipped := .unprintable } else o)
  | 'M' => some { o with month := true }
  | 'n' => some { o with numeric := true }
  | 'R' => some { o with random := true }
  | 'r' => some { o with reverse := true }
  | 'V' => some { o with version := true }
  | _ => none

/-- The letters that do not go together, if there are any. -/
def conflict? (o : KeyOrder) : Option Text :=
  let kinds := [o.numeric, o.general, o.human, o.month, o.version || o.random || o.skipped ≠ .nothing]
  if 1 < (kinds.filter id).length then
    some ((([(o.skipped = .punctuation, 'd'), (o.folds, 'f'), (o.general, 'g'), (o.human, 'h'),
      (o.skipped = .unprintable, 'i'), (o.month, 'M'), (o.numeric, 'n'), (o.random, 'R'),
      (o.version, 'V')] : List (Bool × Char)).filter Prod.fst).map Prod.snd)
  else none

end KeyOrder

/-- A stretch of a line: from a character of a field to a character of a field. -/
structure Key where
  /-- How many fields are left out, and then how many characters. -/
  startField : Nat := 0
  startChar : Nat := 0
  /-- The field in which the stretch ends, and its last character; no character is the whole
  field. -/
  finish : Option (Nat × Nat) := none
  order : KeyOrder := {}
  deriving Repr, DecidableEq

def isBlankByte (b : UInt8) : Bool := b = 32 || b = 9 || b = 10

/-- What is left of a line behind some fields. -/
def skipFields (separator : Option UInt8) : Nat → Bytes → Bytes
  | 0, bytes => bytes
  | n + 1, bytes =>
    match separator with
    | some s => skipFields separator n ((bytes.dropWhile (· ≠ s)).drop 1)
    | none => skipFields separator n ((bytes.dropWhile isBlankByte).dropWhile (!isBlankByte ·))

namespace Key

/-- What is left of a line from the start of the key on. -/
def fromStart (key : Key) (separator : Option UInt8) (line : Bytes) : Bytes :=
  let rest := skipFields separator key.startField line
  let rest := if key.order.skipsStart then rest.dropWhile isBlankByte else rest
  rest.drop key.startChar

/-- What is left of a line behind the key. -/
def behind (key : Key) (separator : Option UInt8) (line : Bytes) : Bytes :=
  match key.finish with
  | none => []
  | some (field, 0) =>
    match separator with
    | some s => (skipFields separator field line).dropWhile (· ≠ s)
    | none => skipFields separator (field + 1) line
  | some (field, char) =>
    let rest := skipFields separator field line
    let rest := if key.order.skipsEnd then rest.dropWhile isBlankByte else rest
    rest.drop char

/-- The stretch of a line that the key stands for. -/
def stretch (key : Key) (separator : Option UInt8) (line : Bytes) : Bytes :=
  let rest := key.fromStart separator line
  rest.take (rest.length - (key.behind separator line).length)

end Key

/-- Compares byte by byte; what is longer comes later. -/
def compareBytes : Bytes → Bytes → Ordering
  | [], [] => .eq
  | [], _ :: _ => .lt
  | _ :: _, [] => .gt
  | a :: as, b :: bs => if a < b then .lt else if b < a then .gt else compareBytes as bs

/-- A number written in decimal: whether it is negative, its digits before the point without
zeros in front, and those behind it without zeros at the end. -/
def decimalParts (bytes : Bytes) : Bool × Bytes × Bytes :=
  let isDigit (b : UInt8) : Bool := 48 ≤ b && b ≤ 57
  let rest := bytes.dropWhile isBlankByte
  let (negative, rest) : Bool × Bytes := match rest with
    | 45 :: rest => (true, rest)
    | rest => (false, rest)
  let whole := rest.takeWhile isDigit
  let fraction := match rest.drop whole.length with
    | 46 :: more => more.takeWhile isDigit
    | _ => []
  let whole := whole.dropWhile (· = 48)
  let fraction := (fraction.reverse.dropWhile (· = 48)).reverse
  (negative && !(whole.isEmpty && fraction.isEmpty), whole, fraction)

/-- Compares magnitudes of decimal numbers. -/
def compareParts (a b : Bytes × Bytes) : Ordering :=
  (compare a.1.length b.1.length).then ((compareBytes a.1 b.1).then (compareBytes a.2 b.2))

def compareNumeric (a b : Bytes) : Ordering :=
  match decimalParts a, decimalParts b with
  | (false, a), (false, b) => compareParts a b
  | (true, a), (true, b) => compareParts b a
  | (true, _), (false, _) => .lt
  | (false, _), (true, _) => .gt

/-- The rank of the unit behind a number: `K` comes before `M`. -/
def unitRank (bytes : Bytes) : Int :=
  let isNumeral (b : UInt8) : Bool := (48 ≤ b && b ≤ 57) || b = 46
  let rest := bytes.dropWhile isBlankByte
  let (negative, rest) : Bool × Bytes := match rest with
    | 45 :: rest => (true, rest)
    | rest => (false, rest)
  let isZero := (rest.takeWhile isNumeral).all fun b => b = 48 || b = 46
  let unit := match rest.dropWhile isNumeral with
    | b :: _ => Char.ofNat b.toNat
    | [] => ' '
  let rank : Nat := if isZero then 0 else match unit with
    | 'k' | 'K' => 1
    | 'M' => 2
    | 'G' => 3
    | 'T' => 4
    | 'P' => 5
    | 'E' => 6
    | 'Z' => 7
    | 'Y' => 8
    | _ => 0
  if negative then -Int.ofNat rank else rank

def compareHuman (a b : Bytes) : Ordering :=
  (compare (unitRank a) (unitRank b)).then (compareNumeric a b)

/-- A number with an exponent as a fraction; what is no number comes before all numbers. -/
def generalRank (bytes : Bytes) : Nat × Int × Nat :=
  let reading := BinaryReading.ofText .extended (byteOctets bytes)
  if reading.length = 0 then (0, 0, 1)
  else match reading.value with
    | .undefined _ => (1, 0, 1)
    | .infinite true => (2, 0, 1)
    | .infinite false => (4, 0, 1)
    | .finite negative m e =>
      let num : Nat := m * Nat.pow 2 e.toNat
      (3, if negative then -Int.ofNat num else num, Nat.pow 2 (-e).toNat)

def compareGeneral (a b : Bytes) : Ordering :=
  let (rankA, numA, denA) := generalRank a
  let (rankB, numB, denB) := generalRank b
  (compare rankA rankB).then (compare (numA * denB) (numB * denA))

def months : List Bytes :=
  ["JAN", "FEB", "MAR", "APR", "MAY", "JUN", "JUL", "AUG", "SEP", "OCT", "NOV", "DEC"].map
    fun name => octetBytes name.toList

def upperByte (b : UInt8) : UInt8 := if 97 ≤ b && b ≤ 122 then b - 32 else b

/-- The number of the month a text begins with; nought for none. -/
def monthOf (bytes : Bytes) : Nat :=
  let name := ((bytes.dropWhile isBlankByte).take 3).map upperByte
  match months.findIdx? (· = name) with
  | some i => i + 1
  | none => 0

/-! ### Versions -/

def isDigitByte (b : UInt8) : Bool := 48 ≤ b && b ≤ 57
def isAlphaByte (b : UInt8) : Bool := (65 ≤ b && b ≤ 90) || (97 ≤ b && b ≤ 122)

/-- The rank of the first byte of a text among those that are no digits. -/
def versionRank : Bytes → Int
  | [] => -1
  | b :: _ =>
    if isDigitByte b then 0
    else if isAlphaByte b then b.toNat
    else if b = 126 then -2
    else Int.ofNat b.toNat + 256

/-- Compares up to the next digits; the answer is what is left of both. -/
def versionWords : (bound : Nat) → Bytes → Bytes → Ordering × Bytes × Bytes
  | 0, a, b => (.eq, a, b)
  | bound + 1, a, b =>
    let goesOn (bytes : Bytes) : Bool := match bytes with
      | c :: _ => !isDigitByte c
      | [] => false
    if goesOn a || goesOn b then
      match compare (versionRank a) (versionRank b) with
      | .eq => versionWords bound a.tail b.tail
      | unequal => (unequal, a, b)
    else (.eq, a, b)

def versionCompare : (bound : Nat) → Bytes → Bytes → Ordering
  | 0, _, _ => .eq
  | bound + 1, a, b =>
    if a.isEmpty && b.isEmpty then .eq
    else
      match versionWords (a.length + b.length + 1) a b with
      | (.eq, a, b) =>
        let digitsA := (a.dropWhile (· = 48)).takeWhile isDigitByte
        let digitsB := (b.dropWhile (· = 48)).takeWhile isDigitByte
        ((compare digitsA.length digitsB.length).then (compareBytes digitsA digitsB)).then
          (versionCompare bound (a.dropWhile isDigitByte) (b.dropWhile isDigitByte))
      | (unequal, _, _) => unequal

/-- A name without its endings, each of which is a point and a word. -/
def withoutEndings (bytes : Bytes) : Bytes :=
  let isInner (b : UInt8) : Bool := isAlphaByte b || isDigitByte b || b = 126
  let rec cut : Nat → Bytes → Bytes
    | 0, reversed => reversed
    | bound + 1, reversed =>
      let word := reversed.takeWhile isInner
      match reversed.drop word.length, word.getLast? with
      | 46 :: front, some first =>
        if (isAlphaByte first || first = 126) && !front.isEmpty then cut bound front else reversed
      | _, _ => reversed
  (cut bytes.length bytes.reverse).reverse

def compareVersion (a b : Bytes) : Ordering :=
  let dot : Bytes := [46]
  let rank (bytes : Bytes) : Nat :=
    if bytes.isEmpty then 0
    else if bytes = dot then 1
    else if bytes = [46, 46] then 2
    else if bytes.head? = some 46 then 3 else 4
  match compare (rank a) (rank b) with
  | .eq =>
    if rank a < 3 then .eq
    else
      let bound := a.length + b.length + 1
      (versionCompare bound (withoutEndings a) (withoutEndings b)).then (versionCompare bound a b)
  | unequal => unequal

/-! ### Keys and lines -/

/-- Compares the stretches of two lines. -/
def KeyOrder.compare (o : KeyOrder) (a b : Bytes) : Ordering :=
  let keeps (c : UInt8) : Bool := match o.skipped with
    | .nothing => true
    | .punctuation => isAlphaByte c || isDigitByte c || isBlankByte c
    | .unprintable => 32 ≤ c && c < 127
  let seen (bytes : Bytes) : Bytes :=
    let bytes := if o.skipped = .nothing then bytes else bytes.filter keeps
    if o.folds then bytes.map upperByte else bytes
  let ordering :=
    if o.numeric then compareNumeric a b
    else if o.general then compareGeneral a b
    else if o.human then compareHuman a b
    else if o.month then Ord.compare (monthOf (seen a)) (monthOf (seen b))
    else if o.version then compareVersion (seen a) (seen b)
    else compareBytes (seen a) (seen b)
  if o.reverse then ordering.swap else ordering

/-- The order of lines. -/
structure LineOrder where
  keys : List Key := []
  separator : Option UInt8 := none
  /-- Lines whose keys are equal are equal. -/
  keysOnly : Bool := false
  reverse : Bool := false
  deriving Repr, DecidableEq

def LineOrder.compareKeys (o : LineOrder) (a b : Bytes) : List Key → Ordering
  | [] => .eq
  | key :: rest =>
    (key.order.compare (key.stretch o.separator a) (key.stretch o.separator b)).then
      (o.compareKeys a b rest)

def LineOrder.compare (o : LineOrder) (a b : Bytes) : Ordering :=
  let byKeys := o.compareKeys a b o.keys
  if !o.keys.isEmpty && (o.keysOnly || byKeys ≠ .eq) then byKeys
  else
    let whole := compareBytes a b
    if o.reverse then whole.swap else whole

end LineShell.Utility
