import LineShell.Utility.Options

/-! `cat`, which passes on what it reads, and may number its lines and make visible what cannot be
seen. Without operands it reads standard input, and it goes on with the next operand after one that
cannot be read. -/

namespace LineShell.Utility

/-- Standard input when there are no operands. -/
def inputs (operands : List Text) : List Text := if operands.isEmpty then [['-']] else operands

/-- Names that are written with a NUL behind each; the last one may have none. -/
def namesIn (bytes : Bytes) : List Text :=
  let names := pieces '\x00' (byteOctets bytes)
  if names.getLast? = some [] then names.dropLast else names

/-- What is made of the lines that are passed on. -/
structure LineStyle where
  numbersAll : Bool := false
  numbersFilled : Bool := false
  squeezes : Bool := false
  showsEnds : Bool := false
  showsTabs : Bool := false
  showsOthers : Bool := false
  deriving Repr, DecidableEq

namespace LineStyle

def isPlain (style : LineStyle) : Bool := style = {}

/-- Where a text stands that is passed on: the number of the last line, and how many line breaks
have come one after the other; none while a line is open. -/
structure Mark where
  line : Nat := 0
  breaks : Option Nat := some 0
  deriving Repr, DecidableEq

def bytesOf (text : String) : Bytes := octetBytes text.toList

/-- The number of the next line in front of it. -/
def number (line : Nat) : Bytes := octetBytes (padLeft 6 (decimal line) ++ ['\t'])

/-- A byte as it is made visible. -/
def visible (style : LineStyle) (b : UInt8) : Bytes :=
  if b = 9 then if style.showsTabs then [94, 73] else [9]
  else if !style.showsOthers then [b]
  else
    let low (b : UInt8) : Bytes := if b < 32 then [94, b + 64] else if b = 127 then [94, 63] else [b]
    if b < 128 then low b else [77, 45] ++ low (b - 128)

/-- Passes on bytes: what is written for them, the latest piece first, and the mark behind them. -/
def pass (style : LineStyle) : Bytes → Mark → List Bytes → List Bytes × Mark
  | [], mark, out => (out, mark)
  | b :: rest, mark, out =>
    if b = 10 then
      let breaks := match mark.breaks with
        | none => 0
        | some n => min (n + 1) 2
      if style.squeezes && breaks = 2 then pass style rest { mark with breaks := some 2 } out
      else
        let isNumbered : Bool := style.numbersAll && !style.numbersFilled && 0 < breaks
        let line := if isNumbered then mark.line + 1 else mark.line
        let piece := (if isNumbered then number line else []) ++
          (if style.showsEnds then [36, 10] else [10])
        pass style rest ⟨line, some breaks⟩ (piece :: out)
    else
      let isNumbered : Bool := mark.breaks.isSome && (style.numbersAll || style.numbersFilled)
      let line := if isNumbered then mark.line + 1 else mark.line
      let shown := if b = 13 && style.showsEnds && rest.head? = some 10 then [94, 77]
        else style.visible b
      pass style rest ⟨line, none⟩ (((if isNumbered then number line else []) ++ shown) :: out)

end LineStyle

def catOptions : Options where
  letters := "benstuvAET".toList.map (·, .nothing)
  long :=
    [("number-nonblank", .nothing, "b"), ("number", .nothing, "n"), ("squeeze-blank", .nothing, "s"),
     ("show-nonprinting", .nothing, "v"), ("show-ends", .nothing, "E"), ("show-tabs", .nothing, "T"),
     ("show-all", .nothing, "A"), ("help", .nothing, "help"), ("version", .nothing, "version")]

/-- The style with an option. -/
def LineStyle.take (style : LineStyle) (key : String) (_ : Option Text) : Tool LineStyle := do
  match key with
  | "b" => return { style with numbersFilled := true }
  | "n" => return { style with numbersAll := true }
  | "s" => return { style with squeezes := true }
  | "e" => return { style with showsEnds := true, showsOthers := true }
  | "E" => return { style with showsEnds := true }
  | "t" => return { style with showsTabs := true, showsOthers := true }
  | "T" => return { style with showsTabs := true }
  | "v" => return { style with showsOthers := true }
  | "A" => return { style with showsEnds := true, showsTabs := true, showsOthers := true }
  | "u" => return style
  | _ => Tool.finish 0

/-- How much is read at a time. -/
def copySize : Nat := 131072

/-- Passes on everything from a descriptor; the answer is the mark behind it, or none if reading
fails. -/
def copyFrom (style : LineStyle) (operand : Text) (fd : Nat) :
    (bound : Nat) → LineStyle.Mark → Tool (Option LineStyle.Mark)
  | 0, mark => return some mark
  | bound + 1, mark => do
    match ← Program.read fd copySize with
    | .error e =>
      Tool.complainOf (shown operand) e
      return none
    | .ok [] => return some mark
    | .ok bytes =>
      let (bytes, mark) :=
        if style.isPlain then (bytes, mark)
        else
          let (pieces, mark) := style.pass bytes mark []
          (pieces.reverse.flatten, mark)
      match ← Tool.send bytes with
      | .ok () => copyFrom style operand fd bound mark
      | .error e =>
        Tool.complainOf "write error".toList e
        Program.exit 1

/-- Whether an open file is the one that is written to, and there is something in it to be read. -/
def feedsItself (source target : FileStatus) (offset : Nat) : Bool :=
  target.kind = .regular && source.identity = target.identity && offset < source.size

/-- Passes on one operand after the other. -/
def copyAll (style : LineStyle) (target : FileStatus) :
    List Text → LineStyle.Mark → (status : Nat) → Tool Nat
  | [], _, status => return status
  | operand :: rest, mark, status => do
    match ← Tool.openOperand operand with
    | .error e =>
      Tool.complainOf (shown operand) e
      copyAll style target rest mark 1
    | .ok fd =>
      match ← Program.status fd with
      | .error e =>
        Tool.complainOf (shown operand) e
        copyAll style target rest mark 1
      | .ok source =>
        let offset := (← Program.seek fd .current 0).toOption.getD 0
        if feedsItself source target offset then
          Tool.complain (shown operand ++ ": input file is output file".toList)
          Tool.closeOperand operand fd
          copyAll style target rest mark 1
        else
          let copied ← copyFrom style operand fd loopBound mark
          Tool.closeOperand operand fd
          copyAll style target rest (copied.getD mark) (if copied.isSome then status else 1)

/-- Complains if standard input was read and is not open. -/
def checkStdin (operands : List Text) (what : Text) : Tool Unit := do
  if ['-'] ∈ operands then
    if let .error e ← Program.status Tool.stdin then
      Tool.complainOf what e
      Tool.finish 1

def runCat (args : List Text) : Tool Nat := do
  let (style, operands) ← Tool.withOptions catOptions args 1 LineStyle.take {}
  let operands := inputs operands
  match ← Program.status Tool.stdout with
  | .error e =>
    Tool.complainOf "standard output".toList e
    return 1
  | .ok target =>
    let status ← copyAll style target operands {} 0
    checkStdin operands "closing standard input".toList
    return status

end LineShell.Utility
