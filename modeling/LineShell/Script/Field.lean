import LineShell.Script.Pattern

/-! What words become when they are expanded, and how that is cut into fields. An expanded word is a
list of stretches of characters; only what came of an expansion is cut, at the characters that
separate fields. -/

namespace LineShell.Script

/-- A character that has been expanded; where a quote opened or closed; or the gap between two
arguments. -/
inductive Glyph
  | char (c : Char) (quoted : Bool)
  | mark
  | gap
  deriving Repr, DecidableEq

/-- How a stretch is cut: not at all, at separators, or at gaps only. -/
inductive Cutting
  | whole
  | loose
  | strict
  deriving Repr, DecidableEq

structure Stretch where
  glyphs : List Glyph
  cutting : Cutting := .whole
  deriving Repr, DecidableEq

namespace Glyph

/-- Characters as they are. -/
def text (glyphs : List Glyph) : Text :=
  glyphs.filterMap fun glyph => match glyph with
    | char c _ => some c
    | mark | gap => none

/-- Characters as they are, with a NUL for a gap. -/
def counted (glyphs : List Glyph) : Text :=
  glyphs.filterMap fun glyph => match glyph with
    | char c _ => some c
    | gap => some '\x00'
    | mark => none

/-- Characters as a pattern, in which those that are quoted stand for themselves. -/
def pattern (glyphs : List Glyph) : Pattern :=
  Pattern.ofSigns (glyphs.filterMap fun glyph => match glyph with
    | char c quoted => some ⟨c, quoted⟩
    | mark | gap => none)

end Glyph

/-- The characters of stretches that are not cut. -/
def textOf (stretches : List Stretch) : Text := stretches.flatMap fun s => Glyph.text s.glyphs

/-! ### Fields -/

/-- Fields while they are cut: the complete ones, the latest first, the glyphs of the open one, the
latest first, whether blanks are being passed over, and whether what comes before is cut at gaps
only. Where the number of fields is limited, the last one takes everything that is left, less the
blanks, or a single separator, at its end. -/
structure Cut where
  fields : List (List Glyph) := []
  current : List Glyph := []
  isPassing : Bool := false
  wasStrict : Bool := false
  /-- How many fields may still be cut. -/
  limit : Option Nat := none
  /-- How long the last field is, if it ends before the open one does. -/
  length : Option Nat := none

def isBlankSeparator (c : Char) : Bool := c = ' ' || c = '\t' || c = '\n'

namespace Cut

def push (cut : Cut) (glyph : Glyph) : Cut := { cut with current := glyph :: cut.current }

/-- The next glyph of a stretch that is cut. -/
def step (separators : Text) (isStrict : Bool) (cut : Cut) (glyph : Glyph) : Cut :=
  let (separates, isBlank) : Bool × Bool := match glyph with
    | .gap => (true, true)
    | .mark => (false, false)
    | .char c _ =>
      let separates := !isStrict && separators.contains c
      (separates, separates && isBlankSeparator c)
  if cut.limit = some 0 then
    if isBlank then { cut.push glyph with length := some (cut.length.getD cut.current.length) }
    else { cut.push glyph with
      length := if separates && cut.isPassing then cut.length else none, isPassing := false }
  else if cut.isPassing then
    if isBlank then { cut with current := [] }
    else { cut with current := if separates then [] else [glyph], isPassing := false }
  else if separates then
    let passes : Bool := !(cut.wasStrict || isStrict) && isBlank
    if cut.current.isEmpty && passes then cut
    else if cut.limit = some 1 then
      { cut.push glyph with limit := some 0, length := some cut.current.length, isPassing := passes }
    else { cut with
      fields := cut.current.reverse :: cut.fields, current := [], isPassing := passes
      limit := cut.limit.map (· - 1) }
  else cut.push glyph

/-- The next stretch. -/
def stretch (separators : Text) (cut : Cut) (s : Stretch) : Cut :=
  match s.cutting with
  | .whole => { cut with current := s.glyphs.reverse ++ cut.current }
  | cutting =>
    let isStrict : Bool := cutting = .strict
    let cut := s.glyphs.foldl (step separators isStrict) { cut with isPassing := false }
    { cut with wasStrict := isStrict }

/-- All fields. An open field that is empty counts only behind something cut at gaps. -/
def finish (cut : Cut) : List (List Glyph) :=
  let last := cut.current.reverse
  let last := match cut.length with
    | some n => last.take n
    | none => last
  (if last.isEmpty && !cut.wasStrict then cut.fields else last :: cut.fields).reverse

end Cut

/-- The fields of an expanded word; with a limit there are no more than that. -/
def fieldsOf (separators : Text) (limit : Option Nat) (stretches : List Stretch) :
    List (List Glyph) :=
  (stretches.foldl (Cut.stretch separators) { limit }).finish

end LineShell.Script
