import LineShell.Identifier
import LineShell.Text.Offset

/-! Replacing the references `$NAME` and `${NAME}` of a line by values, in one pass from left to
right over the raw line, before it is cut into words. The pass keeps two byte offsets: where the
text not copied yet begins, and where it reads. A value is never read again, and a `$` that
begins no reference stays. The offsets only ever cut the line between characters; `turn` would
answer `none` if one did not. -/

namespace LineShell.Expansion

/-- A pass over a line: the offset up to which it is copied, the offset it reads at, and what is
copied. -/
structure Pass where
  copied : Nat
  reading : Nat
  output : Text
  deriving Repr, DecidableEq

/-- The reference after a `$`, given the offset behind that `$`: its name and the offset behind
it. The outer `none` says that an offset cuts a character. -/
def reference? (line : Text) (start : Nat) : Option (Option (Text × Nat)) := do
  let rest ← dropBytes? line start
  match rest with
  | '{' :: braced =>
    match offsetOf? '}' braced with
    | none => return none
    | some close =>
      let name ← takeBytes? braced close
      return if isIdentifier name then some (name, start + close + 2) else none
  | _ =>
    let size := byteSize (leadingIdentifier rest)
    if size = 0 then return none
    let name ← takeBytes? rest size
    return some (name, start + size)

/-- One turn of the pass: one byte further, or over a whole reference. -/
def turn (lookup : Text → Option Text) (line : Text) (pass : Pass) : Option Pass :=
  match dropBytes? line pass.reading with
  | some ('$' :: _) => do
    match ← reference? line (pass.reading + 1) with
    | none => return { pass with reading := pass.reading + 1 }
    | some (name, stop) =>
      let literal ← slice? line pass.copied pass.reading
      return ⟨stop, stop, pass.output ++ literal ++ (lookup name).getD []⟩
  | _ => some { pass with reading := pass.reading + 1 }

/-- At most `turns` turns, and what remains of the line after them. -/
def run (lookup : Text → Option Text) (line : Text) : (turns : Nat) → Pass → Option Text
  | turns, pass =>
    if byteSize line ≤ pass.reading then
      (slice? line pass.copied (byteSize line)).map (pass.output ++ ·)
    else match turns with
      | 0 => none
      | turns + 1 => (turn lookup line pass).bind (run lookup line turns)

end Expansion

/-- The line with its references replaced; a name that `lookup` does not know gives nothing.
Every turn reads at least one byte, so a turn for each byte is enough. -/
def expand? (lookup : Text → Option Text) (line : Text) : Option Text :=
  Expansion.run lookup line (byteSize line) ⟨0, 0, []⟩

end LineShell
