import LineShell.Text

/-! Byte offsets into a text. A text of characters has a size in UTF-8 bytes, and an offset may
fall at the edge of a character, inside one, or past the end. `dropBytes?` answers only at an
edge, so it is the test for being one. -/

namespace LineShell

/-- The number of bytes of the text in UTF-8. -/
def byteSize : Text → Nat
  | [] => 0
  | c :: rest => c.utf8Size + byteSize rest

theorem byteSize_append (a b : Text) : byteSize (a ++ b) = byteSize a + byteSize b := by
  induction a with
  | nil => simp [byteSize]
  | cons c rest ih => simp [byteSize, ih, Nat.add_assoc]

/-- What follows the first `n` bytes, if they are whole characters. -/
def dropBytes? : Text → Nat → Option Text
  | text, 0 => some text
  | [], _ + 1 => none
  | c :: rest, n + 1 => if c.utf8Size ≤ n + 1 then dropBytes? rest (n + 1 - c.utf8Size) else none

/-- The first `n` bytes, if they are whole characters. -/
def takeBytes? : Text → Nat → Option Text
  | _, 0 => some []
  | [], _ + 1 => none
  | c :: rest, n + 1 =>
    if c.utf8Size ≤ n + 1 then (takeBytes? rest (n + 1 - c.utf8Size)).map (c :: ·) else none

/-- The text between two offsets, if both are edges of characters and in order. -/
def slice? (text : Text) (start stop : Nat) : Option Text :=
  if start ≤ stop then (dropBytes? text start).bind (takeBytes? · (stop - start)) else none

/-- The offset of the first `c`. -/
def offsetOf? (c : Char) : Text → Option Nat
  | [] => none
  | x :: rest => if x = c then some 0 else (offsetOf? c rest).map (x.utf8Size + ·)

theorem dropBytes?_byteSize (a b : Text) : dropBytes? (a ++ b) (byteSize a) = some b := by
  induction a with
  | nil => cases b <;> rfl
  | cons c rest ih =>
    have hc := c.utf8Size_pos
    obtain ⟨n, hn⟩ : ∃ n, byteSize (c :: rest) = n + 1 :=
      ⟨byteSize (c :: rest) - 1, by simp [byteSize]; omega⟩
    have hsize : n + 1 - c.utf8Size = byteSize rest := by simp [byteSize] at hn; omega
    have hle : c.utf8Size ≤ n + 1 := by simp [byteSize] at hn; omega
    rw [hn, List.cons_append, dropBytes?, if_pos hle, hsize, ih]

theorem takeBytes?_byteSize (a b : Text) : takeBytes? (a ++ b) (byteSize a) = some a := by
  induction a with
  | nil => cases b <;> rfl
  | cons c rest ih =>
    have hc := c.utf8Size_pos
    obtain ⟨n, hn⟩ : ∃ n, byteSize (c :: rest) = n + 1 :=
      ⟨byteSize (c :: rest) - 1, by simp [byteSize]; omega⟩
    have hsize : n + 1 - c.utf8Size = byteSize rest := by simp [byteSize] at hn; omega
    have hle : c.utf8Size ≤ n + 1 := by simp [byteSize] at hn; omega
    rw [hn, List.cons_append, takeBytes?, if_pos hle, hsize, ih, Option.map_some]

theorem slice?_byteSize (a b c : Text) :
    slice? (a ++ b ++ c) (byteSize a) (byteSize a + byteSize b) = some b := by
  rw [slice?, if_pos (Nat.le_add_right _ _), List.append_assoc, dropBytes?_byteSize]
  simp [takeBytes?_byteSize]

end LineShell
