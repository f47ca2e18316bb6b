import LineShell.Proofs.Action
import LineShell.Proofs.Walk

/-! What the shell writes itself. Of the world that changes the machine, by writes, and what is kept
for standard output (`World.Wrote`); the rest of the world makes no difference to it (`Beside`). -/

namespace LineShell

open Act

/-- A write changes contents and offsets, and nothing that a walk sees. -/
theorem Machine.look_writeStream {m m' : Machine} {held : List Nat} {stream count : Nat}
    {bytes : Bytes} (h : m.writeStream held stream bytes = .done (count, m')) :
    m'.root.look = m.root.look := by
  rw [writeStream] at h
  split at h
  · cases h
  split at h
  · cases h
  split at h
  case h_1 position _ =>
    split at h
    · next there =>
      cases h
      exact Node.look_put there (Node.look_file ..)
    · cases h
  case h_2 => cases h; rfl
  case h_3 =>
    split at h <;> cases h
    rfl
  case h_4 => cases h; rfl
  case h_5 =>
    simp only at h
    split at h
    · cases h
    · split at h
      · cases h; rfl
      · split at h <;> cases h
        rfl
  all_goals cases h

theorem Machine.look_write {m m' : Machine} {stream : Nat} {bytes : Bytes}
    (h : m.write stream bytes = .ok m') : m'.root.look = m.root.look := by
  rw [write] at h
  split at h
  · next written =>
    cases h
    exact look_writeStream written
  all_goals cases h

/-- A descriptor that is not open takes everything. -/
theorem Machine.writeStandard_eq_ok {m m' : Machine} {stream : Nat} {bytes : Bytes} :
    m.writeStandard stream bytes = .ok m' ↔
      m.write stream bytes = .ok m' ∨ m.write stream bytes = .error .badDescriptor ∧ m = m' := by
  rw [writeStandard]
  cases m.write stream bytes with
  | ok m => simp
  | error e => by_cases shut : e = .badDescriptor <;> simp [shut]

namespace World

/-- From one world to another some bytes have been written, or are kept for standard output. -/
inductive Wrote : World → World → Prop
  | nothing {world : World} : Wrote world world
  | written {world after : World} {machine : Machine} {stream : Nat} {bytes : Bytes}
      (takes : world.machine.write stream bytes = .ok machine)
      (later : Wrote { world with machine } after) : Wrote world after
  | kept {world after : World} {unwritten : Bytes}
      (later : Wrote { world with unwritten } after) : Wrote world after

instance : Onward Wrote where
  refl _ := .nothing
  trans first second := by
    induction first with
    | nothing => exact second
    | written takes _ ih => exact .written takes (ih second)
    | kept _ ih => exact .kept (ih second)

namespace Wrote

variable {before after : World}

/-- What a write and a change of what is kept lead to, all that is written leads to. -/
theorem leads {R : World → World → Prop} [onward : Onward R]
    (writes : ∀ (world : World) {stream : Nat} {bytes : Bytes} {machine : Machine},
      world.machine.write stream bytes = .ok machine → R world { world with machine })
    (keeps : ∀ (world : World) (unwritten : Bytes), R world { world with unwritten })
    (wrote : Wrote before after) : R before after := by
  induction wrote with
  | nothing => exact onward.refl _
  | written takes _ ih => exact onward.trans (writes _ takes) ih
  | kept _ ih => exact onward.trans (keeps _ _) ih

/-- A walk sees nothing of it. -/
theorem alike (wrote : Wrote before after) :
    after.machine.root.look = before.machine.root.look :=
  leads (R := fun before after => after.machine.root.look = before.machine.root.look)
    (fun _ _ _ _ takes => Machine.look_write takes) (fun _ _ => rfl) wrote

/-- Everything but the machine and what is kept is as it was. -/
theorem beside (wrote : Wrote before after) :
    after = { before with machine := after.machine, unwritten := after.unwritten } := by
  induction wrote with
  | nothing => rfl
  | written _ _ ih => exact ih
  | kept _ ih => exact ih

end Wrote
end World

/-! What is written and printed by the actions of the shell. -/

theorem wrote_writeText (stream : Nat) (text : Text) :
    (writeText stream text).Within World.Wrote := by
  rw [writeText]
  split
  · exact .pure _
  · exact .rebuild (fun _ _ takes => .written (mapError_eq_ok.mp takes) .nothing) fun _ _ => .pure _

theorem wrote_writeStandard (stream : Nat) (bytes : Bytes) :
    (writeStandard stream bytes).Within World.Wrote := by
  rw [writeStandard]
  split
  · exact .pure _
  · refine .rebuild (fun world machine takes => ?_) fun _ _ => .pure _
    rcases Machine.writeStandard_eq_ok.mp (mapError_eq_ok.mp takes) with takes | ⟨-, rfl⟩
    · exact .written takes .nothing
    · exact .nothing

theorem wrote_tell {ε : Type} (text : Text) : (tell text : Act ε Unit).Within World.Wrote :=
  .bind .get fun _ => .insist (wrote_writeStandard _ _)

theorem outcome_writeStandard {stream : Nat} {bytes : Bytes} (some_bytes : bytes ≠ [])
    (world : World) : (writeStandard stream bytes).outcome world =
      match world.machine.writeStandard stream bytes with
      | .ok machine => (.ok (), { world with machine })
      | .error e => (.error (.error (.os e)), world) := by
  have some_bytes : ¬ bytes.isEmpty = true := by simpa using some_bytes
  rw [writeStandard, if_neg some_bytes]
  simp only [outcome_bind, outcome_get, outcome_ofExcept]
  cases world.machine.writeStandard stream bytes <;> rfl

theorem encode_append (front back : Text) : encode (front ++ back) = encode front ++ encode back :=
  List.flatMap_append

theorem encode_flatten (pieces : List Text) : encode pieces.flatten = pieces.flatMap encode := by
  induction pieces with
  | nil => rfl
  | cons piece rest ih => rw [List.flatten_cons, encode_append, ih, List.flatMap_cons]

theorem encode_ne_nil {text : Text} (given : text ≠ []) : encode text ≠ [] := by
  obtain ⟨c, rest, rfl⟩ := List.exists_cons_of_ne_nil given
  have held : String.utf8EncodeChar c ≠ [] := by
    rw [← List.length_pos_iff, String.length_utf8EncodeChar]
    exact c.utf8Size_pos
  rw [encode, List.flatMap_cons]
  exact List.append_ne_nil_of_left_ne_nil held _

theorem encode_line (text : Text) : encode (text ++ ['\n']) = encode text ++ [10] := by
  rw [encode_append]
  rfl

/-- The world in which a message has been written to standard error; there is none if the message is
refused. -/
def World.told? (world : World) (text : Text) : Option World :=
  match world.machine.writeStandard (world.streamOf Descriptors.stderr)
      (encode (text ++ ['\n'])) with
  | .ok machine => some { world with machine }
  | .error _ => none

theorem outcome_tell {ε : Type} (text : Text) (world : World) :
    (tell text : Act ε Unit).outcome world = match world.told? text with
      | some after => (.ok (), after)
      | none => (.error .crash, world) := by
  have some_bytes : encode (text ++ ['\n']) ≠ [] := by simp [encode_line]
  rw [tell, outcome_bind, outcome_get, World.told?]
  simp only [outcome_insist, outcome_writeStandard some_bytes]
  cases world.machine.writeStandard (world.streamOf Descriptors.stderr)
    (encode (text ++ ['\n'])) <;> rfl

namespace StandardOutput

theorem wrote_write (bytes : Bytes) : (write bytes).Within World.Wrote :=
  .bind .get fun _ => wrote_writeStandard _ _

theorem wrote_flush : flush.Within World.Wrote :=
  .bind .get fun _ => .bind (wrote_write _) fun _ => .modify fun _ => .kept .nothing

theorem wrote_keep (bytes : Bytes) : (keep bytes).Within World.Wrote := by
  have keeps : (do
      if capacity ≤ bytes.length then write bytes
      else modify fun world => { world with unwritten := world.unwritten ++ bytes } :
        Act IoError Unit).Within World.Wrote := by
    split
    · exact wrote_write bytes
    · exact .modify fun _ => .kept .nothing
  refine .bind .get fun world => ?_
  dsimp only
  split
  · exact .bind wrote_flush fun _ => keeps
  · exact keeps

theorem wrote_print (bytes : Bytes) : (print bytes).Within World.Wrote := by
  have last : (keep (openLine bytes)).Within World.Wrote := wrote_keep _
  refine .bind .get fun world => ?_
  dsimp only
  split
  · split
    · exact .bind wrote_flush fun _ => last
    · exact last
  · split
    · exact .bind (wrote_write _) fun _ => last
    · exact .bind (wrote_keep _) fun _ => .bind wrote_flush fun _ => last

end StandardOutput

theorem World.wrote_flushed (world : World) : world.Wrote world.flushed :=
  StandardOutput.wrote_flush world

theorem World.flushed_of_nothing {world : World} (nothing : world.unwritten = []) :
    world.flushed = world := by
  obtain ⟨_, _, _, _, _, _, _⟩ := world
  subst nothing
  rfl

namespace Output

variable (output : Output)

theorem wrote_print (pieces : List Text) : (output.print pieces).Within World.Wrote := by
  refine .forM (fun piece => .mapError ?_ _) pieces
  rw [write]
  split
  · exact wrote_writeText _ _
  · exact StandardOutput.wrote_print _

theorem wrote_line (text : Text) : (output.line text).Within World.Wrote := output.wrote_print _

theorem wrote_lines (rows : List (List Text)) : (output.lines rows).Within World.Wrote :=
  .forM output.wrote_print rows

theorem wrote_complain (text : Text) : (output.complain text).Within World.Wrote :=
  .mapError (wrote_writeStandard _ _) _

theorem wrote_flush : output.flush.Within World.Wrote := by
  rw [flush]
  split
  · exact .pure _
  · exact StandardOutput.wrote_flush

end Output

theorem line_ok {output : Output} {text : Text} {world world' : World}
    (h : (output.line text).outcome world = (.ok (), world')) :
    ∃ machine unwritten, world' = { world with machine, unwritten } ∧
      machine.root.look = world.machine.root.look := by
  have wrote := output.wrote_line text world
  rw [h] at wrote
  exact ⟨_, _, wrote.beside, wrote.alike⟩

/-! The rest of the world makes no difference to what is written. -/

/-- A change of the world beside its machine, its descriptors and what is kept. -/
structure Beside (change : World → World) : Prop where
  machine : ∀ world, (change world).machine = world.machine
  descriptors : ∀ world, (change world).descriptors = world.descriptors
  unwritten : ∀ world, (change world).unwritten = world.unwritten
  after : ∀ world machine unwritten,
    change { world with machine, unwritten } = { change world with machine, unwritten }

namespace Beside

variable {change : World → World} (beside : Beside change)
include beside

theorem streamOf (world : World) (fd : Nat) : (change world).streamOf fd = world.streamOf fd := by
  rw [World.streamOf, World.streamOf, beside.machine, beside.descriptors]

theorem after_machine (world : World) (machine : Machine) :
    { change world with machine } = change { world with machine } := by
  have same := beside.after world machine world.unwritten
  rw [same, ← beside.unwritten world]

theorem after_unwritten (world : World) (unwritten : Bytes) :
    { change world with unwritten } = change { world with unwritten } := by
  have same := beside.after world world.machine unwritten
  rw [same, ← beside.machine world]

theorem writeText (stream : Nat) (text : Text) :
    (writeText stream text).CommutesWith change := by
  rw [LineShell.writeText]
  split
  · exact .pure _
  · exact .rebuild (fun world => by rw [beside.machine])
      (fun world _ => beside.after_machine world _) (fun _ => rfl) fun _ _ => .pure _

theorem writeStandard (stream : Nat) (bytes : Bytes) :
    (writeStandard stream bytes).CommutesWith change := by
  rw [LineShell.writeStandard]
  split
  · exact .pure _
  · exact .rebuild (fun world => by rw [beside.machine])
      (fun world _ => beside.after_machine world _) (fun _ => rfl) fun _ _ => .pure _

theorem tell {ε : Type} (text : Text) : (tell text : Act ε Unit).CommutesWith change :=
  .get_bind (fun world => by rw [beside.streamOf]) fun _ => .insist (beside.writeStandard _ _)

theorem write (bytes : Bytes) : (StandardOutput.write bytes).CommutesWith change :=
  .get_bind (fun world => by rw [beside.streamOf]) fun _ => beside.writeStandard _ _

theorem flush : StandardOutput.flush.CommutesWith change :=
  .get_bind (fun world => by rw [beside.unwritten]) fun _ => .bind (beside.write _) fun _ =>
    .modify fun world => beside.after_unwritten world []

theorem keep (bytes : Bytes) : (StandardOutput.keep bytes).CommutesWith change := by
  have keeps : (do
      if StandardOutput.capacity ≤ bytes.length then StandardOutput.write bytes
      else modify fun world => { world with unwritten := world.unwritten ++ bytes } :
        Act IoError Unit).CommutesWith change := by
    split
    · exact beside.write bytes
    · exact .modify fun world => by rw [beside.unwritten, beside.after_unwritten]
  refine .get_bind (fun world => by rw [beside.unwritten]) fun world => ?_
  dsimp only
  split
  · exact .bind beside.flush fun _ => keeps
  · exact keeps

theorem printBytes (bytes : Bytes) : (StandardOutput.print bytes).CommutesWith change := by
  have last : (StandardOutput.keep (StandardOutput.openLine bytes)).CommutesWith change :=
    beside.keep _
  refine .get_bind (fun world => by rw [beside.unwritten]) fun world => ?_
  dsimp only
  split
  · split
    · exact .bind beside.flush fun _ => last
    · exact last
  · split
    · exact .bind (beside.write _) fun _ => last
    · exact .bind (beside.keep _) fun _ => .bind beside.flush fun _ => last

theorem flushed (world : World) : (change world).flushed = change world.flushed :=
  congrArg Prod.snd (beside.flush world)

variable (output : Output)

theorem print (pieces : List Text) : (output.print pieces).CommutesWith change := by
  refine .forM (fun piece => .mapError ?_ _) pieces
  rw [Output.write]
  split
  · exact beside.writeText _ _
  · exact beside.printBytes _

theorem lines (rows : List (List Text)) : (output.lines rows).CommutesWith change :=
  .forM (beside.print output) rows

theorem complain (text : Text) : (output.complain text).CommutesWith change :=
  .mapError (beside.writeStandard _ _) _

theorem flushOutput : output.flush.CommutesWith change := by
  rw [Output.flush]
  split
  · exact .pure _
  · exact beside.flush

end Beside
end LineShell
