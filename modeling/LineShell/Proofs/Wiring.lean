import LineShell.Descriptors
import Mathlib.Data.List.Nodup
import Mathlib.Data.List.Perm.Subperm
import Mathlib.Tactic.Common

/-! What a descriptor leads to. A new descriptor has the lowest number that is free, and leaves the
others as they are. A child that is wired reads from its file, or else from its pipe, or else from
where its parent does, and writes likewise; of what it was given for that it keeps nothing else.
Every step of the wiring keeps what the steps before it have put in place (`ChildIo.Overlaid`), which
gives the whole of the child's table (`ChildIo.get?_wire?`). -/

namespace LineShell

namespace Table

variable {κ α : Type} [DecidableEq κ] {t : Table κ α} {key : κ} {value : α}

theorem mem_keys_iff : key ∈ t.keys ↔ (t.get? key).isSome := by
  simp [keys, get?]

theorem mem_entries_iff : (key, value) ∈ t.entries ↔ t.get? key = some value := by
  obtain ⟨entries, nodup⟩ := t
  simp only [get?]
  induction entries with
  | nil => simp
  | cons entry rest ih =>
    rw [List.map_cons, List.nodup_cons] at nodup
    by_cases same : entry.1 = key
    · have absent : (key, value) ∉ rest := fun member =>
        nodup.1 (List.mem_map.mpr ⟨_, member, same.symm⟩)
      rw [List.find?_cons_of_pos (by simpa using same), List.mem_cons, or_iff_left absent]
      obtain ⟨name, held⟩ := entry
      subst same
      simp [eq_comm]
    · have other : (key, value) ≠ entry := fun this => same (congrArg Prod.fst this).symm
      rw [List.find?_cons_of_neg (by simpa using same), List.mem_cons, or_iff_right other]
      exact ih nodup.2

end Table

namespace Descriptors

variable {table mid old : Descriptors} {fd source target least bound : Nat}

theorem lowestFreeFrom_not_mem (table : Descriptors) (least : Nat) :
    table.lowestFreeFrom least ∉ table.keys := by
  rw [lowestFreeFrom]
  cases found : ((List.range table.keys.length).map (least + ·)).find? (· ∉ table.keys) with
  | some fd => simpa using List.find?_some found
  | none =>
    -- All numbers before this one are in use, and the table has no room for one more.
    intro last
    have inside : (List.range (table.keys.length + 1)).map (least + ·) ⊆ table.keys := by
      intro fd member
      obtain ⟨i, small, rfl⟩ := List.mem_map.mp member
      rcases Nat.lt_succ_iff_lt_or_eq.mp (List.mem_range.mp small) with small | rfl
      · have := List.find?_eq_none.mp found (least + i)
        simpa [small] using this
      · exact last
    have distinct : ((List.range (table.keys.length + 1)).map (least + ·)).Nodup :=
      List.nodup_range.map fun i j same => Nat.add_left_cancel same
    have short := (List.subperm_of_subset distinct inside).length_le
    rw [List.length_map, List.length_range] at short
    omega

theorem get?_lowestFreeFrom (table : Descriptors) (least : Nat) :
    table.get? (table.lowestFreeFrom least) = none := by
  have free := table.lowestFreeFrom_not_mem least
  rwa [Table.mem_keys_iff, Bool.not_eq_true, Option.isSome_eq_false_iff, Option.isNone_iff_eq_none]
    at free

/-- A descriptor that is in use is not the one to be given out next. -/
theorem ne_lowestFree (used : (table.get? fd).isSome) : fd ≠ table.lowestFree := by
  rintro rfl
  rw [lowestFree, get?_lowestFreeFrom] at used
  cases used

/-- All that one table has is in another one too. -/
def Kept (table later : Descriptors) : Prop :=
  ∀ fd handle, table.get? fd = some handle → later.get? fd = some handle

theorem Kept.trans {later : Descriptors} (first : table.Kept mid) (second : mid.Kept later) :
    table.Kept later := fun fd handle held => second fd handle (first fd handle held)

theorem Kept.get? {later : Descriptors} (kept : table.Kept later) (used : (table.get? fd).isSome) :
    later.get? fd = table.get? fd := by
  obtain ⟨handle, held⟩ := Option.isSome_iff_exists.mp used
  rw [held, kept fd handle held]

theorem Kept.stream? {later : Descriptors} (kept : table.Kept later)
    (used : (table.get? fd).isSome) : later.stream? fd = table.stream? fd := by
  rw [Descriptors.stream?, kept.get? used]
  rfl

theorem Kept.leads {later : Descriptors} {stream : Nat} (kept : table.Kept later)
    (leads : table.stream? fd = some stream) : later.stream? fd = some stream := by
  obtain ⟨handle, held, rfl⟩ := Option.map_eq_some_iff.mp leads
  rw [Descriptors.stream?, kept fd handle held]
  rfl

theorem get?_add (table : Descriptors) (stream fd : Nat) : (table.add stream).2.get? fd =
    if fd = table.lowestFree then some ⟨stream, true⟩ else table.get? fd :=
  Table.get?_insert ..

theorem stream?_add_self (table : Descriptors) (stream : Nat) :
    (table.add stream).2.stream? (table.add stream).1 = some stream := by
  rw [stream?, get?_add]
  exact congrArg (Option.map Handle.stream) (if_pos rfl)

theorem kept_add (table : Descriptors) (stream : Nat) : table.Kept (table.add stream).2 := by
  intro fd handle held
  rw [get?_add, if_neg (ne_lowestFree (by rw [held]; rfl)), held]

theorem stream?_add {stream number : Nat} (leads : (table.add stream).2.stream? fd = some number) :
    number = stream ∨ table.stream? fd = some number := by
  rw [stream?, get?_add] at leads
  split at leads
  · exact .inl (Option.some.inj leads).symm
  · exact .inr leads

/-- Two new descriptors, one after the other. -/
theorem stream?_add_add {first second stream : Nat} :
    let one := table.add first
    let two := one.2.add second
    two.2.stream? fd = some stream → fd = two.1 ∧ stream = second ∨ fd = one.1 ∧ stream = first ∨
      table.stream? fd = some stream := by
  intro one two leads
  rw [stream?, get?_add] at leads
  split at leads
  · next same => exact .inl ⟨same, (Option.some.inj leads).symm⟩
  rw [get?_add] at leads
  split at leads
  · next same => exact .inr (.inl ⟨same, (Option.some.inj leads).symm⟩)
  · exact .inr (.inr leads)

theorem lt_lowestFree (used : ∀ fd ≤ least, (table.get? fd).isSome) : least < table.lowestFree := by
  by_contra notAbove
  exact ne_lowestFree (used _ (Nat.not_lt.mp notAbove)) rfl

theorem get?_closeAll (table : Descriptors) (fds : List Nat) (fd : Nat) :
    (table.closeAll fds).get? fd = if fd ∈ fds then none else table.get? fd := by
  induction fds generalizing table with
  | nil => rfl
  | cons first rest ih =>
    have step : table.closeAll (first :: rest) = (table.close first).closeAll rest := rfl
    rw [step, ih, close, Table.get?_erase]
    by_cases same : fd = first <;> simp [same]

theorem stream?_closeAll {fds : List Nat} {stream : Nat}
    (leads : (table.closeAll fds).stream? fd = some stream) :
    fd ∉ fds ∧ table.stream? fd = some stream := by
  rw [stream?, get?_closeAll] at leads
  split at leads
  · cases leads
  · next notClosed => exact ⟨notClosed, leads⟩

theorem redirect?_eq {handle : Handle} (there : table.get? source = some handle)
    (other : source ≠ target) :
    table.redirect? source target = some (table.insert target ⟨handle.stream, false⟩) := by
  rw [redirect?, there, Option.map_some, if_neg other]

/-- What `target` is once `source?` has been put in its place, if there is one: it leads where that
leads, and stays open in another program. -/
def replaced (table : Descriptors) (source? : Option Nat) (target : Nat) : Option Handle :=
  match source? with
  | none => table.get? target
  | some source => (table.get? source).map fun handle => ⟨handle.stream, false⟩

theorem stream_replaced (table : Descriptors) (source? : Option Nat) (target : Nat) :
    (table.replaced source? target).map Handle.stream = table.stream? (source?.getD target) := by
  cases source? with
  | none => rfl
  | some source => exact Option.map_map ..

/-- A table leads nowhere but where another one does, or to streams that are new: they have the
numbers from `least` on, and those are given out up to `bound`. -/
def Inherits (table old : Descriptors) (least bound : Nat) : Prop :=
  ∀ fd stream, table.stream? fd = some stream →
    (∃ fd', old.stream? fd' = some stream) ∨ least ≤ stream ∧ stream < bound

theorem Inherits.refl (table : Descriptors) (least bound : Nat) :
    table.Inherits table least bound := fun fd _ leads => .inl ⟨fd, leads⟩

theorem Inherits.trans (first : mid.Inherits old least bound)
    (second : table.Inherits mid least bound) : table.Inherits old least bound := by
  intro fd stream leads
  rcases second fd stream leads with ⟨fd', leads⟩ | new
  · exact first fd' stream leads
  · exact .inr new

/-- What is still there leads where it did. -/
theorem Kept.inherits (kept : table.Kept old) : table.Inherits old least bound :=
  fun fd _ leads => .inl ⟨fd, kept.leads leads⟩

theorem inherits_close (table : Descriptors) (fd least bound : Nat) :
    (table.close fd).Inherits table least bound :=
  Kept.inherits fun other handle held => by
    rw [close, Table.get?_erase] at held
    split at held
    · cases held
    · exact held

theorem inherits_afterExec (table : Descriptors) (least bound : Nat) :
    table.afterExec.Inherits table least bound :=
  Kept.inherits fun _ _ held =>
    Table.mem_entries_iff.mp (List.mem_of_mem_filter (Table.mem_entries_iff.mpr held))

theorem inherits_insert {handle : Handle} (known : (∃ fd', table.stream? fd' = some handle.stream) ∨
    least ≤ handle.stream ∧ handle.stream < bound) :
    Inherits (table.insert fd handle) table least bound := by
  intro other stream leads
  rw [stream?, Table.get?_insert] at leads
  split at leads
  · cases leads
    exact known
  · exact .inl ⟨other, leads⟩

theorem inherits_redirect? (connects : table.redirect? source target = some mid) :
    mid.Inherits table least bound := by
  obtain ⟨handle, held, rfl⟩ := Option.map_eq_some_iff.mp connects
  split
  · exact .refl _ _ _
  · exact inherits_insert (.inl ⟨source, by rw [stream?, held]; rfl⟩)

end Descriptors

namespace ChildIo

open Descriptors

variable {table : Descriptors}

/-- The descriptors that are put in place of others. -/
def sources (io : ChildIo) : List Nat :=
  [io.pipeIn, io.pipeOut, io.fileIn, io.fileOut].filterMap id

/-- The descriptors that a child is given for its wiring. -/
def given (io : ChildIo) : List Nat := io.sources ++ io.extraClose

theorem mem_sources {io : ChildIo} {fd : Nat} : fd ∈ io.sources ↔
    io.pipeIn = some fd ∨ io.pipeOut = some fd ∨ io.fileIn = some fd ∨ io.fileOut = some fd := by
  simp [sources, eq_comm]

theorem mem_given {io : ChildIo} {fd : Nat} : fd ∈ io.given ↔
    fd ∈ io.sources ∨ fd ∈ io.extraClose := List.mem_append

/-- Whatever a child is given, it leads nowhere but where its parent does. -/
theorem leads_wire? {io : ChildIo} {wired : Descriptors} (wires : io.wire? table = some wired)
    {fd stream : Nat} (leads : wired.stream? fd = some stream) :
    ∃ fd', table.stream? fd' = some stream := by
  have connected (steps : List (Option Nat × Nat)) (first last : Descriptors)
      (connects : steps.foldlM connect? first = some last) : last.Inherits first 0 0 := by
    induction steps generalizing first with
    | nil =>
      obtain rfl := Option.some.inj connects
      exact .refl _ _ _
    | cons step rest ih =>
      rw [List.foldlM_cons] at connects
      obtain ⟨mid, one, connects⟩ := Option.bind_eq_some_iff.mp connects
      refine .trans ?_ (ih mid connects)
      obtain ⟨_ | source, target⟩ := step
      · obtain rfl := Option.some.inj one
        exact .refl _ _ _
      · exact inherits_redirect? one
  obtain ⟨last, connects, rfl⟩ := Option.map_eq_some_iff.mp wires
  obtain ⟨-, leads⟩ := stream?_closeAll leads
  exact (connected _ _ _ connects fd stream leads).resolve_right fun new => absurd new.2 (by omega)

theorem connect?_eq {source? : Option Nat} {target : Nat}
    (there : ∀ source ∈ source?, (table.get? source).isSome ∧ source ≠ target) :
    ∃ wired, connect? table (source?, target) = some wired ∧
      wired.get? target = table.replaced source? target ∧
      ∀ fd, fd ≠ target → wired.get? fd = table.get? fd := by
  cases source? with
  | none => exact ⟨table, rfl, rfl, fun _ _ => rfl⟩
  | some source =>
    obtain ⟨isOpen, other⟩ := there source rfl
    obtain ⟨handle, held⟩ := Option.isSome_iff_exists.mp isOpen
    refine ⟨_, redirect?_eq held other, ?_, fun fd elsewhere => ?_⟩
    · rw [Table.get?_insert, if_pos rfl, replaced, held, Option.map_some]
    · rw [Table.get?_insert, if_neg elsewhere]

/-- A table of which standard input and output have been made to lead where other descriptors
lead. -/
structure Overlaid (table wired : Descriptors) (input output : Option Nat) : Prop where
  input : wired.get? stdin = table.replaced input stdin
  output : wired.get? stdout = table.replaced output stdout
  others : ∀ fd, fd ≠ stdin → fd ≠ stdout → wired.get? fd = table.get? fd

namespace Overlaid

variable {wired : Descriptors} {input output source? : Option Nat}

theorem isOpen (done : Overlaid table wired input output)
    (named : ∀ source ∈ source?, stderr < source ∧ (table.get? source).isSome) :
    ∀ source ∈ source?, (wired.get? source).isSome ∧ source ≠ stdin ∧ source ≠ stdout := by
  intro source given
  obtain ⟨above, there⟩ := named source given
  have notInput : source ≠ stdin := Nat.ne_of_gt (Nat.lt_trans (by decide) above)
  have notOutput : source ≠ stdout := Nat.ne_of_gt (Nat.lt_trans (by decide) above)
  rw [done.others source notInput notOutput]
  exact ⟨there, notInput, notOutput⟩

/-- What is put in place next is still what it was. -/
theorem replaced (done : Overlaid table wired input output)
    (named : ∀ source ∈ source?, stderr < source ∧ (table.get? source).isSome) {target : Nat}
    {before : Option Nat} (held : wired.get? target = table.replaced before target) :
    wired.replaced source? target = table.replaced (source?.or before) target := by
  cases source? with
  | none => exact held
  | some source =>
    obtain ⟨-, notInput, notOutput⟩ := done.isOpen named source rfl
    simp only [Descriptors.replaced, Option.or, done.others source notInput notOutput]

theorem connect_input (done : Overlaid table wired input output)
    (named : ∀ source ∈ source?, stderr < source ∧ (table.get? source).isSome) :
    ∃ next, connect? wired (source?, stdin) = some next ∧
      Overlaid table next (source?.or input) output := by
  obtain ⟨next, connects, leads, others⟩ := connect?_eq fun source given =>
    (done.isOpen named source given).imp_right And.left
  refine ⟨next, connects, ?_, ?_, fun fd notInput notOutput => ?_⟩
  · rw [leads, done.replaced named done.input]
  · rw [others stdout (by decide), done.output]
  · rw [others fd notInput, done.others fd notInput notOutput]

theorem connect_output (done : Overlaid table wired input output)
    (named : ∀ source ∈ source?, stderr < source ∧ (table.get? source).isSome) :
    ∃ next, connect? wired (source?, stdout) = some next ∧
      Overlaid table next input (source?.or output) := by
  obtain ⟨next, connects, leads, others⟩ := connect?_eq fun source given =>
    (done.isOpen named source given).imp_right And.right
  refine ⟨next, connects, ?_, ?_, fun fd notInput notOutput => ?_⟩
  · rw [others stdin (by decide), done.input]
  · rw [leads, done.replaced named done.output]
  · rw [others fd notOutput, done.others fd notInput notOutput]

end Overlaid

/-- The wiring succeeds when what is to be put in place is open, and closes what was given. -/
theorem exists_overlaid {io : ChildIo} (above : ∀ fd ∈ io.given, stderr < fd)
    (isOpen : ∀ fd ∈ io.sources, (table.get? fd).isSome) :
    ∃ last, io.wire? table = some (last.closeAll io.given) ∧
      Overlaid table last (io.fileIn.or io.pipeIn) (io.fileOut.or io.pipeOut) := by
  have named (source? : Option Nat)
      (listed : source? ∈ [io.pipeIn, io.pipeOut, io.fileIn, io.fileOut]) :
      ∀ source ∈ source?, stderr < source ∧ (table.get? source).isSome := by
    rintro source ⟨⟩
    have member : source ∈ io.sources := List.mem_filterMap.mpr ⟨some source, listed, rfl⟩
    exact ⟨above source (List.mem_append_left _ member), isOpen source member⟩
  have start : Overlaid table table none none := ⟨rfl, rfl, fun _ _ _ => rfl⟩
  obtain ⟨first, toFirst, done⟩ := start.connect_input (named io.pipeIn (by simp))
  obtain ⟨second, toSecond, done⟩ := done.connect_output (named io.pipeOut (by simp))
  obtain ⟨third, toThird, done⟩ := done.connect_input (named io.fileIn (by simp))
  obtain ⟨last, toLast, done⟩ := done.connect_output (named io.fileOut (by simp))
  rw [Option.or_none, Option.or_none] at done
  have closed : io.opened = io.given :=
    List.filter_eq_self.mpr fun fd listed => by simpa using above fd listed
  refine ⟨last, ?_, done⟩
  rw [wire?, wiring, closed]
  simp only [List.foldlM_cons, List.foldlM_nil, toFirst, toSecond, toThird, toLast, bind,
    Option.bind, pure, Option.map]

/-- A child's standard input is its file, or else its pipe, or else what it was, and its standard
output likewise. It has none of the descriptors that it was given for that, and the others as they
were. -/
theorem exists_wired {io : ChildIo} (above : ∀ fd ∈ io.given, stderr < fd)
    (isOpen : ∀ fd ∈ io.sources, (table.get? fd).isSome) :
    ∃ wired, io.wire? table = some wired ∧
      wired.get? stdin = table.replaced (io.fileIn.or io.pipeIn) stdin ∧
      wired.get? stdout = table.replaced (io.fileOut.or io.pipeOut) stdout ∧
      ∀ fd, fd ≠ stdin → fd ≠ stdout →
        wired.get? fd = if fd ∈ io.given then none else table.get? fd := by
  obtain ⟨last, wires, done⟩ := exists_overlaid above isOpen
  have standard {fd : Nat} (low : fd ≤ stderr) : fd ∉ io.given := fun listed =>
    Nat.not_lt.mpr low (above fd listed)
  refine ⟨_, wires, ?_, ?_, fun fd notInput notOutput => ?_⟩
  · rw [get?_closeAll, if_neg (standard (by decide)), done.input]
  · rw [get?_closeAll, if_neg (standard (by decide)), done.output]
  · rw [get?_closeAll, done.others fd notInput notOutput]

theorem wire?_streams {io : ChildIo} (above : ∀ fd ∈ io.given, stderr < fd)
    (isOpen : ∀ fd ∈ io.sources, (table.get? fd).isSome) :
    ∃ wired, io.wire? table = some wired ∧
      wired.stream? stdin = table.stream? ((io.fileIn.or io.pipeIn).getD stdin) ∧
      wired.stream? stdout = table.stream? ((io.fileOut.or io.pipeOut).getD stdout) ∧
      ∀ fd, fd ≠ stdin → fd ≠ stdout →
        wired.get? fd = if fd ∈ io.given then none else table.get? fd := by
  obtain ⟨wired, wires, input, output, others⟩ := exists_wired above isOpen
  refine ⟨wired, wires, ?_, ?_, others⟩
  · rw [stream?, input, stream_replaced]
  · rw [stream?, output, stream_replaced]

/-- A child leads nowhere but where its parent does, and by what it was given only where that has
been put in place. -/
theorem inherits_wire? {io : ChildIo} (above : ∀ fd ∈ io.given, stderr < fd)
    (isOpen : ∀ fd ∈ io.sources, (table.get? fd).isSome) {wired : Descriptors}
    (wires : io.wire? table = some wired) {fd stream : Nat} (leads : wired.stream? fd = some stream) :
    ∃ fd', table.stream? fd' = some stream ∧ (fd' ∈ io.given →
      io.fileIn.or io.pipeIn = some fd' ∨ io.fileOut.or io.pipeOut = some fd') := by
  obtain ⟨_, wires', reads, writes, others⟩ := wire?_streams above isOpen
  obtain rfl := Option.some.inj (wires'.symm.trans wires)
  by_cases isInput : fd = stdin
  · subst isInput
    rw [reads] at leads
    refine ⟨_, leads, fun given => .inl ?_⟩
    cases put : io.fileIn.or io.pipeIn with
    | none =>
      rw [put] at given
      exact absurd (above _ given) (by decide)
    | some source => rfl
  by_cases isOutput : fd = stdout
  · subst isOutput
    rw [writes] at leads
    refine ⟨_, leads, fun given => .inr ?_⟩
    cases put : io.fileOut.or io.pipeOut with
    | none =>
      rw [put] at given
      exact absurd (above _ given) (by decide)
    | some source => rfl
  · rw [Descriptors.stream?, others fd isInput isOutput] at leads
    split at leads
    · cases leads
    · next notGiven => exact ⟨fd, leads, fun given => absurd given notGiven⟩

/-- The whole of a child's table. Of what it was given, a file is in place of standard input or
output, or else a pipe end, and stays open in another program; nothing of that is open under its own
number, and all else is as it was. -/
theorem get?_wire? {io : ChildIo} (above : ∀ fd ∈ io.given, stderr < fd)
    (isOpen : ∀ fd ∈ io.given, (table.get? fd).isSome) :
    ∃ wired, io.wire? table = some wired ∧
      wired.get? stdin = table.replaced (io.fileIn.or io.pipeIn) stdin ∧
      wired.get? stdout = table.replaced (io.fileOut.or io.pipeOut) stdout ∧
      wired.get? stderr = table.get? stderr ∧
      (∀ fd ∈ io.given, wired.get? fd = none) ∧
      ∀ fd ∉ io.given, fd ≠ stdin → fd ≠ stdout → wired.get? fd = table.get? fd := by
  obtain ⟨wired, wires, input, output, others⟩ := exists_wired above fun fd source =>
    isOpen fd (mem_given.mpr (.inl source))
  refine ⟨wired, wires, input, output, ?_, fun fd given => ?_, fun fd kept notInput notOutput => ?_⟩
  · have kept : stderr ∉ io.given := fun given => Nat.lt_irrefl _ (above stderr given)
    rw [others stderr (by decide) (by decide), if_neg kept]
  · have notInput : fd ≠ stdin := Nat.ne_of_gt (Nat.lt_trans (by decide) (above fd given))
    have notOutput : fd ≠ stdout := Nat.ne_of_gt (Nat.lt_trans (by decide) (above fd given))
    rw [others fd notInput notOutput, if_pos given]
  · rw [others fd notInput notOutput, if_neg kept]

/-- A file goes over the pipe end, standard output was not open before, and some descriptors are
given more than once. -/
theorem get?_wire?_file_over_pipe :
    let table : Descriptors := .ofList [(0, ⟨10, false⟩), (2, ⟨12, false⟩), (3, ⟨13, true⟩),
      (4, ⟨14, true⟩), (5, ⟨15, true⟩), (7, ⟨17, false⟩)]
    let io : ChildIo :=
      { pipeIn := some 3, pipeOut := some 4, fileIn := some 5, extraClose := [4, 5, 4] }
    (∀ fd ∈ io.given, stderr < fd) ∧ (∀ fd ∈ io.given, (table.get? fd).isSome) ∧
      ∃ wired, io.wire? table = some wired ∧ wired.get? 0 = some ⟨15, false⟩ ∧
        wired.get? 1 = some ⟨14, false⟩ ∧ wired.get? 2 = some ⟨12, false⟩ ∧
        (∀ fd ∈ io.given, wired.get? fd = none) ∧ wired.get? 7 = some ⟨17, false⟩ := by
  intro table io
  have above : ∀ fd ∈ io.given, stderr < fd := by decide
  have isOpen : ∀ fd ∈ io.given, (table.get? fd).isSome := by decide
  obtain ⟨wired, wires, input, output, errors, closed, others⟩ := get?_wire? above isOpen
  exact ⟨above, isOpen, wired, wires, input.trans (by decide), output.trans (by decide),
    errors.trans (by decide), closed,
    (others 7 (by decide) (by decide) (by decide)).trans (by decide)⟩

end ChildIo
end LineShell
