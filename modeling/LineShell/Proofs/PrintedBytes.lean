import LineShell.Proofs.Failures

/-! What comes out of printing. Nothing printed is lost, doubled or put in another order: what has
been written and then what is kept is always a beginning of what was kept and then what was printed
(`Sink.Prints`), all of it when the printing succeeds, and it succeeds where everything is taken. -/

namespace LineShell

open Act

namespace Machine

variable {write : Machine → Bytes → Except Errno Machine} {m mid last : Machine}
  {bytes front back : Bytes}

/-- Bytes have been taken, piece by piece. -/
inductive Took (write : Machine → Bytes → Except Errno Machine) :
    Machine → Bytes → Machine → Prop
  | nothing {m : Machine} : Took write m [] m
  | more {m mid last : Machine} {piece rest : Bytes} (first : write m piece = .ok mid)
      (later : Took write mid rest last) : Took write m (piece ++ rest) last

/-- However the bytes are cut into pieces, each is taken when those before it have been. -/
def Takes (write : Machine → Bytes → Except Errno Machine) (m : Machine) (bytes : Bytes) : Prop :=
  ∀ before piece after mid, before ++ piece ++ after = bytes → piece ≠ [] →
    Took write m before mid → ∃ last, write mid piece = .ok last

theorem Took.one (taken : write m bytes = .ok last) : Took write m bytes last := by
  have whole := Took.more taken .nothing
  rwa [List.append_nil] at whole

theorem Took.trans (first : Took write m front mid) (second : Took write mid back last) :
    Took write m (front ++ back) last := by
  induction first with
  | nothing => exact second
  | more here _ ih =>
    rw [List.append_assoc]
    exact .more here (ih second)

namespace Takes

theorem start (takes : Takes write m (front ++ back)) : Takes write m front :=
  fun before piece after mid cut => takes before piece (after ++ back) mid (by simp [← cut])

theorem rest (takes : Takes write m (front ++ back)) (took : Took write m front mid) :
    Takes write mid back := fun before piece after last cut nonempty taken =>
  takes (front ++ before) piece after last (by simp [← cut]) nonempty (took.trans taken)

theorem whole (takes : Takes write m bytes) (nonempty : bytes ≠ []) :
    ∃ last, write m bytes = .ok last :=
  takes [] bytes [] m (by simp) nonempty .nothing

end Takes
end Machine

open Machine

namespace Sink

/-- How bytes are written to a sink of a shell that has these descriptors. -/
def write (sink : Sink) (descriptors : Descriptors) (m : Machine) (bytes : Bytes) :
    Except Errno Machine :=
  match sink with
  | .stream number => m.write number bytes
  | .standard =>
    m.writeStandard ((Descriptors.stream? descriptors Descriptors.stdout).getD m.streams.length) bytes

/-- What has been printed to a sink and has not been written yet. -/
def kept (sink : Sink) (world : World) : Bytes :=
  match sink with
  | .stream _ => []
  | .standard => world.unwritten

/-- Standard output is a buffer. -/
def Buffers (descriptors : Descriptors) (streams : List Stream) (number : Nat) : Prop :=
  ∃ stream s, Descriptors.stream? descriptors Descriptors.stdout = some stream ∧
    streams[stream]? = some s ∧ s.writable ∧ s.endpoint = .buffer number

section Buffer

variable {descriptors : Descriptors} {m last : Machine} {number : Nat} {bytes : Bytes}

/-- A buffer takes everything, behind what it holds. -/
theorem write_buffer (buffers : Buffers descriptors m.streams number) (bytes : Bytes) :
    Sink.standard.write descriptors m bytes =
      .ok { m with buffers := m.buffers.modify number (· ++ bytes) } := by
  obtain ⟨stream, s, opens, there, writable, buffer⟩ := buffers
  simp [write, opens, Machine.writeStandard, Machine.write, Machine.writeStream, there, writable,
    buffer]

theorem took_buffer (buffers : Buffers descriptors m.streams number)
    (took : Took (Sink.standard.write descriptors) m bytes last) :
    last = { m with buffers := m.buffers.modify number (· ++ bytes) } := by
  induction took with
  | @nothing m =>
    have same : m.buffers.modify number (· ++ []) = m.buffers := by
      simp only [List.append_nil]
      exact List.modify_id ..
    rw [same]
  | more first _ ih =>
    rw [write_buffer buffers] at first
    obtain rfl := Except.ok.inj first
    rw [ih buffers, List.modify_modify_eq]
    simp [Function.comp_def]

theorem takes_buffer (buffers : Buffers descriptors m.streams number) (bytes : Bytes) :
    Takes (Sink.standard.write descriptors) m bytes := by
  intro before piece after mid _ _ took
  obtain rfl := took_buffer buffers took
  exact ⟨_, write_buffer (by exact buffers) piece⟩

end Buffer

/-- What comes of printing bytes. -/
structure Prints {ε α : Type} (sink : Sink) (bytes : Bytes) (world : World)
    (came : Except (Failure ε) α × World) : Prop where
  beside : came.2 = { world with machine := came.2.machine, unwritten := came.2.unwritten }
  begins : ∃ written, Took (sink.write world.descriptors) world.machine written came.2.machine ∧
    written ++ sink.kept came.2 <+: sink.kept world ++ bytes ∧
    ∀ a, came.1 = .ok a → written ++ sink.kept came.2 = sink.kept world ++ bytes
  done : Takes (sink.write world.descriptors) world.machine (sink.kept world ++ bytes) →
    ∃ a, came.1 = .ok a

end Sink

/-- The action prints bytes, in any world. -/
def Act.PrintsTo {ε α : Type} (sink : Sink) (bytes : Bytes) (act : Act ε α) : Prop :=
  ∀ world, sink.Prints bytes world (act.outcome world)

namespace Sink.Prints

variable {ε ε' α β : Type} {sink : Sink} {bytes more : Bytes} {world : World}

theorem pure (a : α) : sink.Prints [] world ((Pure.pure a : Act ε α).outcome world) where
  beside := rfl
  begins := ⟨[], .nothing, by simp, by simp⟩
  done _ := ⟨a, rfl⟩

theorem mapError {act : Act ε α} (prints : sink.Prints bytes world (act.outcome world))
    (f : ε → ε') : sink.Prints bytes world ((act.mapError f).outcome world) := by
  rw [outcome_mapError]
  obtain ⟨written, took, begins, all⟩ := prints.begins
  refine ⟨prints.beside, ⟨written, took, begins, fun a done => all a (mapError_eq_ok.mp done)⟩,
    fun takes => ?_⟩
  obtain ⟨a, done⟩ := prints.done takes
  exact ⟨a, mapError_eq_ok.mpr done⟩

/-- What is printed next comes after what is printed first. -/
theorem bind {act : Act ε α} {next : α → Act ε β}
    (first : sink.Prints bytes world (act.outcome world))
    (second : ∀ a mid, act.outcome world = (.ok a, mid) →
      sink.Prints more mid ((next a).outcome mid)) :
    sink.Prints (bytes ++ more) world ((act >>= next).outcome world) := by
  obtain ⟨written, took, begins, all⟩ := first.begins
  rw [outcome_bind]
  rcases ran : act.outcome world with ⟨e | a, mid⟩ <;> rw [ran] at first took begins all
  · refine ⟨first.beside, ⟨written, took, ?_, fun _ done => by cases done⟩, fun takes => ?_⟩
    · rw [← List.append_assoc]
      exact begins.trans (List.prefix_append _ _)
    · rw [← List.append_assoc] at takes
      obtain ⟨a, done⟩ := first.done takes.start
      cases done
  · have here := all a rfl
    have later := second a mid ran
    obtain ⟨rest, tookRest, beginsRest, allRest⟩ := later.begins
    have beside : mid = { world with machine := mid.machine, unwritten := mid.unwritten } :=
      first.beside
    have descriptors : mid.descriptors = world.descriptors := by rw [beside]
    have conserved : sink.kept world ++ (bytes ++ more) = written ++ (sink.kept mid ++ more) := by
      rw [← List.append_assoc, ← here, List.append_assoc]
    rw [descriptors] at tookRest
    refine ⟨?_, ⟨written ++ rest, took.trans tookRest, ?_, fun b done => ?_⟩, fun takes => ?_⟩
    · rw [later.beside, beside]
    · rw [List.append_assoc, conserved]
      exact (List.prefix_append_right_inj written).mpr beginsRest
    · rw [List.append_assoc, conserved, allRest b done]
    · rw [conserved] at takes
      rw [← descriptors] at takes took
      exact later.done (takes.rest took)

/-- What is kept after printing may be written whether the printing has succeeded or not. -/
theorem followed {first : Except (Failure ε) α × World} {second : Except (Failure ε') β × World}
    {answer : Except (Failure ShellError) Verdict} (printed : sink.Prints bytes world first)
    (flushed : sink.Prints [] first.2 second)
    (both : (∃ v, answer = .ok v) ↔ (∃ a, first.1 = .ok a) ∧ ∃ b, second.1 = .ok b) :
    sink.Prints bytes world (answer, second.2) := by
  obtain ⟨written, took, begins, all⟩ := printed.begins
  obtain ⟨rest, tookRest, beginsRest, allRest⟩ := flushed.begins
  have descriptors : first.2.descriptors = world.descriptors := by rw [printed.beside]
  rw [List.append_nil] at beginsRest allRest
  refine ⟨?_, ⟨written ++ rest, ?_, ?_, fun v done => ?_⟩, fun takes => both.mpr ?_⟩
  · rw [flushed.beside, printed.beside]
  · rw [descriptors] at tookRest
    exact took.trans tookRest
  · rw [List.append_assoc]
    exact ((List.prefix_append_right_inj written).mpr beginsRest).trans begins
  · obtain ⟨⟨a, printedOk⟩, b, flushedOk⟩ := both.mp ⟨v, done⟩
    rw [List.append_assoc, allRest b flushedOk, all a printedOk]
  · obtain ⟨a, printedOk⟩ := printed.done takes
    rw [← all a printedOk] at takes
    have left := takes.rest took
    rw [← descriptors, ← List.append_nil (sink.kept first.2)] at left
    exact ⟨⟨a, printedOk⟩, flushed.done left⟩

end Sink.Prints

namespace Act.PrintsTo

variable {ε ε' α β : Type} {sink : Sink} {bytes more : Bytes}

theorem bind {act : Act ε α} {next : α → Act ε β} (first : act.PrintsTo sink bytes)
    (second : ∀ a, (next a).PrintsTo sink more) : (act >>= next).PrintsTo sink (bytes ++ more) :=
  fun world => (first world).bind fun a mid _ => second a mid

theorem mapError {act : Act ε α} (prints : act.PrintsTo sink bytes) (f : ε → ε') :
    (act.mapError f).PrintsTo sink bytes := fun world => (prints world).mapError f

theorem forM {act : α → Act ε PUnit} {bytesOf : α → Bytes}
    (each : ∀ a, (act a).PrintsTo sink (bytesOf a)) (items : List α) :
    (items.forM act).PrintsTo sink (items.flatMap bytesOf) := by
  induction items with
  | nil => exact fun _ => .pure _
  | cons a rest ih => exact bind (each a) fun _ => ih

end Act.PrintsTo

theorem prints_writeText (number : Nat) (text : Text) :
    (writeText number text).PrintsTo (.stream number) (encode text) := by
  intro world
  rw [writeText]
  by_cases empty : text = []
  · subst empty
    exact .pure _
  have nonempty : encode text ≠ [] := encode_ne_nil empty
  rw [if_neg (by simpa using empty), outcome_bind, outcome_get]
  simp only [outcome_bind, outcome_ofExcept]
  have written : Sink.write (.stream number) world.descriptors world.machine (encode text) =
      world.machine.write number (encode text) := rfl
  cases taken : world.machine.write number (encode text) with
  | ok machine =>
    rw [taken] at written
    exact ⟨rfl, ⟨encode text, .one written, by simp [Sink.kept], by simp [Sink.kept]⟩,
      fun _ => ⟨_, rfl⟩⟩
  | error e =>
    rw [taken] at written
    refine ⟨rfl, ⟨[], .nothing, by simp [Sink.kept], fun _ done => by cases done⟩,
      fun takes => ?_⟩
    obtain ⟨last, done⟩ := takes.whole nonempty
    cases written.symm.trans done

namespace StandardOutput

theorem outcome_write (bytes : Bytes) (world : World) : (write bytes).outcome world =
    if bytes = [] then (.ok (), world)
    else match Sink.standard.write world.descriptors world.machine bytes with
      | .ok machine => (.ok (), { world with machine })
      | .error e => (.error (.error (.os e)), world) := by
  split
  · next empty =>
    subst empty
    rfl
  · next nonempty =>
    rw [write, outcome_bind, outcome_get]
    exact outcome_writeStandard nonempty world

/-- Where nothing is kept, bytes may be written at once. -/
theorem prints_write (bytes : Bytes) {world : World} (nothing : world.unwritten = []) :
    Sink.standard.Prints bytes world ((write bytes).outcome world) := by
  rw [outcome_write]
  split
  · next empty =>
    subst empty
    exact .pure _
  · next nonempty =>
    cases taken : Sink.standard.write world.descriptors world.machine bytes with
    | ok machine =>
      exact ⟨rfl, ⟨bytes, .one taken, by simp [Sink.kept, nothing], by simp [Sink.kept, nothing]⟩,
        fun _ => ⟨_, rfl⟩⟩
    | error e =>
      refine ⟨rfl, ⟨[], .nothing, by simp [Sink.kept, nothing], fun _ done => by cases done⟩,
        fun takes => ?_⟩
      rw [Sink.kept, nothing, List.nil_append] at takes
      obtain ⟨last, done⟩ := takes.whole nonempty
      cases taken.symm.trans done

theorem prints_flush : flush.PrintsTo .standard [] := by
  intro world
  rw [flush, outcome_bind, outcome_get]
  simp only [outcome_bind, outcome_write, outcome_modify]
  by_cases empty : world.unwritten = []
  · rw [if_pos empty]
    exact ⟨rfl, ⟨[], .nothing, by simp [Sink.kept, empty], by simp [Sink.kept, empty]⟩,
      fun _ => ⟨_, rfl⟩⟩
  · rw [if_neg empty]
    cases taken : Sink.standard.write world.descriptors world.machine world.unwritten with
    | ok machine =>
      exact ⟨rfl, ⟨world.unwritten, .one taken, by simp [Sink.kept], by simp [Sink.kept]⟩,
        fun _ => ⟨_, rfl⟩⟩
    | error e =>
      refine ⟨rfl, ⟨[], .nothing, by simp [Sink.kept], fun _ done => by cases done⟩,
        fun takes => ?_⟩
      rw [Sink.kept, List.append_nil] at takes
      obtain ⟨last, done⟩ := takes.whole empty
      cases taken.symm.trans done

theorem flush_ok {world after : World} (done : flush.outcome world = (.ok (), after)) :
    after.unwritten = [] := by
  rw [flush, outcome_bind, outcome_get] at done
  obtain ⟨_, mid, -, last⟩ := outcome_bind_ok.mp done
  obtain rfl := congrArg Prod.snd last
  rfl

theorem prints_keep (bytes : Bytes) : (keep bytes).PrintsTo .standard bytes := by
  intro world
  -- Bytes that fill the capacity are written only where nothing is kept.
  have keeps {world : World} (room : capacity ≤ bytes.length → world.unwritten = []) :
      Sink.standard.Prints bytes world ((do
        if capacity ≤ bytes.length then write bytes
        else modify fun world => { world with unwritten := world.unwritten ++ bytes } :
          Act IoError Unit).outcome world) := by
    split
    · next fills => exact prints_write bytes (room fills)
    · rw [outcome_modify]
      exact ⟨rfl, ⟨[], .nothing, by simp [Sink.kept], by simp [Sink.kept]⟩, fun _ => ⟨_, rfl⟩⟩
  rw [keep, outcome_bind, outcome_get]
  dsimp only
  split
  · have flushed := (prints_flush world).bind fun _ mid done => keeps fun _ => flush_ok done
    rwa [List.nil_append] at flushed
  · next fits =>
    refine keeps fun fills => ?_
    rw [← List.length_eq_zero_iff]
    omega

theorem completeLines_append_openLine (bytes : Bytes) :
    completeLines bytes ++ openLine bytes = bytes := by
  rw [completeLines, openLine, ← List.reverse_append, List.takeWhile_append_dropWhile,
    List.reverse_reverse]

theorem prints_print (bytes : Bytes) : (print bytes).PrintsTo .standard bytes := by
  intro world
  have cut := completeLines_append_openLine bytes
  rw [print, outcome_bind, outcome_get]
  dsimp only
  split
  · next none =>
    have open_line : openLine bytes = bytes := by
      rw [List.isEmpty_iff] at none
      rw [none, List.nil_append] at cut
      exact cut
    rw [open_line]
    split
    · have flushed := (prints_flush.bind fun _ => prints_keep bytes) world
      rwa [List.nil_append] at flushed
    · exact prints_keep bytes world
  · split
    · next nothing =>
      have written := (prints_write (completeLines bytes) (List.isEmpty_iff.mp nothing)).bind
        fun _ mid _ => prints_keep (openLine bytes) mid
      rwa [cut] at written
    · have flushed := ((prints_keep (completeLines bytes)).bind fun _ =>
        prints_flush.bind fun _ => prints_keep (openLine bytes)) world
      rwa [List.nil_append, cut] at flushed

end StandardOutput

namespace Output

variable (output : Output)

theorem prints_print (pieces : List Text) :
    (output.print pieces).PrintsTo output.stdout (encode pieces.flatten) := by
  have each (piece : Text) : ((output.write piece).mapError CommandError.io).PrintsTo output.stdout
      (encode piece) := by
    refine .mapError ?_ _
    rw [write]
    split
    · next number there =>
      rw [there]
      exact prints_writeText number piece
    · next there =>
      rw [there]
      exact StandardOutput.prints_print _
  have whole := PrintsTo.forM each pieces
  rwa [encode_flatten]

theorem prints_lines (rows : List (List Text)) :
    (output.lines rows).PrintsTo output.stdout (encode (rows.map List.flatten).flatten) := by
  have whole := PrintsTo.forM output.prints_print rows
  rwa [encode_flatten, List.flatMap_map]

theorem prints_flush : output.flush.PrintsTo output.stdout [] := by
  rw [flush]
  split
  · exact fun _ => .pure _
  · next there =>
    rw [there]
    exact StandardOutput.prints_flush

/-- After a flush nothing is kept. -/
theorem flush_ok {world after : World} (done : output.flush.outcome world = (.ok (), after)) :
    output.stdout.kept after = [] := by
  rw [flush] at done
  split at done
  · next there =>
    rw [there]
    rfl
  · next there =>
    rw [there]
    exact StandardOutput.flush_ok done

end Output

/-- What comes of a builtin that prints rows and goes on, but for its files. -/
theorem prints_runOutput {world : World} {b : Builtin} {output : Output} {args : List Text}
    {rows : List (List Text)}
    (prints : (b.run output args).outcome world =
      (do output.lines rows
          return .proceed : Act CommandError Verdict).outcome world) :
    let came := (runOutput b output args).outcome world
    output.stdout.Prints (encode (rows.map List.flatten).flatten) world came ∧
      (∀ verdict, came.1 = .ok verdict → verdict = .proceed ∧ output.stdout.kept came.2 = []) ∧
      ∀ e, came.1 = .error e →
        ∃ cause, e = .error (.io cause) ∨ e = .error (.builtin b.name (.io cause)) := by
  intro came
  have printed := output.prints_lines rows world
  have refusals := output.failsOnly_lines (P := fun e => ∃ cause, e = .error (.io cause)) (by simp)
    rows world
  rw [outcome_bind] at prints
  rcases lines : (output.lines rows).outcome world with ⟨first, mid⟩
  rw [lines] at prints printed refusals
  have ran : (b.run output args).outcome world = (first.map fun _ => .proceed, mid) := by
    rw [prints]
    cases first <;> rfl
  have lives : first.map (fun _ => Verdict.proceed) ≠ .error .crash := by
    intro crashed
    obtain ⟨cause, io⟩ := refusals _ (map_eq_error_iff.mp crashed)
    cases io
  have flushed := output.prints_flush mid
  have ended : came = _ := outcome_runOutput ran lives
  have fails := output.survives_flush mid
  rcases flush : output.flush.outcome mid with ⟨(e | -) | ⟨⟩, after⟩ <;>
    rw [flush] at flushed ended fails
  · rw [ended]
    refine ⟨printed.followed flushed (by simp), fun _ done => (nomatch done), fun _ failed => ?_⟩
    exact ⟨e, .inl (Except.error.inj failed).symm⟩
  · exact absurd rfl (fails _ rfl)
  · rw [ended]
    refine ⟨printed.followed flushed ?_, fun verdict done => ⟨?_, output.flush_ok flush⟩,
      fun e failed => ?_⟩
    · cases first <;> simp [Except.map, Except.mapError]
    · cases first <;> cases done
      rfl
    · cases first with
      | error cause =>
        obtain ⟨io, rfl⟩ := refusals cause rfl
        exact ⟨io, .inr (Except.error.inj failed).symm⟩
      | ok _ => cases failed

end LineShell
