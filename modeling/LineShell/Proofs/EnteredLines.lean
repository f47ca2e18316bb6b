import LineShell.Proofs.LineEffects
import LineShell.Proofs.PrintedBytes
import LineShell.Proofs.WordGrammar

/-! The lines that were entered. Entering a line is the only thing that adds to the history, and
nothing takes from it (`history_step`, `history_fed`). A line that is read as the builtin `history`
is not blank (`not_blank_of_builtin`), so it stands at the end of what it prints; and what it prints
is the rows of the last entries, each with its place in the whole history (`history_exact`). -/

namespace LineShell

open Act Machine

/-- What can happen to the history: a line is entered, or only run, or the shell finds itself in
another world with the history as it was. -/
inductive LineEvent
  | entered (line : Text)
  | ran (line : Text)
  | meanwhile (there : World)

def World.withHistory (world : World) (history : List Text) : World :=
  { world with session := { world.session with history } }

def LineEvent.step (quiet : Bool) (world : World) : LineEvent → World
  | entered line => ((executeLine quiet line).outcome world).2
  | ran line => ((runLine quiet line).outcome world).2
  | meanwhile there => there.withHistory world.session.history

/-- The line that an event adds to the history. -/
def LineEvent.recorded? : LineEvent → Option Text
  | entered line => if isBlank line then none else some line
  | ran _ => none
  | meanwhile _ => none

/-- The world after some events, whatever came of their lines. -/
def World.fed (quiet : Bool) (world : World) (events : List LineEvent) : World :=
  events.foldl (LineEvent.step quiet) world

variable {quiet : Bool} {world : World} {line : Text} {p : Pipeline}

theorem history_runLine (quiet : Bool) (line : Text) (world : World) :
    ((runLine quiet line).outcome world).2.session.history = world.session.history := by
  have confined : (world.demand line).Confines world ((runLine quiet line).outcome world).2 :=
    (meets_runLine quiet).confines
  cases demand : world.demand line with
  | nothing =>
    rw [demand] at confined
    exact congrArg (fun own => own.1.history) confined
  | calls made =>
    rw [demand] at confined
    exact confined.2.1
  | directory =>
    rw [demand] at confined
    exact confined.1

theorem outcome_executeLine_of_not_blank (quiet : Bool) (world : World)
    (seen : isBlank line = false) :
    (executeLine quiet line).outcome world = (runLine quiet line).outcome (world.record line) := by
  have kept : (trim line).isEmpty = false := by
    rw [← Bool.not_eq_true, List.isEmpty_iff, trim_eq_nil_iff, seen]
    simp
  rw [executeLine, kept]
  rfl

theorem outcome_executeLine_of_blank (quiet : Bool) (world : World) (blank : isBlank line = true) :
    (executeLine quiet line).outcome world = (runLine quiet line).outcome world := by
  have dropped : (trim line).isEmpty = true := by rw [List.isEmpty_iff, trim_eq_nil_iff, blank]
  rw [executeLine, dropped]
  rfl

/-- An event adds its line to the history and does nothing else to it. -/
theorem history_step (quiet : Bool) (world : World) (e : LineEvent) :
    (e.step quiet world).session.history = world.session.history ++ e.recorded?.toList := by
  cases e with
  | entered line =>
    cases blank : isBlank line with
    | true =>
      rw [LineEvent.step, outcome_executeLine_of_blank quiet world blank, history_runLine]
      simp [LineEvent.recorded?, blank]
    | false =>
      rw [LineEvent.step, outcome_executeLine_of_not_blank quiet world blank, history_runLine]
      simp [LineEvent.recorded?, blank, World.record]
  | ran line =>
    rw [LineEvent.step, history_runLine]
    simp [LineEvent.recorded?]
  | meanwhile there => simp [LineEvent.step, LineEvent.recorded?, World.withHistory]

theorem history_fed (quiet : Bool) (world : World) (events : List LineEvent) :
    (world.fed quiet events).session.history =
      world.session.history ++ events.filterMap LineEvent.recorded? := by
  induction events generalizing world with
  | nil => simp [World.fed]
  | cons e rest ih =>
    have later : world.fed quiet (e :: rest) = (e.step quiet world).fed quiet rest := rfl
    rw [later, ih, history_step, List.append_assoc]
    cases recorded : e.recorded? <;> simp [recorded]

/-! White space makes no command. -/

namespace WordGrammar

theorem blank_value {part : Part} (blank : part.source.all isSpace = true) :
    part.value.all isSpace = true := by
  have quote : isSpace '\'' = false := by decide
  have mark : isSpace '"' = false := by decide
  have escape : isSpace '\\' = false := by decide
  cases part with
  | plain c self => exact blank
  | escaped c => simp [Part.source, escape] at blank
  | single body free => simp [Part.source, quote] at blank
  | double body => simp [Part.source, mark] at blank

theorem blank_tokens {l : Line} (blank : l.source.all isSpace = true) :
    ∀ t ∈ l.tokens, t.text.all isSpace = true := by
  intro t there
  obtain ⟨entry, inside, rfl⟩ := List.mem_map.mp there
  rw [Line.source, List.all_append, List.all_flatMap, Bool.and_eq_true, List.all_eq_true] at blank
  have word := blank.1 entry inside
  rw [List.all_append, Bool.and_eq_true, Word.source, List.all_flatMap] at word
  rw [Word.token, List.all_flatMap, List.all_eq_true]
  exact fun part there => blank_value (List.all_eq_true.mp word.2 part there)

end WordGrammar

namespace PipelineGrammar

theorem exists_token_of_mem_words {s : Side} {word : Text} (there : word ∈ s.words) :
    ∃ t ∈ s.tokens, t.text = word := by
  obtain ⟨part, inside, written⟩ := List.mem_filterMap.mp there
  cases part with
  | word t other =>
    refine ⟨t, ?_, Option.some.inj written⟩
    exact List.mem_append_left _ (List.mem_flatMap.mpr ⟨_, inside, by simp [Part.tokens]⟩)
  | file d target => cases written

theorem exists_token_of_mem_args {tokens : List Token} (read : Pipeline.ofTokens tokens = .ok (some p))
    {word : Text} (there : word ∈ p.left.args) : ∃ t ∈ tokens, t.text = word := by
  obtain ⟨l, rfl, -, rfl⟩ := exists_line_of_ofTokens read
  obtain ⟨t, inside, same⟩ := exists_token_of_mem_words there
  exact ⟨t, by simp [Line.tokens, joined, inside], same⟩

end PipelineGrammar

theorem substitute_of_blank (lookup : Text → Option Text) (blank : line.all isSpace = true) :
    Expansion.substitute lookup line = line := by
  induction line with
  | nil => simp [Expansion.substitute]
  | cons c rest ih =>
    rw [List.all_cons, Bool.and_eq_true] at blank
    have plain : c ≠ '$' := by
      rintro rfl
      exact absurd blank.1 (by decide)
    rw [Expansion.substitute_plain lookup plain, ih blank.2]

namespace Builtin

theorem toLower_of_isSpace {c : Char} (space : isSpace c = true) : c.toLower = c := by
  refine dif_neg ?_
  rintro ⟨low, high⟩
  have low : 65 ≤ c.toNat := low
  have high : c.toNat ≤ 90 := high
  simp only [isSpace, Bool.or_eq_true, Bool.and_eq_true, decide_eq_true_eq] at space
  omega

/-- The name of a builtin has letters, and none of them is white space or `=`. -/
theorem name_letters (b : Builtin) :
    b.name ≠ [] ∧ (∀ c ∈ b.name, isSpace c = false) ∧ '=' ∉ b.name := by
  have letters : b.name ≠ [] ∧ b.name.all (fun c => !isSpace c) = true ∧ '=' ∉ b.name := by
    cases b <;> decide
  simpa only [List.all_eq_true, Bool.not_eq_true'] using letters

theorem name_of_lookup? {called : Text} {b : Builtin} (found : lookup? called = some b) :
    b.name = called.map Char.toLower := by
  have named := List.find?_some found
  exact of_decide_eq_true named

theorem not_blank_of_lookup? {called : Text} {b : Builtin} (found : lookup? called = some b) :
    called.all isSpace = false := by
  obtain ⟨some_letter, spaceless, -⟩ := name_letters b
  rw [name_of_lookup? found] at some_letter spaceless
  rw [← Bool.not_eq_true, List.all_eq_true]
  intro blank
  obtain ⟨c, there⟩ := List.exists_mem_of_ne_nil called (by simpa using some_letter)
  have letter := spaceless _ (List.mem_map_of_mem there)
  rw [toLower_of_isSpace (blank c there), blank c there] at letter
  cases letter

theorem not_assignment_of_lookup? {called : Text} {b : Builtin} (found : lookup? called = some b) :
    assignment? called = none := by
  have sign : '=' ∉ called := fun there => by
    have lowered := List.mem_map_of_mem (f := Char.toLower) there
    rw [← name_of_lookup? found] at lowered
    exact (name_letters b).2.2 lowered
  rw [assignment?, cut?_eq_none.mpr sign]
  rfl

end Builtin

theorem exists_args_of_builtin {s : Stage} {b : Builtin}
    (program : Builtin.lookup? s.program = some b) :
    ∃ operands, s.args = s.program :: operands := by
  rw [Stage.program] at program ⊢
  cases args : s.args with
  | nil =>
    rw [args] at program
    cases program
  | cons first operands => exact ⟨operands, rfl⟩

theorem assignments?_of_builtin {b : Builtin}
    (program : Builtin.lookup? p.left.program = some b) : p.assignments? = none := by
  obtain ⟨operands, args⟩ := exists_args_of_builtin program
  rw [Pipeline.assignments?, args, List.mapM_cons, Builtin.not_assignment_of_lookup? program]
  split <;> rfl

/-- A line that is read as a builtin is not blank. -/
theorem not_blank_of_builtin {b : Builtin} (read : world.read? line = some (.ok (some p)))
    (program : Builtin.lookup? p.left.program = some b) : isBlank line = false := by
  rw [← Bool.not_eq_true]
  intro blank
  obtain ⟨operands, args⟩ := exists_args_of_builtin program
  rw [World.read?, World.expand?, Expansion.expand?_eq_substitute, substitute_of_blank _ blank]
    at read
  obtain ⟨tokens, cut, asked⟩ := bind_eq_ok.mp (Option.some.inj read)
  have first : p.left.program ∈ p.left.args := by
    rw [args]
    exact List.mem_cons_self
  obtain ⟨t, there, same⟩ := PipelineGrammar.exists_token_of_mem_args asked first
  obtain ⟨l, rfl, rfl⟩ := WordGrammar.tokenize_eq_ok_iff.mp cut
  have white := WordGrammar.blank_tokens blank t there
  rw [same, Builtin.not_blank_of_lookup? program] at white
  cases white

/-! What is printed. -/

/-- The row of an entry: its place in the history, in five columns at least, and the line. -/
def entryRow (place : Nat) (entry : Text) : Text :=
  List.replicate (5 - (decimal place).length) ' ' ++ decimal place ++ "  ".toList ++ entry

/-- The rows of entries in order, the first of which stands at a place. -/
def historyRows : (place : Nat) → List Text → List Text
  | _, [] => []
  | place, entry :: rest => entryRow place entry :: historyRows (place + 1) rest

theorem flatten_historyRow (entry : Text) (earlier : Nat) :
    (Builtin.historyRow (entry, earlier)).flatten = entryRow (earlier + 1) entry ++ ['\n'] := by
  simp [Builtin.historyRow, rightAligned, entryRow]

theorem flatten_historyRows (entries : List Text) (earlier : Nat) :
    ((entries.zipIdx earlier).map Builtin.historyRow).map List.flatten =
      (historyRows (earlier + 1) entries).map (· ++ ['\n']) := by
  induction entries generalizing earlier with
  | nil => rfl
  | cons entry rest ih =>
    rw [List.zipIdx_cons, List.map_cons, List.map_cons, ih, flatten_historyRow]
    rfl

example : historyRows 99 ["exit 3".toList, "history 2".toList] =
    ["   99  exit 3".toList, "  100  history 2".toList] := by decide +kernel

theorem flatten_historyRows_drop (earlier shown : List Text) :
    (((earlier ++ shown).zipIdx.drop earlier.length).map Builtin.historyRow).map List.flatten =
      (historyRows (earlier.length + 1) shown).map (· ++ ['\n']) := by
  rw [List.zipIdx_append, List.drop_left' List.length_zipIdx, Nat.zero_add, flatten_historyRows]

namespace Builtin

/-- How many of its entries a history is asked for: all of them, or as many as the first operand
says if that is a number that fits in a machine word. -/
def entriesAsked? (args : List Text) (entries : Nat) : Option Nat :=
  match args.tail.head? with
  | none => some entries
  | some count => (word64? count).map (min · entries)

/-- The entries that are asked for are the last ones, and they are printed with their places. -/
theorem runHistory_of_asked {args : List Text} {count : Nat}
    (asked : entriesAsked? args world.session.history.length = some count) :
    ∃ earlier shown rows, world.session.history = earlier ++ shown ∧ shown.length = count ∧
      rows.map List.flatten = (historyRows (earlier.length + 1) shown).map (· ++ ['\n']) ∧
      ∀ output : Output, (runHistory output args).outcome world =
        (do output.lines rows
            return .proceed : Act CommandError Verdict).outcome world := by
  generalize history_eq : world.session.history = history at asked ⊢
  rw [entriesAsked?] at asked
  cases operand : args.tail.head? with
  | none =>
    rw [operand] at asked
    obtain rfl := Option.some.inj asked
    refine ⟨[], history, _, rfl, rfl, flatten_historyRows_drop [] history, fun output => ?_⟩
    simp only [runHistory, outcome_bind, outcome_get, operand, outcome_pure, history_eq,
      List.nil_append, List.length_nil]
  | some text =>
    rw [operand] at asked
    obtain ⟨n, number, rfl⟩ := Option.map_eq_some_iff.mp asked
    obtain ⟨earlier, shown, rfl, skipped⟩ :
        ∃ earlier shown, history = earlier ++ shown ∧ earlier.length = history.length - n :=
      ⟨history.take (history.length - n), history.drop (history.length - n),
        (List.take_append_drop ..).symm, List.length_take_of_le (Nat.sub_le ..)⟩
    refine ⟨earlier, shown, _, rfl, ?_, flatten_historyRows_drop earlier shown, fun output => ?_⟩
    · rw [List.length_append] at skipped ⊢
      omega
    · rw [skipped]
      simp only [runHistory, outcome_bind, outcome_get, operand, number, outcome_pure, history_eq]

end Builtin

/-- What there is to write when rows have been printed, each with a line break: first what was kept
before. -/
def Sink.toWrite (sink : Sink) (world : World) (rows : List Text) : Bytes :=
  sink.kept world ++ encode (rows.map (· ++ ['\n'])).flatten

/-- What comes of a builtin that prints rows and goes on, once its files are open. -/
structure Printed (b : Builtin) (files : OpenFiles) (opened : World) (rows : List Text)
    (came : Except (Failure ShellError) Verdict × World) : Prop where
  /-- Nothing else is changed, and the files are closed. -/
  beside : came.2 = World.close
    { opened with machine := came.2.machine, unwritten := came.2.unwritten } files.fds
  /-- What has been written, and then what is kept, is a beginning of what there is to write. -/
  begins : ∃ written,
    Took ((opened.output files).stdout.write opened.descriptors) opened.machine written
        came.2.machine ∧
      written ++ (opened.output files).stdout.kept came.2 <+:
        (opened.output files).stdout.toWrite opened rows
  /-- The shell goes on when all of it has been written. -/
  whole : ∀ verdict, came.1 = .ok verdict → verdict = .proceed ∧
    Took ((opened.output files).stdout.write opened.descriptors) opened.machine
        ((opened.output files).stdout.toWrite opened rows) came.2.machine ∧
      (opened.output files).stdout.kept came.2 = []
  /-- It does so where all of it is taken. -/
  taken : Takes ((opened.output files).stdout.write opened.descriptors) opened.machine
    ((opened.output files).stdout.toWrite opened rows) → came.1 = .ok .proceed
  /-- Otherwise what was to be written has been refused. -/
  refused : ∀ e, came.1 = .error e →
    ∃ cause, e = .error (.io cause) ∨ e = .error (.builtin b.name (.io cause))

theorem printed_of_lines {b : Builtin} {stage : Stage} {files : OpenFiles} {opened : World}
    {rows : List Text} {pieces : List (List Text)}
    (opens : stage.redirections.openFiles.outcome world = (.ok files, opened))
    (same : pieces.map List.flatten = rows.map (· ++ ['\n']))
    (prints : (b.run (opened.output files) stage.args).outcome opened =
      (do (opened.output files).lines pieces
          return .proceed : Act CommandError Verdict).outcome opened) :
    Printed b files opened rows ((runBuiltin b stage).outcome world) := by
  obtain ⟨printed, goesOn, refused⟩ := prints_runOutput prints
  rw [same] at printed
  obtain ⟨written, took, begins, all⟩ := printed.begins
  have ran : (runBuiltin b stage).outcome world =
      (((runOutput b (opened.output files) stage.args).outcome opened).1,
        ((runOutput b (opened.output files) stage.args).outcome opened).2.close files.fds) := by
    rw [runBuiltin, outcome_bind, outcome_mapError, opens]
    rfl
  rw [ran]
  refine ⟨congrArg (World.close · files.fds) printed.beside, ⟨written, took, begins⟩,
    fun verdict done => ?_, fun takes => ?_, refused⟩
  · obtain ⟨proceeds, nothing⟩ := goesOn verdict done
    have everything := all verdict done
    rw [nothing, List.append_nil] at everything
    rw [everything] at took
    exact ⟨proceeds, took, nothing⟩
  · obtain ⟨verdict, done⟩ := printed.done takes
    obtain ⟨rfl, -⟩ := goesOn verdict done
    exact done

/-- A buffer that is standard output holds all of it then. -/
theorem Printed.of_buffer {b : Builtin} {opened : World} {rows : List Text} {number : Nat}
    {came : Except (Failure ShellError) Verdict × World} (printed : Printed b {} opened rows came)
    (buffers : Sink.Buffers opened.descriptors opened.machine.streams number) :
    came.1 = .ok .proceed ∧ came.2.unwritten = [] ∧ came.2.machine.buffers =
      opened.machine.buffers.modify number (· ++ Sink.standard.toWrite opened rows) := by
  have goesOn := printed.taken (Sink.takes_buffer buffers _)
  obtain ⟨-, took, nothing⟩ := printed.whole _ goesOn
  exact ⟨goesOn, nothing, congrArg Machine.buffers (Sink.took_buffer buffers took)⟩

/-- The history is exact. Whatever lines are entered and run and whatever comes of them, it holds the
entered lines that are not blank, in order and as they were; and a line that asks for the history,
entered at any moment, prints the last entries, as many as it asks for, up to and including
itself, each with its place in the whole. -/
theorem history_exact (quiet : Bool) (before : World) (events : List LineEvent) :
    let now := before.fed quiet events
    now.session.history = before.session.history ++ events.filterMap LineEvent.recorded? ∧
    ∀ line p files opened count, now.read? line = some (.ok (some p)) → p.right = none →
      Builtin.lookup? p.left.program = some .history →
      p.left.redirections.openFiles.outcome (now.record line) = (.ok files, opened) →
      Builtin.entriesAsked? p.left.args (now.session.history.length + 1) = some count →
      ∃ earlier shown, now.session.history ++ [line] = earlier ++ shown ∧ shown.length = count ∧
        Printed .history files opened (historyRows (earlier.length + 1) shown)
          ((executeLine quiet line).outcome now) := by
  intro now
  refine ⟨history_fed quiet before events, ?_⟩
  intro line p files opened count read one program opens asked
  have kept := keeps_openFiles p.left.redirections (now.record line)
  rw [opens] at kept
  have history : opened.session.history = now.session.history ++ [line] :=
    congrArg (fun own => own.1.history) kept
  have length : opened.session.history.length = now.session.history.length + 1 := by
    rw [history, List.length_append, List.length_singleton]
  rw [← length] at asked
  obtain ⟨earlier, shown, rows, cut, counted, same, prints⟩ := Builtin.runHistory_of_asked asked
  refine ⟨earlier, shown, history.symm.trans cut, counted, ?_⟩
  have recorded : (now.record line).read? line = some (.ok (some p)) := read
  rw [outcome_executeLine_of_not_blank quiet now (not_blank_of_builtin read program),
    outcome_runLine_of_command quiet recorded (assignments?_of_builtin program),
    runPipeline_of_builtin quiet one program]
  exact printed_of_lines opens same (prints _)

/-- A line that could not be read and one that asked the shell to leave are in the history, a blank
line and one that was only run are not. -/
theorem history_exact_after_failures :
    let world : World :=
      { place := .root
        descriptors := .ofList [(Descriptors.stdout, ⟨0, false⟩)]
        machine := {
          root := .dir [] .ownDir
          streams := [⟨.buffer 0, false, true, true, 0⟩]
          buffers := [[]] } }
    let now := world.fed true [.entered "tool <".toList, .entered " \t".toList, .ran "A=1".toList,
      .entered "exit 7".toList]
    now.session.history = ["tool <".toList, "exit 7".toList] ∧
      now.read? "history 2".toList =
        some (.ok (some { left := ⟨["history".toList, "2".toList], {}⟩ })) ∧
      ∃ last, (executeLine true "history 2".toList).outcome now = (.ok .proceed, last) ∧
        last.unwritten = [] ∧
        last.machine.buffers = [encode "    2  exit 7\n    3  history 2\n".toList] := by
  intro world
  dsimp only
  obtain ⟨recorded, answers⟩ := history_exact true world [.entered "tool <".toList,
    .entered " \t".toList, .ran "A=1".toList, .entered "exit 7".toList]
  generalize reached : world.fed true [.entered "tool <".toList, .entered " \t".toList,
    .ran "A=1".toList, .entered "exit 7".toList] = now at recorded answers ⊢
  have history : now.session.history = ["tool <".toList, "exit 7".toList] :=
    recorded.trans (by decide +kernel)
  have read : now.read? "history 2".toList =
      some (.ok (some { left := ⟨["history".toList, "2".toList], {}⟩ })) := by
    rw [← reached]
    decide +kernel
  have asked : Builtin.entriesAsked? ["history".toList, "2".toList]
      (now.session.history.length + 1) = some 2 := by
    rw [history]
    decide
  have opens (there : World) : ({} : Redirections).openFiles.outcome there = (.ok {}, there) := rfl
  obtain ⟨earlier, shown, cut, counted, printed⟩ :=
    answers "history 2".toList _ {} _ 2 read rfl (by decide) (opens _) asked
  have one : earlier.length = 1 := by
    have length := congrArg List.length cut
    rw [history, List.length_append, List.length_append, counted] at length
    exact (Nat.add_right_cancel (m := 2) length).symm
  obtain ⟨first, rfl⟩ := List.length_eq_one_iff.mp one
  rw [history] at cut
  obtain ⟨-, rfl⟩ := List.cons.inj cut
  have buffers : Sink.Buffers (now.record "history 2".toList).descriptors
      (now.record "history 2".toList).machine.streams 0 := by
    have stream : Descriptors.stream? now.descriptors Descriptors.stdout = some 0 := by
      rw [← reached]
      decide +kernel
    have there : now.machine.streams[0]? = some ⟨.buffer 0, false, true, true, 0⟩ := by
      rw [← reached]
      decide +kernel
    exact ⟨0, _, stream, there, rfl, rfl⟩
  rcases came : (executeLine true "history 2".toList).outcome now with ⟨answer, last⟩
  rw [came] at printed
  obtain ⟨goesOn, nothing, holds⟩ := printed.of_buffer buffers
  obtain rfl : answer = .ok .proceed := goesOn
  have empty : now.machine.buffers = [[]] ∧ now.unwritten = [] := by
    rw [← reached]
    decide +kernel
  have written : Sink.standard.toWrite (now.record "history 2".toList)
      (historyRows 2 ["exit 7".toList, "history 2".toList]) =
        encode "    2  exit 7\n    3  history 2\n".toList := by
    show now.unwritten ++ _ = _
    rw [empty.2]
    decide +kernel
  refine ⟨history, read, last, rfl, nothing, holds.trans ?_⟩
  show now.machine.buffers.modify 0 (· ++ Sink.standard.toWrite (now.record "history 2".toList)
    (historyRows 2 ["exit 7".toList, "history 2".toList])) = _
  rw [empty.1, written]
  rfl

end LineShell
