import LineShell.Proofs.BetweenQuotes
import LineShell.Proofs.EnteredLines
import LineShell.Proofs.LineShape
import LineShell.Proofs.ShellRun

/-! Lines of a file, as they are written and as they are run. White space is cut from both ends of
a line before the shell sees it. To the reader this is nothing where the white space is made of
separators or stands inside open quotes; but other white space is part of a word, and behind a
backslash so is a separator, so that the line that is run is not the one that is written
(`tokenize_padded_iff`). -/

namespace LineShell

/-! The reader in white space. -/

namespace Token.Reader

section

variable {r s : Reader} {c : Char} {text : Text}

theorem mode_step_space (space : isSpace c = true) : (r.step c).mode = r.mode.settled := by
  obtain ⟨single, double, escape⟩ := WordGrammar.unmarked_of_space space
  cases mode : r.mode with
  | bare =>
    simp only [step, mode, single, double, escape, if_false]
    split_ifs <;> simp [mode, WordGrammar.close_mode, Mode.settled]
  | escape | single | double | doubleEscape =>
    simp [step, mode, single, double, escape, Mode.settled]

theorem mode_foldl_blank (blank : isBlank text = true) :
    (text.foldl step r).mode = if text = [] then r.mode else r.mode.settled := by
  induction text generalizing r with
  | nil => rfl
  | cons c rest ih =>
    simp only [isBlank, List.all_cons, Bool.and_eq_true] at blank
    rw [List.foldl_cons, ih blank.2, mode_step_space blank.1]
    cases r.mode <;> simp [Mode.settled]

/-- Outside quotes white space is letters, apart from the separators. -/
theorem foldl_blank (bare : r.mode = .bare) (blank : isBlank text = true) :
    (text.foldl step r).mode = .bare ∧
      (text.foldl step r).weight = r.weight + text.countP (!isSeparator ·) := by
  induction text generalizing r with
  | nil => exact ⟨bare, rfl⟩
  | cons c rest ih =>
    simp only [isBlank, List.all_cons, Bool.and_eq_true] at blank
    have mode : (r.step c).mode = .bare := by rw [mode_step_space blank.1, bare]; rfl
    have weight : (r.step c).weight = r.weight + if isSeparator c then 0 else 1 := by
      obtain ⟨single, double, escape⟩ := WordGrammar.unmarked_of_space blank.1
      simp only [step, bare, single, double, escape, if_false]
      split_ifs <;> simp [Reader.weight, bare, WordGrammar.close_mode]
    obtain ⟨outside, letters⟩ := ih mode blank.2
    refine ⟨outside, ?_⟩
    rw [List.foldl_cons, letters, weight, List.countP_cons]
    cases isSeparator c with
    | true => rfl
    | false => exact Nat.add_right_comm _ _ _

/-- What a character does to the mode and the weight of a reader depends on its mode only. -/
theorem step_of_mode (same : r.mode = s.mode) (c : Char) :
    (r.step c).mode = (s.step c).mode ∧
      (r.step c).weight + s.weight = (s.step c).weight + r.weight := by
  cases mode : s.mode with
  | bare | single | double | doubleEscape =>
    rw [mode] at same
    simp only [step, same, mode]
    split_ifs <;> simp [weight, same, mode, WordGrammar.close_mode] <;> omega
  | escape =>
    rw [mode] at same
    simp [step, weight, same, mode]
    omega

theorem foldl_of_mode (same : r.mode = s.mode) (text : Text) :
    (text.foldl step r).mode = (text.foldl step s).mode ∧
      (text.foldl step r).weight + s.weight = (text.foldl step s).weight + r.weight := by
  induction text generalizing r s with
  | nil => exact ⟨same, Nat.add_comm _ _⟩
  | cons c rest ih =>
    obtain ⟨mode, weight⟩ := step_of_mode same c
    obtain ⟨modes, weights⟩ := ih mode
    exact ⟨modes, by simp only [List.foldl_cons]; omega⟩

end

end Token.Reader

/-! The letters of a command without files. -/

/-- No stream is a file. -/
def Pipeline.Fileless (p : Pipeline) : Prop :=
  p.left.redirections.isEmpty = true ∧ ∀ s ∈ p.right, s.redirections.isEmpty = true

/-- The letters of the words, and of the operators between and behind them. -/
def Pipeline.letters (p : Pipeline) : Nat :=
  p.left.args.flatten.length + (p.right.map fun s => s.args.flatten.length + 1).getD 0 +
    if p.background then 1 else 0

namespace PipelineGrammar

theorem file?_of_fileless {s : Side} (fileless : s.stage.redirections.isEmpty = true) {p : Part}
    (there : p ∈ s.parts) (d : Direction) : p.file? d = none := by
  have none_named (d : Direction) : s.file? d = none := by
    have both : (s.file? .input).isNone = true ∧ (s.file? .output).isNone = true :=
      Bool.and_eq_true_iff.mp fileless
    cases d with
    | input => exact Option.isNone_iff_eq_none.mp both.1
    | output => exact Option.isNone_iff_eq_none.mp both.2
  exact List.filterMap_eq_nil_iff.mp (List.getLast?_eq_none_iff.mp (none_named d)) p there

theorem length_side_of_fileless {s : Side} (whole : s.dangling = none)
    (fileless : s.stage.redirections.isEmpty = true) :
    (s.tokens.flatMap Token.text).length = s.words.flatten.length := by
  obtain ⟨parts, dangling⟩ := s
  obtain rfl : dangling = none := whole
  have words (p : Part) (there : p ∈ parts) (d : Direction) := file?_of_fileless fileless there d
  clear fileless
  induction parts with
  | nil => rfl
  | cons p parts ih =>
    obtain ⟨first, later⟩ := List.forall_mem_cons.mp words
    rw [tokens_cons_part, List.flatMap_append, List.length_append, ih later]
    cases p with
    | word t other => simp [Part.tokens, Side.words, Part.word?]
    | file d target => simp [Part.file?] at first

theorem length_of_fileless {tokens : List Token} {p : Pipeline}
    (read : Pipeline.ofTokens tokens = .ok (some p)) (fileless : p.Fileless) :
    (tokens.flatMap Token.text).length = p.letters := by
  obtain ⟨l, rfl, ⟨⟨left, -⟩, right⟩, rfl⟩ := exists_line_of_ofTokens read
  have first : _ = l.left.stage.args.flatten.length := length_side_of_fileless left fileless.1
  have mark : ((if l.background then [bare '&'] else []).flatMap Token.text).length =
      if l.background then 1 else 0 := by
    split <;> rfl
  rw [Line.tokens, joined, List.flatMap_append, List.flatMap_append, List.length_append,
    List.length_append, first, mark, Pipeline.letters, Line.pipeline]
  cases side : l.right with
  | none => rfl
  | some s =>
    have second : _ = s.stage.args.flatten.length :=
      length_side_of_fileless (right s side).1 (fileless.2 s.stage (by simp [Line.pipeline, side]))
    simp [second, bare]

theorem length_of_asked {tokens : List Token} {asked : Option Pipeline}
    (read : Pipeline.ofTokens tokens = .ok asked) (fileless : ∀ p ∈ asked, p.Fileless) :
    (tokens.flatMap Token.text).length = (asked.map Pipeline.letters).getD 0 := by
  cases asked with
  | none =>
    obtain rfl := (ofTokens_iff_complete tokens).2.1.mp read
    rfl
  | some p => exact length_of_fileless read (fileless p rfl)

end PipelineGrammar

/-- The reader makes nothing of white space around a text: of separators where the text is complete,
of nothing behind it where it ends in a backslash, and of anything where it ends inside quotes. -/
def IdlePadding (lead text trail : Text) : Prop :=
  match tokenize text with
  | .ok _ => ∀ c ∈ lead ++ trail, isSeparator c = true
  | .error .trailingEscape => trail = []
  | .error _ => True

section

open Token.Reader

variable {lead text trail : Text}

theorem foldl_separators {r : Token.Reader} (bare : r.mode = .bare)
    (separators : ∀ c ∈ text, isSeparator c = true) :
    (text.foldl step r).mode = .bare ∧ (text.foldl step r).close = r.close := by
  rw [WordGrammar.foldl_gap bare ⟨text, List.all_eq_true.mpr separators⟩]
  split
  · exact ⟨bare, rfl⟩
  · exact ⟨(WordGrammar.close_mode r).trans bare, WordGrammar.close_close r⟩

theorem foldl_leading (separators : ∀ c ∈ lead, isSeparator c = true) :
    lead.foldl step start = start := by
  rw [WordGrammar.foldl_gap (r := start) rfl ⟨lead, List.all_eq_true.mpr separators⟩]
  split <;> rfl

theorem tokenize_padded (lead text trail : Text) : tokenize (lead ++ text ++ trail) =
    (trail.foldl step (text.foldl step (lead.foldl step start))).finish := by
  rw [tokenize, List.foldl_append, List.foldl_append]

/-- White space around a complete text leaves it complete, and what is no separator there counts
among the letters of its words. -/
theorem exists_tokens_padded (front : isBlank lead = true) (back : isBlank trail = true)
    {tokens : List Token} (complete : tokenize text = .ok tokens) :
    ∃ padded, tokenize (lead ++ text ++ trail) = .ok padded ∧
      (padded.flatMap Token.text).length =
        (tokens.flatMap Token.text).length + (lead ++ trail).countP (!isSeparator ·) := by
  obtain ⟨bare, -, letters⟩ := weight_of_finish complete
  -- Behind other words the reader is no longer the same, but it is in the same mode.
  obtain ⟨led, leading⟩ := foldl_blank (r := start) rfl front
  obtain ⟨mode, weight⟩ := foldl_of_mode (s := start) led text
  obtain ⟨ended, trailing⟩ := foldl_blank (mode.trans bare) back
  have done : tokenize (lead ++ text ++ trail) = .ok
      (trail.foldl step (text.foldl step (lead.foldl step start))).close.words.reverse := by
    rw [tokenize_padded, finish, ended]
  obtain ⟨-, -, padded⟩ := weight_of_finish (tokenize_padded lead text trail ▸ done)
  have empty : start.weight = 0 := rfl
  refine ⟨_, done, ?_⟩
  rw [padded, letters, List.countP_append]
  omega

theorem separators_of_countP (none_other : (lead ++ trail).countP (!isSeparator ·) = 0) :
    ∀ c ∈ lead ++ trail, isSeparator c = true := by
  simpa only [List.countP_eq_zero, Bool.not_eq_true', Bool.not_eq_false] using none_other

theorem tokenize_padded_of_ok (front : isBlank lead = true) (back : isBlank trail = true)
    {tokens : List Token} (complete : tokenize text = .ok tokens) :
    tokenize (lead ++ text ++ trail) = .ok tokens ↔ ∀ c ∈ lead ++ trail, isSeparator c = true := by
  constructor
  · intro same
    obtain ⟨padded, read, length⟩ := exists_tokens_padded front back complete
    obtain rfl := Except.ok.inj (read.symm.trans same)
    exact separators_of_countP (by omega)
  · intro separators
    obtain ⟨leads, trails⟩ := List.forall_mem_append.mp separators
    obtain ⟨bare, rfl, -⟩ := weight_of_finish complete
    obtain ⟨mode, closed⟩ := foldl_separators bare trails
    rw [tokenize_padded, foldl_leading leads, finish, mode]
    dsimp only
    rw [closed]

/-- The white space around a text leaves the reader in the mode in which the text does, or takes it
out of an escape. -/
theorem exists_finish_padded (front : isBlank lead = true) (back : isBlank trail = true)
    (text : Text) : ∃ last : Token.Reader, tokenize (lead ++ text ++ trail) = last.finish ∧
      last.mode = if trail = [] then (text.foldl step start).mode
        else (text.foldl step start).mode.settled := by
  obtain ⟨led, -⟩ := foldl_blank (r := start) rfl front
  obtain ⟨mode, -⟩ := foldl_of_mode (s := start) led text
  refine ⟨_, tokenize_padded lead text trail, ?_⟩
  rw [mode_foldl_blank back, mode]

/-- When the reader makes nothing of white space around a text. -/
theorem tokenize_padded_iff (front : isBlank lead = true) (back : isBlank trail = true)
    (text : Text) :
    tokenize (lead ++ text ++ trail) = tokenize text ↔ IdlePadding lead text trail := by
  cases ending : (text.foldl step start).mode with
  | bare =>
    have complete : tokenize text = .ok (text.foldl step start).close.words.reverse := by
      rw [tokenize, finish, ending]
    rw [IdlePadding, complete]
    exact tokenize_padded_of_ok front back complete
  | escape | single | double | doubleEscape =>
    obtain ⟨last, padded, mode⟩ := exists_finish_padded front back text
    rw [padded, IdlePadding, tokenize]
    by_cases nothing : trail = [] <;>
      simp [finish, mode, nothing, ending, Token.Mode.settled]

theorem ofTokens_ne_trailingEscape (tokens : List Token) :
    Pipeline.ofTokens tokens ≠ .error .trailingEscape := by
  obtain ⟨l, rfl⟩ := PipelineGrammar.exists_line tokens
  intro refused
  by_cases empty : l.tokens = []
  · rw [empty, PipelineGrammar.ofTokens_nil] at refused
    cases refused
  by_cases complete : l.Complete
  · rw [PipelineGrammar.ofTokens_of_complete complete] at refused
    cases refused
  · rw [PipelineGrammar.ofTokens_of_incomplete empty complete] at refused
    have complaint := Except.error.inj refused
    rw [PipelineGrammar.Line.complaint] at complaint
    split at complaint
    · cases complaint
    · split at complaint <;> cases complaint

theorem readPipeline_padded (front : isBlank lead = true) (back : isBlank trail = true)
    (idle : IdlePadding lead text trail) :
    readPipeline (lead ++ text ++ trail) = readPipeline text := by
  rw [readPipeline, readPipeline, (tokenize_padded_iff front back text).mpr idle]

/-- A backslash at the end of a text takes the white space behind it. -/
theorem readPipeline_padded_escape (front : isBlank lead = true) (back : isBlank trail = true)
    (broken : tokenize text = .error .trailingEscape) :
    readPipeline (lead ++ text ++ trail) = readPipeline text ↔ trail = [] := by
  have idle_iff : IdlePadding lead text trail ↔ trail = [] := by rw [IdlePadding, broken]
  rw [← idle_iff]
  refine ⟨fun same => ?_, readPipeline_padded front back⟩
  rw [← tokenize_padded_iff front back, broken]
  rw [readPipeline, readPipeline, broken] at same
  cases cut : tokenize (lead ++ text ++ trail) with
  | ok tokens =>
    rw [cut] at same
    exact absurd same (ofTokens_ne_trailingEscape tokens)
  | error e =>
    rw [cut] at same
    exact congrArg Except.error (Except.error.inj same)

/-- Of a command without files the words hold all the letters there are, so it shows any white space
of which the reader makes something. -/
theorem readPipeline_padded_of_fileless (front : isBlank lead = true) (back : isBlank trail = true)
    {asked : Option Pipeline} (read : readPipeline text = .ok asked)
    (fileless : ∀ p ∈ asked, p.Fileless) :
    readPipeline (lead ++ text ++ trail) = .ok asked ↔ IdlePadding lead text trail := by
  refine ⟨fun same => ?_, fun idle => (readPipeline_padded front back idle).trans read⟩
  obtain ⟨tokens, complete, plain⟩ := bind_eq_ok.mp read
  obtain ⟨padded, cut, length⟩ := exists_tokens_padded front back complete
  rw [readPipeline, cut] at same
  have before := PipelineGrammar.length_of_asked plain fileless
  have after := PipelineGrammar.length_of_asked same fileless
  rw [IdlePadding, complete]
  exact separators_of_countP (by omega)

/-- The codes of the characters that are white space. -/
def spaceCodes : List Nat :=
  List.range' 9 5 ++ [0x20, 0x85, 0xA0, 0x1680] ++ List.range' 0x2000 11 ++
    [0x2028, 0x2029, 0x202F, 0x205F, 0x3000]

theorem toNat_mem_spaceCodes {c : Char} (space : isSpace c = true) : c.toNat ∈ spaceCodes := by
  simp only [isSpace, Bool.or_eq_true, Bool.and_eq_true, decide_eq_true_eq] at space
  simp only [spaceCodes, List.mem_append, List.mem_range'_1, List.mem_cons, List.not_mem_nil,
    or_false]
  omega

/-- White space is in no reference. -/
theorem foreign_of_space {c : Char} (space : isSpace c = true) :
    isNameChar c = false ∧ c ∉ ['$', '{', '}'] := by
  have foreign : (spaceCodes.map Char.ofNat).all
      (fun c => !isNameChar c && !(['$', '{', '}'].contains c)) = true := by decide
  have code := List.mem_map_of_mem (f := Char.ofNat) (toNat_mem_spaceCodes space)
  rw [Char.ofNat_toNat] at code
  simpa using List.all_eq_true.mp foreign c code

theorem expand?_padded (front : isBlank lead = true) (back : isBlank trail = true)
    (lookup : Text → Option Text) (text : Text) :
    expand? lookup (lead ++ text ++ trail) =
      (expand? lookup text).map fun expanded => lead ++ expanded ++ trail := by
  have free : '$' ∉ lead := fun there =>
    absurd (List.all_eq_true.mp front _ there) (by decide)
  rw [Expansion.expand?_eq_substitute, Expansion.expand?_eq_substitute, Option.map_some,
    List.append_assoc, List.append_assoc, Expansion.substitute_append free]
  cases trail with
  | nil => rw [List.append_nil, List.append_nil]
  | cons c rest =>
    have white := Bool.and_eq_true_iff.mp back
    obtain ⟨foreign, other⟩ := foreign_of_space white.1
    rw [Expansion.substitute_append_cons foreign other, substitute_of_blank lookup white.2]

end

/-! The lines of a file. -/

/-- The white space at the front of a line. -/
def leadingSpace (line : Text) : Text := line.takeWhile isSpace

/-- The white space at the end of a line, apart from what is at its front already. -/
def trailingSpace (line : Text) : Text :=
  ((line.dropWhile isSpace).reverse.takeWhile isSpace).reverse

theorem isBlank_leadingSpace (line : Text) : isBlank (leadingSpace line) = true := by
  simp [isBlank, leadingSpace]

theorem isBlank_trailingSpace (line : Text) : isBlank (trailingSpace line) = true := by
  simp [isBlank, trailingSpace]

theorem append_trim (line : Text) :
    leadingSpace line ++ trim line ++ trailingSpace line = line := by
  rw [List.append_assoc, trim, trailingSpace, ← List.reverse_append,
    List.takeWhile_append_dropWhile, List.reverse_reverse, leadingSpace,
    List.takeWhile_append_dropWhile]

/-- What becomes of the lines of a file. Those that are kept are handed over in order, without the
white space at their ends. Whatever the variables are, a line as it is written comes to what is
handed over with that white space around it. The words are the same just when the reader makes
nothing of the white space, and then so is the command. The command is the same only then, if it has
no files, or if what is handed over ends in a backslash. -/
theorem sourced_as_written_iff {world : World} {rc : RcFile} {content : Text}
    (readable : RcFile.readText world rc.path = .ok content) :
    RcFile.load world rc = .ok
      (((RcFile.contentLines content).filter fun line => RcFile.isKept (trim line)).map trim) ∧
    ∀ line ∈ RcFile.contentLines content, ∀ lookup, ∃ sourced,
      expand? lookup (trim line) = some sourced ∧
      let written := leadingSpace line ++ sourced ++ trailingSpace line
      let idle := IdlePadding (leadingSpace line) sourced (trailingSpace line)
      expand? lookup line = some written ∧
      (tokenize written = tokenize sourced ↔ idle) ∧
      (idle → readPipeline written = readPipeline sourced) ∧
      (∀ asked, readPipeline sourced = .ok asked → (∀ p ∈ asked, p.Fileless) →
        (readPipeline written = .ok asked ↔ idle)) ∧
      (tokenize sourced = .error .trailingEscape →
        (readPipeline written = readPipeline sourced ↔ trailingSpace line = [])) := by
  refine ⟨?_, fun line _ lookup => ?_⟩
  · rw [RcFile.load, readable]
    exact congrArg Except.ok (List.filter_map ..)
  have front := isBlank_leadingSpace line
  have back := isBlank_trailingSpace line
  have sourced := Expansion.expand?_eq_substitute lookup (trim line)
  refine ⟨_, sourced, ?_, tokenize_padded_iff front back _, readPipeline_padded front back,
    fun asked => readPipeline_padded_of_fileless front back, readPipeline_padded_escape front back⟩
  have padded := expand?_padded front back lookup (trim line)
  rwa [append_trim, sourced] at padded

/-- An indented line with two blanks behind it. -/
theorem sourced_as_written_iff_indented :
    let world := shellWithRc "\techo $A  \n# note\n"
    let rc : RcFile := ⟨"/rc".toList, true⟩
    let line := "\techo $A  ".toList
    let lookup : Text → Option Text := fun _ => some "x".toList
    RcFile.readText world rc.path = .ok "\techo $A  \n# note\n".toList ∧
      RcFile.load world rc = .ok ["echo $A".toList] ∧
      (expand? lookup line).map readPipeline =
        (expand? lookup (trim line)).map readPipeline := by
  intro world rc line lookup
  have readable : RcFile.readText world rc.path = .ok "\techo $A  \n# note\n".toList := by
    decide +kernel
  obtain ⟨loaded, reads⟩ := sourced_as_written_iff readable
  obtain ⟨sourced, cut, whole, -, same, -, -⟩ := reads line (by decide +kernel) lookup
  refine ⟨readable, loaded.trans (by decide +kernel), ?_⟩
  have expanded : sourced = "echo x".toList :=
    Option.some.inj (cut.symm.trans (by decide +kernel))
  have idle : IdlePadding (leadingSpace line) sourced (trailingSpace line) := by
    have complete : tokenize sourced = .ok [⟨"echo".toList, false⟩, ⟨"x".toList, false⟩] := by
      rw [expanded]
      decide +kernel
    have separators : (leadingSpace line ++ trailingSpace line).all isSeparator = true := by
      decide +kernel
    rw [IdlePadding, complete]
    exact List.all_eq_true.mp separators
  rw [whole, cut, Option.map_some, Option.map_some, same idle]

/-- The backslash at the end of the first line has lost the blank that it is there for, and the
second line its last letter. -/
theorem escaped_space_cut :
    let content := "echo a\\ \necho a\u00a0\n".toList
    let read (line : Text) := (expand? (fun _ => none) line).map readPipeline
    let echo (word : String) : Pipeline := { left := { args := ["echo".toList, word.toList] } }
    RcFile.contentLines content = ["echo a\\ ".toList, "echo a\u00a0".toList] ∧
      RcFile.linesOf content = ["echo a\\".toList, "echo a".toList] ∧
      (RcFile.contentLines content).map read =
        [some (.ok (some (echo "a "))), some (.ok (some (echo "a\u00a0")))] ∧
      (RcFile.linesOf content).map read =
        [some (.error .trailingEscape), some (.ok (some (echo "a")))] := by
  decide +kernel

end LineShell
