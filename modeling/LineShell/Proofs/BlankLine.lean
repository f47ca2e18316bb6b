import LineShell.Proofs.TypeAnswer
import LineShell.Proofs.VariableHistory

/-! Lines that are not entered in the history. These are the lines of white space, which has more
characters than the separators of words: a line of separators is nothing to the shell, but any other
white space is a word, and the line is run as a command although it is not entered
(`idle_iff_separators`). It is never a builtin or an assignment, since their names have letters. -/

namespace LineShell

open Act

/-- The runs of characters between separators. -/
def unquotedWords (line : Text) : List Text :=
  (line.splitOnP isSeparator).filter fun word => !word.isEmpty

theorem unquotedWords_append_cons {c : Char} (separates : isSeparator c = true) (a b : Text) :
    unquotedWords (a ++ c :: b) = unquotedWords a ++ unquotedWords b := by
  rw [unquotedWords, List.splitOnP_append_cons a b separates, List.filter_append]
  rfl

theorem unquotedWords_of_joined {word : Text} (joined : ∀ c ∈ word, isSeparator c = false) :
    unquotedWords word = if word = [] then [] else [word] := by
  rw [unquotedWords, List.splitOnP_eq_singleton joined]
  cases word <;> simp

theorem unquotedWords_eq_nil_iff {line : Text} :
    unquotedWords line = [] ↔ ∀ c ∈ line, isSeparator c = true := by
  induction line with
  | nil => simp [unquotedWords]
  | cons c rest ih =>
    cases separates : isSeparator c with
    | true =>
      have first := unquotedWords_append_cons separates [] rest
      rw [List.nil_append] at first
      rw [first, unquotedWords_of_joined (List.forall_mem_nil _), if_pos rfl, List.nil_append, ih,
        List.forall_mem_cons]
      simp [separates]
    | false =>
      rw [unquotedWords, List.splitOnP_cons_eq_if_modifyHead, separates]
      cases pieces : rest.splitOnP isSeparator with
      | nil => exact absurd pieces (List.splitOnP_ne_nil _ _)
      | cons piece more => simp [separates]

namespace Token.Reader

/-- The open word of a reader that has met no quotes, its letters the latest first. -/
def unquoted (letters : Text) : Option (Text × Bool) :=
  if letters = [] then none else some (letters, false)

theorem finish_unquoted (words : List Token) (letters : Text) {line : Text}
    (joined : ∀ c ∈ letters, isSeparator c = false)
    (plain : ∀ c ∈ line, WordGrammar.isPlain c = true ∨ isSeparator c = true) :
    (line.foldl step ⟨words, unquoted letters, .bare⟩).finish =
      .ok (words.reverse ++ (unquotedWords (letters.reverse ++ line)).map (⟨·, false⟩)) := by
  induction line generalizing words letters with
  | nil =>
    rw [List.append_nil, unquotedWords_of_joined (by simpa using joined)]
    by_cases none_open : letters = [] <;> simp [none_open, unquoted, finish, close]
  | cons c rest ih =>
    obtain ⟨here, later⟩ := List.forall_mem_cons.mp plain
    rw [List.foldl_cons]
    cases separates : isSeparator c with
    | true =>
      have closes : step ⟨words, unquoted letters, .bare⟩ c =
          close ⟨words, unquoted letters, .bare⟩ := by
        simp only [isSeparator, Bool.or_eq_true, decide_eq_true_eq] at separates
        rcases separates with (((rfl | rfl) | rfl) | rfl) | rfl <;> rfl
      rw [closes, unquotedWords_append_cons separates,
        unquotedWords_of_joined (by simpa using joined)]
      by_cases none_open : letters = []
      · have next := ih words [] (by simp) later
        simpa [none_open, unquoted, close] using next
      · have next := ih (⟨letters.reverse, false⟩ :: words) [] (by simp) later
        simpa [none_open, unquoted, close] using next
    | false =>
      have stands := here.resolve_right (by simp [separates])
      simp only [WordGrammar.isPlain, Bool.and_eq_true, decide_eq_true_eq] at stands
      have opens : step ⟨words, unquoted letters, .bare⟩ c =
          ⟨words, unquoted (c :: letters), .bare⟩ := by
        by_cases none_open : letters = [] <;>
          simp [step, Reader.plain, unquoted, none_open, separates, stands]
      have next := ih words (c :: letters)
        (List.forall_mem_cons.mpr ⟨separates, joined⟩) later
      rw [opens, next, List.reverse_cons, List.append_assoc]
      rfl

end Token.Reader

/-- Without quotes and backslashes a line is cut at its separators, and nowhere else. -/
theorem tokenize_unquoted {line : Text}
    (plain : ∀ c ∈ line, WordGrammar.isPlain c = true ∨ isSeparator c = true) :
    tokenize line = .ok ((unquotedWords line).map (⟨·, false⟩)) :=
  Token.Reader.finish_unquoted [] [] (by simp) plain

section

variable {quiet : Bool} {world : World} {line : Text}

theorem unrecorded_iff_blank :
    ((executeLine quiet line).outcome world).2.session.history = world.session.history ↔
      isBlank line = true := by
  have entered := history_step quiet world (.entered line)
  rw [LineEvent.step, LineEvent.recorded?] at entered
  rw [entered]
  cases isBlank line <;> simp

theorem tokenize_of_blank (blank : isBlank line = true) :
    tokenize line = .ok ((unquotedWords line).map (⟨·, false⟩)) := by
  refine tokenize_unquoted fun c there => ?_
  obtain ⟨single, double, escape⟩ :=
    WordGrammar.unmarked_of_space (List.all_eq_true.mp blank c there)
  cases separates : isSeparator c with
  | true => exact .inr rfl
  | false =>
    left
    simp [WordGrammar.isPlain, separates, single, double, escape]

theorem blank_unquotedWords (blank : isBlank line = true) {word : Text}
    (there : word ∈ unquotedWords line) : isBlank word = true := by
  obtain ⟨l, rfl, words⟩ := WordGrammar.tokenize_eq_ok_iff.mp (tokenize_of_blank blank)
  have inside : (⟨word, false⟩ : Token) ∈ l.tokens := words ▸ List.mem_map_of_mem there
  exact WordGrammar.blank_tokens blank _ inside

/-- A line of white space as a command. -/
def blankCommand (line : Text) : Pipeline := { left := { args := unquotedWords line } }

theorem plain_of_blank (blank : isBlank line = true) :
    Plain ((unquotedWords line).map (⟨·, false⟩)) := by
  intro t there c operator
  obtain ⟨word, inside, rfl⟩ := List.mem_map.mp there
  have white := blank_unquotedWords blank inside
  rw [← Bool.not_eq_true, PipelineGrammar.isOperator_iff, PipelineGrammar.bare, Token.mk.injEq]
  rintro ⟨rfl, -⟩
  have visible : ['<', '>', '|', '&'].all (!isSpace ·) = true := by decide
  have space := List.all_eq_true.mp white c (List.mem_singleton_self c)
  have none_here := List.all_eq_true.mp visible c operator
  rw [space] at none_here
  cases none_here

theorem read_of_blank (blank : isBlank line = true) (word : unquotedWords line ≠ []) :
    world.read? line = some (.ok (some (blankCommand line))) := by
  have command := ofTokens_of_plain (plain_of_blank blank) (by simpa using word)
  rw [World.read?, World.expand?, Expansion.expand?_eq_substitute, substitute_of_blank _ blank,
    Option.map_some, readPipeline, tokenize_of_blank blank]
  refine congrArg some (command.trans ?_)
  simp [blankCommand, Function.comp_def]

theorem read_of_separators (separators : ∀ c ∈ line, isSeparator c = true) :
    world.read? line = some (.ok none) := by
  have blank : isBlank line = true :=
    List.all_eq_true.mpr fun c there => isSpace_of_isSeparator (separators c there)
  rw [World.read?, World.expand?, Expansion.expand?_eq_substitute, substitute_of_blank _ blank,
    Option.map_some, readPipeline, tokenize_of_blank blank,
    unquotedWords_eq_nil_iff.mpr separators]
  rfl

theorem exists_program_of_blank (word : unquotedWords line ≠ []) :
    (blankCommand line).left.program ∈ unquotedWords line := by
  obtain ⟨first, more, words⟩ := List.exists_cons_of_ne_nil word
  rw [blankCommand, Stage.program, words]
  exact List.mem_cons_self

theorem assignments?_of_blank (blank : isBlank line = true) (word : unquotedWords line ≠ []) :
    (blankCommand line).assignments? = none := by
  obtain ⟨first, more, words⟩ := List.exists_cons_of_ne_nil word
  have white : isBlank first = true :=
    blank_unquotedWords blank (words ▸ List.mem_cons_self)
  have sign : '=' ∉ first := fun there =>
    absurd (List.all_eq_true.mp white _ there) (by decide)
  show (unquotedWords line).mapM assignment? = none
  rw [words, List.mapM_cons, assignment?, cut?_eq_none.mpr sign]
  rfl

theorem lookup?_of_blank (blank : isBlank line = true) (word : unquotedWords line ≠ []) :
    Builtin.lookup? (blankCommand line).left.program = none := by
  have white := blank_unquotedWords blank (exists_program_of_blank word)
  cases found : Builtin.lookup? (blankCommand line).left.program with
  | none => rfl
  | some b =>
    have visible := Builtin.not_blank_of_lookup? found
    rw [isBlank, visible] at white
    cases white

theorem launches_of_blank (blank : isBlank line = true) (word : unquotedWords line ≠ []) :
    world.Launches quiet line (blankCommand line) {} world
      (world.findExecutable (blankCommand line).left.program) := by
  refine World.launches_of_program (read_of_blank blank word) rfl (assignments?_of_blank blank word)
    rfl (fun arg there nul => ?_) (lookup?_of_blank blank word)
  have space := List.all_eq_true.mp (blank_unquotedWords blank there) _ nul
  exact absurd space (by decide)

end

/-- What a line that is not entered in the history comes to. It has no words, and does nothing, just
when it is made of separators. If it has other white space, then the runs of that are words, and it
is run as the command that they make, for which a child is started; but it is never an assignment
or a builtin. -/
theorem idle_iff_separators (quiet : Bool) {world : World} {line : Text}
    (unrecorded :
      ((executeLine quiet line).outcome world).2.session.history = world.session.history) :
    ((world.expand? line).map tokenize = some (.ok []) ↔ ∀ c ∈ line, isSeparator c = true) ∧
    ((runLine quiet line).outcome world = (.ok .proceed, world) ↔
      ∀ c ∈ line, isSeparator c = true) ∧
    ((∃ c ∈ line, isSeparator c = false) →
      world.read? line = some (.ok (some (blankCommand line))) ∧
      (blankCommand line).assignments? = none ∧
      Builtin.lookup? (blankCommand line).left.program = none ∧
      world.Launches quiet line (blankCommand line) {} world
        (world.findExecutable (blankCommand line).left.program)) := by
  have blank := unrecorded_iff_blank.mp unrecorded
  have some_word (other : ¬ ∀ c ∈ line, isSeparator c = true) : unquotedWords line ≠ [] :=
    unquotedWords_eq_nil_iff.not.mpr other
  refine ⟨?_, ⟨fun idle => ?_, fun separators => ?_⟩, fun ⟨c, there, other⟩ => ?_⟩
  · rw [World.expand?, Expansion.expand?_eq_substitute, substitute_of_blank _ blank,
      Option.map_some, tokenize_of_blank blank, ← unquotedWords_eq_nil_iff]
    simp
  · by_contra other
    have launched : world.Launches quiet line (blankCommand line) {} world _ :=
      launches_of_blank blank (some_word other)
    exact launched.forks_ne (by rw [idle])
  · exact outcome_runLine_of_none quiet (read_of_separators separators)
  · have word := some_word fun separators => by simp [separators c there] at other
    exact ⟨read_of_blank blank word, assignments?_of_blank blank word, lookup?_of_blank blank word,
      launches_of_blank blank word⟩

/-- Two words of white space, one of them the program. -/
theorem idle_iff_separators_spaces :
    let line := "\u00a0\t\u2003 ".toList
    ((executeLine true line).outcome (shellWith [])).2.session.history =
        (shellWith []).session.history ∧
      (∃ c ∈ line, isSeparator c = false) ∧
      (shellWith []).read? line =
        some (.ok (some { left := { args := ["\u00a0".toList, "\u2003".toList] } })) ∧
      (runLine true line).outcome (shellWith []) ≠ (.ok .proceed, shellWith []) := by
  intro line
  have unrecorded : ((executeLine true line).outcome (shellWith [])).2.session.history =
      (shellWith []).session.history := by decide +kernel
  have other : ∃ c ∈ line, isSeparator c = false :=
    ⟨'\u00a0', by decide +kernel, by decide⟩
  obtain ⟨-, idle, command⟩ := idle_iff_separators true unrecorded
  have words : unquotedWords line = ["\u00a0".toList, "\u2003".toList] := by decide +kernel
  have read := (command other).1
  rw [blankCommand, words] at read
  refine ⟨unrecorded, other, read, fun same => ?_⟩
  obtain ⟨c, there, visible⟩ := other
  rw [idle.mp same c there] at visible
  cases visible

/-- A no-break space is not entered, and the shell looks for a program of that name. -/
theorem unrecorded_runs :
    let world : World :=
      { place := .root
        descriptors := .ofList [(Descriptors.stderr, ⟨0, false⟩)]
        machine := {
          root := .dir [] .ownDir
          streams := [⟨.buffer 0, false, true, true, 0⟩]
          buffers := [[]] } }
    let line := "\u00a0".toList
    ((executeLine true line).outcome world).2.session.history = world.session.history ∧
      (world.expand? line).map tokenize = some (.ok [⟨line, false⟩]) ∧
      ((runLine true line).outcome world).2.machine.buffers =
        [encode "\u00a0: command not found\n".toList] := by
  decide +kernel

end LineShell
