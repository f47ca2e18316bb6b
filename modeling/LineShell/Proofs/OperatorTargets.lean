import LineShell.Proofs.PipelineGrammar
import Mathlib.Data.List.Chain

/-! What the reader makes of the operators `<` and `>` of a line. A bare operator is never an
argument. It is a file name only behind another operator, since an operator takes whatever stands
there: the line is then read as a command, although its operator has no file name behind it. So the
operators are kept from the commands just when no two of them stand together, or when the line is
refused for an operator at the end of a side (`keepsOperators_iff_single`). -/

namespace LineShell.PipelineGrammar

/-- A bare `<` or `>`. -/
def IsRedirect (t : Token) : Prop := ∃ d : Direction, t = bare d.operator

theorem isRedirect_operator (d : Direction) : IsRedirect (bare d.operator) := ⟨d, rfl⟩

theorem not_isRedirect_bare {c : Char} (input : c ≠ '<') (output : c ≠ '>') :
    ¬ IsRedirect (bare c) := by
  rintro ⟨- | -, same⟩
  · exact input (by simpa [bare, Direction.operator] using same)
  · exact output (by simpa [bare, Direction.operator] using same)

/-- No operator stands right behind another one. -/
def Single (tokens : List Token) : Prop :=
  tokens.IsChain fun t u => ¬ (IsRedirect t ∧ IsRedirect u)

/-- Some operator has no file name behind it: nothing, or an operator. -/
def Unfilled (tokens : List Token) : Prop :=
  ∃ t back, t :: back <:+ tokens ∧ IsRedirect t ∧ ∀ u ∈ back.head?, IsRedirect u

theorem single_cons {t : Token} {rest : List Token} :
    Single (t :: rest) ↔ (IsRedirect t → ∀ u ∈ rest.head?, ¬ IsRedirect u) ∧ Single rest := by
  rw [Single, List.isChain_cons]
  refine and_congr_left fun _ => ⟨fun apart here u next there => ?_, fun apart u next both => ?_⟩
  · exact apart u next ⟨here, there⟩
  · exact apart both.1 u next both.2

theorem single_append {front back : List Token}
    (between : ∀ u ∈ back.head?, ¬ IsRedirect u) :
    Single (front ++ back) ↔ Single front ∧ Single back := by
  rw [Single, List.isChain_append]
  constructor
  · rintro ⟨left, right, -⟩
    exact ⟨left, right⟩
  · rintro ⟨left, right⟩
    exact ⟨left, right, fun _ _ u first both => between u first both.2⟩

theorem unfilled_cons {t : Token} {rest : List Token} :
    Unfilled (t :: rest) ↔
      (IsRedirect t ∧ ∀ u ∈ rest.head?, IsRedirect u) ∨ Unfilled rest := by
  constructor
  · rintro ⟨u, back, suffix, operator, next⟩
    rcases List.suffix_cons_iff.mp suffix with whole | later
    · obtain ⟨rfl, rfl⟩ := List.cons.inj whole
      exact .inl ⟨operator, next⟩
    · exact .inr ⟨u, back, later, operator, next⟩
  · rintro (⟨operator, next⟩ | ⟨u, back, suffix, operator, next⟩)
    · exact ⟨t, rest, List.suffix_rfl, operator, next⟩
    · exact ⟨u, back, suffix.trans (List.suffix_cons t rest), operator, next⟩

/-! The tokens of a side that its command is made of. -/

namespace Part

def wordToken? : Part → Option Token
  | word t _ => some t
  | file _ _ => none

def target? : Part → Option Token
  | word _ _ => none
  | file _ target => some target

/-- The token that the part takes as a file for the stream `d`. -/
def fileToken? (d : Direction) : Part → Option Token
  | word _ _ => none
  | file e target => if e = d then some target else none

theorem target?_of_fileToken? {d : Direction} {p : Part} {t : Token}
    (h : p.fileToken? d = some t) : p.target? = some t := by
  cases p with
  | word => cases h
  | file e target =>
    rw [fileToken?] at h
    split at h
    · exact h
    · cases h

end Part

namespace Side

def wordTokens (s : Side) : List Token := s.parts.filterMap Part.wordToken?

/-- The tokens that the operators take, the ones that a later file replaces among them. -/
def targets (s : Side) : List Token := s.parts.filterMap Part.target?

def fileToken? (s : Side) (d : Direction) : Option Token :=
  (s.parts.filterMap (Part.fileToken? d)).getLast?

/-- The tokens whose texts are the words and the files of the command. -/
def suppliers (s : Side) : List Token :=
  s.wordTokens ++ (s.fileToken? .input).toList ++ (s.fileToken? .output).toList

theorem stage_eq_texts (s : Side) : s.stage =
    ⟨s.wordTokens.map Token.text,
      ⟨(s.fileToken? .input).map Token.text, (s.fileToken? .output).map Token.text⟩⟩ := by
  have words : Option.map Token.text ∘ Part.wordToken? = Part.word? := by
    funext p
    cases p <;> rfl
  have files (d : Direction) : Option.map Token.text ∘ Part.fileToken? d = Part.file? d := by
    funext p
    cases p with
    | word => rfl
    | file e target =>
      rw [Function.comp_apply, Part.fileToken?, Part.file?]
      split <;> rfl
  simp only [stage, Side.words, file?, wordTokens, fileToken?, List.map_filterMap,
    ← List.getLast?_map]
  rw [← words, ← files, ← files]
  rfl

theorem not_isRedirect_wordTokens {s : Side} {t : Token} (word : t ∈ s.wordTokens) :
    ¬ IsRedirect t := by
  obtain ⟨p, -, here⟩ := List.mem_filterMap.mp word
  cases p with
  | word u other =>
    obtain rfl := Option.some.inj here
    exact not_exists.mpr other
  | file => cases here

theorem mem_targets_of_fileToken? {s : Side} {d : Direction} {t : Token}
    (file : s.fileToken? d = some t) : t ∈ s.targets := by
  obtain ⟨p, there, here⟩ := List.mem_filterMap.mp (List.mem_of_getLast? file)
  exact List.mem_filterMap.mpr ⟨p, there, Part.target?_of_fileToken? here⟩

/-- Only a file can be an operator. -/
theorem mem_targets_of_suppliers {s : Side} {t : Token} (there : t ∈ s.suppliers)
    (operator : IsRedirect t) : t ∈ s.targets := by
  rw [suppliers, List.mem_append, List.mem_append, Option.mem_toList, Option.mem_toList] at there
  rcases there with (word | input) | output
  · exact absurd operator (not_isRedirect_wordTokens word)
  · exact mem_targets_of_fileToken? input
  · exact mem_targets_of_fileToken? output

theorem single_tokens_iff (s : Side) : Single s.tokens ↔ ∀ t ∈ s.targets, ¬ IsRedirect t := by
  obtain ⟨parts, dangling⟩ := s
  -- A part that names a file begins with an operator, so its file decides whether two meet.
  induction parts with
  | nil => cases dangling <;> simp [tokens, targets, Single]
  | cons p parts ih =>
    rw [tokens_cons_part]
    cases p with
    | word t other =>
      have word : ¬ IsRedirect t := not_exists.mpr other
      show Single (t :: tokens ⟨parts, dangling⟩) ↔ _
      rw [single_cons, ih]
      simp [word, targets, Part.target?]
    | file d target =>
      show Single (bare d.operator :: target :: tokens ⟨parts, dangling⟩) ↔ _
      rw [single_cons, single_cons, ih]
      simp only [isRedirect_operator, targets, Part.target?, List.head?_cons, Option.mem_some_iff,
        forall_true_left, forall_eq', List.filterMap_cons, List.forall_mem_cons]
      constructor
      · rintro ⟨free, -, later⟩
        exact ⟨free, later⟩
      · rintro ⟨free, later⟩
        exact ⟨free, fun operator => absurd operator free, later⟩

theorem unfilled_tokens_iff (s : Side) :
    Unfilled s.tokens ↔ s.dangling ≠ none ∨ ∃ t ∈ s.targets, IsRedirect t := by
  obtain ⟨parts, dangling⟩ := s
  induction parts with
  | nil =>
    cases dangling with
    | none => simp [tokens, targets, Unfilled]
    | some d =>
      show Unfilled [bare d.operator] ↔ _
      simp [unfilled_cons, isRedirect_operator]
  | cons p parts ih =>
    rw [tokens_cons_part]
    cases p with
    | word t other =>
      have word : ¬ IsRedirect t := not_exists.mpr other
      show Unfilled (t :: tokens ⟨parts, dangling⟩) ↔ _
      rw [unfilled_cons, ih]
      simp [word, targets, Part.target?]
    | file d target =>
      show Unfilled (bare d.operator :: target :: tokens ⟨parts, dangling⟩) ↔ _
      rw [unfilled_cons, unfilled_cons, ih]
      simp only [isRedirect_operator, targets, Part.target?, List.head?_cons, Option.mem_some_iff,
        true_and, forall_eq', List.filterMap_cons, List.exists_mem_cons_iff]
      tauto

end Side

/-! The whole line. -/

namespace Line

def sides (l : Line) : List Side := l.left :: l.right.toList

theorem single_tokens_iff (l : Line) : Single l.tokens ↔ ∀ s ∈ l.sides, Single s.tokens := by
  have marked : Single l.tokens ↔ Single (joined l.left l.right) := by
    rw [Line.tokens]
    split
    · have mark : ¬ IsRedirect (bare '&') := not_isRedirect_bare (by decide) (by decide)
      rw [single_append (by simpa using mark)]
      simp [Single]
    · rw [List.append_nil]
  have pipe : ¬ IsRedirect (bare '|') := not_isRedirect_bare (by decide) (by decide)
  rw [marked, joined, sides]
  cases l.right with
  | none => simp
  | some s =>
    rw [Option.map_some, Option.getD_some, single_append (by simpa using pipe), single_cons]
    simp [pipe]

/-- An operator without a file name that is not at the end of a side is missed by the reader. -/
theorem unfilled_iff_of_single {l : Line} (single : Single l.tokens) :
    (∃ s ∈ l.sides, Unfilled s.tokens) ↔ ∃ s ∈ l.sides, s.dangling ≠ none := by
  refine exists_congr fun s => and_congr_right fun there => ?_
  have free := (Side.single_tokens_iff s).mp ((single_tokens_iff l).mp single s there)
  rw [Side.unfilled_tokens_iff, or_iff_left]
  rintro ⟨t, taken, operator⟩
  exact free t taken operator

theorem unfilled_of_not_single {l : Line} (touching : ¬ Single l.tokens) :
    ∃ s ∈ l.sides, Unfilled s.tokens := by
  rw [single_tokens_iff] at touching
  push Not at touching
  obtain ⟨s, there, touching⟩ := touching
  rw [Side.single_tokens_iff] at touching
  push Not at touching
  exact ⟨s, there, (Side.unfilled_tokens_iff s).mpr (.inr touching)⟩

theorem refused_of_dangling {l : Line} {s : Side} (there : s ∈ l.sides)
    (dangling : s.dangling ≠ none) :
    ∃ operator, Pipeline.ofTokens l.tokens = .error (.missingRedirectTarget operator) := by
  have incomplete : ¬ l.Complete := by
    rintro ⟨⟨left, -⟩, right⟩
    rcases List.mem_cons.mp there with rfl | second
    · exact dangling left
    · exact dangling (right s (Option.mem_toList.mp second)).1
  have some_token : l.tokens ≠ [] := by
    intro empty
    obtain rfl := tokens_injective (m := ⟨⟨[], none⟩, none, false, List.not_mem_nil, nofun⟩) empty
    exact dangling (congrArg Side.dangling (List.mem_singleton.mp there))
  obtain ⟨d, found⟩ : ∃ d, l.left.dangling.or (l.right.bind Side.dangling) = some d := by
    rw [← Option.ne_none_iff_exists', ne_eq, Option.or_eq_none_iff]
    rintro ⟨left, right⟩
    rcases List.mem_cons.mp there with rfl | second
    · exact dangling left
    · rw [Option.mem_toList.mp second] at right
      exact dangling right
  refine ⟨[d.operator], ?_⟩
  rw [ofTokens_of_incomplete some_token incomplete, complaint, found]

end Line

/-- The operators `<` and `>` are kept from the commands: none of them is a word or a file of one,
and a line in which one of them has no file name behind it on its side is refused for that. -/
structure KeepsOperators (tokens : List Token) : Prop where
  supplies : ∀ p, Pipeline.ofTokens tokens = .ok (some p) →
    ∀ l : Line, l.tokens = tokens → ∀ s ∈ l.sides, ∀ t ∈ s.suppliers, ¬ IsRedirect t
  refuses : ∀ l : Line, l.tokens = tokens → (∃ s ∈ l.sides, Unfilled s.tokens) →
    ∃ operator, Pipeline.ofTokens tokens = .error (.missingRedirectTarget operator)

/-- What a command is made of, and when the operators are kept from it. A line that is read is made
of the texts of its tokens; its words are never operators, and the tokens taken as files are none
just when no two operators stand together. The operators are kept from the commands just in those
lines, and in the lines refused for an operator at the end of a side. -/
theorem keepsOperators_iff_single (tokens : List Token) :
    (∀ p, Pipeline.ofTokens tokens = .ok (some p) → ∃ l : Line,
      l.tokens = tokens ∧ p = l.pipeline ∧
      ∀ s ∈ l.sides,
        s.stage = ⟨s.wordTokens.map Token.text,
          ⟨(s.fileToken? .input).map Token.text, (s.fileToken? .output).map Token.text⟩⟩ ∧
        (∀ t ∈ s.wordTokens, ¬ IsRedirect t) ∧
        (Single s.tokens ↔ ∀ t ∈ s.targets, ¬ IsRedirect t)) ∧
    (KeepsOperators tokens ↔
      Single tokens ∨
        ∃ operator, Pipeline.ofTokens tokens = .error (.missingRedirectTarget operator)) := by
  refine ⟨fun p read => ?_, fun kept => ?_, ?_⟩
  · obtain ⟨l, same, -, rfl⟩ := exists_line_of_ofTokens read
    exact ⟨l, same, rfl, fun s _ =>
      ⟨s.stage_eq_texts, fun _ => Side.not_isRedirect_wordTokens, s.single_tokens_iff⟩⟩
  · by_cases single : Single tokens
    · exact .inl single
    · obtain ⟨l, rfl⟩ := exists_line tokens
      exact .inr (kept.refuses l rfl (Line.unfilled_of_not_single single))
  · rintro (single | ⟨operator, refused⟩)
    · constructor
      · rintro p - l rfl s there t supplier operator
        have free := (Side.single_tokens_iff s).mp (l.single_tokens_iff.mp single s there)
        exact free t (Side.mem_targets_of_suppliers supplier operator) operator
      · rintro l rfl unfilled
        obtain ⟨s, there, dangling⟩ := (Line.unfilled_iff_of_single single).mp unfilled
        exact Line.refused_of_dangling there dangling
    · refine ⟨fun p read => ?_, fun _ _ _ => ⟨operator, refused⟩⟩
      rw [refused] at read
      cases read

/-- In `cat < >` the second operator is the input file of the command. -/
theorem operator_as_file :
    let tokens : List Token := [⟨"cat".toList, false⟩, bare '<', bare '>']
    let left : Stage := { args := ["cat".toList], redirections := { input := some ['>'] } }
    tokenize "cat < >".toList = .ok tokens ∧
      Pipeline.ofTokens tokens = .ok (some { left }) ∧
      ¬ KeepsOperators tokens := by
  intro tokens left
  have read : Pipeline.ofTokens tokens = .ok (some { left }) := by decide
  refine ⟨by decide, read, fun kept => ?_⟩
  obtain ⟨l, same⟩ := exists_line tokens
  have touching : ¬ Single l.tokens := by
    intro single
    rw [same, single_cons, single_cons] at single
    exact single.2.1 (isRedirect_operator .input) (bare '>') rfl (isRedirect_operator .output)
  obtain ⟨operator, refused⟩ := kept.refuses l same (Line.unfilled_of_not_single touching)
  rw [read] at refused
  cases refused

end LineShell.PipelineGrammar
