import LineShell.Interpreter
import LineShell.Proofs.Substitution
import LineShell.Proofs.WordGrammar
import Mathlib.Data.List.TakeWhile

/-! Writing a pipeline so that it is read back as it is. Every argument and every file stands in
`'…'`; the quotes are left for a `'`, which is escaped, and after a `$`, which then begins no
reference. `read_render` says that the three readings of a line undo this writing, whatever the
variables are. -/

namespace LineShell.Literal
open WordGrammar

/-- How a character is written inside `'…'`: behind one in `breaks` the quotes are closed and
opened again. -/
def character (breaks : Char → Bool) (c : Char) : Text :=
  if c = '\'' then ['\'', '\\', '\'', '\'']
  else if breaks c then [c, '\'', '\'']
  else [c]

def quoted (breaks : Char → Bool) (text : Text) : Text :=
  '\'' :: text.flatMap (character breaks) ++ ['\'']

/-- The quoted text goes on from `body`, which is written already. -/
theorem exists_parts (breaks : Char → Bool) (text body : Text) (free : '\'' ∉ body) :
    ∃ parts : List Part, parts ≠ [] ∧
      parts.flatMap Part.source = '\'' :: body ++ text.flatMap (character breaks) ++ ['\''] ∧
      parts.flatMap Part.value = body ++ text ∧ parts.any Part.isQuoted = true := by
  induction text generalizing body with
  | nil => exact ⟨[.single body free], by simp [Part.source, Part.value, Part.isQuoted]⟩
  | cons c rest ih =>
    by_cases mark : c = '\''
    · obtain ⟨parts, -, source, value, -⟩ := ih [] (by simp)
      refine ⟨.single body free :: .escaped '\'' :: parts, by simp, ?_, ?_, rfl⟩
      · simp [source, Part.source, character, mark]
      · simp [value, Part.value, mark]
    have longer : '\'' ∉ body ++ [c] := by simp [free, Ne.symm mark]
    by_cases breaking : breaks c = true
    · obtain ⟨parts, -, source, value, -⟩ := ih [] (by simp)
      refine ⟨.single (body ++ [c]) longer :: parts, by simp, ?_, ?_, rfl⟩
      · simp [source, Part.source, character, mark, breaking]
      · simp [value, Part.value]
    · obtain ⟨parts, nonempty, source, value, isQuoted⟩ := ih _ longer
      refine ⟨parts, nonempty, ?_, ?_, isQuoted⟩
      · simp [source, character, mark, breaking]
      · simp [value]

/-- A bare token as it is, and any other one in quotes. -/
def written (breaks : Char → Bool) (t : Token) : Text :=
  if t.quoted then quoted breaks t.text else t.text

/-- A token that can be written: if it is bare, some letters that stand for themselves. -/
def Writable (t : Token) : Prop :=
  t.quoted = false → t.text ≠ [] ∧ ∀ c ∈ t.text, isPlain c = true

theorem exists_bare_parts {text : Text} (plain : ∀ c ∈ text, isPlain c = true) :
    ∃ parts : List Part, parts.length = text.length ∧ parts.flatMap Part.source = text ∧
      parts.flatMap Part.value = text ∧ parts.any Part.isQuoted = false := by
  induction text with
  | nil => exact ⟨[], rfl, rfl, rfl, rfl⟩
  | cons c rest ih =>
    obtain ⟨self, others⟩ := List.forall_mem_cons.mp plain
    obtain ⟨parts, length, source, value, isQuoted⟩ := ih others
    refine ⟨.plain c self :: parts, by simp [length], ?_, ?_, ?_⟩
    · simp [source, Part.source]
    · simp [value, Part.value]
    · rw [List.any_cons, isQuoted]
      rfl

theorem exists_word (breaks : Char → Bool) {t : Token} (writable : Writable t) :
    ∃ w : Word, w.source = written breaks t ∧ w.token = t := by
  obtain ⟨text, quotation⟩ := t
  cases quotation with
  | false =>
    obtain ⟨nonempty, plain⟩ := writable rfl
    obtain ⟨parts, length, source, value, isQuoted⟩ := exists_bare_parts plain
    have some_part : parts ≠ [] := by
      rintro rfl
      exact nonempty (List.length_eq_zero_iff.mp length.symm)
    refine ⟨⟨parts, some_part⟩, ?_, ?_⟩
    · simpa [Word.source, written] using source
    · simp [Word.token, value, isQuoted]
  | true =>
    obtain ⟨parts, nonempty, source, value, isQuoted⟩ := exists_parts breaks text [] (by simp)
    refine ⟨⟨parts, nonempty⟩, ?_, ?_⟩
    · simpa [Word.source, written, quoted] using source
    · simp [Word.token, value, isQuoted]

theorem apart_spaced (w : Word) (rest : List Word) :
    Apart ((noGap, w) :: rest.map fun w => (⟨[' '], rfl⟩, w)) := by
  simp [Apart]

/-- Words with one blank between each two. -/
def lineOf : List Word → Line
  | [] => .empty
  | w :: rest =>
    ⟨(noGap, w) :: rest.map fun w => (⟨[' '], rfl⟩, w), noGap, apart_spaced w rest⟩

theorem join_cons (c : Char) (piece : Text) (more : List Text) :
    join c (piece :: more) = piece ++ more.flatMap (c :: ·) := by
  induction more generalizing piece with
  | nil => simp [join]
  | cons next more ih => simp [join, ih]

theorem source_lineOf (words : List Word) :
    (lineOf words).source = join ' ' (words.map Word.source) := by
  cases words with
  | nil => rfl
  | cons w rest => simp [lineOf, Line.source, join_cons, List.flatMap_map]

theorem tokens_lineOf (words : List Word) : (lineOf words).tokens = words.map Word.token := by
  cases words with
  | nil => rfl
  | cons w rest => simp [lineOf, Line.tokens]

theorem exists_words (breaks : Char → Bool) {tokens : List Token}
    (writable : ∀ t ∈ tokens, Writable t) :
    ∃ words : List Word, words.map Word.source = tokens.map (written breaks) ∧
      words.map Word.token = tokens := by
  induction tokens with
  | nil => exact ⟨[], rfl, rfl⟩
  | cons t rest ih =>
    obtain ⟨first, others⟩ := List.forall_mem_cons.mp writable
    obtain ⟨w, source, token⟩ := exists_word breaks first
    obtain ⟨words, sources, tokens⟩ := ih others
    exact ⟨w :: words, by simp [source, sources], by simp [token, tokens]⟩

/-- Tokens written with blanks between them are the tokens of what is written. -/
theorem tokenize_written (breaks : Char → Bool) {tokens : List Token}
    (writable : ∀ t ∈ tokens, Writable t) :
    tokenize (join ' ' (tokens.map (written breaks))) = .ok tokens := by
  obtain ⟨words, source, token⟩ := exists_words breaks writable
  rw [← source, ← source_lineOf, tokenize_line, tokens_lineOf, token]

/-! A text in which every `$` stands before a `'` holds no reference. -/

def Guarded : Text → Prop
  | [] => True
  | c :: rest => (c = '$' → rest.head? = some '\'') ∧ Guarded rest

theorem Guarded.append {a b : Text} (ha : Guarded a) (hb : Guarded b) : Guarded (a ++ b) := by
  induction a with
  | nil => exact hb
  | cons c rest ih =>
    refine ⟨fun dollar => ?_, ih ha.2⟩
    have mark := ha.1 dollar
    obtain ⟨more, rfl⟩ := List.head?_eq_some_iff.mp mark
    rfl

theorem Guarded.flatMap {α : Type} {f : α → Text} {l : List α} (each : ∀ x ∈ l, Guarded (f x)) :
    Guarded (l.flatMap f) := by
  induction l with
  | nil => trivial
  | cons x rest ih =>
    obtain ⟨first, others⟩ := List.forall_mem_cons.mp each
    exact first.append (ih others)

theorem guarded_quoted (text : Text) : Guarded (quoted (· = '$') text) := by
  have inner : Guarded (text.flatMap (character (· = '$'))) := by
    refine Guarded.flatMap fun c _ => ?_
    unfold character
    split
    · simp [Guarded]
    · by_cases dollar : c = '$' <;> simp [Guarded, dollar]
  exact Guarded.append (a := ['\'']) (by simp [Guarded]) (inner.append (by simp [Guarded]))

theorem guarded_join {texts : List Text} (each : ∀ text ∈ texts, Guarded text) :
    Guarded (join ' ' texts) := by
  cases texts with
  | nil => trivial
  | cons text more =>
    obtain ⟨first, others⟩ := List.forall_mem_cons.mp each
    rw [join_cons]
    refine first.append (Guarded.flatMap fun next hn => ?_)
    exact ⟨by simp, others next hn⟩

theorem substitute_of_guarded (lookup : Text → Option Text) {text : Text} (guarded : Guarded text) :
    Expansion.substitute lookup text = text := by
  induction text with
  | nil => simp [Expansion.substitute]
  | cons c rest ih =>
    by_cases dollar : c = '$'
    · obtain ⟨more, rfl⟩ := List.head?_eq_some_iff.mp (guarded.1 dollar)
      have no_reference : Expansion.splitReference? ('\'' :: more) = none := rfl
      rw [dollar, Expansion.substitute_dollar, no_reference]
      exact congrArg ('$' :: ·) (ih guarded.2)
    · rw [Expansion.substitute_plain lookup dollar, ih guarded.2]

/-! The tokens that ask for a pipeline. -/

def bare (c : Char) : Token := ⟨[c], false⟩

def itemTokens : Item → List Token
  | .word text => [⟨text, true⟩]
  | .input path => [bare '<', ⟨path, true⟩]
  | .output path => [bare '>', ⟨path, true⟩]

/-- The arguments of a stage, and its files behind them. -/
def items (stage : Stage) : List Item :=
  stage.args.map .word ++ stage.redirections.input.toList.map .input ++
    stage.redirections.output.toList.map .output

def stageTokens (stage : Stage) : List Token := (items stage).flatMap itemTokens

def tokens (p : Pipeline) : List Token :=
  stageTokens p.left ++ p.right.toList.flatMap (fun stage => bare '|' :: stageTokens stage) ++
    if p.background then [bare '&'] else []

/-- The line that asks for `p` and for nothing else, whatever the variables are. -/
def render (p : Pipeline) : Text := join ' ' ((tokens p).map (written (· = '$')))

theorem ofItems_items (stage : Stage) : Stage.ofItems (items stage) = stage := by
  obtain ⟨args, input, output⟩ := stage
  have words : (args.map Item.word).filterMap Item.word? = args := by
    simp [List.filterMap_map, Function.comp_def, Item.word?]
  have inputs : (args.map Item.word).filterMap Item.input? = [] := by
    simp [List.filterMap_map, Function.comp_def, Item.input?]
  have outputs : (args.map Item.word).filterMap Item.output? = [] := by
    simp [List.filterMap_map, Function.comp_def, Item.output?]
  cases input <;> cases output <;>
    simp [Stage.ofItems, items, words, inputs, outputs, List.filterMap_cons, Item.word?,
      Item.input?, Item.output?]

theorem ofTokens_flatMap (list : List Item) :
    Item.ofTokens (list.flatMap itemTokens) = .ok list := by
  induction list with
  | nil => rfl
  | cons item rest ih =>
    rw [List.flatMap_cons]
    cases item with
    | word text =>
      rw [itemTokens, List.singleton_append, Item.ofTokens.eq_def]
      simp [Token.isOperator, ih, Except.map]
    | input path => simp [itemTokens, Item.ofTokens, Token.isOperator, bare, ih, Except.map]
    | output path => simp [itemTokens, Item.ofTokens, Token.isOperator, bare, ih, Except.map]

theorem ofTokens_stageTokens (stage : Stage) : Stage.ofTokens (stageTokens stage) = .ok stage := by
  rw [Stage.ofTokens, stageTokens, ofTokens_flatMap, Except.map, ofItems_items]

/-- The tokens of a stage are quoted, or they are one of the operators that name a file. -/
theorem mem_stageTokens {stage : Stage} {t : Token} (h : t ∈ stageTokens stage) :
    t.quoted = true ∨ t = bare '<' ∨ t = bare '>' := by
  obtain ⟨item, -, hm⟩ := List.mem_flatMap.mp h
  cases item <;> simp only [itemTokens, List.mem_cons, List.not_mem_nil, or_false] at hm
  · simp [hm]
  · rcases hm with rfl | rfl <;> simp
  · rcases hm with rfl | rfl <;> simp

theorem quoted_of_getLast? {stage : Stage} {t : Token} (h : (stageTokens stage).getLast? = some t) :
    t.quoted = true := by
  -- Over any list of items, since the items behind the first are not those of a stage.
  suffices every :
      ∀ list : List Item, ∀ t ∈ (list.flatMap itemTokens).getLast?, t.quoted = true from
    every _ t h
  intro list
  induction list with
  | nil => simp
  | cons item rest ih =>
    intro t ht
    rw [List.flatMap_cons, List.getLast?_append, Option.mem_def, Option.or_eq_some_iff] at ht
    rcases ht with ht | ⟨-, ht⟩
    · exact ih t ht
    · cases item <;> (simp [itemTokens] at ht; simp [← ht])

theorem stageTokens_ne_nil {stage : Stage} (named : stage.args ≠ []) : stageTokens stage ≠ [] := by
  obtain ⟨args, redirections⟩ := stage
  cases args with
  | nil => exact absurd rfl named
  | cons word rest => simp [stageTokens, items, itemTokens]

theorem not_pipe_of_mem {stage : Stage} {t : Token} (h : t ∈ stageTokens stage) :
    (!t.isOperator ['|']) = true := by
  rcases mem_stageTokens h with quotation | rfl | rfl
  · simp [Token.isOperator, quotation]
  · rfl
  · rfl

theorem splitPipe_left (stage : Stage) :
    Pipeline.splitPipe (stageTokens stage) = (stageTokens stage, none) := by
  have all_left : (stageTokens stage).dropWhile (fun t => !t.isOperator ['|']) = [] :=
    List.dropWhile_eq_nil_iff.mpr fun t ht => not_pipe_of_mem ht
  rw [Pipeline.splitPipe, all_left]

theorem splitPipe_both (stage : Stage) (right : List Token) :
    Pipeline.splitPipe (stageTokens stage ++ bare '|' :: right) =
      (stageTokens stage, some right) := by
  rw [Pipeline.splitPipe, List.dropWhile_append_of_pos fun t ht => not_pipe_of_mem ht,
    List.takeWhile_append_of_pos fun t ht => not_pipe_of_mem ht]
  simp [bare, Token.isOperator]

/-- The tokens of a pipeline without the mark that sends it to the background. -/
def foreground (p : Pipeline) : List Token :=
  stageTokens p.left ++ p.right.toList.flatMap fun stage => bare '|' :: stageTokens stage

theorem tokens_eq (p : Pipeline) :
    tokens p = foreground p ++ if p.background then [bare '&'] else [] := rfl

theorem quoted_of_getLast?_foreground {p : Pipeline} (right : ∀ stage ∈ p.right, stage.args ≠ [])
    {t : Token} (h : (foreground p).getLast? = some t) : t.quoted = true := by
  cases hr : p.right with
  | none =>
    simp only [foreground, hr, Option.toList_none, List.flatMap_nil, List.append_nil] at h
    exact quoted_of_getLast? h
  | some stage =>
    have some_token := stageTokens_ne_nil (right stage hr)
    obtain ⟨front, last, hl⟩ := List.eq_nil_or_concat (stageTokens stage) |>.resolve_left some_token
    have at_end : (stageTokens stage).getLast? = some last := by
      rw [hl]
      simp
    have last_quoted : last.quoted = true := quoted_of_getLast? at_end
    have behind : foreground p = (stageTokens p.left ++ bare '|' :: front) ++ [last] := by
      simp [foreground, hr, hl]
    rw [behind, List.getLast?_concat] at h
    exact Option.some.inj h ▸ last_quoted

theorem splitBackground_tokens {p : Pipeline} (right : ∀ stage ∈ p.right, stage.args ≠ []) :
    Pipeline.splitBackground (tokens p) = (foreground p, p.background) := by
  rw [tokens_eq]
  cases background : p.background with
  | true => simp [Pipeline.splitBackground, bare, Token.isOperator]
  | false =>
    simp only [Bool.false_eq_true, if_false, List.append_nil, Pipeline.splitBackground]
    split
    · next t ht =>
      simp [Token.isOperator, quoted_of_getLast?_foreground right ht]
    · rfl

theorem splitPipe_foreground (p : Pipeline) :
    Pipeline.splitPipe (foreground p) = (stageTokens p.left, p.right.map stageTokens) := by
  cases hr : p.right with
  | none => simp [foreground, hr, splitPipe_left]
  | some stage => simp [foreground, hr, splitPipe_both]

theorem ofTokens_tokens {p : Pipeline} (left : p.left.args ≠ [])
    (right : ∀ stage ∈ p.right, stage.args ≠ []) : Pipeline.ofTokens (tokens p) = .ok (some p) := by
  have some_token : (tokens p).isEmpty = false := by
    simp [tokens, stageTokens_ne_nil left]
  have named : p.left.args.isEmpty = false := by simpa using left
  rw [Pipeline.ofTokens]
  simp only [some_token, splitBackground_tokens right, splitPipe_foreground, ofTokens_stageTokens]
  obtain ⟨leftStage, rightStage, background⟩ := p
  cases rightStage with
  | none =>
    simp only at named
    simp [bind, Except.bind, pure, Except.pure, named]
  | some stage =>
    have right_named : stage.args.isEmpty = false := by simpa using right stage rfl
    simp only at named
    simp [bind, Except.bind, pure, Except.pure, named, right_named, ofTokens_stageTokens]

def operators : List Char := ['<', '>', '|', '&']

theorem mem_tokens {p : Pipeline} {t : Token} (h : t ∈ tokens p) :
    t.quoted = true ∨ ∃ c ∈ operators, t = bare c := by
  have stage_token : ∀ stage, t ∈ stageTokens stage →
      t.quoted = true ∨ ∃ c ∈ operators, t = bare c := by
    intro stage hm
    rcases mem_stageTokens hm with quotation | rfl | rfl
    · exact .inl quotation
    · exact .inr ⟨'<', by decide, rfl⟩
    · exact .inr ⟨'>', by decide, rfl⟩
  rw [tokens, List.mem_append, List.mem_append] at h
  rcases h with (h | h) | h
  · exact stage_token _ h
  · obtain ⟨stage, -, hm⟩ := List.mem_flatMap.mp h
    rcases List.mem_cons.mp hm with rfl | hm
    · exact .inr ⟨'|', by decide, rfl⟩
    · exact stage_token _ hm
  · split at h
    · exact .inr ⟨'&', by decide, List.mem_singleton.mp h⟩
    · contradiction

theorem plain_of_mem_operators {c : Char} (h : c ∈ operators) : isPlain c = true ∧ c ≠ '$' := by
  simp only [operators, List.mem_cons, List.not_mem_nil, or_false] at h
  rcases h with rfl | rfl | rfl | rfl <;> exact ⟨rfl, by decide⟩

theorem writable_tokens (p : Pipeline) : ∀ t ∈ tokens p, Writable t := by
  intro t ht open_token
  rcases mem_tokens ht with quotation | ⟨c, hc, rfl⟩
  · rw [quotation] at open_token
    contradiction
  · exact ⟨by simp [bare], by simpa [bare] using (plain_of_mem_operators hc).1⟩

theorem guarded_render (p : Pipeline) : Guarded (render p) := by
  refine guarded_join fun text ht => ?_
  obtain ⟨t, hm, rfl⟩ := List.mem_map.mp ht
  rcases mem_tokens hm with quotation | ⟨c, hc, rfl⟩
  · rw [written, if_pos quotation]
    exact guarded_quoted t.text
  · simp [written, bare, Guarded, (plain_of_mem_operators hc).2]

/-- A pipeline whose stages have arguments is read back from its line, whatever its arguments
and its files are, and whatever values the variables have. -/
theorem read_render (p : Pipeline) (left : p.left.args ≠ [])
    (right : ∀ stage ∈ p.right, stage.args ≠ []) (lookup : Text → Option Text) :
    (expand? lookup (render p)).map readPipeline = some (.ok (some p)) := by
  have expanded : expand? lookup (render p) = some (render p) := by
    rw [Expansion.expand?_eq_substitute, substitute_of_guarded lookup (guarded_render p)]
  have words : tokenize (render p) = .ok (tokens p) := tokenize_written _ (writable_tokens p)
  rw [expanded, Option.map_some, readPipeline, words]
  exact congrArg some (ofTokens_tokens left right)

/-- Words that look like operators, a reference, a quote and an empty word, in the background. -/
theorem read_render_operators :
    let p : Pipeline :=
      { left := ⟨["a'${b}".toList, [], ['|']], ⟨some ['<'], some "$HOME".toList⟩⟩
        right := some ⟨[['&'], "x y".toList], {}⟩
        background := true }
    let lookup : Text → Option Text := fun _ => some ['\'']
    p.left.args ≠ [] ∧ (∀ stage ∈ p.right, stage.args ≠ []) ∧
      render p = "'a'\\''$''{b}' '' '|' < '<' > '$''HOME' | '&' 'x y' &".toList ∧
      (expand? lookup (render p)).map readPipeline = some (.ok (some p)) :=
  ⟨by decide, by decide, by decide, read_render _ (by decide) (by decide) _⟩

end LineShell.Literal
