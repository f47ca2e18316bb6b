import LineShell.Pipeline
import Mathlib.Data.List.TakeWhile

/-! The grammar of the tokens of a line, apart from the cuts that recognize it. A side of a line is
parts, a part being a word or a bare `<` or `>` with the token it takes as its file; a line is a
side, perhaps a bare `|` and a second side, and perhaps a bare `&`. An operator without a file can
only stand at the end of a side, so every list of tokens is a line once a side may end with one
(`exists_line`), and it is one line only (`tokens_injective`). `ofTokens_line` runs the reader on
a line. -/

namespace LineShell.PipelineGrammar

/-- The token of an operator. -/
def bare (c : Char) : Token := ⟨[c], false⟩

theorem isOperator_iff {t : Token} {c : Char} : t.isOperator [c] = true ↔ t = bare c := by
  obtain ⟨text, quoted⟩ := t
  cases quoted <;> simp [Token.isOperator, bare]

/-- The stream for which an operator names a file. -/
inductive Direction
  | input
  | output
  deriving DecidableEq

def Direction.operator : Direction → Char
  | input => '<'
  | output => '>'

theorem operator_injective {d e : Direction} (h : bare d.operator = bare e.operator) : d = e := by
  cases d <;> cases e <;> simp_all [bare, Direction.operator]

inductive Part
  | word (t : Token) (other : ∀ d : Direction, t ≠ bare d.operator)
  | file (d : Direction) (target : Token)

namespace Part

def tokens : Part → List Token
  | word t _ => [t]
  | file d target => [bare d.operator, target]

def word? : Part → Option Text
  | word t _ => some t.text
  | file _ _ => none

/-- The file that the part names for the stream `d`. -/
def file? (d : Direction) : Part → Option Text
  | word _ _ => none
  | file e target => if e = d then some target.text else none

end Part

/-- The parts of one side, and the operator behind them that has no file, if there is one. -/
structure Side where
  parts : List Part
  dangling : Option Direction := none

namespace Side

def tokens (s : Side) : List Token :=
  s.parts.flatMap Part.tokens ++ (s.dangling.map fun d => bare d.operator).toList

def words (s : Side) : List Text := s.parts.filterMap Part.word?

/-- The last file that is named for the stream `d`. -/
def file? (s : Side) (d : Direction) : Option Text := (s.parts.filterMap (Part.file? d)).getLast?

/-- The command that the side asks for. -/
def stage (s : Side) : Stage := ⟨s.words, ⟨s.file? .input, s.file? .output⟩⟩

/-- Every operator has its file, and there is a word. -/
def Complete (s : Side) : Prop := s.dangling = none ∧ s.words ≠ []

end Side

/-- One side, or two with a bare `|` between them. -/
def joined (left : Side) (right : Option Side) : List Token :=
  left.tokens ++ (right.map fun s => bare '|' :: s.tokens).getD []

/-- A line. Its first bare `|` stands between the sides, and a bare `&` at its end is the mark of a
background job. -/
structure Line where
  left : Side
  right : Option Side
  background : Bool
  first : bare '|' ∉ left.tokens
  marked : background = false → (joined left right).getLast? ≠ some (bare '&')

namespace Line

def tokens (l : Line) : List Token :=
  joined l.left l.right ++ if l.background then [bare '&'] else []

def pipeline (l : Line) : Pipeline := ⟨l.left.stage, l.right.map Side.stage, l.background⟩

def Complete (l : Line) : Prop := l.left.Complete ∧ ∀ s ∈ l.right, s.Complete

/-- What is wrong with a line that is not complete: first an operator without a file, on the left
side or else on the right one, and then a side without words. -/
def complaint (l : Line) : LineError :=
  match l.left.dangling.or (l.right.bind Side.dangling) with
  | some d => .missingRedirectTarget [d.operator]
  | none => if l.right.isSome then .emptyPipelineSide else .missingCommand

end Line

/-! Every list of tokens is one line. -/

theorem tokens_cons_part (p : Part) (parts : List Part) (dangling : Option Direction) :
    Side.tokens ⟨p :: parts, dangling⟩ = p.tokens ++ Side.tokens ⟨parts, dangling⟩ := by
  rw [Side.tokens, Side.tokens, List.flatMap_cons, List.append_assoc]

theorem exists_side (tokens : List Token) : ∃ s : Side, s.tokens = tokens := by
  match tokens with
  | [] => exact ⟨⟨[], none⟩, rfl⟩
  | t :: rest =>
    by_cases redirect : ∃ d : Direction, t = bare d.operator
    · obtain ⟨d, rfl⟩ := redirect
      match rest with
      | [] => exact ⟨⟨[], some d⟩, rfl⟩
      | target :: rest =>
        obtain ⟨s, hs⟩ := exists_side rest
        exact ⟨⟨.file d target :: s.parts, s.dangling⟩, by rw [tokens_cons_part, hs]; rfl⟩
    · obtain ⟨s, hs⟩ := exists_side rest
      have other := not_exists.mp redirect
      exact ⟨⟨.word t other :: s.parts, s.dangling⟩, by rw [tokens_cons_part, hs]; rfl⟩
termination_by tokens.length

/-- The mark is at the end or it is not there. -/
theorem exists_body (tokens : List Token) : ∃ body background,
    (background = false → body.getLast? ≠ some (bare '&')) ∧
      body ++ (if background then [bare '&'] else []) = tokens := by
  by_cases mark : tokens.getLast? = some (bare '&')
  · obtain ⟨body, rfl⟩ := List.getLast?_eq_some_iff.mp mark
    exact ⟨body, true, by simp, by simp⟩
  · exact ⟨tokens, false, fun _ => mark, by simp⟩

theorem exists_joined (body : List Token) :
    ∃ left right, bare '|' ∉ Side.tokens left ∧ joined left right = body := by
  by_cases pipe : bare '|' ∈ body
  · obtain ⟨front, back, rfl, first⟩ := List.eq_append_cons_of_mem pipe
    obtain ⟨left, rfl⟩ := exists_side front
    obtain ⟨right, rfl⟩ := exists_side back
    exact ⟨left, some right, first, rfl⟩
  · obtain ⟨left, rfl⟩ := exists_side body
    exact ⟨left, none, pipe, by simp [joined]⟩

theorem exists_line (tokens : List Token) : ∃ l : Line, l.tokens = tokens := by
  obtain ⟨body, background, marked, rfl⟩ := exists_body tokens
  obtain ⟨left, right, first, rfl⟩ := exists_joined body
  exact ⟨⟨left, right, background, first, marked⟩, rfl⟩

theorem tokens_cons_ne (p : Part) (parts : List Part) (c d : Option Direction) :
    Side.tokens ⟨p :: parts, c⟩ ≠ Side.tokens ⟨[], d⟩ := by
  rw [tokens_cons_part]
  intro same
  cases p with
  | word t other => cases d <;> simp_all [Side.tokens, Part.tokens]
  | file e target => cases d <;> simp [Side.tokens, Part.tokens] at same

theorem side_injective {s t : Side} (same : s.tokens = t.tokens) : s = t := by
  obtain ⟨ps, c⟩ := s
  obtain ⟨qs, d⟩ := t
  induction ps generalizing qs with
  | nil =>
    cases qs with
    | nil =>
      cases c <;> cases d <;> simp [Side.tokens] at same ⊢
      exact operator_injective same
    | cons q qs => exact absurd same.symm (tokens_cons_ne q qs d c)
  | cons p ps ih =>
    cases qs with
    | nil => exact absurd same (tokens_cons_ne p ps c d)
    | cons q qs =>
      rw [tokens_cons_part, tokens_cons_part] at same
      cases p with
      | word t other =>
        cases q with
        | word u _ =>
          obtain ⟨rfl, rest⟩ := List.cons.inj same
          obtain ⟨rfl, rfl⟩ := Side.mk.inj (ih _ rest)
          rfl
        | file e target => exact absurd (List.cons.inj same).1 (other e)
      | file e target =>
        cases q with
        | word u other => exact absurd (List.cons.inj same).1.symm (other e)
        | file f aim =>
          obtain ⟨operators, behind⟩ := List.cons.inj same
          obtain ⟨rfl, rest⟩ := List.cons.inj behind
          obtain rfl := operator_injective operators
          obtain ⟨rfl, rfl⟩ := Side.mk.inj (ih _ rest)
          rfl

/-! Reading a line. -/

theorem splitBackground_tokens (l : Line) :
    Pipeline.splitBackground l.tokens = (joined l.left l.right, l.background) := by
  rw [Pipeline.splitBackground, Line.tokens]
  cases background : l.background with
  | true => simp [isOperator_iff]
  | false =>
    simp only [Bool.false_eq_true, if_false, List.append_nil]
    split
    · next t last =>
      have unmarked := l.marked background
      rw [last, ne_eq, Option.some.injEq] at unmarked
      rw [if_neg (isOperator_iff.not.mpr unmarked)]
    · rfl

theorem splitPipe_joined {left : Side} (first : bare '|' ∉ left.tokens) (right : Option Side) :
    Pipeline.splitPipe (joined left right) = (left.tokens, right.map Side.tokens) := by
  have no_pipe : ∀ t ∈ left.tokens, (!t.isOperator ['|']) = true := by
    intro t ht
    rw [Bool.not_eq_true', ← Bool.not_eq_true, isOperator_iff]
    rintro rfl
    exact first ht
  have pipe : (bare '|').isOperator ['|'] = true := rfl
  rw [Pipeline.splitPipe, joined]
  cases right with
  | none =>
    have all_left : left.tokens.dropWhile (fun t => !t.isOperator ['|']) = [] :=
      List.dropWhile_eq_nil_iff.mpr no_pipe
    simp [all_left]
  | some s =>
    simp only [Option.map_some, Option.getD_some]
    rw [List.dropWhile_append_of_pos no_pipe, List.takeWhile_append_of_pos no_pipe]
    simp [pipe]

/-- A line has the same tokens as no other line. -/
theorem tokens_injective {l m : Line} (same : l.tokens = m.tokens) : l = m := by
  have cut := congrArg Pipeline.splitBackground same
  rw [splitBackground_tokens, splitBackground_tokens, Prod.mk.injEq] at cut
  have split := congrArg Pipeline.splitPipe cut.1
  rw [splitPipe_joined l.first, splitPipe_joined m.first, Prod.mk.injEq] at split
  have left := side_injective split.1
  have right := Option.map_injective (fun _ _ => side_injective) split.2
  obtain ⟨left, right, background, _, _⟩ := l
  simp_all

/-- The part as the reader keeps it. -/
def item : Part → Item
  | .word t _ => .word t.text
  | .file .input target => .input target.text
  | .file .output target => .output target.text

theorem item_ofTokens (s : Side) : Item.ofTokens s.tokens =
    match s.dangling with
    | none => .ok (s.parts.map item)
    | some d => .error (.missingRedirectTarget [d.operator]) := by
  obtain ⟨parts, dangling⟩ := s
  induction parts with
  | nil => rcases dangling with - | - | - <;> rfl
  | cons p parts ih =>
    rw [tokens_cons_part]
    have read : Item.ofTokens (p.tokens ++ Side.tokens ⟨parts, dangling⟩) =
        (Item.ofTokens (Side.tokens ⟨parts, dangling⟩)).map (item p :: ·) := by
      cases p with
      | word t other =>
        have input : t.isOperator ['<'] = false :=
          Bool.eq_false_iff.mpr (isOperator_iff.not.mpr (other .input))
        have output : t.isOperator ['>'] = false :=
          Bool.eq_false_iff.mpr (isOperator_iff.not.mpr (other .output))
        rw [Part.tokens, List.singleton_append, Item.ofTokens.eq_def]
        simp [input, output, item]
      | file d target => cases d <;> rfl
    rw [read, ih]
    cases dangling <;> rfl

theorem ofItems_map_item (s : Side) : Stage.ofItems (s.parts.map item) = s.stage := by
  have words : Item.word? ∘ item = Part.word? := by
    funext p
    rcases p with - | ⟨- | -⟩ <;> rfl
  have inputs : Item.input? ∘ item = Part.file? .input := by
    funext p
    rcases p with - | ⟨- | -⟩ <;> rfl
  have outputs : Item.output? ∘ item = Part.file? .output := by
    funext p
    rcases p with - | ⟨- | -⟩ <;> rfl
  simp only [Stage.ofItems, List.filterMap_map, words, inputs, outputs]
  rfl

theorem stage_ofTokens (s : Side) : Stage.ofTokens s.tokens =
    match s.dangling with
    | none => .ok s.stage
    | some d => .error (.missingRedirectTarget [d.operator]) := by
  rw [Stage.ofTokens, item_ofTokens, ← ofItems_map_item]
  cases s.dangling <;> rfl

/-- The three cuts, put together. -/
theorem ofTokens_line {l : Line} (some_token : l.tokens ≠ []) :
    Pipeline.ofTokens l.tokens = (do
      let left ← Stage.ofTokens l.left.tokens
      match l.right with
      | none =>
        if left.args = [] then .error .missingCommand else .ok (some ⟨left, none, l.background⟩)
      | some s =>
        let right ← Stage.ofTokens s.tokens
        if left.args = [] ∨ right.args = [] then .error .emptyPipelineSide
        else .ok (some ⟨left, some right, l.background⟩)) := by
  have not_empty : l.tokens.isEmpty = false := by simpa using some_token
  rw [Pipeline.ofTokens]
  simp only [not_empty, splitBackground_tokens, splitPipe_joined l.first]
  cases l.right <;>
    simp [bind, Except.bind, pure, Except.pure, throw, throwThe, MonadExceptOf.throw]

theorem tokens_ne_nil_of_complete {l : Line} (complete : l.Complete) : l.tokens ≠ [] := by
  obtain ⟨⟨-, words⟩, -⟩ := complete
  intro empty
  rw [Line.tokens, joined, List.append_eq_nil_iff, List.append_eq_nil_iff] at empty
  have no_parts := side_injective (t := ⟨[], none⟩) empty.1.1
  rw [no_parts] at words
  exact words rfl

theorem ofTokens_of_complete {l : Line} (complete : l.Complete) :
    Pipeline.ofTokens l.tokens = .ok (some l.pipeline) := by
  rw [ofTokens_line (tokens_ne_nil_of_complete complete)]
  obtain ⟨⟨left_files, left_words⟩, right_side⟩ := complete
  have left : l.left.stage.args ≠ [] := left_words
  rw [stage_ofTokens, left_files, Line.pipeline]
  cases side : l.right with
  | none => simp [bind, Except.bind, left]
  | some s =>
    obtain ⟨right_files, right_words⟩ := right_side s side
    have right : s.stage.args ≠ [] := right_words
    simp [bind, Except.bind, stage_ofTokens, right_files, left, right]

theorem ofTokens_of_incomplete {l : Line} (some_token : l.tokens ≠ []) (incomplete : ¬ l.Complete) :
    Pipeline.ofTokens l.tokens = .error l.complaint := by
  rw [ofTokens_line some_token, stage_ofTokens, Line.complaint]
  cases left_files : l.left.dangling with
  | some d => rfl
  | none =>
    cases side : l.right with
    | none =>
      have no_word : l.left.stage.args = [] := by
        by_contra left
        exact incomplete ⟨⟨left_files, left⟩, by simp [side]⟩
      simp [bind, Except.bind, no_word]
    | some s =>
      cases right_files : s.dangling with
      | some d => simp [bind, Except.bind, stage_ofTokens, right_files]
      | none =>
        have no_word : l.left.stage.args = [] ∨ s.stage.args = [] := by
          by_contra both
          obtain ⟨left, right⟩ := not_or.mp both
          exact incomplete ⟨⟨left_files, left⟩, fun t ht => by
            obtain rfl : s = t := Option.some.inj (side.symm.trans ht)
            exact ⟨right_files, right⟩⟩
        simp [bind, Except.bind, stage_ofTokens, right_files, no_word]

theorem ofTokens_nil : Pipeline.ofTokens [] = .ok none := rfl

/-- What is read as a pipeline is a complete line. -/
theorem exists_line_of_ofTokens {tokens : List Token} {p : Pipeline}
    (read : Pipeline.ofTokens tokens = .ok (some p)) :
    ∃ l : Line, l.tokens = tokens ∧ l.Complete ∧ l.pipeline = p := by
  obtain ⟨l, rfl⟩ := exists_line tokens
  by_cases empty : l.tokens = []
  · rw [empty, ofTokens_nil] at read
    cases read
  by_cases complete : l.Complete
  · rw [ofTokens_of_complete complete] at read
    exact ⟨l, rfl, complete, Option.some.inj (Except.ok.inj read)⟩
  · rw [ofTokens_of_incomplete empty complete] at read
    cases read

theorem args_ne_nil_of_ofTokens {tokens : List Token} {p : Pipeline}
    (read : Pipeline.ofTokens tokens = .ok (some p)) : p.left.args ≠ [] := by
  obtain ⟨l, -, ⟨⟨-, words⟩, -⟩, rfl⟩ := exists_line_of_ofTokens read
  exact words

/-- Every list of tokens is one line. It asks for nothing when it is empty; it asks for a pipeline
just when that line is complete, and then for the words and files of its sides; and otherwise it is
refused for the first thing that is wrong with it. -/
theorem ofTokens_iff_complete (tokens : List Token) :
    (∃! l : Line, l.tokens = tokens) ∧
    (Pipeline.ofTokens tokens = .ok none ↔ tokens = []) ∧
    (∀ p, Pipeline.ofTokens tokens = .ok (some p) ↔
      ∃ l : Line, l.tokens = tokens ∧ l.Complete ∧ l.pipeline = p) ∧
    ∀ error, Pipeline.ofTokens tokens = .error error ↔
      ∃ l : Line, l.tokens = tokens ∧ tokens ≠ [] ∧ ¬ l.Complete ∧ l.complaint = error := by
  obtain ⟨l, rfl⟩ := exists_line tokens
  refine ⟨⟨l, rfl, fun m same => tokens_injective same⟩, ?_⟩
  have only (P : Line → Prop) : (∃ m : Line, m.tokens = l.tokens ∧ P m) ↔ P l :=
    ⟨fun ⟨m, same, h⟩ => tokens_injective same ▸ h, fun h => ⟨l, rfl, h⟩⟩
  simp only [only]
  by_cases empty : l.tokens = []
  · have incomplete : ¬ l.Complete := fun complete => tokens_ne_nil_of_complete complete empty
    simp [empty, ofTokens_nil, incomplete]
  · by_cases complete : l.Complete
    · simp [ofTokens_of_complete complete, complete, empty, eq_comm]
    · simp [ofTokens_of_incomplete empty complete, complete, empty, eq_comm]

end LineShell.PipelineGrammar
