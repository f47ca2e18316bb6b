import LineShell.Interpreter
import LineShell.Proofs.ReferenceReading
import LineShell.Proofs.WordGrammar
import Mathlib.Data.List.Forall2

/-! What values can do to a line. A value without blanks, quotes, backslashes and operators lengthens
the word in which its reference stands, whatever mode the reader is in there (`foldl_inert`). So two
readers of one line, each with values of its own, stay in step: they end in the same mode with as
many words, and words of the same place that differ are operators in neither reading. The line has
the same shape for both (`readShape_eq_of_inert`). -/

namespace LineShell

/-- A character that stands for itself in every mode of a reader, and is no operator. -/
def isInert (c : Char) : Bool :=
  WordGrammar.isPlain c && c ≠ '|' && c ≠ '<' && c ≠ '>' && c ≠ '&'

structure IsInert (value : Text) : Prop where
  nonempty : value ≠ []
  inert : ∀ c ∈ value, isInert c = true

/-- Some part of the line is read as a reference to the name. -/
def Expansion.Refers (line name : Text) : Prop :=
  ∃ pieces r, Reads line pieces ∧ Piece.reference r ∈ pieces ∧ r.name = name

/-- The variables to which a line refers have values, and these are inert. -/
def Expansion.GivesInert (lookup : Text → Option Text) (line : Text) : Prop :=
  ∀ name, Refers line name → ∃ value, lookup name = some value ∧ IsInert value

/-- A command without its texts: how many words it has, and which of its streams are files. -/
structure Stage.Shape where
  arguments : Nat
  hasInput : Bool
  hasOutput : Bool
  deriving Repr, DecidableEq

def Stage.shape (s : Stage) : Stage.Shape :=
  ⟨s.args.length, s.redirections.input.isSome, s.redirections.output.isSome⟩

structure Pipeline.Shape where
  left : Stage.Shape
  right : Option Stage.Shape
  background : Bool
  deriving Repr, DecidableEq

def Pipeline.shape (p : Pipeline) : Pipeline.Shape :=
  ⟨p.left.shape, p.right.map Stage.shape, p.background⟩

/-- How a line is read, or why it cannot be read, without its texts. -/
def readShape (line : Text) : Except LineError (Option Pipeline.Shape) :=
  (readPipeline line).map (Option.map Pipeline.shape)

/-! Words that may differ. -/

/-- Two texts that are the same, or both hold an inert character. -/
def Akin (a b : Text) : Prop :=
  a = b ∨ (∃ c ∈ a, isInert c = true) ∧ ∃ c ∈ b, isInert c = true

namespace Akin

variable {a b : Text}

theorem refl (a : Text) : Akin a a := .inl rfl

theorem cons (akin : Akin a b) (c : Char) : Akin (c :: a) (c :: b) := by
  rcases akin with rfl | ⟨⟨x, inA, hx⟩, y, inB, hy⟩
  · exact .refl _
  · exact .inr ⟨⟨x, List.mem_cons_of_mem c inA, hx⟩, y, List.mem_cons_of_mem c inB, hy⟩

theorem reverse (akin : Akin a b) : Akin a.reverse b.reverse := by
  rcases akin with rfl | ⟨⟨x, inA, hx⟩, y, inB, hy⟩
  · exact .refl _
  · exact .inr ⟨⟨x, List.mem_reverse.mpr inA, hx⟩, y, List.mem_reverse.mpr inB, hy⟩

theorem of_values {v w : Text} (first : IsInert v) (second : IsInert w) (a b : Text) :
    Akin (v.reverse ++ a) (w.reverse ++ b) := by
  have holds {value : Text} (inert : IsInert value) (rest : Text) :
      ∃ c ∈ value.reverse ++ rest, isInert c = true := by
    obtain ⟨c, there⟩ := List.exists_mem_of_ne_nil value inert.nonempty
    exact ⟨c, by simp [there], inert.inert c there⟩
  exact .inr ⟨holds first a, holds second b⟩

/-- An operator is one character, which is not inert. -/
theorem eq_operator (akin : Akin a b) {c : Char} (operator : isInert c = false) :
    a = [c] ↔ b = [c] := by
  rcases akin with rfl | ⟨⟨x, inA, hx⟩, y, inB, hy⟩
  · rfl
  · constructor
    · rintro rfl
      rw [List.mem_singleton.mp inA, operator] at hx
      cases hx
    · rintro rfl
      rw [List.mem_singleton.mp inB, operator] at hy
      cases hy

end Akin

namespace Token

structure Akin (t u : Token) : Prop where
  text : LineShell.Akin t.text u.text
  quoted : t.quoted = u.quoted

theorem Akin.isOperator {t u : Token} (akin : t.Akin u) {c : Char} (operator : isInert c = false) :
    t.isOperator [c] = u.isOperator [c] := by
  have same : (t.text = [c]) = (u.text = [c]) := propext (akin.text.eq_operator operator)
  simp only [Token.isOperator, akin.quoted, same]

/-! Two readers in step. -/

/-- The mode of a reader behind an inert character. -/
def Mode.settled : Mode → Mode
  | bare | escape => bare
  | single => single
  | double | doubleEscape => double

namespace Reader

/-- The word to which a reader adds an inert character. Behind a backslash it is quoted from there
on, or has the backslash in it. -/
def underway (r : Reader) : Text × Bool :=
  let (letters, quoted) := r.letters.getD ([], false)
  match r.mode with
  | .bare | .single | .double => (letters, quoted)
  | .escape => (letters, true)
  | .doubleEscape => ('\\' :: letters, quoted)

theorem step_inert {c : Char} (inert : isInert c = true) (r : Reader) :
    r.step c = ⟨r.words, some (c :: r.underway.1, r.underway.2), r.mode.settled⟩ := by
  obtain ⟨words, letters, mode⟩ := r
  simp only [isInert, WordGrammar.isPlain, Bool.and_eq_true, Bool.not_eq_true',
    decide_eq_true_eq] at inert
  obtain ⟨⟨⟨⟨⟨⟨⟨blank, single⟩, double⟩, escape⟩, -⟩, -⟩, -⟩, -⟩ := inert
  cases mode <;> rcases letters with _ | ⟨letters, quoted⟩ <;>
    simp [step, plain, quote, underway, Mode.settled, blank, single, double, escape]

theorem foldl_inert {value : Text} (inert : IsInert value) (r : Reader) :
    value.foldl step r =
      ⟨r.words, some (value.reverse ++ r.underway.1, r.underway.2), r.mode.settled⟩ := by
  have behind (rest letters : Text) (quoted : Bool) (mode : Mode)
      (all : ∀ c ∈ rest, isInert c = true) :
      rest.foldl step ⟨r.words, some (letters, quoted), mode.settled⟩ =
        ⟨r.words, some (rest.reverse ++ letters, quoted), mode.settled⟩ := by
    induction rest generalizing letters with
    | nil => rfl
    | cons c rest ih =>
      have here : step ⟨r.words, some (letters, quoted), mode.settled⟩ c =
          ⟨r.words, some (c :: letters, quoted), mode.settled⟩ := by
        rw [step_inert (all c List.mem_cons_self)]
        cases mode <;> rfl
      rw [List.foldl_cons, here, ih _ fun d there => all d (List.mem_cons_of_mem c there)]
      simp
  obtain ⟨nonempty, all⟩ := inert
  cases value with
  | nil => exact absurd rfl nonempty
  | cons c rest =>
    rw [List.foldl_cons, step_inert (all c List.mem_cons_self),
      behind _ _ _ _ fun d there => all d (List.mem_cons_of_mem c there)]
    simp

/-- Open words that may differ. -/
def OpenAkin (a b : Text × Bool) : Prop := LineShell.Akin a.1 b.1 ∧ a.2 = b.2

/-- Two readers in step. -/
structure Alike (r s : Reader) : Prop where
  words : List.Forall₂ Token.Akin r.words s.words
  letters : Option.Rel OpenAkin r.letters s.letters
  mode : r.mode = s.mode

namespace Alike

variable {r s : Reader}

theorem refl (r : Reader) : r.Alike r where
  words := List.forall₂_same.mpr fun _ _ => ⟨.refl _, rfl⟩
  letters := by
    cases r.letters with
    | none => exact .none
    | some _ => exact .some ⟨.refl _, rfl⟩
  mode := rfl

theorem withMode (alike : r.Alike s) (mode : Mode) :
    Alike { r with mode := mode } { s with mode := mode } :=
  ⟨alike.words, alike.letters, rfl⟩

theorem plain (alike : r.Alike s) (c : Char) : (r.plain c).Alike (s.plain c) := by
  obtain ⟨words, letters, mode⟩ := r
  obtain ⟨words', letters', mode'⟩ := s
  obtain ⟨same, opened, rfl⟩ := alike
  cases opened with
  | none => exact ⟨same, .some ⟨.refl _, rfl⟩, rfl⟩
  | some akin => exact ⟨same, .some ⟨akin.1.cons c, akin.2⟩, rfl⟩

theorem quote (alike : r.Alike s) : r.quote.Alike s.quote := by
  obtain ⟨words, letters, mode⟩ := r
  obtain ⟨words', letters', mode'⟩ := s
  obtain ⟨same, opened, rfl⟩ := alike
  cases opened with
  | none => exact ⟨same, .some ⟨.refl _, rfl⟩, rfl⟩
  | some akin => exact ⟨same, .some ⟨akin.1, rfl⟩, rfl⟩

theorem close (alike : r.Alike s) : r.close.Alike s.close := by
  obtain ⟨words, letters, mode⟩ := r
  obtain ⟨words', letters', mode'⟩ := s
  obtain ⟨same, opened, rfl⟩ := alike
  cases opened with
  | none => exact ⟨same, .none, rfl⟩
  | some akin => exact ⟨.cons ⟨akin.1.reverse, akin.2⟩ same, .none, rfl⟩

theorem step (alike : r.Alike s) (c : Char) : (r.step c).Alike (s.step c) := by
  rw [Reader.step, Reader.step, alike.mode]
  split
  · split
    · exact alike.quote.withMode _
    split
    · exact alike.quote.withMode _
    split
    · exact alike.withMode _
    split
    · exact alike.close
    · exact alike.plain c
  · exact (alike.quote.plain c).withMode _
  · split
    · exact alike.withMode _
    · exact alike.plain c
  · split
    · exact alike.withMode _
    split
    · exact alike.withMode _
    · exact alike.plain c
  · split
    · exact (alike.plain c).withMode _
    · exact ((alike.plain '\\').plain c).withMode _

theorem quoted_underway (alike : r.Alike s) : r.underway.2 = s.underway.2 := by
  obtain ⟨words, letters, mode⟩ := r
  obtain ⟨words', letters', mode'⟩ := s
  obtain ⟨-, opened, rfl⟩ := alike
  cases opened with
  | none => rfl
  | some akin =>
    cases mode with
    | escape => rfl
    | bare | single | double | doubleEscape => exact akin.2

/-- Whatever a reference gives, behind it the readers are in step again. -/
theorem values (alike : r.Alike s) {v w : Text} (first : IsInert v) (second : IsInert w) :
    (v.foldl Reader.step r).Alike (w.foldl Reader.step s) := by
  rw [foldl_inert first, foldl_inert second]
  exact ⟨alike.words, .some ⟨.of_values first second _ _, alike.quoted_underway⟩,
    congrArg Mode.settled alike.mode⟩

end Alike

end Reader
end Token

open Expansion Token

section

variable {f g : Text → Option Text} {a b : Text} {tokens others : List Token}

/-- The readers of one line with different values are in step behind each of its pieces. -/
theorem alike_of_values {pieces : List Piece}
    (first : ∀ r, .reference r ∈ pieces → ∃ value, f r.name = some value ∧ IsInert value)
    (second : ∀ r, .reference r ∈ pieces → ∃ value, g r.name = some value ∧ IsInert value)
    {r s : Reader} (alike : r.Alike s) :
    ((pieces.flatMap (Piece.value f)).foldl Reader.step r).Alike
      ((pieces.flatMap (Piece.value g)).foldl Reader.step s) := by
  induction pieces generalizing r s with
  | nil => exact alike
  | cons piece rest ih =>
    rw [List.flatMap_cons, List.flatMap_cons, List.foldl_append, List.foldl_append]
    refine ih (fun r there => first r (List.mem_cons_of_mem _ there))
      (fun r there => second r (List.mem_cons_of_mem _ there)) ?_
    cases piece with
    | char c => exact alike.step c
    | reference ref =>
      obtain ⟨v, given, inert⟩ := first ref List.mem_cons_self
      obtain ⟨w, given', inert'⟩ := second ref List.mem_cons_self
      rw [Piece.value, Piece.value, given, given']
      exact alike.values inert inert'

/-- Readers in step end alike. -/
theorem tokenize_cases (alike : (a.foldl Reader.step .start).Alike (b.foldl Reader.step .start)) :
    (∃ e, tokenize a = .error e ∧ tokenize b = .error e) ∨
      ∃ tokens others, tokenize a = .ok tokens ∧ tokenize b = .ok others ∧
        List.Forall₂ Token.Akin tokens others := by
  rw [tokenize, tokenize, Reader.finish, Reader.finish, alike.mode]
  split
  · exact .inr ⟨_, _, rfl, rfl, List.rel_reverse alike.close.words⟩
  · exact .inl ⟨_, rfl, rfl⟩
  · exact .inl ⟨_, rfl, rfl⟩
  · exact .inl ⟨_, rfl, rfl⟩
  · exact .inl ⟨_, rfl, rfl⟩

end

/-! The operators stand at the same places, so the lines are taken apart alike. -/

/-- What an item is, without its text. -/
inductive Item.Kind
  | word
  | input
  | output
  deriving DecidableEq

def Item.kind : Item → Kind
  | word _ => .word
  | input _ => .input
  | output _ => .output

theorem length_filterMap_kind (pick : Item → Option Text) (kind : Item.Kind)
    (picks : ∀ item, (pick item).isSome = (item.kind == kind)) (items : List Item) :
    (items.filterMap pick).length = (items.map Item.kind).count kind := by
  rw [List.length_filterMap_eq_countP, List.count, List.countP_map]
  exact List.countP_congr fun item _ => by rw [picks]; rfl

/-- The shape of a command is told by the kinds of its items. -/
theorem shape_ofItems (items : List Item) : (Stage.ofItems items).shape =
    ⟨(items.map Item.kind).count .word, (items.map Item.kind).count .input != 0,
      (items.map Item.kind).count .output != 0⟩ := by
  have words := length_filterMap_kind Item.word? .word
    (fun item => by cases item <;> rfl) items
  have inputs := length_filterMap_kind Item.input? .input
    (fun item => by cases item <;> rfl) items
  have outputs := length_filterMap_kind Item.output? .output
    (fun item => by cases item <;> rfl) items
  have last (files : List Text) : files.getLast?.isSome = (files.length != 0) := by
    rw [Bool.eq_iff_iff, List.getLast?_isSome]
    simp
  simp only [Stage.shape, Stage.ofItems, last, words, inputs, outputs]

section

variable {tokens others : List Token}

theorem kinds_cons {item other : Item} (same : item.kind = other.kind)
    {a b : Except LineError (List Item)}
    (rest : a.map (List.map Item.kind) = b.map (List.map Item.kind)) :
    (a.map (item :: ·)).map (List.map Item.kind) =
      (b.map (other :: ·)).map (List.map Item.kind) := by
  cases a <;> cases b <;> simp_all [Except.map]

theorem kinds_ofTokens (akin : List.Forall₂ Token.Akin tokens others) :
    (Item.ofTokens tokens).map (List.map Item.kind) =
      (Item.ofTokens others).map (List.map Item.kind) := by
  have less {t u : Token} (here : t.Akin u) := here.isOperator (c := '<') (by decide)
  have greater {t u : Token} (here : t.Akin u) := here.isOperator (c := '>') (by decide)
  -- the file of an operator goes with it, so that two tokens may be taken in a step
  induction tokens using Item.ofTokens.induct generalizing others with
  | case1 =>
    cases akin
    rfl
  | case2 t input =>
    obtain _ | ⟨here, ⟨⟩⟩ := akin
    rw [Item.ofTokens, if_pos input, Item.ofTokens, if_pos (less here ▸ input)]
  | case3 t input file rest ih =>
    obtain _ | ⟨here, _ | ⟨-, behind⟩⟩ := akin
    rw [Item.ofTokens, if_pos input, Item.ofTokens, if_pos (less here ▸ input)]
    refine kinds_cons ?_ (ih behind)
    rfl
  | case4 t notInput output =>
    obtain _ | ⟨here, ⟨⟩⟩ := akin
    rw [Item.ofTokens, if_neg notInput, if_pos output, Item.ofTokens,
      if_neg (less here ▸ notInput), if_pos (greater here ▸ output)]
  | case5 t notInput output file rest ih =>
    obtain _ | ⟨here, _ | ⟨-, behind⟩⟩ := akin
    rw [Item.ofTokens, if_neg notInput, if_pos output, Item.ofTokens,
      if_neg (less here ▸ notInput), if_pos (greater here ▸ output)]
    refine kinds_cons ?_ (ih behind)
    rfl
  | case6 t rest notInput notOutput ih =>
    obtain _ | ⟨here, behind⟩ := akin
    rw [Item.ofTokens.eq_def (t :: rest)]
    dsimp only
    rw [if_neg notInput, if_neg notOutput, Item.ofTokens.eq_def (_ :: _)]
    dsimp only
    rw [if_neg (less here ▸ notInput), if_neg (greater here ▸ notOutput)]
    refine kinds_cons ?_ (ih behind)
    rfl

/-- One side of a line: both readings miss the same file, or have the same shape. -/
theorem stage_cases (akin : List.Forall₂ Token.Akin tokens others) :
    (∃ e, Stage.ofTokens tokens = .error e ∧ Stage.ofTokens others = .error e) ∨
      ∃ s t, Stage.ofTokens tokens = .ok s ∧ Stage.ofTokens others = .ok t ∧ s.shape = t.shape := by
  have kinds := kinds_ofTokens akin
  rw [Stage.ofTokens, Stage.ofTokens]
  cases first : Item.ofTokens tokens with
  | error e =>
    cases second : Item.ofTokens others with
    | error e' =>
      rw [first, second] at kinds
      obtain rfl := Except.error.inj kinds
      exact .inl ⟨e, rfl, rfl⟩
    | ok items =>
      rw [first, second] at kinds
      cases kinds
  | ok items =>
    cases second : Item.ofTokens others with
    | error e' =>
      rw [first, second] at kinds
      cases kinds
    | ok items' =>
      rw [first, second] at kinds
      refine .inr ⟨_, _, rfl, rfl, ?_⟩
      rw [shape_ofItems, shape_ofItems, Except.ok.inj kinds]

theorem splitBackground_akin (akin : List.Forall₂ Token.Akin tokens others) :
    List.Forall₂ Token.Akin (Pipeline.splitBackground tokens).1 (Pipeline.splitBackground others).1 ∧
      (Pipeline.splitBackground tokens).2 = (Pipeline.splitBackground others).2 := by
  have back := List.rel_reverse akin
  rw [← tokens.reverse_reverse, ← others.reverse_reverse]
  generalize tokens.reverse = first at back
  generalize others.reverse = second at back
  cases back with
  | nil => exact ⟨.nil, rfl⟩
  | @cons t u front front' last behind =>
    have marks : t.isOperator ['&'] = u.isOperator ['&'] := last.isOperator (by decide)
    simp only [Pipeline.splitBackground, List.getLast?_reverse, List.head?_cons,
      List.dropLast_reverse, List.tail_cons, marks]
    split
    · exact ⟨List.rel_reverse behind, rfl⟩
    · exact ⟨List.rel_reverse (.cons last behind), rfl⟩

/-- The parts of a line on both sides of its first `|`. -/
theorem splitPipe_akin (akin : List.Forall₂ Token.Akin tokens others) :
    List.Forall₂ Token.Akin (Pipeline.splitPipe tokens).1 (Pipeline.splitPipe others).1 ∧
      Option.Rel (List.Forall₂ Token.Akin) (Pipeline.splitPipe tokens).2
        (Pipeline.splitPipe others).2 := by
  have parts : List.Forall₂ Token.Akin
        (tokens.takeWhile fun token => !token.isOperator ['|'])
        (others.takeWhile fun token => !token.isOperator ['|']) ∧
      List.Forall₂ Token.Akin
        (tokens.dropWhile fun token => !token.isOperator ['|'])
        (others.dropWhile fun token => !token.isOperator ['|']) := by
    induction akin with
    | nil => exact ⟨.nil, .nil⟩
    | @cons t u rest rest' here behind ih =>
      have marks : t.isOperator ['|'] = u.isOperator ['|'] := here.isOperator (by decide)
      cases bar : u.isOperator ['|'] with
      | true => simpa [marks, bar] using ⟨here, behind⟩
      | false => simpa [marks, bar, here] using ih
  obtain ⟨before, behind⟩ := parts
  rw [Pipeline.splitPipe, Pipeline.splitPipe]
  generalize tokens.dropWhile _ = first at behind
  generalize others.dropWhile _ = second at behind
  cases behind with
  | nil => exact ⟨akin, .none⟩
  | cons _ right => exact ⟨before, .some right⟩

theorem isEmpty_args {s t : Stage} (same : s.shape = t.shape) :
    s.args.isEmpty = t.args.isEmpty := by
  have lengths : s.args.length = t.args.length := congrArg Stage.Shape.arguments same
  rw [Bool.eq_iff_iff, List.isEmpty_iff_length_eq_zero, List.isEmpty_iff_length_eq_zero, lengths]

/-- Lines of akin words have the same shape. -/
theorem shape_ofTokens (akin : List.Forall₂ Token.Akin tokens others) :
    (Pipeline.ofTokens tokens).map (Option.map Pipeline.shape) =
      (Pipeline.ofTokens others).map (Option.map Pipeline.shape) := by
  have empty : tokens.isEmpty = others.isEmpty := by cases akin <;> rfl
  obtain ⟨rest, background⟩ := splitBackground_akin akin
  obtain ⟨left, right⟩ := splitPipe_akin rest
  rw [Pipeline.ofTokens, Pipeline.ofTokens, empty]
  split
  · rfl
  simp only [background]
  generalize (Pipeline.splitPipe (Pipeline.splitBackground tokens).1).2 = right? at right ⊢
  generalize (Pipeline.splitPipe (Pipeline.splitBackground others).1).2 = right?' at right ⊢
  rcases stage_cases left with ⟨e, failed, failed'⟩ | ⟨s, s', read, read', same⟩
  · rw [failed, failed']
    rfl
  rw [read, read']
  cases right with
  | none =>
    simp only [bind, Except.bind, isEmpty_args same]
    split
    · rfl
    · simp [Except.map, pure, Except.pure, Pipeline.shape, same]
  | some right =>
    rcases stage_cases right with ⟨e, failed, failed'⟩ | ⟨t, t', read, read', same'⟩
    · simp only [bind, Except.bind, failed, failed']
    simp only [bind, Except.bind, read, read', isEmpty_args same, isEmpty_args same']
    split
    · rfl
    · simp [Except.map, pure, Except.pure, Pipeline.shape, same, same']

end

/-- Inert values cannot change what a line is made of. With any two tables that give the variables of
the line inert values, it cannot be read for the same reason, or asks for nothing, or is one command
or two with as many words, the same streams replaced by files, and the same mark for the
background. -/
theorem readShape_eq_of_inert {line : Text} {f g : Text → Option Text} (first : GivesInert f line)
    (second : GivesInert g line) : ∃ a b, expand? f line = some a ∧ expand? g line = some b ∧
      readShape a = readShape b := by
  obtain ⟨pieces, reads, -⟩ := exists_reads f line
  refine ⟨_, _, expand?_eq_substitute f line, expand?_eq_substitute g line, ?_⟩
  rw [substitute_of_reads f reads, substitute_of_reads g reads, readShape, readShape, readPipeline,
    readPipeline]
  have inStep := alike_of_values (fun r there => first r.name ⟨pieces, r, reads, there, rfl⟩)
    (fun r there => second r.name ⟨pieces, r, reads, there, rfl⟩) (.refl .start)
  rcases tokenize_cases inStep with ⟨e, failed, failed'⟩ | ⟨tokens, others, cut, cut', akin⟩
  · rw [failed, failed']
  · rw [cut, cut']
    exact shape_ofTokens akin

/-- References inside quotes, behind backslashes and beside operators, with values of different
lengths. -/
theorem readShape_eq_of_inert_everywhere :
    let line := "a$X < '$Y' | ${X}b \\$Y \"\\$X\" > \\>$Y &".toList
    let f : Text → Option Text := fun name => if name = ['X'] then some ['v'] else some "A$X".toList
    let g : Text → Option Text := fun name => if name = ['X'] then some "{}=".toList else some ['w']
    GivesInert f line ∧ GivesInert g line ∧ ∃ a b, expand? f line = some a ∧
      expand? g line = some b ∧ a ≠ b ∧ readShape a = readShape b ∧
      readShape a = .ok (some ⟨⟨1, true, false⟩, some ⟨3, false, true⟩, true⟩) := by
  intro line f g
  have v : IsInert ['v'] := ⟨by decide, List.all_eq_true.mp (by decide)⟩
  have w : IsInert ['w'] := ⟨by decide, List.all_eq_true.mp (by decide)⟩
  have x : IsInert "A$X".toList := ⟨by decide, List.all_eq_true.mp (by decide)⟩
  have braces : IsInert "{}=".toList := ⟨by decide, List.all_eq_true.mp (by decide)⟩
  have first : GivesInert f line := fun name _ => by
    by_cases here : name = ['X']
    · exact ⟨_, if_pos here, v⟩
    · exact ⟨_, if_neg here, x⟩
  have second : GivesInert g line := fun name _ => by
    by_cases here : name = ['X']
    · exact ⟨_, if_pos here, braces⟩
    · exact ⟨_, if_neg here, w⟩
  obtain ⟨a, b, expanded, expanded', same⟩ := readShape_eq_of_inert first second
  have shapes : (expand? f line).map readShape =
      some (.ok (some ⟨⟨1, true, false⟩, some ⟨3, false, true⟩, true⟩)) := by decide +kernel
  have differ : expand? f line ≠ expand? g line := by decide +kernel
  rw [expanded, expanded'] at differ
  rw [expanded] at shapes
  exact ⟨first, second, a, b, expanded, expanded', fun eq => differ (congrArg some eq), same,
    Option.some.inj shapes⟩

end LineShell
