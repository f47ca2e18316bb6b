import LineShell.Proofs.Literal
import LineShell.Proofs.SourcedLine

/-! Where words end. Behind a complete text separators bring the reader back to its start, but for
the words that it has finished, and these it only keeps (`Token.Reader.foldl_after`). So what stands
behind them is read as if it stood alone, and of no other text is this true (`complete_iff_apart`).
The tokens that can come of a text are those that can be written, and written with any separators
between them they come back as they are (`tokenize_spell_iff`). -/

namespace LineShell

/-- What divides two words: some separators, and at least one. -/
structure Break where
  text : Text
  nonempty : text ≠ []
  separators : ∀ c ∈ text, isSeparator c = true

def Break.space : Break := ⟨[' '], by simp, by simp [isSeparator]⟩

theorem Break.isBlank (gap : Break) : isBlank gap.text = true :=
  List.all_eq_true.mpr fun c there => isSpace_of_isSeparator (gap.separators c there)

/-! The words that a reader has finished do not matter to it. -/

namespace Token.Reader

variable (words : List Token) (r : Reader)

/-- The reader with other words finished before its own. -/
def after : Reader := { r with words := r.words ++ words }

theorem mode_after : (r.after words).mode = r.mode := rfl

theorem plain_after (c : Char) : (r.after words).plain c = (r.plain c).after words := by
  obtain ⟨own, letters, mode⟩ := r
  cases letters <;> rfl

theorem quote_after : (r.after words).quote = r.quote.after words := by
  obtain ⟨own, letters, mode⟩ := r
  cases letters <;> rfl

theorem close_after : (r.after words).close = r.close.after words := by
  obtain ⟨own, letters, mode⟩ := r
  cases letters <;> rfl

theorem step_after (c : Char) : (r.after words).step c = (r.step c).after words := by
  rw [step, step, mode_after, plain_after, plain_after, plain_after, quote_after, close_after]
  cases r.mode with
  | bare | single | double | doubleEscape =>
    dsimp only
    split_ifs <;> rfl
  | escape =>
    rw [plain_after]
    rfl

theorem foldl_after (text : Text) :
    text.foldl step (r.after words) = (text.foldl step r).after words := by
  induction text generalizing r with
  | nil => rfl
  | cons c rest ih => rw [List.foldl_cons, List.foldl_cons, step_after, ih]

theorem finish_after : (r.after words).finish = r.finish.map (words.reverse ++ ·) := by
  rw [finish, finish, mode_after]
  cases r.mode with
  | bare =>
    rw [close_after, after]
    exact congrArg Except.ok List.reverse_append
  | escape | single | double | doubleEscape => rfl

variable {r}

theorem foldl_break (bare : r.mode = .bare) (gap : Break) :
    gap.text.foldl step r = start.after r.close.words := by
  have closed := WordGrammar.foldl_gap bare ⟨gap.text, List.all_eq_true.mpr gap.separators⟩
  rw [if_neg gap.nonempty, WordGrammar.close_of_bare bare] at closed
  exact closed

/-- A blank behind a backslash belongs to a word, and the letter behind it to the same one. -/
theorem length_finish_escape (escape : r.mode = .escape) :
    ∃ short long, ([' '].foldl step r).finish = .ok short ∧
      ([' ', 'x'].foldl step r).finish = .ok long ∧ short.length = long.length := by
  obtain ⟨words, letters, mode⟩ := r
  obtain rfl : mode = .escape := escape
  cases letters <;>
  · refine ⟨_, _, rfl, rfl, ?_⟩
    rw [List.length_reverse, List.length_reverse]
    rfl

end Token.Reader

open Token.Reader Literal

section

variable {text : Text} {tokens : List Token}

theorem tokenize_append_break (complete : tokenize text = .ok tokens) (gap : Break) (rest : Text) :
    tokenize (text ++ gap.text ++ rest) = (tokenize rest).map (tokens ++ ·) := by
  obtain ⟨bare, rfl, -⟩ := weight_of_finish complete
  rw [tokenize, List.foldl_append, List.foldl_append, foldl_break bare, foldl_after, finish_after]
  rfl

/-- Separators do not complete a text, unless one of them is escaped. -/
theorem trailingEscape_of_break {error : LineError} (failed : tokenize text = .error error)
    (gap : Break) (complete : tokenize (text ++ gap.text) = .ok tokens) :
    error = .trailingEscape := by
  by_contra other
  have idle : IdlePadding [] text gap.text := by
    rw [IdlePadding, failed]
    cases error with
    | trailingEscape => exact absurd rfl other
    | _ => trivial
  have same := (tokenize_padded_iff rfl gap.isBlank text).mpr idle
  rw [List.nil_append, complete, failed] at same
  cases same

theorem mode_of_trailingEscape (failed : tokenize text = .error .trailingEscape) :
    (text.foldl step start).mode = .escape := by
  rw [tokenize, finish] at failed
  cases mode : (text.foldl step start).mode with
  | escape => rfl
  | bare | single | double | doubleEscape => simp [mode] at failed

/-- A text is complete, and has the words `tokens`, just when these are the first words of every
line that goes on behind it with a separator: the others are those of what follows, which is read by
itself, and if that cannot be read then the line cannot, for the same reason. -/
theorem complete_iff_apart (text : Text) (tokens : List Token) :
    tokenize text = .ok tokens ↔ ∀ (gap : Break) (rest : Text),
      tokenize (text ++ gap.text ++ rest) = (tokenize rest).map (tokens ++ ·) := by
  refine ⟨tokenize_append_break, fun apart => ?_⟩
  have alone : tokenize (text ++ [' ']) = .ok tokens := by
    have spaced := apart .space []
    rw [List.append_nil] at spaced
    exact spaced.trans (congrArg Except.ok tokens.append_nil)
  cases read : tokenize text with
  | ok found =>
    have spaced := tokenize_append_break read .space []
    rw [apart] at spaced
    simpa [tokenize, Token.Reader.finish, close, start, Except.map, eq_comm] using spaced
  | error error =>
    obtain rfl := trailingEscape_of_break read .space alone
    obtain ⟨short, long, spaced, lettered, length⟩ :=
      length_finish_escape (mode_of_trailingEscape read)
    rw [← List.foldl_append] at spaced lettered
    obtain rfl : short = tokens := Except.ok.inj (spaced.symm.trans alone)
    have letter : tokenize ['x'] = .ok [⟨['x'], false⟩] := by decide
    have longer := apart .space ['x']
    rw [letter, List.append_assoc] at longer
    obtain rfl := Except.ok.inj (lettered.symm.trans longer)
    simp at length

/-! Tokens written as a line. -/

/-- The tokens as a text: a bare one as it is, any other one between single quotes, and between each
two the next of the breaks. -/
def spell (breaks : Nat → Break) : List Token → Text
  | [] => []
  | [t] => written (fun _ => false) t
  | t :: next :: more =>
    written (fun _ => false) t ++ (breaks 0).text ++ spell (fun i => breaks (i + 1)) (next :: more)

theorem tokenize_written_one {t : Token} (writable : Writable t) :
    tokenize (written (fun _ => false) t) = .ok [t] :=
  tokenize_written _ (List.forall_mem_singleton.mpr writable)

theorem tokenize_spell (writable : ∀ t ∈ tokens, Writable t) (breaks : Nat → Break) :
    tokenize (spell breaks tokens) = .ok tokens := by
  induction tokens generalizing breaks with
  | nil => rfl
  | cons t more ih =>
    obtain ⟨first, others⟩ := List.forall_mem_cons.mp writable
    have here := tokenize_written_one first
    cases more with
    | nil => exact here
    | cons next more =>
      rw [spell, tokenize_append_break here, ih others]
      rfl

/-- An empty word, a quote inside a word, and an operator that is one and one that is none. -/
example : spell (fun i => if i = 0 then ⟨['\t', ' '], by simp, by simp [isSeparator]⟩ else .space)
    [⟨[], true⟩, ⟨"it's".toList, true⟩, ⟨['>'], false⟩, ⟨['>'], true⟩] =
      "''\t 'it'\\''s' > '>'".toList := by decide +kernel

theorem writable_token (w : WordGrammar.Word) : Writable w.token := by
  intro bare
  have plain : ∀ p ∈ w.parts, ∃ c, WordGrammar.isPlain c = true ∧ p.value = [c] := by
    intro p there
    have unquoted := List.any_eq_false.mp bare p there
    cases p with
    | plain c self => exact ⟨c, self, rfl⟩
    | escaped | single | double => exact absurd rfl unquoted
  refine ⟨fun empty => ?_, fun c there => ?_⟩
  · obtain ⟨p, first⟩ := List.exists_mem_of_ne_nil _ w.nonempty
    obtain ⟨c, -, value⟩ := plain p first
    have nothing := List.flatMap_eq_nil_iff.mp empty p first
    rw [value] at nothing
    cases nothing
  · obtain ⟨p, inside, letter⟩ := List.mem_flatMap.mp there
    obtain ⟨d, self, value⟩ := plain p inside
    rw [value, List.mem_singleton] at letter
    exact letter ▸ self

theorem writable_of_tokenize (complete : tokenize text = .ok tokens) :
    ∀ t ∈ tokens, Writable t := by
  obtain ⟨l, -, rfl⟩ := WordGrammar.tokenize_eq_ok_iff.mp complete
  intro t there
  obtain ⟨entry, -, rfl⟩ := List.mem_map.mp there
  exact writable_token entry.2

end

/-- Tokens and their texts. The tokens that come of some text are those that can be written: a bare
one has letters, and all of them stand for themselves. These are also the tokens that come back from
their text, whatever breaks are put between them; and so a line that is read, written and read again
has the same tokens as at first. -/
theorem tokenize_spell_iff (tokens : List Token) :
    ((∃ text, tokenize text = .ok tokens) ↔ ∀ t ∈ tokens, Writable t) ∧
    (∀ breaks, tokenize (spell breaks tokens) = .ok tokens ↔ ∀ t ∈ tokens, Writable t) ∧
    ∀ text breaks, (tokenize text >>= fun found => tokenize (spell breaks found)) =
      tokenize text := by
  refine ⟨⟨fun ⟨_, complete⟩ => writable_of_tokenize complete, fun writable => ?_⟩,
    fun breaks => ⟨writable_of_tokenize, (tokenize_spell · breaks)⟩, fun text breaks => ?_⟩
  · exact ⟨_, tokenize_spell writable fun _ => .space⟩
  · cases read : tokenize text with
    | error e => rfl
    | ok found => exact tokenize_spell (writable_of_tokenize read) breaks

end LineShell
