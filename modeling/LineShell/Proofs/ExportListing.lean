import LineShell.Proofs.BetweenQuotes
import LineShell.Proofs.EnteredLines
import LineShell.Proofs.Literal
import LineShell.Proofs.VariableHistory
import LineShell.Proofs.Wiring

/-! The listing that `export` prints, run again. Each of its lines is an `export` of one variable with
the value between double quotes, and nothing in the value is escaped. So the lines set again what
they list if every value stands for itself there. A line by itself does so only then, and so do all
of them if no value holds a reference (`listing_restores`). -/

namespace LineShell

open Act Variables

namespace PipelineGrammar

/-- A word at the front of a line is its program, and a quoted word behind that is an operand. -/
theorem args_of_first_words {t u : Token} {more : List Token} {p : Pipeline}
    (other : ∀ d : Direction, t ≠ bare d.operator) (quoted : u.quoted = true)
    (read : Pipeline.ofTokens (t :: u :: more) = .ok (some p)) :
    ∃ operands, p.left.args = t.text :: u.text :: operands := by
  have not_bare (c : Char) : u ≠ bare c := by
    rintro rfl
    cases quoted
  obtain ⟨l, same, ⟨⟨whole, some_word⟩, -⟩, rfl⟩ := exists_line_of_ofTokens read
  rw [Line.tokens, joined, Side.tokens, whole, Option.map_none, Option.toList_none,
    List.append_nil, List.append_assoc] at same
  cases parts : l.left.parts with
  | nil => simp [Side.words, parts] at some_word
  | cons part rest =>
    rw [parts, List.flatMap_cons] at same
    cases part with
    | file d target => exact absurd (List.cons.inj same).1.symm (other d)
    | word first word =>
      obtain ⟨rfl, behind⟩ := List.cons.inj same
      cases rest with
      | cons part rest =>
        cases part with
        | file d target => exact absurd (List.cons.inj behind).1.symm (not_bare d.operator)
        | word second word =>
          obtain rfl := (List.cons.inj behind).1
          refine ⟨rest.filterMap Part.word?, ?_⟩
          simp [Line.pipeline, Side.stage, Side.words, parts, Part.word?]
      | nil =>
        -- a second word that is on no side would be the mark of a pipe or of a background job
        cases right : l.right with
        | some s =>
          rw [right] at behind
          exact absurd (List.cons.inj behind).1.symm (not_bare '|')
        | none =>
          rw [right] at behind
          cases background : l.background with
          | true =>
            rw [background] at behind
            exact absurd (List.cons.inj behind).1.symm (not_bare '&')
          | false =>
            rw [background] at behind
            cases behind

end PipelineGrammar

namespace Table

variable {κ α : Type} [DecidableEq κ]

theorem ofList_concat (front : List (κ × α)) (entry : κ × α) :
    ofList (front ++ [entry]) = (ofList front).insert entry.1 entry.2 := by
  simp [ofList]

theorem get?_ofList {entries : List (κ × α)} (nodup : (entries.map Prod.fst).Nodup) {key : κ}
    {value : α} : (ofList entries).get? key = some value ↔ (key, value) ∈ entries := by
  induction entries using List.reverseRecOn with
  | nil => simp [ofList]
  | append_singleton front entry ih =>
    rw [List.map_append, List.nodup_append] at nodup
    obtain ⟨nodup, -, apart⟩ := nodup
    rw [ofList_concat, get?_insert, List.mem_append, List.mem_singleton]
    by_cases same : key = entry.1
    · have absent : (key, value) ∉ front := fun there =>
        apart key (List.mem_map_of_mem there) entry.1 (by simp) same
      simp [same ▸ absent, same, Prod.ext_iff, eq_comm]
    · rw [if_neg same, ih nodup]
      simp [Prod.ext_iff, same]

end Table

namespace Export

open Token Token.Reader

variable {quiet : Bool} {world : World} {name value : Text} {entries : List (Text × Text)}

/-! A line of the listing as a text. -/

/-- What stands before the quotes. -/
def front (name : Text) : Text := "export ".toList ++ (name ++ ['='])

theorem exportLine_eq (name value : Text) :
    Builtin.exportLine (name, value) = front name ++ '"' :: (value ++ ['"']) := by
  have mark : "=\"".toList = ['=', '"'] := by decide +kernel
  unfold Builtin.exportLine front
  rw [mark]
  -- a word by its name, or each step goes through its letters
  generalize "export ".toList = command
  simp

theorem dollar_not_mem_front (named : isIdentifier name = true) : '$' ∉ front name := by
  have command : '$' ∉ "export ".toList := by decide +kernel
  have absent := Expansion.not_mem_of_isIdentifier named (c := '$') (by decide)
  unfold front
  generalize "export ".toList = word at command
  simp only [List.mem_append, List.mem_singleton, not_or]
  exact ⟨command, absent, by decide⟩

theorem isPlain_of_isNameChar {c : Char} (named : isNameChar c = true) :
    WordGrammar.isPlain c = true := by
  have other {d : Char} (foreign : isNameChar d = false) : c ≠ d := by
    rintro rfl
    rw [named] at foreign
    cases foreign
  have between : isSeparator c = false := by
    simp only [isSeparator, Bool.or_eq_false_iff, decide_eq_false_iff_not]
    exact ⟨⟨⟨⟨other (by decide), other (by decide)⟩, other (by decide)⟩, other (by decide)⟩,
      other (by decide)⟩
  simp only [WordGrammar.isPlain, between, Bool.not_false, Bool.true_and, Bool.and_eq_true,
    decide_eq_true_eq]
  exact ⟨⟨other (by decide), other (by decide)⟩, other (by decide)⟩

/-- The reader behind the quote that opens the value. -/
def opened (name : Text) : Reader :=
  ⟨[⟨"export".toList, false⟩], some ((name ++ ['=']).reverse, true), .double⟩

theorem foldl_front (named : isIdentifier name = true) :
    (front name ++ ['"']).foldl step .start = opened name := by
  have letters : ∀ c ∈ name ++ ['='], WordGrammar.isPlain c = true := by
    intro c there
    rcases List.mem_append.mp there with inside | last
    · exact isPlain_of_isNameChar (Expansion.isNameChar_of_isIdentifier named c inside)
    · obtain rfl := List.mem_singleton.mp last
      decide
  obtain ⟨w, source, token⟩ := Literal.exists_word (fun _ => false)
    (t := ⟨name ++ ['='], false⟩) fun _ => ⟨by simp, letters⟩
  have spelled (words : List Token) : (name ++ ['=']).foldl step ⟨words, none, .bare⟩ =
      WordGrammar.holding words ⟨name ++ ['='], false⟩ := by
    have word := WordGrammar.foldl_word words w
    rwa [source, token] at word
  have command : "export ".toList.foldl step .start = ⟨[⟨"export".toList, false⟩], none, .bare⟩ := by
    decide +kernel
  unfold front opened
  rw [List.foldl_append, List.foldl_append, command, spelled]
  generalize "export".toList = word
  rfl

theorem weight_opened (name : Text) :
    (opened name).weight = "export".toList.length + (name.length + 1) := by
  unfold opened
  generalize "export".toList = word
  simp [weight, held]

/-! A line that is run. -/

/-- The two words of a line whose value stands for itself. -/
def words (name value : Text) : List Token :=
  [⟨"export".toList, false⟩, ⟨name ++ '=' :: value, true⟩]

theorem tokenize_exportLine (named : isIdentifier name = true) (unescaped : Unescaped value) :
    tokenize (Builtin.exportLine (name, value)) = .ok (words name value) := by
  have kept : keeps false value = true := (keeps_iff false value).mpr unescaped
  have inside : value.foldl step (opened name) = _ := foldl_of_keeps _ _ _ kept
  have line : Builtin.exportLine (name, value) = (front name ++ ['"']) ++ value ++ ['"'] := by
    rw [exportLine_eq]
    generalize front name = before
    simp
  rw [tokenize, line, List.foldl_append, List.foldl_append, foldl_front named, inside, words]
  generalize "export".toList = word
  simp [step, finish, close]

theorem plain_words (name value : Text) : Plain (words name value) := by
  intro t there c _
  simp only [words, List.mem_cons, List.not_mem_nil, or_false] at there
  rcases there with rfl | rfl
  · simp [Token.isOperator]
  · rfl

theorem read_exportLine (world : World) (named : isIdentifier name = true)
    (verbatim : Verbatim value) : world.read? (Builtin.exportLine (name, value)) =
      some (.ok (some { left := { args := "export".toList :: [name ++ '=' :: value] } })) := by
  have free : Expansion.Referenceless (Builtin.exportLine (name, value)) := by
    rw [exportLine_eq]
    exact verbatim.referenceless.quoted (dollar_not_mem_front named)
  rw [World.read?, World.expand?, Expansion.expand?_eq_substitute,
    Expansion.substitute_of_referenceless free, Option.map_some, readPipeline,
    tokenize_exportLine named verbatim.unescaped]
  exact congrArg some (ofTokens_of_plain (plain_words name value) (by simp [words]))

theorem ofOperand_word (named : isIdentifier name = true) (value : Text) :
    Call.ofOperand (name ++ '=' :: value) = .setExported name value := by
  have absent : '=' ∉ name := Expansion.not_mem_of_isIdentifier named (by decide)
  rw [Call.ofOperand, Expansion.cut?_append absent]

/-- A variable whose line in the listing sets it again. -/
structure Restorable (entry : Text × Text) : Prop where
  named : isIdentifier entry.1 = true
  clean : '\x00' ∉ entry.2
  verbatim : Verbatim entry.2

/-- The variables with one more exported. -/
def exported (vars : Variables) (entry : Text × Text) : Variables :=
  ⟨vars.table.insert entry.1 ⟨entry.2, true⟩, vars.environment.insert entry.1 entry.2⟩

theorem outcome_run_exportOperand (output : Output) (world : World) {entry : Text × Text}
    (restorable : Restorable entry) :
    (Builtin.run .setExport output ["export".toList, entry.1 ++ '=' :: entry.2]).outcome world =
      (.ok .proceed, world.withVars (exported world.session.vars entry)) := by
  have carried : (Call.setExported entry.1 entry.2).carryOut world.session.vars =
      (.ok (), exported world.session.vars entry) := by
    rw [Call.carryOut, Call.apply, setExported_of_identifier restorable.named,
      if_neg restorable.clean]
    rfl
  rw [Builtin.run, Builtin.outcome_runExport _ _ (by simp)]
  simp only [List.tail_cons, List.map_cons, List.map_nil, ofOperand_word restorable.named, callAll,
    carried]
  rfl

theorem outcome_exportLine (quiet : Bool) (world : World) {entry : Text × Text}
    (restorable : Restorable entry) : (runLine quiet (Builtin.exportLine entry)).outcome world =
      (runOutput .setExport (world.output {})
        ["export".toList, entry.1 ++ '=' :: entry.2]).outcome world :=
  outcome_runLine_of_export (read_exportLine world restorable.named restorable.verbatim)

/-- The variable is set, and then what was kept for standard output is written, or refused. -/
theorem exportLine_cases (quiet : Bool) (world : World) {entry : Text × Text}
    (restorable : Restorable entry) :
    let came := (runLine quiet (Builtin.exportLine entry)).outcome world
    (world.withVars (exported world.session.vars entry)).Wrote came.2 ∧
      (came.1 = .ok .proceed ∨ ∃ cause, came.1 = .error (.error (.io cause))) := by
  intro came
  have same : came = _ := outcome_exportLine quiet world restorable
  obtain ⟨after, wrote, ended | ⟨-, cause, refused⟩⟩ :=
    runOutput_cases (outcome_run_exportOperand (world.output {}) world restorable)
  · rw [same, ended]
    exact ⟨wrote, .inl rfl⟩
  · rw [same, refused]
    exact ⟨wrote, .inr ⟨cause, rfl⟩⟩

theorem environment_exportLine (quiet : Bool) (world : World) {entry : Text × Text}
    (restorable : Restorable entry) :
    ((runLine quiet (Builtin.exportLine entry)).outcome world).2.environment =
      world.environment.insert entry.1 entry.2 :=
  congrArg (fun own => own.1.vars.environment) (exportLine_cases quiet world restorable).1.own

/-- Nothing can be refused where nothing is kept. -/
theorem exportLine_of_nothing_kept (quiet : Bool) {entry : Text × Text}
    (restorable : Restorable entry) (nothing : world.unwritten = []) :
    (runLine quiet (Builtin.exportLine entry)).outcome world =
      (.ok .proceed, { world.withVars (exported world.session.vars entry) with unwritten := [] }) := by
  have same : (world.withVars (exported world.session.vars entry)).unwritten = [] := nothing
  have flushed : (world.output {}).flush.outcome
      (world.withVars (exported world.session.vars entry)) =
      (.ok (), { world.withVars (exported world.session.vars entry) with unwritten := [] }) := by
    show StandardOutput.flush.outcome _ = _
    rw [StandardOutput.flush, outcome_bind, outcome_get]
    simp only [same, outcome_bind, StandardOutput.outcome_write, if_true, outcome_modify]
  rw [outcome_exportLine quiet world restorable,
    outcome_runOutput (outcome_run_exportOperand _ world restorable) (by simp), flushed]
  rfl

/-! The lines of a listing, one after the other. -/

/-- The lines that `export` prints, in order. -/
def listing (environment : Environment) : List Text :=
  (Builtin.sorted environment).map Builtin.exportLine

/-- The lines of variables that can be set again put them into an empty environment. -/
theorem environment_after (quiet : Bool) (fresh : world.session.vars = {})
    (each : ∀ entry ∈ entries, Restorable entry) :
    (world.after quiet (entries.map fun entry => .line (Builtin.exportLine entry))).environment =
      Table.ofList entries := by
  induction entries using List.reverseRecOn with
  | nil =>
    show world.session.vars.environment = _
    rw [fresh]
    rfl
  | append_singleton front entry ih =>
    have earlier := ih fun entry there => each entry (List.mem_append_left _ there)
    rw [List.map_append, List.map_singleton, after_concat, Happening.step,
      environment_exportLine _ _ (each entry (by simp)), Table.ofList_concat, ← earlier]

theorem unwritten_after (quiet : Bool) (nothing : world.unwritten = [])
    (each : ∀ entry ∈ entries, Restorable entry) :
    (world.after quiet (entries.map fun entry => .line (Builtin.exportLine entry))).unwritten =
      [] := by
  induction entries using List.reverseRecOn with
  | nil => exact nothing
  | append_singleton front entry ih =>
    have earlier := ih fun entry there => each entry (List.mem_append_left _ there)
    rw [List.map_append, List.map_singleton, after_concat]
    rw [Happening.step, exportLine_of_nothing_kept quiet (each entry (by simp)) earlier]

/-- The lines of a listing succeed, one after the other, and what is then in the environment is
what they list. The one thing that can be refused is what the shell had kept for standard output
before. -/
structure Restores (quiet : Bool) (world : World) (listed : Environment) : Prop where
  succeeds : ∀ before line later, listing listed = before ++ line :: later →
    let came := (runLine quiet line).outcome (world.after quiet (before.map .line))
    came.1 = .ok .proceed ∨
      world.unwritten ≠ [] ∧ ∃ cause, came.1 = .error (.error (.io cause))
  ends : ∀ name,
    (world.after quiet ((listing listed).map .line)).environment.get? name = listed.get? name

theorem sorted_perm (listed : Environment) : (Builtin.sorted listed).Perm listed.entries :=
  List.mergeSort_perm _ _

theorem nodup_sorted (listed : Environment) : ((Builtin.sorted listed).map Prod.fst).Nodup :=
  ((sorted_perm listed).map Prod.fst).nodup_iff.mpr listed.nodup

theorem events_listing (listed : Environment) : (listing listed).map Happening.line =
    (Builtin.sorted listed).map fun entry => .line (Builtin.exportLine entry) := List.map_map ..

theorem restores_of_restorable (fresh : world.session.vars = {}) {listed : Environment}
    (each : ∀ entry ∈ listed.entries, Restorable entry) : Restores quiet world listed where
  succeeds := by
    intro before line later split
    obtain ⟨front, back, whole, rfl, cut⟩ := List.map_eq_append_iff.mp split
    obtain ⟨entry, rest, rfl, rfl, -⟩ := List.map_eq_cons_iff.mp cut
    have each : ∀ entry ∈ Builtin.sorted listed, Restorable entry := fun entry there =>
      each entry ((sorted_perm listed).mem_iff.mp there)
    have restorable := each entry (by simp [whole])
    by_cases nothing : world.unwritten = []
    · have earlier : (world.after quiet ((front.map Builtin.exportLine).map .line)).unwritten = [] := by
        rw [List.map_map]
        exact unwritten_after quiet nothing fun entry there => each entry (by simp [whole, there])
      exact .inl (congrArg Prod.fst (exportLine_of_nothing_kept quiet restorable earlier))
    · exact (exportLine_cases quiet _ restorable).2.imp id (⟨nothing, ·⟩)
  ends := by
    intro name
    have each : ∀ entry ∈ Builtin.sorted listed, Restorable entry := fun entry there =>
      each entry ((sorted_perm listed).mem_iff.mp there)
    refine Option.ext fun value => ?_
    rw [events_listing, environment_after quiet fresh each, Table.get?_ofList (nodup_sorted listed),
      (sorted_perm listed).mem_iff, Table.mem_entries_iff]

/-! A line that sets its variable again has a value that stands for itself. -/

/-- All that is held of a name was given for it in an operand. -/
def Given (operands : List Text) (name : Text) (v : View) : Prop :=
  (∀ value, v.inherited = some value → name ++ '=' :: value ∈ operands) ∧
    ∀ known, v.entry = some known → name ++ '=' :: known.value ∈ operands

theorem given_of_value {operands : List Text} (there : name ++ '=' :: value ∈ operands) :
    Given operands name ⟨some ⟨value, true⟩, some value⟩ := by
  refine ⟨fun other same => ?_, fun known same => ?_⟩
  · obtain rfl := Option.some.inj same
    exact there
  · obtain rfl := Option.some.inj same
    exact there

theorem given_onView {operands : List Text} {operand : Text} (there : operand ∈ operands) {v w : View}
    (given : Given operands (Call.ofOperand operand).name v)
    (seen : (Call.ofOperand operand).onView v = .ok w) :
    Given operands (Call.ofOperand operand).name w := by
  rw [Call.ofOperand] at given seen ⊢
  cases cut : cut? '=' operand with
  | some parts =>
    obtain ⟨called, value⟩ := parts
    rw [cut] at seen
    obtain ⟨rfl, -⟩ := cut?_eq_some cut
    rw [Call.onView_setExported seen]
    exact given_of_value there
  | none =>
    rw [cut] at given seen
    obtain ⟨known, entry, rfl⟩ := Call.onView_markExported seen
    exact given_of_value (given.2 known entry)

/-- When the first operand gives a name a value, the variables stay as they are, or else what is
held of that name was given. -/
theorem unchanged_or_given (operands : List Text) (vars : Variables) :
    (callAll (.setExported name value :: operands.map Call.ofOperand) vars).2 = vars ∨
      Given ((name ++ '=' :: value) :: operands) name
        ((callAll (.setExported name value :: operands.map Call.ofOperand) vars).2.view name) := by
  rw [callAll]
  rcases first : (Call.setExported name value).carryOut vars with ⟨_ | ⟨⟩, next⟩
  · exact .inl ((congrArg Prod.snd first).symm.trans (carryOut_of_error (congrArg Prod.fst first)))
  · right
    have view := view_carryOut_of_ok (congrArg Prod.fst first)
    rw [first] at view
    refine callAll_keeps ?_ fun c there own v w given seen => ?_
    · have view : next.view name = _ := Call.onView_setExported view
      rw [view]
      exact given_of_value List.mem_cons_self
    · obtain ⟨operand, listed, rfl⟩ := List.mem_map.mp there
      rw [← own] at given ⊢
      exact given_onView (List.mem_cons_of_mem _ listed) given seen

theorem unchanged_or_given_line {line given : Text} {p : Pipeline} {operands : List Text}
    (named : isIdentifier name = true) (read : world.read? line = some (.ok (some p)))
    (args : p.left.args = "export".toList :: (name ++ '=' :: given) :: operands) :
    ((runLine quiet line).outcome world).2.environment = world.environment ∨
      ∀ value, ((runLine quiet line).outcome world).2.environment.get? name = some value →
        name ++ '=' :: value ∈ (name ++ '=' :: given) :: operands := by
  have builtin : Builtin.lookup? p.left.program = some .setExport := by
    rw [Stage.program, args]
    show Builtin.lookup? "export".toList = _
    decide
  have own (there : World) : there.environment = there.own.1.vars.environment := rfl
  have meets : (world.demand line).Meets world ((runLine quiet line).outcome world).2 :=
    meets_runLine quiet
  rw [World.demand, read] at meets
  dsimp only at meets
  rw [Pipeline.demand, assignments?_of_builtin builtin] at meets
  rw [own, own world]
  cases right : p.right with
  | some right =>
    rw [right] at meets
    exact .inl (congrArg (·.1.vars.environment) meets)
  | none =>
    rw [right, builtin] at meets
    rcases meets with same | called
    · exact .inl (congrArg (·.1.vars.environment) same)
    · rw [args, List.tail_cons, List.map_cons, ofOperand_word named] at called
      rw [called]
      exact (unchanged_or_given operands world.session.vars).imp (congrArg Variables.environment)
        And.left

/-- The words of a line of the listing, whatever the value has become in it. -/
theorem exists_words (named : isIdentifier name = true) {rest : Text} {tokens : List Token}
    (cut : tokenize (front name ++ '"' :: rest) = .ok tokens) :
    (rest.foldl step (opened name)).mode = .bare ∧
      (∃ given more, tokens = ⟨"export".toList, false⟩ :: ⟨name ++ '=' :: given, true⟩ :: more) ∧
      (tokens.flatMap Token.text).length = (rest.foldl step (opened name)).weight := by
  have line : front name ++ '"' :: rest = (front name ++ ['"']) ++ rest := by simp
  rw [tokenize, line, List.foldl_append, foldl_front named] at cut
  obtain ⟨bare, rfl, letters⟩ := weight_of_finish cut
  refine ⟨bare, ?_, letters⟩
  have begun : (opened name).Begun [⟨"export".toList, false⟩] (name ++ ['=']) :=
    .inl ⟨rfl, [], rfl⟩
  obtain ⟨given, later, words⟩ := (begun.foldl rest).close
  rw [words]
  exact ⟨given, later.reverse, by simp⟩

/-- The words `export` and `name=value` have so many letters. -/
theorem letters_le {first : Text} {more : List Token} {p : Pipeline} {operands : List Text}
    (asked : Pipeline.ofTokens (⟨first, false⟩ :: more) = .ok (some p)) (plain : '=' ∉ first)
    (args : p.left.args = first :: operands) (operand : name ++ '=' :: value ∈ operands) :
    first.length + (name.length + 1) + value.length ≤
      ((⟨first, false⟩ :: more : List Token).flatMap Token.text).length := by
  have there : name ++ '=' :: value ∈ p.left.args := by
    rw [args]
    exact List.mem_cons_of_mem _ operand
  obtain ⟨t, inside, text⟩ := PipelineGrammar.exists_token_of_mem_args asked there
  rcases List.mem_cons.mp inside with rfl | inside
  · rw [show first = name ++ '=' :: value from text] at plain
    exact absurd (List.mem_append_right name List.mem_cons_self) plain
  · obtain ⟨front, back, rfl⟩ := List.append_of_mem inside
    simp only [List.flatMap_cons, List.flatMap_append, List.length_append, text, List.length_cons]
    omega

/-- A value that is read from a line that has not grown has lost nothing there. -/
theorem verbatim_of_letters {lookup : Text → Option Text}
    (shrinks : Expansion.Shrinks lookup (value ++ ['"']))
    (bare : ((Expansion.substitute lookup (value ++ ['"'])).foldl step (opened name)).mode = .bare)
    (letters : (opened name).weight + value.length ≤
      ((Expansion.substitute lookup (value ++ ['"'])).foldl step (opened name)).weight) :
    Verbatim value := by
  have closes := weight_of_inside (opened name) (.inl rfl) bare
  have free := shrinks (by
    rw [List.length_append, List.length_singleton]
    omega)
  rw [Expansion.substitute_of_referenceless free] at bare letters
  refine ⟨(keeps_iff false value).mp (keeps_of_weight rfl bare letters), fun r inside => ?_⟩
  exact free r (inside.trans (List.prefix_append value ['"']).isInfix)

/-- A line leaves the environment as it is, or sets its variable again only if nothing of the value
is lost. -/
theorem unchanged_or_verbatim (quiet : Bool) (named : isIdentifier name = true)
    (shrinks : Expansion.Shrinks world.session.vars.lookup (value ++ ['"'])) :
    let after := ((runLine quiet (Builtin.exportLine (name, value))).outcome world).2
    after.environment = world.environment ∨
      (after.environment.get? name = some value → Verbatim value) := by
  intro after
  have expands : world.expand? (Builtin.exportLine (name, value)) = some (front name ++
      '"' :: Expansion.substitute world.session.vars.lookup (value ++ ['"'])) := by
    rw [World.expand?, Expansion.expand?_eq_substitute, exportLine_eq,
      Expansion.substitute_append (dollar_not_mem_front named),
      Expansion.substitute_plain _ (by decide)]
  obtain ⟨asked, read⟩ := exists_read world (Builtin.exportLine (name, value))
  rcases asked with e | _ | p
  · left
    rw [show after = world from congrArg Prod.snd (outcome_runLine_of_error quiet read)]
  · left
    rw [show after = world from congrArg Prod.snd (outcome_runLine_of_none quiet read)]
  · have cut := read
    rw [World.read?, expands] at cut
    obtain ⟨tokens, cut, asked⟩ := bind_eq_ok.mp (Option.some.inj cut)
    obtain ⟨bare, ⟨given, more, rfl⟩, letters⟩ := exists_words named cut
    have other (d : PipelineGrammar.Direction) :
        (⟨"export".toList, false⟩ : Token) ≠ PipelineGrammar.bare d.operator := by
      cases d <;> decide
    obtain ⟨operands, args⟩ := PipelineGrammar.args_of_first_words other rfl asked
    refine (unchanged_or_given_line named read args).imp_right fun givens restored => ?_
    refine verbatim_of_letters shrinks bare ?_
    rw [← letters, weight_opened]
    exact letters_le asked (by decide) args (givens value restored)

theorem shrinks_of_fresh (fresh : world.session.vars = {}) (text : Text) :
    Expansion.Shrinks world.session.vars.lookup text := by
  have unknown : world.session.vars.lookup = fun _ => none := by
    rw [fresh]
    rfl
  rw [unknown]
  exact (Expansion.length_substitute text).2

/-- A line by itself, in a shell without variables. -/
theorem restored_iff (quiet : Bool) (fresh : world.session.vars = {})
    (named : isIdentifier name = true) (clean : '\x00' ∉ value) :
    ((runLine quiet (Builtin.exportLine (name, value))).outcome world).2.environment.get? name =
      some value ↔ Verbatim value := by
  constructor
  · intro restored
    rcases unchanged_or_verbatim quiet named (shrinks_of_fresh fresh _) with same | verbatim
    · rw [same, World.environment, fresh] at restored
      cases restored
    · exact verbatim restored
  · intro verbatim
    rw [environment_exportLine quiet world ⟨named, clean, verbatim⟩]
    exact (Table.get?_insert ..).trans (if_pos rfl)

/-- Lines without references never come to set all their variables if one of them cannot set its
own: a later line that corrects what an earlier one has set does not set its own. -/
theorem verbatim_or_wrong (quiet : Bool) (fresh : world.session.vars = {})
    (nodup : (entries.map Prod.fst).Nodup)
    (each : ∀ entry ∈ entries, isIdentifier entry.1 = true ∧ '\x00' ∉ entry.2 ∧
      Expansion.Referenceless entry.2) :
    (∀ entry ∈ entries, Verbatim entry.2) ∨ ∃ entry ∈ entries,
      (world.after quiet (entries.map fun entry =>
        .line (Builtin.exportLine entry))).environment.get? entry.1 ≠ some entry.2 := by
  induction entries using List.reverseRecOn with
  | nil => exact .inl (by simp)
  | append_singleton front last ih =>
    rw [List.map_append, List.nodup_append] at nodup
    obtain ⟨nodup, -, apart⟩ := nodup
    have earlier := ih nodup fun entry there => each entry (List.mem_append_left _ there)
    obtain ⟨named, clean, free⟩ := each last (by simp)
    rw [List.map_append, List.map_singleton, after_concat, Happening.step]
    by_cases verbatim : Verbatim last.2
    · rw [environment_exportLine _ _ ⟨named, clean, verbatim⟩]
      refine earlier.imp (fun all entry there => ?_) ?_
      · rcases List.mem_append.mp there with there | there
        · exact all entry there
        · obtain rfl := List.mem_singleton.mp there
          exact verbatim
      · rintro ⟨entry, there, wrong⟩
        refine ⟨entry, List.mem_append_left _ there, ?_⟩
        have other : entry.1 ≠ last.1 := apart _ (List.mem_map_of_mem there) _ (by simp)
        exact ((Table.get?_insert ..).trans (if_neg other)).trans_ne wrong
    rcases unchanged_or_verbatim quiet named fun _ => free.concat with same | restored
    · right
      rw [same]
      rcases earlier with all | ⟨entry, there, wrong⟩
      · refine ⟨last, by simp, fun set => ?_⟩
        have restorable : ∀ entry ∈ front, Restorable entry := fun entry there =>
          have ⟨named, clean, _⟩ := each entry (List.mem_append_left _ there)
          ⟨named, clean, all entry there⟩
        rw [environment_after quiet fresh restorable, Table.get?_ofList nodup] at set
        exact apart _ (List.mem_map_of_mem set) _ (by simp) rfl
      · exact ⟨entry, List.mem_append_left _ there, wrong⟩
    · exact .inr ⟨last, by simp, fun set => verbatim (restored set)⟩

theorem line_no_break (named : isIdentifier name = true) (unbroken : '\n' ∉ value) :
    '\n' ∉ Builtin.exportLine (name, value) := by
  have command : '\n' ∉ "export ".toList := by decide +kernel
  have absent := Expansion.not_mem_of_isIdentifier named (c := '\n') (by decide)
  rw [exportLine_eq]
  unfold front
  generalize "export ".toList = word at command
  simp [command, absent, unbroken]

theorem flatten_exportRows (listed : Environment) :
    ((Builtin.sorted listed).map Builtin.exportRow).map List.flatten =
      (listing listed).map (· ++ ['\n']) := by
  have row (entry : Text × Text) :
      (Builtin.exportRow entry).flatten = Builtin.exportLine entry ++ ['\n'] := by
    have last : "\"\n".toList = ['"', '\n'] := by decide +kernel
    unfold Builtin.exportRow Builtin.exportLine
    rw [last]
    generalize "export ".toList = command
    simp
  rw [listing, List.map_map, List.map_map]
  exact List.map_congr_left fun entry _ => row entry

/-- What comes of running the lines that `export` prints for an environment. -/
theorem listing_restores {listed : Environment} (quiet : Bool) (fresh : world.session.vars = {})
    (named : ∀ entry ∈ listed.entries, isIdentifier entry.1 = true)
    (storable : ∀ entry ∈ listed.entries, '\n' ∉ entry.2 ∧ '\x00' ∉ entry.2) :
    (∃ rows, rows.map List.flatten = (listing listed).map (· ++ ['\n']) ∧
      ∀ there output args, there.environment = listed → args.tail = [] →
        (Builtin.runExport output args).outcome there =
          (do output.lines rows
              return .proceed : Act CommandError Verdict).outcome there) ∧
    (∀ line ∈ listing listed, '\n' ∉ line) ∧
    ((∀ entry ∈ listed.entries, Verbatim entry.2) → Restores quiet world listed) ∧
    ((∀ entry ∈ listed.entries, Expansion.Referenceless entry.2) →
      (Restores quiet world listed ↔ ∀ entry ∈ listed.entries, Unescaped entry.2)) ∧
    ∀ entry ∈ listed.entries,
      ((runLine quiet (Builtin.exportLine entry)).outcome world).2.environment.get? entry.1 =
        some entry.2 ↔ Verbatim entry.2 := by
  have restores (verbatim : ∀ entry ∈ listed.entries, Verbatim entry.2) :
      Restores quiet world listed := restores_of_restorable fresh fun entry there =>
    ⟨named entry there, (storable entry there).2, verbatim entry there⟩
  refine ⟨?_, fun line there => ?_, restores, fun free => ⟨fun restored => ?_, fun unescaped => ?_⟩,
    fun entry there => restored_iff quiet fresh (named entry there) (storable entry there).2⟩
  · refine ⟨_, flatten_exportRows listed, ?_⟩
    rintro there output args rfl none_given
    rw [Builtin.runExport, none_given]
    rfl
  · obtain ⟨entry, sorted, rfl⟩ := List.mem_map.mp there
    have known := (sorted_perm listed).mem_iff.mp sorted
    exact line_no_break (named entry known) (storable entry known).1
  · have each : ∀ entry ∈ Builtin.sorted listed, isIdentifier entry.1 = true ∧
        '\x00' ∉ entry.2 ∧ Expansion.Referenceless entry.2 := fun entry there =>
      have known := (sorted_perm listed).mem_iff.mp there
      ⟨named entry known, (storable entry known).2, free entry known⟩
    rcases verbatim_or_wrong quiet fresh (nodup_sorted listed) each with verbatim | wrong
    · exact fun entry there => (verbatim entry ((sorted_perm listed).mem_iff.mpr there)).unescaped
    · obtain ⟨⟨name, value⟩, there, wrong⟩ := wrong
      have value_listed := Table.mem_entries_iff.mp ((sorted_perm listed).mem_iff.mp there)
      rw [← events_listing] at wrong
      exact absurd ((restored.ends name).trans value_listed) wrong
  · exact restores fun entry there => ⟨unescaped entry there, free entry there⟩

/-- Signs that mean nothing between double quotes come back as they were. -/
theorem listing_restores_signs :
    let listed := (shellWith [("A", "$ 5 \\n"), ("B", "x|y 'z'")]).environment
    listing listed = ["export A=\"$ 5 \\n\"".toList, "export B=\"x|y 'z'\"".toList] ∧
      (∀ entry ∈ listed.entries, isIdentifier entry.1 = true) ∧
      (∀ entry ∈ listed.entries, '\n' ∉ entry.2 ∧ '\x00' ∉ entry.2) ∧
      Restores true (shellWith []) listed := by
  intro listed
  have named : ∀ entry ∈ listed.entries, isIdentifier entry.1 = true := by decide +kernel
  have storable : ∀ entry ∈ listed.entries, '\n' ∉ entry.2 ∧ '\x00' ∉ entry.2 := by decide +kernel
  have sorted : Builtin.sorted listed = listed.entries :=
    List.mergeSort_of_pairwise (by decide +kernel)
  obtain ⟨-, -, restores, -, -⟩ :=
    @listing_restores (shellWith []) listed true rfl named storable
  refine ⟨?_, named, storable, restores (by decide +kernel)⟩
  rw [listing, sorted]
  decide +kernel

/-- A quote in a value ends it early, and the line cannot even be read. -/
theorem quote_breaks_listing :
    let listed := (shellWith [("A", "a\"b")]).environment
    (∀ entry ∈ listed.entries, isIdentifier entry.1 = true) ∧
      (∀ entry ∈ listed.entries, '\n' ∉ entry.2 ∧ '\x00' ∉ entry.2) ∧
      listing listed = ["export A=\"a\"b\"".toList] ∧
      (∀ line ∈ listing listed, (runLine true line).outcome (shellWith []) =
        (.error (.error (.parse (.unterminatedQuote .double))), shellWith [])) ∧
      ¬ Restores true (shellWith []) listed := by
  intro listed
  have lines : listing listed = ["export A=\"a\"b\"".toList] := by decide +kernel
  have unreadable : (shellWith []).read? "export A=\"a\"b\"".toList =
      some (.error (.unterminatedQuote .double)) := by decide +kernel
  refine ⟨by decide +kernel, by decide +kernel, lines, fun line there => ?_, fun restores => ?_⟩
  · rw [lines] at there
    obtain rfl := List.mem_singleton.mp there
    exact outcome_runLine_of_error true unreadable
  · have succeeds := restores.succeeds [] _ [] lines
    have fails := outcome_runLine_of_error true unreadable
    rw [show World.after true (shellWith []) ([].map .line) = shellWith [] from rfl, fails] at succeeds
    rcases succeeds with goesOn | ⟨-, cause, refused⟩
    · cases goesOn
    · cases refused

end Export
end LineShell
