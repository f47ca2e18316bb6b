import LineShell.Flags
import Mathlib.Tactic.Common

/-! The grammar of the arguments of the shell, apart from their reader. An item is an option in its
short or its long form, and if it takes a value then the argument after it, whatever that looks
like. Every list of arguments is items up to an end where no further item begins (`exists_items`),
and in one way only (`prefix_of_ends`). The reader comes through the items and stops at the end
(`parse_items`, `parse_ends`), so it can be told from the grammar alone (`parse_grammatical`). -/

namespace LineShell

/-- The two ways of writing an option. -/
inductive Form
  | short
  | long
  deriving Repr, DecidableEq

namespace Flag

def written (flag : Flag) : Form → Text
  | .short => flag.short
  | .long => flag.long

theorem ofArgument?_written (flag : Flag) (form : Form) :
    ofArgument? (flag.written form) = some flag := by
  cases flag <;> cases form <;> decide

theorem ofArgument?_eq_some {argument : Text} {flag : Flag} :
    ofArgument? argument = some flag ↔ ∃ form, argument = flag.written form := by
  constructor
  · intro found
    have same := List.find?_some found
    simp only [Bool.or_eq_true, decide_eq_true_eq] at same
    rcases same with short | long
    · exact ⟨.short, short⟩
    · exact ⟨.long, long⟩
  · rintro ⟨form, rfl⟩
    exact ofArgument?_written flag form

theorem ofArgument?_eq_none {argument : Text} :
    ofArgument? argument = none ↔ ∀ flag form, argument ≠ written flag form := by
  rw [Option.eq_none_iff_forall_ne_some]
  refine forall_congr' fun flag => ?_
  rw [Ne, ofArgument?_eq_some, not_exists]

end Flag

namespace OptionGrammar

inductive Item
  | switch (flag : Flag) (form : Form) (bare : flag.takesValue = false)
  | valued (flag : Flag) (form : Form) (takes : flag.takesValue = true) (value : Text)

namespace Item

def words : Item → List Text
  | switch flag form _ => [flag.written form]
  | valued flag form _ value => [flag.written form, value]

def flag : Item → Flag
  | switch flag _ _ => flag
  | valued flag _ _ _ => flag

/-- What the option has as its value when it is given so. -/
def value : Item → Text
  | switch _ _ _ => Flags.switchedOn
  | valued _ _ _ value => value

/-- The flags once the item has been read. -/
def give (flags : Flags) (item : Item) : Flags := flags.setValue item.flag item.value

def value? (flag : Flag) (item : Item) : Option Text :=
  if flag = item.flag then some item.value else none

end Item

/-- The arguments that the items are. -/
def spelled (items : List Item) : List Text := items.flatMap Item.words

/-- The value of an option in the last item that gives it. -/
def lastValue? (items : List Item) (flag : Flag) : Option Text :=
  (items.filterMap (Item.value? flag)).getLast?

/-- What can be left when no further item can be taken, and what is said of it. -/
inductive Ends : List Text → Except Text Unit → Prop
  | whole : Ends [] (.ok ())
  | lacking {flag : Flag} (form : Form) (takes : flag.takesValue = true) :
      Ends [flag.written form]
        (.error ("option ".toList ++ flag.written form ++ " requires a value".toList))
  | unknown {argument : Text} (foreign : ∀ flag form, argument ≠ Flag.written flag form)
      (rest : List Text) : Ends (argument :: rest) (.error ("unknown option: ".toList ++ argument))

variable {items others : List Item} {args rest later : List Text} {answer : Except Text Unit}

theorem spelled_cons (item : Item) (items : List Item) :
    spelled (item :: items) = item.words ++ spelled items := List.flatMap_cons

/-! Every list of arguments is items and an end, in one way. -/

theorem exists_items (args : List Text) :
    ∃ items rest answer, args = spelled items ++ rest ∧ Ends rest answer := by
  match args with
  | [] => exact ⟨[], [], _, rfl, .whole⟩
  | argument :: rest =>
    cases found : Flag.ofArgument? argument with
    | none => exact ⟨[], _, _, rfl, .unknown (Flag.ofArgument?_eq_none.mp found) rest⟩
    | some flag =>
      obtain ⟨form, rfl⟩ := Flag.ofArgument?_eq_some.mp found
      cases takes : flag.takesValue with
      | false =>
        obtain ⟨items, last, answer, rfl, ends⟩ := exists_items rest
        exact ⟨.switch flag form takes :: items, last, answer, rfl, ends⟩
      | true =>
        match rest with
        | [] => exact ⟨[], _, _, rfl, .lacking form takes⟩
        | value :: rest =>
          obtain ⟨items, last, answer, rfl, ends⟩ := exists_items rest
          exact ⟨.valued flag form takes value :: items, last, answer, rfl, ends⟩
termination_by args.length

theorem written_injective {flag other : Flag} {form form' : Form}
    (same : flag.written form = other.written form') : flag = other ∧ form = form' := by
  have found := Flag.ofArgument?_written flag form
  rw [same, Flag.ofArgument?_written] at found
  obtain rfl := Option.some.inj found
  refine ⟨rfl, ?_⟩
  revert same
  cases other <;> cases form <;> cases form' <;> decide

/-- An item is told from the arguments that begin with it. -/
theorem words_append_inj {item other : Item} (same : item.words ++ rest = other.words ++ later) :
    item = other ∧ rest = later := by
  cases item with
  | switch flag form bare =>
    cases other with
    | switch =>
      obtain ⟨first, rfl⟩ := List.cons.inj same
      obtain ⟨rfl, rfl⟩ := written_injective first
      exact ⟨rfl, rfl⟩
    | valued _ _ takes =>
      obtain ⟨rfl, -⟩ := written_injective (List.cons.inj same).1
      rw [bare] at takes
      cases takes
  | valued flag form takes =>
    cases other with
    | switch _ _ bare =>
      obtain ⟨rfl, -⟩ := written_injective (List.cons.inj same).1
      rw [bare] at takes
      cases takes
    | valued =>
      obtain ⟨first, others⟩ := List.cons.inj same
      obtain ⟨rfl, rfl⟩ := written_injective first
      obtain ⟨rfl, rfl⟩ := List.cons.inj others
      exact ⟨rfl, rfl⟩

theorem not_item_of_ends (ends : Ends rest answer) (item : Item) (later : List Text) :
    rest ≠ item.words ++ later := by
  intro same
  cases ends with
  | whole => cases item <;> cases same
  | lacking form takes =>
    cases item with
    | switch flag _ bare =>
      obtain ⟨rfl, -⟩ := written_injective (List.cons.inj same).1
      rw [bare] at takes
      cases takes
    | valued => cases (List.cons.inj same).2
  | unknown foreign rest =>
    cases item with
    | switch flag form => exact foreign flag form (List.cons.inj same).1
    | valued flag form => exact foreign flag form (List.cons.inj same).1

/-- Whatever items can be read off the front of the arguments, they are the first of these. -/
theorem prefix_of_ends (ends : Ends rest answer)
    (same : spelled items ++ rest = spelled others ++ later) : others <+: items := by
  induction others generalizing items with
  | nil => exact List.nil_prefix
  | cons other others ih =>
    rw [spelled_cons, List.append_assoc] at same
    cases items with
    | nil => exact absurd same (not_item_of_ends ends other _)
    | cons item items =>
      rw [spelled_cons, List.append_assoc] at same
      obtain ⟨rfl, further⟩ := words_append_inj same
      exact List.cons_prefix_cons.mpr ⟨rfl, ih further⟩

/-! The reader on items, and at their end. -/

theorem parse_item (flags : Flags) (item : Item) (rest : List Text) :
    flags.parse (item.words ++ rest) = (item.give flags).parse rest := by
  cases item with
  | switch flag form bare =>
    simp only [Item.words, List.cons_append, List.nil_append, Flags.parse,
      Flag.ofArgument?_written, bare, Bool.false_eq_true, if_false]
    rfl
  | valued flag form takes value =>
    simp only [Item.words, List.cons_append, List.nil_append, Flags.parse,
      Flag.ofArgument?_written, takes, if_true]
    rfl

theorem parse_items (flags : Flags) (items : List Item) (rest : List Text) :
    flags.parse (spelled items ++ rest) = (items.foldl Item.give flags).parse rest := by
  induction items generalizing flags with
  | nil => rfl
  | cons item items ih =>
    rw [spelled_cons, List.append_assoc, parse_item, ih, List.foldl_cons]

theorem parse_ends (flags : Flags) (ends : Ends rest answer) :
    (flags.parse rest).1.mapError FlagError.message = answer ∧ (flags.parse rest).2 = flags := by
  cases ends with
  | whole => exact ⟨rfl, rfl⟩
  | lacking form takes => simp [Flags.parse, Flag.ofArgument?_written, takes]; rfl
  | unknown foreign rest =>
    simp [Flags.parse, Flag.ofArgument?_eq_none.mpr foreign]; rfl

theorem value?_give (flags : Flags) (item : Item) (flag : Flag) :
    (item.give flags).value? flag = (item.value? flag).or (flags.value? flag) := by
  rw [Item.give, Flags.value?_setValue, Item.value?]
  split <;> rfl

theorem value?_items (flags : Flags) (items : List Item) (flag : Flag) :
    (items.foldl Item.give flags).value? flag =
      (lastValue? items flag).or (flags.value? flag) := by
  induction items generalizing flags with
  | nil => rfl
  | cons item items ih =>
    rw [List.foldl_cons, ih, value?_give, lastValue?, lastValue?, List.filterMap_cons]
    cases item.value? flag with
    | none => rfl
    | some value =>
      rw [List.getLast?_cons]
      cases (items.filterMap (Item.value? flag)).getLast? <;> rfl

theorem parse_spelled (flags : Flags) (items : List Item) :
    flags.parse (spelled items) = (.ok (), items.foldl Item.give flags) := by
  rw [← List.append_nil (spelled items), parse_items]
  rfl

/-- Arguments are read without an error just when they are items. -/
theorem parse_eq_ok_iff (flags : Flags) (args : List Text) :
    (flags.parse args).1 = .ok () ↔ ∃ items, args = spelled items := by
  constructor
  · intro read
    obtain ⟨items, rest, answer, rfl, ends⟩ := exists_items args
    rw [parse_items] at read
    obtain ⟨told, -⟩ := parse_ends (items.foldl Item.give flags) ends
    rw [read] at told
    cases ends with
    | whole => exact ⟨items, List.append_nil _⟩
    | lacking => cases told
    | unknown => cases told
  · rintro ⟨items, rfl⟩
    rw [parse_spelled]

/-- The reader takes as many whole items as stand at the front of the arguments. Each option has
then the value that the last of them gives it, and any other option the value it had; what is said
of the rest goes by how it begins. So arguments are read without an error just when they are items,
and then those behind them are read as if they were alone. -/
theorem parse_grammatical (flags : Flags) (args : List Text) :
    (∃ items rest, args = spelled items ++ rest ∧
      (∀ others later, args = spelled others ++ later → others <+: items) ∧
      (∀ flag, (flags.parse args).2.value? flag =
        (lastValue? items flag).or (flags.value? flag)) ∧
      Ends rest ((flags.parse args).1.mapError FlagError.message)) ∧
    ((flags.parse args).1 = .ok () ↔ ∃ items, args = spelled items) ∧
    ∀ later, (flags.parse args).1 = .ok () →
      flags.parse (args ++ later) = (flags.parse args).2.parse later := by
  refine ⟨?_, parse_eq_ok_iff flags args, fun later read => ?_⟩
  · obtain ⟨items, rest, answer, rfl, ends⟩ := exists_items args
    obtain ⟨told, kept⟩ := parse_ends (items.foldl Item.give flags) ends
    refine ⟨items, rest, rfl, fun others later => prefix_of_ends ends, fun flag => ?_, ?_⟩
    · rw [parse_items, kept, value?_items]
    · rw [parse_items, told]
      exact ends
  · obtain ⟨items, rfl⟩ := (parse_eq_ok_iff flags args).mp read
    rw [parse_items, parse_spelled]

/-- A value may look like an option, the last value counts, and what is read before an error
stays. -/
theorem parse_grammatical_repeated :
    let args := ["-c", "-q", "--config", "-c"].map String.toList
    let later := ["-d", "-x", "-h"].map String.toList
    (Flags.parse {} args).1 = .ok () ∧
      Flags.parse {} (args ++ later) = (Flags.parse {} args).2.parse later ∧
      Flags.parse {} (args ++ later) = (.error (.unknown "-x".toList),
        { config := some "-c".toList, debug := some "true".toList }) := by
  intro args later
  have read : (Flags.parse {} args).1 = .ok () := by decide +kernel
  obtain ⟨-, -, apart⟩ := parse_grammatical {} args
  exact ⟨read, apart later read, by decide +kernel⟩

end OptionGrammar
end LineShell
