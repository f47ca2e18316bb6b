import LineShell.Proofs.EnteredLines
import LineShell.Proofs.Failures
import LineShell.Proofs.ReferenceReading
import LineShell.Proofs.VariableHistory

/-! Lines of assignments. A line that may be one, a single command with no files and not in the
background, is taken as a whole: when each of its words assigns a value to a name, the assignments
are made one after the other and that is all it does; when one word does not, it is a command, and
none of the words before that one is assigned (`assigns_all_or_nothing`). A word that the line takes
as an assignment is never refused when it is made (`foldlM_setLocal`). -/

namespace LineShell

open Act Variables

/-- The word that assigns a value to a name. -/
def assignmentWord (a : Text × Text) : Text := a.1 ++ '=' :: a.2

theorem assignment?_eq_some_iff {word : Text} {a : Text × Text} :
    assignment? word = some a ↔ word = assignmentWord a ∧ isIdentifier a.1 = true := by
  obtain ⟨name, value⟩ := a
  rw [assignment?, Option.filter_eq_some_iff]
  constructor
  · rintro ⟨cut, named⟩
    exact ⟨(cut?_eq_some cut).1, named⟩
  · rintro ⟨rfl, named⟩
    exact ⟨Expansion.cut?_append (Expansion.not_mem_of_isIdentifier named (by decide)) value, named⟩

theorem mapM_assignment?_eq_some_iff {words : List Text} {assignments : List (Text × Text)} :
    words.mapM assignment? = some assignments ↔
      words = assignments.map assignmentWord ∧ ∀ a ∈ assignments, isIdentifier a.1 = true := by
  induction words generalizing assignments with
  | nil => cases assignments <;> simp
  | cons word rest ih =>
    simp only [List.mapM_cons, Option.bind_eq_bind, Option.bind_eq_some_iff, ih,
      assignment?_eq_some_iff]
    constructor
    · rintro ⟨a, ⟨rfl, named⟩, others, ⟨rfl, all⟩, made⟩
      obtain rfl := Option.some.inj made
      exact ⟨rfl, List.forall_mem_cons.mpr ⟨named, all⟩⟩
    · rintro ⟨written, all⟩
      cases assignments with
      | nil => cases written
      | cons a others =>
        obtain ⟨rfl, rfl⟩ := List.cons.inj written
        obtain ⟨named, all⟩ := List.forall_mem_cons.mp all
        exact ⟨a, ⟨rfl, named⟩, others, ⟨rfl, all⟩, rfl⟩

theorem mapM_assignment?_eq_none {words : List Text} (none_made : words.mapM assignment? = none) :
    ∃ word ∈ words, ∀ a, isIdentifier a.1 = true → word ≠ assignmentWord a := by
  induction words with
  | nil => cases none_made
  | cons word rest ih =>
    rw [List.mapM_cons] at none_made
    cases first : assignment? word with
    | none =>
      refine ⟨word, List.mem_cons_self, fun a named same => ?_⟩
      rw [assignment?_eq_some_iff.mpr ⟨same, named⟩] at first
      cases first
    | some a =>
      cases others : rest.mapM assignment? with
      | none =>
        obtain ⟨other, there, no_assignment⟩ := ih others
        exact ⟨other, List.mem_cons_of_mem _ there, no_assignment⟩
      | some as =>
        rw [first, others] at none_made
        cases none_made

/-! Making the assignments. -/

/-- The value of the last assignment to a name, if there is one. -/
def lastValue? (assignments : List (Text × Text)) (name : Text) : Option Text :=
  ((assignments.filter fun a => a.1 = name).getLast?).map Prod.snd

theorem lastValue?_of_last {front back : List (Text × Text)} {name : Text} (value : Text)
    (last : name ∉ back.map Prod.fst) :
    lastValue? (front ++ (name, value) :: back) name = some value := by
  have later : back.filter (fun a => a.1 = name) = [] := by
    refine List.filter_eq_nil_iff.mpr fun a there => ?_
    simpa using fun same => last (List.mem_map.mpr ⟨a, there, same⟩)
  simp [lastValue?, List.filter_append, later]

theorem exists_last {assignments : List (Text × Text)} {name : Text}
    (there : name ∈ assignments.map Prod.fst) : ∃ front value back,
      assignments = front ++ (name, value) :: back ∧ name ∉ back.map Prod.fst := by
  induction assignments with
  | nil => cases there
  | cons a rest ih =>
    by_cases later : name ∈ rest.map Prod.fst
    · obtain ⟨front, value, back, rfl, last⟩ := ih later
      exact ⟨a :: front, value, back, rfl, last⟩
    · obtain rfl : name = a.1 := by simpa [later] using there
      exact ⟨[], a.2, rest, rfl, later⟩

/-- The variables after assignments that have all been made. -/
theorem view_assignments {assignments : List (Text × Text)} {vars : Variables}
    (done : (callAll (assignmentCalls assignments) vars).1 = .ok ()) (name : Text) :
    (callAll (assignmentCalls assignments) vars).2.view name =
      match lastValue? assignments name with
      | some value => (vars.view name).assigned value
      | none => vars.view name := by
  by_cases there : name ∈ assignments.map Prod.fst
  · obtain ⟨front, value, back, rfl, last⟩ := exists_last there
    rw [view_assigned last done, lastValue?_of_last value last]
  · have names : (assignmentCalls assignments).map Call.name = assignments.map Prod.fst := by
      rw [assignmentCalls, List.map_map]
      rfl
    have absent : assignments.filter (fun a => a.1 = name) = [] := by
      refine List.filter_eq_nil_iff.mpr fun a known => ?_
      simpa using fun same => there (List.mem_map.mpr ⟨a, known, same⟩)
    rw [view_callAll_of_notMem (names ▸ there), lastValue?, absent]
    rfl

/-- An assignment that the line lets through is let through by the table too. -/
theorem carryOut_setLocal {a : Text × Text} (named : isIdentifier a.1 = true)
    (clean : '\x00' ∉ a.2) (vars : Variables) :
    vars.setLocal a.1 a.2 = .ok ((Call.setLocal a.1 a.2).carryOut vars).2 ∧
      ((Call.setLocal a.1 a.2).carryOut vars).1 = .ok () := by
  rw [Call.carryOut, Call.apply, setLocal_of_identifier named, if_neg clean]
  split <;> simp

theorem foldlM_setLocal {assignments : List (Text × Text)}
    (named : ∀ a ∈ assignments, isIdentifier a.1 = true)
    (clean : ∀ a ∈ assignments, '\x00' ∉ a.2) (vars : Variables) :
    assignments.foldlM (fun vars a => vars.setLocal a.1 a.2) vars =
        .ok (callAll (assignmentCalls assignments) vars).2 ∧
      (callAll (assignmentCalls assignments) vars).1 = .ok () := by
  induction assignments generalizing vars with
  | nil => exact ⟨rfl, rfl⟩
  | cons a rest ih =>
    obtain ⟨first, answer⟩ :=
      carryOut_setLocal (named a List.mem_cons_self) (clean a List.mem_cons_self) vars
    have later := ih (fun b there => named b (List.mem_cons_of_mem _ there))
      (fun b there => clean b (List.mem_cons_of_mem _ there))
      ((Call.setLocal a.1 a.2).carryOut vars).2
    have made : callAll (assignmentCalls (a :: rest)) vars =
        callAll (assignmentCalls rest) ((Call.setLocal a.1 a.2).carryOut vars).2 := by
      show callAll (.setLocal a.1 a.2 :: assignmentCalls rest) vars = _
      rw [callAll]
      rcases carried : (Call.setLocal a.1 a.2).carryOut vars with ⟨_, after⟩
      rw [carried] at answer
      obtain rfl : _ = Except.ok () := answer
      rfl
    rw [List.foldlM_cons, first, made]
    exact later

/-! Running the line. -/

section

variable (quiet : Bool) {world : World} {line : Text} {p : Pipeline}

/-- A single command with no files that is not in the background. -/
structure Pipeline.IsSimple (p : Pipeline) : Prop where
  one : p.right = none
  foreground : p.background = false
  fileless : p.left.redirections.isEmpty = true

theorem assignments?_of_simple (simple : p.IsSimple) :
    p.assignments? = p.left.args.mapM assignment? := by
  rw [Pipeline.assignments?, Pipeline.isPipeline, simple.one, simple.foreground, simple.fileless]
  rfl

/-- Nothing that is not an assignment fails as one. -/
theorem failsOnly_runPipeline (p : Pipeline) :
    (runPipeline quiet p).FailsOnly fun e =>
      ∀ cause, e ≠ .error (.builtin "assignment".toList cause) := by
  have reworded {ε α : Type} {f : ε → ShellError}
      (other : ∀ e cause, f e ≠ .builtin "assignment".toList cause) (act : Act ε α) :
      (act.mapError f).FailsOnly fun e =>
        ∀ cause, e ≠ .error (.builtin "assignment".toList cause) := by
    refine .mapError fun _ e _ cause same => ?_
    cases e with
    | error e => exact other e cause (Failure.error.inj same)
    | crash => cases same
  have builtins (b : Builtin) : b.name ≠ "assignment".toList := by cases b <;> decide
  have runs (b : Builtin) (stage : Stage) : (runBuiltin b stage).FailsOnly fun e =>
      ∀ cause, e ≠ .error (.builtin "assignment".toList cause) := by
    rw [runBuiltin]
    refine .bind (reworded (by simp) _) fun _ => .bind .get fun _ => .ensuring ?_ _
    refine failsOnly_runOutput (by simp) ?_
    exact reworded (fun e cause same => builtins b (ShellError.builtin.inj same).1) _
  rw [runPipeline]
  split
  · have joined (right : Stage) : (do
        let _ ← (runPipe p.left right).mapError ShellError.process
        return .proceed : Act ShellError Verdict).FailsOnly fun e =>
          ∀ cause, e ≠ .error (.builtin "assignment".toList cause) :=
      .bind (reworded (by simp) _) fun _ => .pure _
    dsimp only
    split
    · exact .bind (failsOnly_tell (by simp) _) fun _ => joined _
    · exact joined _
  · split
    · exact runs _ _
    · exact .bind (reworded (by simp) _) fun _ => .pure _

theorem outcome_runLine_of_words {assignments : List (Text × Text)}
    (read : world.read? line = some (.ok (some p))) (simple : p.IsSimple)
    (written : p.left.args = assignments.map assignmentWord)
    (named : ∀ a ∈ assignments, isIdentifier a.1 = true)
    (clean : ∀ a ∈ assignments, '\x00' ∉ a.2) :
    (runLine quiet line).outcome world = (.ok .proceed,
      world.withVars (callAll (assignmentCalls assignments) world.session.vars).2) := by
  have assigns : p.assignments? = some assignments := by
    rw [assignments?_of_simple simple]
    exact mapM_assignment?_eq_some_iff.mpr ⟨written, named⟩
  obtain ⟨-, answer⟩ := foldlM_setLocal named clean world.session.vars
  rw [outcome_runLine_of_assignments quiet read assigns, outcome_assign, answer]
  rfl

/-- A command leaves the variables alone unless it is a builtin that is there to change them. -/
theorem vars_runPipeline (read : world.read? line = some (.ok (some p)))
    (other : p.assignments? = none)
    (harmless : ∀ b, Builtin.lookup? p.left.program = some b →
      b ≠ .cd ∧ b ≠ .setExport ∧ b ≠ .unset) :
    ((runLine quiet line).outcome world).2.session.vars = world.session.vars := by
  have idle : world.demand line = .nothing := by
    rw [World.demand, read]
    show p.demand = .nothing
    rw [Pipeline.demand, other]
    cases p.right with
    | some right => rfl
    | none =>
      cases program : Builtin.lookup? p.left.program with
      | none => rfl
      | some b =>
        obtain ⟨cd, setExport, unset⟩ := harmless b program
        cases b <;> first | rfl | contradiction
  have meets : (world.demand line).Meets world ((runLine quiet line).outcome world).2 :=
    meets_runLine quiet
  rw [idle] at meets
  exact congrArg (·.1.vars) meets

end

/-- A line that is a single command, with no files and not in the background, is all assignments or
none. If each of its words is one, then the assignments are made in order and nothing else is done:
each name has the value of its last assignment, in the environment too if it was exported, and every
other name stands as it was. If some word is none, then the line is run as a command in the world as
it was, and no variable changes for it unless the command is a builtin that is there to change
variables, whose name is no assignment. And an assignment is never what is refused. -/
theorem assigns_all_or_nothing (quiet : Bool) {world : World} {line : Text} {p : Pipeline}
    (read : world.read? line = some (.ok (some p))) (simple : p.IsSimple)
    (clean : ∀ word ∈ p.left.args, ∀ a, isIdentifier a.1 = true → word = assignmentWord a →
      '\x00' ∉ a.2) :
    let came := (runLine quiet line).outcome world
    ((∃ assignments vars, p.left.args = assignments.map assignmentWord ∧
        (∀ a ∈ assignments, isIdentifier a.1 = true) ∧
        assignments.foldlM (fun vars a => vars.setLocal a.1 a.2) world.session.vars = .ok vars ∧
        came = (.ok .proceed, world.withVars vars) ∧
        ∀ name, vars.view name =
          match lastValue? assignments name with
          | some value => (world.session.vars.view name).assigned value
          | none => world.session.vars.view name) ∨
      (∃ word ∈ p.left.args, ∀ a, isIdentifier a.1 = true → word ≠ assignmentWord a) ∧
        came = (runPipeline quiet p).outcome world ∧
        ((∀ b, Builtin.lookup? p.left.program = some b →
            b ≠ .cd ∧ b ≠ .setExport ∧ b ≠ .unset) →
          came.2.session.vars = world.session.vars) ∧
        ∀ a, isIdentifier a.1 = true → p.left.program = assignmentWord a →
          Builtin.lookup? p.left.program = none ∧ came.2.session.vars = world.session.vars) ∧
    ∀ cause, came.1 ≠ .error (.error (.builtin "assignment".toList cause)) := by
  intro came
  cases made : p.left.args.mapM assignment? with
  | some assignments =>
    obtain ⟨written, named⟩ := mapM_assignment?_eq_some_iff.mp made
    have storable : ∀ a ∈ assignments, '\x00' ∉ a.2 := fun a there =>
      clean _ (written ▸ List.mem_map_of_mem there) a (named a there) rfl
    obtain ⟨folded, answer⟩ := foldlM_setLocal named storable world.session.vars
    have ran : came = _ := outcome_runLine_of_words quiet read simple written named storable
    refine ⟨.inl ⟨assignments, _, written, named, folded, ran, view_assignments answer⟩,
      fun cause failed => ?_⟩
    rw [ran] at failed
    cases failed
  | none =>
    have other : p.assignments? = none := (assignments?_of_simple simple).trans made
    have ran : came = _ := outcome_runLine_of_command quiet read other
    refine ⟨.inr ⟨mapM_assignment?_eq_none made, ran, vars_runPipeline quiet read other,
      fun a named program => ?_⟩, fun cause failed => ?_⟩
    · have external : Builtin.lookup? p.left.program = none := by
        cases found : Builtin.lookup? p.left.program with
        | none => rfl
        | some b =>
          have assigned := assignment?_eq_some_iff.mpr ⟨program, named⟩
          rw [Builtin.not_assignment_of_lookup? found] at assigned
          cases assigned
      exact ⟨external, vars_runPipeline quiet read other (by simp [external])⟩
    · rw [ran] at failed
      exact failsOnly_runPipeline quiet p world _ failed cause rfl

/-- The second of two values stands in both stores, and a value may hold the sign itself. -/
theorem assigns_all_or_nothing_exported :
    let world := (shellWith []).after true (typed ["export A=0"])
    let line := "A=1 A=2 B=x=y".toList
    let p : Pipeline := { left := { args := ["A=1".toList, "A=2".toList, "B=x=y".toList] } }
    world.read? line = some (.ok (some p)) ∧ p.IsSimple ∧
      (∀ word ∈ p.left.args, ∀ a, isIdentifier a.1 = true → word = assignmentWord a →
        '\x00' ∉ a.2) ∧
      ∃ vars, (runLine true line).outcome world = (.ok .proceed, world.withVars vars) ∧
        vars.view "A".toList = ⟨some ⟨"2".toList, true⟩, some "2".toList⟩ ∧
        vars.view "B".toList = ⟨some ⟨"x=y".toList, false⟩, none⟩ := by
  intro world line p
  have read : world.read? line = some (.ok (some p)) := by decide +kernel
  have simple : p.IsSimple := ⟨rfl, rfl, rfl⟩
  have clean : ∀ word ∈ p.left.args, ∀ a, isIdentifier a.1 = true → word = assignmentWord a →
      '\x00' ∉ a.2 := by
    have no_nul : ∀ word ∈ p.left.args, '\x00' ∉ word := by decide +kernel
    rintro word there a - rfl nul
    exact no_nul _ there (List.mem_append_right _ (List.mem_cons_of_mem _ nul))
  have made : p.left.args.mapM assignment? = some [("A".toList, "1".toList),
      ("A".toList, "2".toList), ("B".toList, "x=y".toList)] := by decide +kernel
  rcases assigns_all_or_nothing true read simple clean with
    ⟨⟨assignments, vars, written, named, -, ran, views⟩ | ⟨⟨word, there, other⟩, -⟩, -⟩
  · have given := mapM_assignment?_eq_some_iff.mpr ⟨written, named⟩
    obtain rfl := Option.some.inj (made.symm.trans given)
    refine ⟨read, simple, clean, vars, ran, (views _).trans ?_, (views _).trans ?_⟩ <;>
      decide +kernel
  · obtain ⟨written, named⟩ := mapM_assignment?_eq_some_iff.mp made
    rw [written] at there
    obtain ⟨a, known, rfl⟩ := List.mem_map.mp there
    exact absurd rfl (other a (named a known))

end LineShell
