import LineShell.Proofs.History
import LineShell.Proofs.LineEffects

/-! The variables of a shell along its history. What the calls on a name keep of its view, a whole
history keeps, except that `cd` writes two names past the table. From this come the two accounts of
the module: when an exported variable has its value in the environment, and what is read back after
an assignment. -/

namespace LineShell

open Act Variables

/-! What a history keeps of one name. -/

variable {quiet : Bool} {start before world : World} {line name value : Text}

theorem Happening.vars_step (h : Happening) (before : World) :
    (h.step quiet before).session.vars = before.session.vars ∨
    (∃ made, (h.step quiet before).session.vars = (callAll made before.session.vars).2) ∨
    ∃ line, h = .line line ∧ before.demand line = .directory := by
  cases h with
  | meanwhile there => exact .inl rfl
  | line line =>
    have meets : (before.demand line).Meets before ((Happening.line line).step quiet before) :=
      meets_runLine quiet
    cases asked : before.demand line with
    | nothing =>
      rw [asked] at meets
      exact .inl (congrArg (·.1.vars) meets)
    | calls made =>
      rw [asked] at meets
      rcases meets with same | called
      · exact .inl (congrArg (·.1.vars) same)
      · exact .inr (.inl ⟨made, congrArg (·.1.vars) called⟩)
    | directory => exact .inr (.inr ⟨line, rfl, asked⟩)

/-- The names that `cd` writes to the environment. -/
def IsDirectoryName (name : Text) : Prop := name = "PWD".toList ∨ name = "OLDPWD".toList

theorem view_of_directory (quiet : Bool) (asked : before.demand line = .directory) (name : Text) :
    let after := (Happening.line line).step quiet before
    (after.session.vars.view name).entry = (before.session.vars.view name).entry ∧
      (¬ IsDirectoryName name → after.session.vars.view name = before.session.vars.view name) := by
  intro after
  have confined : (before.demand line).Confines before after := (meets_runLine quiet).confines
  rw [asked] at confined
  obtain ⟨-, table, environment⟩ := confined
  have entry : (after.session.vars.view name).entry = (before.session.vars.view name).entry :=
    congrArg (·.get? name) table
  refine ⟨entry, fun other => ?_⟩
  obtain ⟨pwd, oldpwd⟩ := not_or.mp other
  exact View.ext entry (environment name pwd oldpwd)

/-- What the calls on a name keep of its view the whole history keeps, if it does not depend on what
`cd` may write. -/
theorem after_keeps {P : View → Prop} (history : List Happening)
    (called : ∀ c : Call, c.name = name → ∀ v w, P v → c.onView v = .ok w → P w)
    (written : IsDirectoryName name → ∀ v inherited, P v → P ⟨v.entry, inherited⟩)
    (first : P (start.session.vars.view name)) :
    P ((start.after quiet history).session.vars.view name) := by
  induction history using List.reverseRecOn with
  | nil => exact first
  | append_singleton history h ih =>
    rw [after_concat]
    generalize start.after quiet history = before at ih
    rcases h.vars_step before with same | ⟨made, all⟩ | ⟨line, rfl, asked⟩
    · rwa [same]
    · rw [all]
      exact callAll_keeps ih fun c _ => called c
    · obtain ⟨entry, other⟩ := view_of_directory quiet asked name
      by_cases directory : IsDirectoryName name
      · have wrote := written directory _
          (((Happening.line line).step quiet before).session.vars.view name).inherited ih
        rwa [← entry] at wrote
      · rwa [other directory]

/-- A `cd` of the history has written a value to the environment which the table does not hold, and
after that nothing has happened to the name. -/
def Overwritten (quiet : Bool) (start : World) (history : List Happening) (name : Text) : Prop :=
  ∃ earlier line later, history = earlier ++ .line line :: later ∧
    let before := start.after quiet earlier
    let written := (Happening.line line).step quiet before
    before.demand line = .directory ∧
      written.environment.get? name ≠ before.environment.get? name ∧
      ¬ (written.session.vars.view name).Mirrored ∧
      ∀ part, part <+: later →
        (written.after quiet part).session.vars.view name = written.session.vars.view name

namespace Overwritten

variable {history : List Happening}

theorem concat (overwritten : Overwritten quiet start history name) {h : Happening}
    (passes : (start.after quiet (history ++ [h])).session.vars.view name =
      (start.after quiet history).session.vars.view name) :
    Overwritten quiet start (history ++ [h]) name := by
  obtain ⟨earlier, line, later, rfl, asked, wrote, apart, kept⟩ := overwritten
  refine ⟨earlier, line, later ++ [h], by simp, asked, wrote, apart, fun part within => ?_⟩
  rcases List.prefix_concat_iff.mp within with rfl | before
  · rw [List.append_assoc, after_append start earlier, after_append start earlier] at passes
    exact passes.trans (kept later (List.prefix_refl later))
  · exact kept part before

theorem not_mirrored (overwritten : Overwritten quiet start history name) :
    ¬ ((start.after quiet history).session.vars.view name).Mirrored := by
  obtain ⟨earlier, line, later, rfl, -, -, apart, kept⟩ := overwritten
  have same := kept later (List.prefix_refl later)
  rw [after_append]
  exact same ▸ apart

theorem isDirectoryName (overwritten : Overwritten quiet start history name) :
    IsDirectoryName name := by
  obtain ⟨earlier, line, later, -, asked, wrote, -⟩ := overwritten
  by_contra other
  exact wrote (congrArg View.inherited ((view_of_directory quiet asked name).2 other))

end Overwritten

theorem mirrored_or_overwritten (first : (start.session.vars.view name).Mirrored)
    (history : List Happening) :
    ((start.after quiet history).session.vars.view name).Mirrored ∨
      Overwritten quiet start history name := by
  induction history using List.reverseRecOn with
  | nil => exact .inl first
  | append_singleton history h ih =>
    have pass (same : (start.after quiet (history ++ [h])).session.vars.view name =
        (start.after quiet history).session.vars.view name) :
        ((start.after quiet (history ++ [h])).session.vars.view name).Mirrored ∨
          Overwritten quiet start (history ++ [h]) name :=
      ih.imp (fun mirrored => same ▸ mirrored) fun overwritten => overwritten.concat same
    have last : start.after quiet (history ++ [h]) = h.step quiet (start.after quiet history) :=
      after_concat ..
    rcases h.vars_step (start.after quiet history) with same | ⟨made, all⟩ | ⟨line, rfl, asked⟩
    · exact pass (by rw [last, same])
    · -- the last call on the name mirrors it, whatever it was before
      have kept : (start.after quiet (history ++ [h])).session.vars.view name =
          (start.after quiet history).session.vars.view name ∨
            ((start.after quiet (history ++ [h])).session.vars.view name).Mirrored := by
        rw [last, all]
        exact callAll_keeps (P := fun v => v = (start.after quiet history).session.vars.view name ∨
          v.Mirrored) (.inl rfl) fun c _ _ v w _ seen => .inr (Call.mirrored_onView seen)
      exact kept.elim pass .inl
    · obtain ⟨entry, -⟩ := view_of_directory quiet asked name
      rw [← last] at entry
      -- a `cd` may also write what the environment holds already, or what the table holds
      by_cases wrote : (start.after quiet (history ++ [.line line])).environment.get? name =
          (start.after quiet history).environment.get? name
      · exact pass (View.ext entry wrote)
      · by_cases mirrored :
            ((start.after quiet (history ++ [.line line])).session.vars.view name).Mirrored
        · exact .inl mirrored
        · rw [last] at wrote mirrored
          refine .inr ⟨history, line, [], rfl, asked, wrote, mirrored, fun part within => ?_⟩
          rw [List.prefix_nil.mp within]
          rfl

/-! What is exported, and a bare `export` of it. -/

theorem Table.insert_eq_self_iff {κ α : Type} [DecidableEq κ] {t : Table κ α} {key : κ} {value : α} :
    t.insert key value = t ↔ t.get? key = some value := by
  constructor
  · intro same
    rw [← same, Table.get?_insert, if_pos rfl]
  · obtain ⟨entries, nodup⟩ := t
    simp only [Table.insert, Table.get?, Table.mk.injEq]
    clear nodup
    induction entries with
    | nil => simp
    | cons entry rest ih => by_cases own : entry.1 = key <;> grind [Table.put]

theorem Variables.View.mirrored_iff {v : View} (exported : v.entry = some ⟨value, true⟩) :
    v.Mirrored ↔ v.inherited = some value := by
  simp [View.Mirrored, exported]

theorem cut?_of_isIdentifier (named : isIdentifier name) : cut? '=' name = none := by
  rw [cut?_eq_none]
  have start : isNameStart '=' = false := by decide
  have other : isNameChar '=' = false := by decide
  cases name with
  | nil => simp
  | cons c rest => grind [isIdentifier]

theorem storable_of_exported (fresh : start.session.vars.table = ∅) {history : List Happening}
    (exported : (start.after quiet history).session.vars.table.get? name = some ⟨value, true⟩) :
    isIdentifier name ∧ '\x00' ∉ value := by
  refine after_keeps (P := fun v => ∀ value, v.entry = some ⟨value, true⟩ →
    isIdentifier name ∧ '\x00' ∉ value) history ?_ (fun _ v inherited kept => kept) ?_ value exported
  · rintro c rfl v w - seen value entry
    exact Call.storable_of_onView seen entry
  · simp [Variables.view, fresh]

def exporting (name : Text) : Pipeline := { left := { args := ["export".toList, name] } }

/-- `export` makes a call for each operand, up to the first that is refused. -/
theorem outcome_runLine_of_export {operands : List Text}
    (read : world.read? line =
      some (.ok (some { left := { args := "export".toList :: operands } }))) :
    (runLine quiet line).outcome world =
      (runOutput .setExport (world.output {}) ("export".toList :: operands)).outcome world := by
  have other : Pipeline.assignments? { left := { args := "export".toList :: operands } } = none := by
    have command : assignment? "export".toList = none := by decide
    show List.mapM assignment? ("export".toList :: operands) = none
    rw [List.mapM_cons, command]
    rfl
  have builtin : Builtin.lookup? (Stage.program { args := "export".toList :: operands }) =
      some .setExport := by
    show Builtin.lookup? "export".toList = _
    decide
  rw [outcome_runLine_of_command quiet read other, runPipeline_of_builtin quiet rfl builtin]
  rfl

theorem vars_runLine_of_exporting (named : isIdentifier name)
    (read : world.read? line = some (.ok (some (exporting name)))) :
    ((runLine quiet line).outcome world).2.session.vars =
      ((Call.markExported name).carryOut world.session.vars).2 := by
  have only : Call.ofOperand name = .markExported name := by
    rw [Call.ofOperand, cut?_of_isIdentifier named]
  let args := ["export".toList, name]
  have called : (Builtin.runExport (world.output {}) args).outcome world = _ :=
    Builtin.outcome_runExport (world.output {}) world (by simp [args])
  have wrote : ((runOutput .setExport (world.output {}) args).outcome world).2.own =
      ((Builtin.setExport.run (world.output {}) args).outcome world).2.own := wrote_runOutput.own
  rw [Builtin.run, called] at wrote
  rw [outcome_runLine_of_export read]
  refine (congrArg (fun own => own.1.vars) wrote).trans ?_
  show (callAll [Call.ofOperand name] world.session.vars).2 = _
  rw [only, callAll]
  rcases (Call.markExported name).carryOut world.session.vars with ⟨_ | ⟨⟩, vars⟩ <;> rfl

/-- In every state that a shell comes to, what the table exports stands in the environment, unless
a `cd` has come last and written over it; just then a bare `export` changes the environment. -/
theorem mirrored_iff_not_overwritten (fresh : start.session.vars.table = ∅)
    (history : List Happening)
    (exported : (start.after quiet history).session.vars.table.get? name = some ⟨value, true⟩) :
    let world := start.after quiet history
    (world.environment.get? name = some value ↔ ¬ Overwritten quiet start history name) ∧
    (Overwritten quiet start history name → IsDirectoryName name) ∧
    ∀ line, world.read? line = some (.ok (some (exporting name))) →
      (((runLine quiet line).outcome world).2.environment = world.environment ↔
        ¬ Overwritten quiet start history name) := by
  intro world
  have mirrored : world.environment.get? name = some value ↔
      ¬ Overwritten quiet start history name := by
    have first : (start.session.vars.view name).Mirrored := by
      simp [Variables.view, View.Mirrored, fresh]
    rw [← not_iff_not, not_not]
    refine ⟨fun apart => ?_, fun overwritten same => ?_⟩
    · exact (mirrored_or_overwritten first history).resolve_left fun mirrored =>
        apart ((View.mirrored_iff exported).mp mirrored)
    · exact overwritten.not_mirrored ((View.mirrored_iff exported).mpr same)
  refine ⟨mirrored, Overwritten.isDirectoryName, fun line read => ?_⟩
  obtain ⟨named, clean⟩ := storable_of_exported fresh exported
  have carried : (Call.markExported name).apply world.session.vars =
      .ok ⟨world.session.vars.table.insert name ⟨value, true⟩,
        world.environment.insert name value⟩ := by
    rw [Call.apply, markExported_of_identifier named, exported]
    exact if_neg clean
  rw [← mirrored, ← Table.insert_eq_self_iff, World.environment,
    vars_runLine_of_exporting named read, Call.carryOut, carried]

/-- A shell in the root of an empty tree, with the environment it was started with. -/
def shellWith (environment : List (String × String)) : World :=
  { session := { vars := { environment := .ofList (environment.map fun e => (e.1.toList, e.2.toList)) } }
    place := .root, descriptors := ∅, machine := { root := .dir [] .ownDir } }

def typed (lines : List String) : List Happening := lines.map fun line => .line line.toList

/-- An exported variable keeps up with an assignment, and another `export` finds nothing to do. -/
theorem mirrored_after_assignment :
    let world := (shellWith []).after true (typed ["export A=1", "cd /", "A=2"])
    world.session.vars.table.get? "A".toList = some ⟨"2".toList, true⟩ ∧
      world.environment.get? "A".toList = some "2".toList ∧
      world.read? "export A".toList = some (.ok (some (exporting "A".toList))) ∧
      ((runLine true "export A".toList).outcome world).2.environment = world.environment := by
  have exported : ((shellWith []).after true
      (typed ["export A=1", "cd /", "A=2"])).session.vars.table.get? "A".toList =
      some ⟨"2".toList, true⟩ := by decide +kernel
  have read : ((shellWith []).after true
      (typed ["export A=1", "cd /", "A=2"])).read? "export A".toList =
      some (.ok (some (exporting "A".toList))) := by decide +kernel
  obtain ⟨mirrored, only, bare⟩ := mirrored_iff_not_overwritten rfl _ exported
  have kept : ¬ Overwritten true (shellWith []) (typed ["export A=1", "cd /", "A=2"])
      "A".toList := fun overwritten => by
    have directory := only overwritten
    rw [IsDirectoryName] at directory
    exact absurd directory (by decide)
  exact ⟨exported, mirrored.mpr kept, read, (bare _ read).mpr kept⟩

/-- After a `cd` the exported `PWD` is not what the table holds, and `export PWD` puts that back. -/
theorem cd_overwrites_exported :
    ∃ world, (shellWith [("PWD", "/")]).after true (typed ["export PWD=/x", "cd /"]) = world ∧
      (shellWith [("PWD", "/")]).session.vars.table = ∅ ∧
      world.session.vars.table.get? "PWD".toList = some ⟨"/x".toList, true⟩ ∧
      world.environment.get? "PWD".toList = some "/".toList ∧
      world.read? "export PWD".toList = some (.ok (some (exporting "PWD".toList))) ∧
      ((runLine true "export PWD".toList).outcome world).2.environment ≠ world.environment := by
  refine ⟨_, rfl, rfl, ?_, ?_, ?_, ?_⟩ <;> decide +kernel

/-! A line of assignments, and what its names stand for afterwards. -/

variable {tokens : List Token} {expanded : Text}

/-- None of the tokens is a bare operator. -/
def Plain (tokens : List Token) : Prop :=
  ∀ t ∈ tokens, ∀ c ∈ ['<', '>', '|', '&'], t.isOperator [c] = false

theorem itemOfTokens_of_plain (plain : Plain tokens) :
    Item.ofTokens tokens = .ok (tokens.map fun t => .word t.text) := by
  induction tokens with
  | nil => rfl
  | cons t rest ih =>
    have words := ih fun t there => plain t (List.mem_cons_of_mem _ there)
    have input := plain t (by simp) '<' (by simp)
    have output := plain t (by simp) '>' (by simp)
    rw [Item.ofTokens.eq_def]
    simp [input, output, words, Except.map]

theorem ofTokens_of_plain (plain : Plain tokens) (some_token : tokens ≠ []) :
    Pipeline.ofTokens tokens = .ok (some { left := { args := tokens.map (·.text) } }) := by
  have background : Pipeline.splitBackground tokens = (tokens, false) := by
    rw [Pipeline.splitBackground]
    cases last : tokens.getLast? with
    | none => rfl
    | some t =>
      have word := plain t (List.mem_of_getLast? last) '&' (by simp)
      simp [word]
  have pipe : Pipeline.splitPipe tokens = (tokens, none) := by
    have all : tokens.dropWhile (fun t => !t.isOperator ['|']) = [] := by
      rw [List.dropWhile_eq_nil_iff]
      intro t there
      simp [plain t there '|' (by simp)]
    rw [Pipeline.splitPipe, all]
  have stage : Stage.ofTokens tokens = .ok { args := tokens.map (·.text) } := by
    rw [Stage.ofTokens, itemOfTokens_of_plain plain]
    simp [Except.map, Stage.ofItems, Item.word?, Item.input?, Item.output?, List.filterMap_map,
      Function.comp_def]
  simp [Pipeline.ofTokens, background, pipe, stage, bind, Except.bind, pure, Except.pure, some_token]

theorem plain_of_assignments {assignments : List (Text × Text)}
    (assigns : tokens.mapM (assignment? ·.text) = some assignments) : Plain tokens := by
  induction tokens generalizing assignments with
  | nil => simp [Plain]
  | cons t rest ih =>
    simp only [List.mapM_cons, Option.bind_eq_bind, Option.bind_eq_some_iff] at assigns
    obtain ⟨a, first, others, later, -⟩ := assigns
    refine List.forall_mem_cons.mpr ⟨fun c operator => ?_, ih later⟩
    by_contra bare
    rw [Bool.not_eq_false, PipelineGrammar.isOperator_iff] at bare
    rw [bare] at first
    have other : '=' ∉ [c] := by
      rintro equals
      rw [← List.mem_singleton.mp equals] at operator
      exact absurd operator (by decide)
    rw [PipelineGrammar.bare, assignment?, cut?_eq_none.mpr other] at first
    cases first

theorem read_assignments {assignments : List (Text × Text)}
    (expands : world.expand? line = some expanded) (words : tokenize expanded = .ok tokens)
    (assigns : tokens.mapM (assignment? ·.text) = some assignments) (some_word : assignments ≠ []) :
    ∃ p, world.read? line = some (.ok (some p)) ∧ p.assignments? = some assignments := by
  have some_token : tokens ≠ [] := by
    rintro rfl
    exact some_word (Option.some.inj assigns).symm
  refine ⟨{ left := { args := tokens.map (·.text) } }, ?_, ?_⟩
  · rw [World.read?, expands, Option.map_some, readPipeline, words]
    exact congrArg some (ofTokens_of_plain (plain_of_assignments assigns) some_token)
  · show (tokens.map (·.text)).mapM assignment? = _
    rw [List.mapM_map]
    exact assigns

/-- The last assignment to a name decides, and it reaches the environment when the name was
exported before. -/
theorem view_assigned {front back : List (Text × Text)} {vars : Variables}
    (last : name ∉ back.map Prod.fst)
    (done : (callAll (assignmentCalls (front ++ (name, value) :: back)) vars).1 = .ok ()) :
    (callAll (assignmentCalls (front ++ (name, value) :: back)) vars).2.view name =
      (vars.view name).assigned value := by
  have split : assignmentCalls (front ++ (name, value) :: back) =
      assignmentCalls front ++ .setLocal name value :: assignmentCalls back := by
    simp [assignmentCalls]
  -- the assignments before it settle nothing, and those after it are to other names
  rw [split] at done ⊢
  have first := callAll_append_of_ok done
  rw [first] at done ⊢
  have others : name ∉ (assignmentCalls back).map Call.name := by
    have names : (assignmentCalls back).map Call.name = back.map Prod.fst := by
      rw [assignmentCalls, List.map_map]
      rfl
    rwa [names]
  have assigns : ∀ c ∈ assignmentCalls front, c.isLocal := by
    intro c there
    obtain ⟨a, -, rfl⟩ := List.mem_map.mp there
    rfl
  obtain ⟨exported, inherited⟩ := callAll_of_isLocal assigns vars name
  rw [callAll] at done ⊢
  rcases one : (Call.setLocal name value).carryOut (callAll (assignmentCalls front) vars).2 with
    ⟨_ | ⟨⟩, mid⟩ <;> rw [one] at done
  · cases done
  · have carried := view_carryOut_of_ok (congrArg Prod.fst one)
    have assigned := Call.onView_setLocal carried
    rw [one, Call.name] at assigned
    dsimp only
    rw [view_callAll_of_notMem others, assigned, View.assigned, View.assigned, exported]
    cases hidden : (vars.view name).isExported with
    | true => rfl
    | false => rw [inherited hidden]

theorem origin_of_shadowed (history : List Happening)
    (shadowed : ((start.after quiet history).session.vars.view name).Shadowed) :
    IsDirectoryName name ∨ start.environment.get? name ≠ none := by
  refine after_keeps (P := fun v => v.Shadowed →
    IsDirectoryName name ∨ start.environment.get? name ≠ none) history ?_ ?_ ?_ shadowed
  · intro c _ v w before seen shadowed
    exact before (Call.shadowed_of_onView seen shadowed)
  · intro directory v inherited _ _
    exact .inl directory
  · intro shadowed
    exact .inr shadowed.1

end LineShell
