import LineShell.Proofs.ChangeDirectory
import LineShell.Proofs.Failures
import LineShell.Proofs.PipelineGrammar
import LineShell.Proofs.Substitution
import LineShell.Proofs.VariableCalls

/-! What a line does to the shell itself. Its demand says so before it is run: nothing, calls on the
variables, or a change of directory. `meets_runLine` is the account of one line, from which the
frame of a line follows (`runLine_confined`). -/

namespace LineShell

open Act Variables

/-- What is asked of the shell itself. -/
inductive Demand
  | nothing
  | calls (made : List Call)
  | directory

/-- The call that an operand of `export` stands for. -/
def Variables.Call.ofOperand (operand : Text) : Call :=
  match cut? '=' operand with
  | some (name, value) => .setExported name value
  | none => .markExported operand

def Builtin.demand (b : Builtin) (args : List Text) : Demand :=
  match b with
  | cd => .directory
  | setExport => .calls (args.tail.map Call.ofOperand)
  | unset => .calls (args.tail.map Call.unset)
  | _ => .nothing

def assignmentCalls (assignments : List (Text × Text)) : List Call :=
  assignments.map fun a => .setLocal a.1 a.2

/-- Two stages, and programs that are no builtins, ask nothing of the shell itself. -/
def Pipeline.demand (p : Pipeline) : Demand :=
  match p.assignments?, p.right, Builtin.lookup? p.left.program with
  | some assignments, _, _ => .calls (assignmentCalls assignments)
  | none, none, some b => b.demand p.left.args
  | none, _, _ => .nothing

namespace World

/-- How a line is read; `none` if its references cannot be replaced. -/
def read? (world : World) (line : Text) : Option (Except LineError (Option Pipeline)) :=
  (world.expand? line).map readPipeline

def demand (world : World) (line : Text) : Demand :=
  match world.read? line with
  | some (.ok (some p)) => p.demand
  | _ => .nothing

end World

/-- What the shell itself is after a demand has been met, or has come to nothing. -/
def Demand.Meets (before after : World) : Demand → Prop
  | nothing => after.own = before.own
  | calls made => after.own = before.own ∨
      after.own = (before.withVars (callAll made before.session.vars).2).own
  | directory => after.own = before.own ∨ ∃ here target moved, here.own = before.own ∧
      here.changeDir target = .ok moved ∧
      after.own = (Builtin.arrived moved (Builtin.dirToLeave here) target).own

/-- All that a demand leaves as it was. -/
def Demand.Confines (before after : World) : Demand → Prop
  | nothing => after.own = before.own
  | calls made => after.session.previousDir = before.session.previousDir ∧
      after.session.history = before.session.history ∧ after.place = before.place ∧
      ∀ name ∉ made.map Call.name, after.session.vars.view name = before.session.vars.view name
  | directory => after.session.history = before.session.history ∧
      after.session.vars.table = before.session.vars.table ∧
      ∀ name, name ≠ "PWD".toList → name ≠ "OLDPWD".toList →
        after.environment.get? name = before.environment.get? name

namespace Builtin

variable {here moved : World} {left : Option Text} {target : Text}

theorem session_changeDir (went : here.changeDir target = .ok moved) :
    moved.session = here.session := by
  obtain ⟨-, place, -, rfl⟩ := World.changeDir_eq_ok.mp went
  rfl

theorem history_arrived : (arrived moved left target).session.history = moved.session.history := by
  cases left <;> rfl

theorem table_arrived : (arrived moved left target).session.vars.table = moved.session.vars.table := by
  cases left <;> rfl

end Builtin

namespace Demand

variable {d : Demand} {before mid last after : World}

theorem Meets.of_own (same : after.own = before.own) : d.Meets before after := by
  cases d with
  | nothing => exact same
  | calls made => exact .inl same
  | directory => exact .inl same

/-- What happens to the rest of the world before and after makes no difference. -/
theorem Meets.between (first : mid.own = before.own) (meets : d.Meets mid last)
    (finally_ : after.own = last.own) : d.Meets before after := by
  obtain ⟨session, place⟩ := Prod.mk.inj first
  cases d with
  | nothing => exact (finally_.trans meets).trans first
  | calls made =>
    have same : (mid.withVars (callAll made mid.session.vars).2).own =
        (before.withVars (callAll made before.session.vars).2).own := by
      simp [World.own, World.withVars, session, place]
    exact meets.imp (fun kept => (finally_.trans kept).trans first)
      fun called => (finally_.trans called).trans same
  | directory =>
    refine meets.imp (fun kept => (finally_.trans kept).trans first) ?_
    rintro ⟨here, target, moved, stood, went, arrived⟩
    exact ⟨here, target, moved, stood.trans first, went, finally_.trans arrived⟩

theorem Meets.confines (meets : d.Meets before after) : d.Confines before after := by
  cases d with
  | nothing => exact meets
  | calls made =>
    rcases meets with same | called
    · obtain ⟨session, place⟩ := Prod.mk.inj same
      simp [Confines, session, place]
    · obtain ⟨session, place⟩ := Prod.mk.inj called
      refine ⟨by rw [session]; rfl, by rw [session]; rfl, place, fun name other => ?_⟩
      rw [session]
      exact view_callAll_of_notMem other _
  | directory =>
    rcases meets with same | ⟨here, target, moved, stood, went, arrived⟩
    · obtain ⟨session, -⟩ := Prod.mk.inj same
      simp [Confines, World.environment, session]
    · obtain ⟨session, -⟩ := Prod.mk.inj arrived
      obtain ⟨stood, -⟩ := Prod.mk.inj stood
      have kept : moved.session = before.session := (Builtin.session_changeDir went).trans stood
      refine ⟨?_, ?_, fun name pwd oldpwd => ?_⟩
      · rw [session, Builtin.history_arrived, kept]
      · rw [session, Builtin.table_arrived, kept]
      · show after.session.vars.environment.get? name = _
        rw [session]
        refine (Builtin.environment_arrived name).trans ?_
        rw [if_neg pwd, if_neg oldpwd, World.environment, kept]
        rfl

end Demand

/-! Calls on the variables as actions. -/

theorem outcome_changeVariables (c : Call) (world : World) :
    (changeVariables fun vars => c.apply vars).outcome world =
      ((c.carryOut world.session.vars).1.mapError (Failure.map .env),
        world.withVars (c.carryOut world.session.vars).2) := by
  simp only [changeVariables, Act.of, outcome, ExceptT.run, Call.carryOut]
  cases c.apply world.session.vars <;> rfl

theorem outcome_forM_calls {ε α : Type} {act : α → Act ε Unit} {call : α → Call} {f : EnvError → ε}
    (one : ∀ a world, (act a).outcome world =
      (((call a).carryOut world.session.vars).1.mapError (Failure.map f),
        world.withVars ((call a).carryOut world.session.vars).2))
    (items : List α) (world : World) : (items.forM act).outcome world =
      ((callAll (items.map call) world.session.vars).1.mapError (Failure.map f),
        world.withVars (callAll (items.map call) world.session.vars).2) := by
  induction items generalizing world with
  | nil => rfl
  | cons a rest ih =>
    show (act a >>= fun _ => rest.forM act).outcome world = _
    rw [outcome_bind, one, List.map_cons, callAll]
    rcases (call a).carryOut world.session.vars with ⟨_ | ⟨⟩, vars⟩
    · rfl
    · exact ih _

theorem outcome_assign (assignments : List (Text × Text)) (world : World) :
    (assign assignments).outcome world =
      ((callAll (assignmentCalls assignments) world.session.vars).1.mapError
          (Failure.map fun e => .builtin "assignment".toList (.env e)),
        world.withVars (callAll (assignmentCalls assignments) world.session.vars).2) := by
  refine outcome_forM_calls (fun a world => ?_) assignments world
  have one := outcome_changeVariables (.setLocal a.1 a.2) world
  show (Act.mapError _ (changeVariables fun vars => (Call.setLocal a.1 a.2).apply vars)).outcome
    world = _
  rw [outcome_mapError, one]
  rcases (Call.setLocal a.1 a.2).carryOut world.session.vars with ⟨(_ | _) | _, _⟩ <;> rfl

namespace Builtin

variable (output : Output) (world : World)

theorem outcome_runUnset (args : List Text) : (runUnset args).outcome world =
    ((callAll (args.tail.map Call.unset) world.session.vars).1.mapError (Failure.map .env) |>.map
        fun _ => .proceed,
      world.withVars (callAll (args.tail.map Call.unset) world.session.vars).2) := by
  have one (name : Text) (world : World) : (changeVariables (·.unset name)).outcome world = _ :=
    outcome_changeVariables (.unset name) world
  rw [runUnset, outcome_bind, outcome_forM_calls one]
  rcases callAll (args.tail.map Call.unset) world.session.vars with ⟨_ | _, _⟩ <;> rfl

theorem outcome_exportOperand (operand : Text) : (exportOperand operand).outcome world =
    (((Call.ofOperand operand).carryOut world.session.vars).1.mapError (Failure.map .env),
      world.withVars ((Call.ofOperand operand).carryOut world.session.vars).2) := by
  rw [← outcome_changeVariables, exportOperand, Call.ofOperand]
  cases cut? '=' operand <;> rfl

theorem outcome_runExport {args : List Text} (operands : args.tail ≠ []) :
    (runExport output args).outcome world =
    ((callAll (args.tail.map Call.ofOperand) world.session.vars).1.mapError (Failure.map .env) |>.map
        fun _ => .proceed,
      world.withVars (callAll (args.tail.map Call.ofOperand) world.session.vars).2) := by
  rw [runExport]
  split
  · contradiction
  · have one (operand : Text) (world : World) := outcome_exportOperand world operand
    rw [outcome_bind, outcome_forM_calls one]
    rcases callAll (args.tail.map Call.ofOperand) world.session.vars with ⟨_ | _, _⟩ <;> rfl

theorem own_runCd (args : List Text) : ((runCd output args).outcome world).2.own = world.own ∨
    ∃ target moved, world.changeDir target = .ok moved ∧
      ((runCd output args).outcome world).2.own = (arrived moved (dirToLeave world) target).own := by
  rw [runCd]
  by_cases many : 1 < args.tail.length
  · left
    rw [if_pos many, outcome_bind]
    rfl
  rw [if_neg many]
  simp only [outcome_bind, outcome_get, outcome_ofExcept]
  rcases cdTarget world args.tail.head? with e | ⟨target, shown⟩
  · exact .inl rfl
  · cases went : world.changeDir target with
    | error e =>
      left
      simp [Except.mapError, went]
    | ok moved =>
      refine .inr ⟨target, moved, went, ?_⟩
      simp only [Except.mapError, went, outcome_bind, outcome_set]
      split
      · exact Within.bind (R := fun before after => after.own = before.own)
          ((output.wrote_line _).mono fun _ _ wrote => wrote.own) (fun _ => .pure _) _
      · rfl

/-- A builtin writes, and otherwise leaves the machine and the descriptors of the shell alone. -/
theorem within_run_of_same {R : World → World → Prop} [Onward R]
    (writes : ∀ before after, before.Wrote after → R before after)
    (same : ∀ {before after : World}, after.descriptors = before.descriptors →
      after.machine = before.machine → R before after) (b : Builtin) (args : List Text) :
    (b.run output args).Within R := by
  cases b with
  | cd =>
    refine within_runCd output args writes fun went left dir => ?_
    obtain ⟨-, place, -, rfl⟩ := World.changeDir_eq_ok.mp went
    cases left <;> exact same rfl rfl
  | setExport =>
    by_cases operands : args.tail = []
    · exact (wrote_runExport output args operands).mono writes
    · intro world
      rw [run, outcome_runExport output world operands]
      exact same rfl rfl
  | unset =>
    intro world
    rw [run, outcome_runUnset]
    exact same rfl rfl
  | _ => exact (wrote_run output args (by simp) (by simp) (by simp)).mono writes

/-- What a builtin makes of the shell itself is what it is asked. -/
theorem meets_run (b : Builtin) (args : List Text) :
    (b.demand args).Meets world ((b.run output args).outcome world).2 := by
  cases b with
  | cd =>
    refine (own_runCd output world args).imp id ?_
    rintro ⟨target, moved, went, arrived⟩
    exact ⟨world, target, moved, rfl, went, arrived⟩
  | setExport =>
    by_cases operands : args.tail = []
    · left
      exact (wrote_runExport output args operands world).own
    · right
      rw [run, outcome_runExport output world operands]
  | unset =>
    right
    rw [run, outcome_runUnset]
  | _ => exact (wrote_run output args (by simp) (by simp) (by simp) world).own

end Builtin

/-- So does a builtin whose output is written in the end. -/
theorem within_runOutput_of_same {R : World → World → Prop} [onward : Onward R]
    (writes : ∀ before after, before.Wrote after → R before after)
    (same : ∀ {before after : World}, after.descriptors = before.descriptors →
      after.machine = before.machine → R before after) (b : Builtin) (output : Output)
    (args : List Text) : (runOutput b output args).Within R := fun world =>
  onward.trans (Builtin.within_run_of_same output writes same b args world)
    (writes _ _ wrote_runOutput)

variable (quiet : Bool) (world : World)

theorem outcome_runBuiltin (b : Builtin) (stage : Stage) :
    (∃ e mid, stage.redirections.openFiles.outcome world = (.error e, mid) ∧
      (runBuiltin b stage).outcome world = (.error (e.map .process), mid)) ∨
    ∃ files mid, stage.redirections.openFiles.outcome world = (.ok files, mid) ∧
      (runBuiltin b stage).outcome world =
        (((runOutput b (mid.output files) stage.args).outcome mid).1,
          ((runOutput b (mid.output files) stage.args).outcome mid).2.close files.fds) := by
  rw [runBuiltin, outcome_bind, outcome_mapError]
  rcases stage.redirections.openFiles.outcome world with ⟨e | files, mid⟩
  · exact .inl ⟨e, mid, rfl, rfl⟩
  · exact .inr ⟨files, mid, rfl, rfl⟩

theorem meets_runBuiltin (b : Builtin) (stage : Stage) :
    (b.demand stage.args).Meets world ((runBuiltin b stage).outcome world).2 := by
  have opened := keeps_openFiles stage.redirections world
  rcases outcome_runBuiltin world b stage with ⟨e, mid, failed, ran⟩ | ⟨files, mid, done, ran⟩
  · rw [failed] at opened
    rw [ran]
    exact .of_own opened
  · rw [done] at opened
    rw [ran]
    exact .between opened (Builtin.meets_run _ mid b stage.args) wrote_runOutput.own

theorem runPipeline_of_right {p : Pipeline} {right : Stage} (two : p.right = some right) :
    (runPipeline quiet p).Keeps World.own ∧ (runPipeline quiet p).Stays := by
  have runs : (do
      let _ ← (runPipe p.left right).mapError ShellError.process
      return .proceed : Act ShellError Verdict).Keeps World.own :=
    .bind (.mapError (keeps_runPipe p.left right) _) fun _ => .pure _
  rw [runPipeline, two]
  dsimp only
  split
  · exact ⟨.bind ((wrote_tell _).mono fun _ _ wrote => wrote.own) fun _ => runs,
      .bind fun _ => .bind fun _ => .proceed⟩
  · exact ⟨runs, .bind fun _ => .proceed⟩

theorem runPipeline_of_program {p : Pipeline} (one : p.right = none)
    (program : Builtin.lookup? p.left.program = none) :
    (runPipeline quiet p).Keeps World.own ∧ (runPipeline quiet p).Stays := by
  rw [runPipeline, one]
  dsimp only
  rw [program]
  exact ⟨.bind (.mapError (keeps_launch _ _ _) _) fun _ => .pure _, .bind fun _ => .proceed⟩

theorem runPipeline_of_builtin {p : Pipeline} {b : Builtin} (one : p.right = none)
    (program : Builtin.lookup? p.left.program = some b) :
    runPipeline quiet p = runBuiltin b p.left := by
  rw [runPipeline, one]
  dsimp only
  rw [program]

variable (line : Text)

theorem exists_read : ∃ asked, world.read? line = some asked := by
  rw [World.read?, World.expand?, Expansion.expand?_eq_substitute]
  exact ⟨_, rfl⟩

variable {world line}

theorem outcome_runLine_of_error {e : LineError} (read : world.read? line = some (.error e)) :
    (runLine quiet line).outcome world = (.error (.error (.parse e)), world) := by
  obtain ⟨expanded, expands, read⟩ := Option.map_eq_some_iff.mp read
  simp [runLine, outcome_bind, expands, read, outcome_ofExcept, Except.mapError]

theorem outcome_runLine_of_none (read : world.read? line = some (.ok none)) :
    (runLine quiet line).outcome world = (.ok .proceed, world) := by
  obtain ⟨expanded, expands, read⟩ := Option.map_eq_some_iff.mp read
  simp [runLine, outcome_bind, expands, read, outcome_ofExcept, Except.mapError]

theorem outcome_runLine_of_assignments {p : Pipeline} {assignments : List (Text × Text)}
    (read : world.read? line = some (.ok (some p)))
    (assigns : p.assignments? = some assignments) :
    (runLine quiet line).outcome world =
      (((assign assignments).outcome world).1.map fun _ => .proceed,
        ((assign assignments).outcome world).2) := by
  obtain ⟨expanded, expands, read⟩ := Option.map_eq_some_iff.mp read
  simp only [runLine, outcome_bind, outcome_get, expands, read, outcome_ofExcept, Except.mapError,
    assigns]
  rcases (assign assignments).outcome world with ⟨_ | _, _⟩ <;> rfl

theorem outcome_runLine_of_command {p : Pipeline} (read : world.read? line = some (.ok (some p)))
    (other : p.assignments? = none) :
    (runLine quiet line).outcome world = (runPipeline quiet p).outcome world := by
  obtain ⟨expanded, expands, read⟩ := Option.map_eq_some_iff.mp read
  simp only [runLine, outcome_bind, outcome_get, expands, read, outcome_ofExcept, Except.mapError,
    other]

section

variable {R : World → World → Prop} [onward : Onward R]

theorem within_runPipeline (writes : ∀ before after, before.Wrote after → R before after)
    (pipes : ∀ left right, (runPipe left right).Within R)
    (launches : ∀ stage background, (launch quiet stage background).Within R)
    (builtins : ∀ b stage, (runBuiltin b stage).Within R) (p : Pipeline) :
    (runPipeline quiet p).Within R := by
  rw [runPipeline]
  split
  · have runs (right : Stage) : (do
        let _ ← (runPipe p.left right).mapError ShellError.process
        return .proceed : Act ShellError Verdict).Within R :=
      .bind (.mapError (pipes _ _) _) fun _ => .pure _
    dsimp only
    split
    · exact .bind ((wrote_tell _).mono writes) fun _ => runs _
    · exact runs _
  · split
    · exact builtins _ _
    · exact .bind (.mapError (launches _ _) _) fun _ => .pure _

/-- A line is nothing at all, or assigns variables, or is a pipeline. -/
theorem within_runLine (assigns : ∀ world vars, R world (World.withVars world vars))
    (pipelines : ∀ p, (runPipeline quiet p).Within R) (line : Text) :
    (runLine quiet line).Within R := by
  intro world
  obtain ⟨asked, read⟩ := exists_read world line
  match asked with
  | .error e =>
    rw [outcome_runLine_of_error quiet read]
    exact onward.refl world
  | .ok none =>
    rw [outcome_runLine_of_none quiet read]
    exact onward.refl world
  | .ok (some p) =>
    cases assignments : p.assignments? with
    | some assignments =>
      rw [outcome_runLine_of_assignments quiet read assignments, outcome_assign]
      exact assigns world _
    | none =>
      rw [outcome_runLine_of_command quiet read assignments]
      exact pipelines p world

end

/-- A line does to the shell itself what it is asked, if it does anything. -/
theorem meets_runLine :
    (world.demand line).Meets world ((runLine quiet line).outcome world).2 := by
  obtain ⟨asked, read⟩ := exists_read world line
  rw [World.demand, read]
  match asked with
  | .error e =>
    rw [outcome_runLine_of_error quiet read]
    exact .of_own rfl
  | .ok none =>
    rw [outcome_runLine_of_none quiet read]
    exact .of_own rfl
  | .ok (some p) =>
    dsimp only
    rw [Pipeline.demand]
    cases assigns : p.assignments? with
    | some assignments =>
      rw [outcome_runLine_of_assignments quiet read assigns, outcome_assign]
      exact .inr rfl
    | none =>
      rw [outcome_runLine_of_command quiet read assigns]
      cases two : p.right with
      | some right => exact .of_own ((runPipeline_of_right quiet two).1 world)
      | none =>
        cases program : Builtin.lookup? p.left.program with
        | none => exact .of_own ((runPipeline_of_program quiet two program).1 world)
        | some b =>
          rw [runPipeline_of_builtin quiet two program]
          exact meets_runBuiltin world b p.left

/-- The line leaves the shell itself as it is, and does not ask to leave the shell. -/
def Harmless (line : Text) (world : World) : Prop :=
  ((runLine quiet line).outcome world).2.own = world.own ∧
    ∀ status, ((runLine quiet line).outcome world).1 ≠ .ok (.leave status)

theorem harmless_of_error {e : LineError} (read : world.read? line = some (.error e)) :
    Harmless quiet line world := by
  rw [Harmless, outcome_runLine_of_error quiet read]
  simp

theorem harmless_of_none (read : world.read? line = some (.ok none)) :
    Harmless quiet line world := by
  rw [Harmless, outcome_runLine_of_none quiet read]
  simp

theorem harmless_of_right {p : Pipeline} {right : Stage}
    (read : world.read? line = some (.ok (some p))) (two : p.right = some right) :
    Harmless quiet line world := by
  have other : p.assignments? = none := by
    rw [Pipeline.assignments?, Pipeline.isPipeline, two]
    rfl
  have ran := runPipeline_of_right quiet two
  rw [Harmless, outcome_runLine_of_command quiet read other]
  exact ⟨ran.1 world, ran.2 world⟩

theorem harmless_of_program {p : Pipeline} (read : world.read? line = some (.ok (some p)))
    (other : p.assignments? = none) (one : p.right = none)
    (program : Builtin.lookup? p.left.program = none) : Harmless quiet line world := by
  have ran := runPipeline_of_program quiet one program
  rw [Harmless, outcome_runLine_of_command quiet read other]
  exact ⟨ran.1 world, ran.2 world⟩

/-- A bare `|` is never an argument of a single stage. -/
theorem exists_right_of_pipe {tokens : List Token} {p : Pipeline}
    (read : Pipeline.ofTokens tokens = .ok (some p)) (pipe : ∃ t ∈ tokens, t.isOperator ['|']) :
    ∃ right, p.right = some right := by
  obtain ⟨l, rfl, -, rfl⟩ := PipelineGrammar.exists_line_of_ofTokens read
  obtain ⟨t, there, bare⟩ := pipe
  obtain rfl := PipelineGrammar.isOperator_iff.mp bare
  cases side : l.right with
  | some s => exact ⟨s.stage, by simp [PipelineGrammar.Line.pipeline, side]⟩
  | none =>
    have absent := l.first
    have marker : PipelineGrammar.bare '|' ≠ PipelineGrammar.bare '&' := by decide
    simp only [PipelineGrammar.Line.tokens, PipelineGrammar.joined, side, Option.map_none,
      Option.getD_none, List.append_nil, List.mem_append] at there
    rcases there with left | mark
    · exact absurd left absent
    · split at mark <;> simp [marker] at mark

theorem harmless_of_pipe {tokens : List Token}
    (words : (world.expand? line).map tokenize = some (.ok tokens))
    (pipe : ∃ t ∈ tokens, t.isOperator ['|']) : Harmless quiet line world := by
  have read : world.read? line = some (Pipeline.ofTokens tokens) := by
    obtain ⟨expanded, expands, words⟩ := Option.map_eq_some_iff.mp words
    rw [World.read?, expands, Option.map_some, readPipeline, words]
    rfl
  cases parsed : Pipeline.ofTokens tokens with
  | error e => exact harmless_of_error quiet (parsed ▸ read)
  | ok asked =>
    cases asked with
    | none => exact harmless_of_none quiet (parsed ▸ read)
    | some p =>
      obtain ⟨right, two⟩ := exists_right_of_pipe parsed pipe
      exact harmless_of_right quiet (parsed ▸ read) two

theorem mapError_ne {ε ε' α : Type} {f : ε → ε'} {target : ε'} (never : ∀ e, f e ≠ target)
    (result : Except (Failure ε) α) :
    result.mapError (Failure.map f) ≠ .error (.error target) := by
  rcases result with (e | -) | -
  · intro same
    exact never e (Failure.error.inj (Except.error.inj same))
  · exact nofun
  · exact nofun

theorem own_of_redirect {path : Text} {cause : IoError}
    (failed : ((runLine quiet line).outcome world).1 =
      .error (.error (.process (.redirect path cause)))) :
    ((runLine quiet line).outcome world).2.own = world.own := by
  obtain ⟨asked, read⟩ := exists_read world line
  match asked with
  | .error e => exact (harmless_of_error quiet read).1
  | .ok none => exact (harmless_of_none quiet read).1
  | .ok (some p) =>
    cases assigns : p.assignments? with
    | some assignments =>
      -- the errors of an assignment are of another kind
      rw [outcome_runLine_of_assignments quiet read assigns, outcome_assign] at failed
      exact (mapError_ne (by simp) _ (map_eq_error_iff.mp failed)).elim
    | none =>
      cases two : p.right with
      | some right => exact (harmless_of_right quiet read two).1
      | none =>
        cases program : Builtin.lookup? p.left.program with
        | none => exact (harmless_of_program quiet read assigns two program).1
        | some b =>
          rw [outcome_runLine_of_command quiet read assigns,
            runPipeline_of_builtin quiet two program] at failed ⊢
          have opened := keeps_openFiles p.left.redirections world
          rcases outcome_runBuiltin world b p.left with
            ⟨e, mid, refused, ran⟩ | ⟨files, mid, done, ran⟩
          · rw [refused] at opened
            rw [ran]
            exact opened
          · rw [ran] at failed
            exact absurd failed (runOutput_ne_process _)

/-- A line changes nothing of the shell itself beyond what it demands; and lines with a bare `|`,
lines whose program is no builtin, lines that cannot be read and lines whose files cannot be opened
leave it as it is. -/
theorem runLine_confined (line : Text) (world : World) :
    (world.demand line).Confines world ((runLine quiet line).outcome world).2 ∧
    (∀ tokens, (world.expand? line).map tokenize = some (.ok tokens) →
      (∃ t ∈ tokens, t.isOperator ['|']) → Harmless quiet line world) ∧
    (∀ p, world.read? line = some (.ok (some p)) → p.assignments? = none → p.right = none →
      Builtin.lookup? p.left.program = none → Harmless quiet line world) ∧
    (∀ e, world.read? line = some (.error e) → Harmless quiet line world) ∧
    ∀ path cause, ((runLine quiet line).outcome world).1 =
        .error (.error (.process (.redirect path cause))) → Harmless quiet line world := by
  refine ⟨(meets_runLine quiet).confines, fun tokens words pipe => harmless_of_pipe quiet words pipe,
    fun p read other one program => harmless_of_program quiet read other one program,
    fun e read => harmless_of_error quiet read, fun path cause failed => ?_⟩
  refine ⟨own_of_redirect quiet failed, fun status => ?_⟩
  rw [failed]
  simp

end LineShell
