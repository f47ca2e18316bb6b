import LineShell.Proofs.Course

/-! The run of a shell, from its rc file to the end of its input: `runMain_course` is the account of
the whole of it, and `World.AsksToLeave` says of which lines it can come to an end. -/

namespace LineShell

open Act

variable {σ : Type}

/-! The lines of the rc file and those of the input. -/

/-- The world in which a line of input is run: it is in the history, unless it is blank. -/
def World.entered (world : World) (line : Text) : World :=
  if (trim line).isEmpty then world else world.record line

theorem outcome_executeLine (quiet : Bool) (line : Text) (world : World) :
    (executeLine quiet line).outcome world = (runLine quiet line).outcome (world.entered line) := by
  rw [executeLine, World.entered]
  cases (trim line).isEmpty <;> rfl

def rcTurn (quiet : Bool) (rc : RcFile) (line : Text) : Turn σ where
  ready := .ok
  quiet := quiet
  label := rc.path ++ ": ".toList
  line := line

/-- What is told of a job that has ended. -/
def jobNotice (job : Nat × ChildState) : Text :=
  '[' :: decimal job.1 ++ "] ".toList ++ job.2.display

/-- The world in which the jobs that are done have been told of; as an error, the one in which that
was refused. -/
def World.reported (world : World) (quiet : Bool) : Except World World :=
  let (finished, after) := { world with machine := world.machine.settle world.held }.finishedJobs
  after.toldAll (if quiet then [] else finished.map jobNotice)

/-- Before a line of input the jobs that are done are told of, and the line is read and entered. -/
def inputTurn (source : LineSource σ) (quiet : Bool) (line : Text) : Turn σ where
  ready s := (s.2.reported quiet).map fun world =>
    ((source s.1 world).2.1, (source s.1 world).2.2.entered line)
  quiet := quiet
  label := []
  line := line

/-- The reader gives the lines in order, each when the shell comes to ask for it, and then says that
the input has ended. -/
def Delivers (source : LineSource σ) (quiet : Bool) : List Text → σ × World → Prop
  | [], s => ∀ world, s.2.reported quiet = .ok world → (source s.1 world).1 = .error .endOfInput
  | line :: rest, s =>
    (∀ world, s.2.reported quiet = .ok world → (source s.1 world).1 = .ok line) ∧
      ∀ next, (inputTurn source quiet line).Comes s (.ok none) next →
        Delivers source quiet rest next

/-- The world in which a shell ends that has come to the end of its input; as an error, the one in
which its last message was refused. -/
def farewell (source : LineSource σ) (quiet : Bool) (s : σ × World) : Except World World := do
  let world ← s.2.reported quiet
  (source s.1 world).2.2.toldAll (if quiet then [] else ["exit".toList])

/-- The lines of the rc file; `none` if there is one to be read that cannot be read, unless it is
merely not there and nobody asked for it. -/
def rcTurns? (flags : Flags) (world : World) : Option (List (Turn σ)) :=
  match RcFile.ofFlags? world flags with
  | none => some []
  | some rc =>
    match RcFile.readText world rc.path with
    | .ok content => some ((RcFile.linesOf content).map (rcTurn (flags.isSet .quiet) rc))
    | .error cause => if cause.isNotFound && !rc.explicit then some [] else none

theorem course_runLines (quiet : Bool) (rc : RcFile) (lines : List Text) (state : σ)
    (world : World) :
    Course (lines.map (rcTurn quiet rc)) (state, world)
      ((runLines quiet (rc.path ++ ": ".toList) lines).outcome world).1
      (state, ((runLines quiet (rc.path ++ ": ".toList) lines).outcome world).2) := by
  induction lines generalizing world with
  | nil => exact .finished
  | cons line rest ih =>
    have atHand : (rcTurn quiet rc line).ready (state, world) = .ok (state, world) := rfl
    have comes := Turn.comes_runTelling atHand
    rw [List.map_cons, runLines, outcome_bind]
    rcases told : (runTelling (rc.path ++ ": ".toList) (runLine quiet line)).outcome world with
      ⟨e | (- | status), mid⟩ <;>
      rw [rcTurn] at comes <;> simp only [told] at comes
    · exact .ended comes (by simp)
    · exact .next comes (ih mid)
    · exact .ended comes (by simp)

theorem outcome_reportJobs {ε : Type} (quiet : Bool) (world : World) :
    (reportJobs quiet : Act ε Unit).outcome world = match world.reported quiet with
      | .ok after => (.ok (), after)
      | .error after => (.error .crash, after) := by
  rw [reportJobs, outcome_bind, outcome_get, World.reported]
  dsimp only
  rw [outcome_bind, outcome_set]
  cases quiet with
  | true => rfl
  | false => exact outcome_forM_tell jobNotice _ _

/-- What a shell answers that has come so far through its lines: at the end of its input it takes
its leave. -/
def closing (source : LineSource σ) (quiet : Bool) :
    Except (Failure ShellError) (Option Int) → σ × World → Except (Failure ShellError) Int × World
  | .ok none, s =>
    match farewell source quiet s with
    | .ok world => (.ok 0, world)
    | .error world => (.error .crash, world)
  | .ok (some status), s => (.ok status, s.2)
  | .error e, s => (.error e, s.2)

section

variable {source : LineSource σ} {quiet : Bool} {turns : Nat} {state : σ} {world ready : World}

theorem outcome_serve (source : LineSource σ) (quiet : Bool) (turns : Nat) (state : σ)
    (world : World) : (serve source quiet (turns + 1) state).outcome world =
      match world.reported quiet with
      | .error after => (.error .crash, after)
      | .ok ready =>
        match source state ready with
        | (.ok line, later, after) =>
          match (runTelling [] (runLine quiet line)).outcome (after.entered line) with
          | (.ok none, next) => (serve source quiet turns later).outcome next
          | (.ok (some status), next) => (.ok status, next)
          | (.error e, next) => (.error e, next)
        | (.error .endOfInput, _, after) =>
          match after.toldAll (if quiet then [] else ["exit".toList]) with
          | .ok last => (.ok 0, last)
          | .error last => (.error .crash, last)
        | (.error .interrupted, later, after) =>
          match after.toldAll (if quiet then [] else ["^C (type 'exit' to leave)".toList]) with
          | .ok next => (serve source quiet turns later).outcome next
          | .error last => (.error .crash, last)
        | (.error (.io cause), _, after) => (.error (.error (.readLine (.io cause))), after) := by
  rw [serve, outcome_bind, outcome_reportJobs]
  cases world.reported quiet with
  | error after => rfl
  | ok ready =>
    simp only [outcome_bind, outcome_get]
    rcases source state ready with ⟨(- | - | cause) | line, later, after⟩
    · cases quiet with
      | true => rfl
      | false =>
        simp only [outcome_set, Bool.not_false, if_true, Bool.false_eq_true, if_false, outcome_bind,
          outcome_tell, World.toldAll]
        cases after.told? "exit".toList <;> rfl
    · cases quiet with
      | true => rfl
      | false =>
        simp only [outcome_set, Bool.not_false, if_true, Bool.false_eq_true, if_false, outcome_bind,
          outcome_tell, World.toldAll]
        cases after.told? "^C (type 'exit' to leave)".toList <;> rfl
    · rfl
    · have entered : (runTelling [] (executeLine quiet line)).outcome after =
          (runTelling [] (runLine quiet line)).outcome (after.entered line) := by
        rw [outcome_runTelling, outcome_runTelling, outcome_executeLine]
      simp only [outcome_set, outcome_bind, entered]
      rcases (runTelling [] (runLine quiet line)).outcome (after.entered line) with
        ⟨e | (- | status), next⟩ <;> rfl

theorem course_serve {turns : Nat} {inputs : List Text} {s : σ × World}
    (delivers : Delivers source quiet inputs s) (enough : inputs.length < turns) :
    ∃ answer last, Course (inputs.map (inputTurn source quiet)) s answer last ∧
      (serve source quiet turns s.1).outcome s.2 = closing source quiet answer last := by
  induction inputs generalizing turns s with
  | nil =>
    obtain ⟨turns, rfl⟩ := Nat.exists_eq_add_of_lt enough
    refine ⟨.ok none, s, .finished, ?_⟩
    rw [outcome_serve, closing, farewell]
    cases reported : s.2.reported quiet with
    | error after => rfl
    | ok ready =>
      have ends : (source s.1 ready).1 = .error .endOfInput := delivers ready reported
      dsimp only
      rcases given : source s.1 ready with ⟨answer, later, after⟩
      obtain rfl : answer = .error .endOfInput := by simpa only [given] using ends
      simp only [bind, Except.bind, given]
  | cons line rest ih =>
    obtain ⟨turns, rfl⟩ : ∃ n, turns = n + 1 := ⟨turns - 1, by omega⟩
    obtain ⟨gives, others⟩ := delivers
    have fewer : rest.length < turns := by simpa using enough
    rw [outcome_serve]
    cases reported : s.2.reported quiet with
    | error after =>
      have unready : (inputTurn source quiet line).ready s = .error after := by
        simp only [inputTurn, reported, Except.map]
      exact ⟨_, _, .ended (.unready unready) (by simp), rfl⟩
    | ok ready =>
      dsimp only
      rcases given : source s.1 ready with ⟨answer, later, after⟩
      obtain rfl : answer = .ok line := by simpa only [given] using gives ready reported
      have atHand : (inputTurn source quiet line).ready s = .ok (later, after.entered line) := by
        simp only [inputTurn, reported, Except.map, given]
      have comes := Turn.comes_runTelling atHand
      dsimp only
      rcases told : (runTelling [] (runLine quiet line)).outcome (after.entered line) with
        ⟨e | (- | status), next⟩ <;>
        rw [inputTurn] at comes <;> simp only [told] at comes
      · exact ⟨_, _, .ended comes (by simp), rfl⟩
      · obtain ⟨answer, last, course, served⟩ := ih (others _ comes) fewer
        exact ⟨answer, last, .next comes course, served⟩
      · exact ⟨_, _, .ended comes (by simp), rfl⟩

end

/-- The file that is to be read before the input cannot be, and that matters. -/
def RcFails (flags : Flags) (world : World) (rc : RcFile) : Prop :=
  RcFile.ofFlags? world flags = some rc ∧ ∃ cause, RcFile.readText world rc.path = .error cause ∧
    (cause.isNotFound = true → rc.explicit = true)

/-- What comes of the rc file: there is none, it cannot be had, or its lines are run. -/
theorem outcome_sourceRc (flags : Flags) (world : World) :
    (sourceRc flags).outcome world = match RcFile.ofFlags? world flags with
      | none => (.ok none, world)
      | some rc => match rc.load world with
        | .error e => (.error (.error (.config e)), world)
        | .ok lines =>
          (runLines (flags.isSet .quiet) (rc.path ++ ": ".toList) lines).outcome world := by
  rw [sourceRc, outcome_bind, outcome_get]
  dsimp only
  cases RcFile.ofFlags? world flags with
  | none => rfl
  | some rc =>
    simp only [outcome_bind, outcome_ofExcept]
    cases rc.load world <;> rfl

theorem outcome_sourceRc_of_fails {flags : Flags} {world : World} {rc : RcFile}
    (fails : RcFails flags world rc) : ∃ e, rc.load world = .error e ∧
      (sourceRc flags).outcome world = (.error (.error (.config e)), world) := by
  obtain ⟨chosen, cause, unread, matters⟩ := fails
  obtain ⟨e, failed⟩ : ∃ e, rc.load world = .error e := by
    rw [RcFile.load, unread]
    by_cases missing : cause.isNotFound = true
    · simp [missing, matters missing]
    · simp [missing]
  refine ⟨e, failed, ?_⟩
  rw [outcome_sourceRc, chosen]
  dsimp only
  rw [failed]

theorem course_sourceRc {flags : Flags} {world : World} {turns : List (Turn σ)} (state : σ)
    (chosen : rcTurns? flags world = some turns) :
    Course turns (state, world) ((sourceRc flags).outcome world).1
      (state, ((sourceRc flags).outcome world).2) := by
  rw [rcTurns?] at chosen
  rw [outcome_sourceRc]
  cases file : RcFile.ofFlags? world flags with
  | none =>
    rw [file] at chosen
    obtain rfl := Option.some.inj chosen
    exact .finished
  | some rc =>
    rw [file] at chosen
    dsimp only at chosen ⊢
    rw [RcFile.load]
    cases read : RcFile.readText world rc.path with
    | ok content =>
      rw [read] at chosen
      obtain rfl := Option.some.inj chosen
      exact course_runLines ..
    | error cause =>
      rw [read] at chosen
      dsimp only at chosen ⊢
      by_cases missing : cause.isNotFound = true
      · rw [if_pos missing]
        split at chosen
        · next absent =>
          obtain rfl := Option.some.inj chosen
          have unasked : rc.explicit = false := by simpa [missing] using absent
          rw [unasked]
          exact .finished
        · cases chosen
      · simp [missing] at chosen

theorem course_runShell {source : LineSource σ} {state : σ} {turns : Nat} {flags : Flags}
    {world : World} {rcLines : List (Turn σ)} {inputs : List Text}
    (chosen : rcTurns? flags world = some rcLines)
    (delivers : ∀ mid, Course rcLines (state, world) (.ok none) mid →
      Delivers source (flags.isSet .quiet) inputs mid) (enough : inputs.length < turns) :
    ∃ answer last,
      Course (rcLines ++ inputs.map (inputTurn source (flags.isSet .quiet))) (state, world)
        answer last ∧
      (runShell source state turns flags).outcome world =
        closing source (flags.isSet .quiet) answer last := by
  have first := course_sourceRc state chosen
  rw [runShell, outcome_bind]
  rcases sourced : (sourceRc flags).outcome world with ⟨e | (- | status), mid⟩ <;>
    rw [sourced] at first
  · exact ⟨_, _, first.append_of_ends (by simp) _, rfl⟩
  · obtain ⟨answer, last, second, served⟩ := course_serve (delivers _ first) enough
    exact ⟨answer, last, first.append second, served⟩
  · exact ⟨_, _, first.append_of_ends (by simp) _, rfl⟩

/-! The lines that ask to leave. -/

namespace Builtin

variable (output : Output) (args : List Text)

theorem stays_runCd : (runCd output args).Stays := by
  intro world status
  rw [runCd]
  by_cases many : 1 < args.tail.length
  · rw [if_pos many]
    simp [outcome_bind]
  rw [if_neg many]
  simp only [outcome_bind, outcome_get, outcome_ofExcept]
  rcases cdTarget world args.tail.head? with e | ⟨target, shown⟩
  · simp [Except.mapError]
  · simp only [Except.mapError]
    split
    · simp
    · simp only [outcome_bind, outcome_set]
      split
      · exact Stays.bind (fun _ => .proceed) _ _
      · simp

/-- Only `exit` asks to leave. -/
theorem stays_run {b : Builtin} (other : b ≠ .exit) : (b.run output args).Stays := by
  cases b with
  | exit => contradiction
  | cd => exact stays_runCd output args
  | pwd =>
    refine .bind fun world => ?_
    split
    · exact .bind fun _ => .bind fun _ => .proceed
    · split
      · exact .bind fun _ => .bind fun _ => .proceed
      · split
        · exact .bind fun _ => .bind fun _ => .proceed
        · exact .bind fun _ => .proceed
  | echo =>
    rw [run, runEcho]
    split
    refine .bind fun _ => .bind fun _ => .bind fun _ => ?_
    dsimp only
    split
    · exact .bind fun _ => .proceed
    · exact .proceed
  | setExport =>
    rw [run, runExport]
    split
    · exact .bind fun _ => .bind fun _ => .proceed
    · exact .bind fun _ => .proceed
  | unset => exact .bind fun _ => .proceed
  | env => exact .bind fun _ => .bind fun _ => .proceed
  | history =>
    refine .bind fun _ => ?_
    dsimp only
    split
    · exact .bind fun _ => .bind fun _ => .proceed
    · split
      · exact .bind fun _ => .bind fun _ => .proceed
      · exact .bind fun _ => .bind fun _ => .proceed
  | type => exact .bind fun _ => .proceed
  | help =>
    rw [run, runHelp]
    split
    · exact .bind fun _ => .proceed
    · split
      · exact .bind fun _ => .proceed
      · exact .bind fun _ => .proceed

theorem runExit_leave {world after : World} {status : Int}
    (leaves : (runExit output args).outcome world = (.ok (.leave status), after)) :
    (args.tail = [] ∧ status = 0) ∨
      ∃ operand, args.tail = [operand] ∧ status = (int32? operand).getD 2 := by
  rw [runExit] at leaves
  split at leaves
  · next noOperand =>
    cases leaves
    exact .inl ⟨noOperand, rfl⟩
  · next operand one =>
    refine .inr ⟨operand, one, ?_⟩
    split at leaves
    · next number =>
      cases leaves
      rw [number, Option.getD_some]
    · next number =>
      obtain ⟨_, _, _, gives⟩ := outcome_bind_ok.mp leaves
      cases gives
      rw [number, Option.getD_none]
  · cases leaves

end Builtin

/-- The line asks to leave with a status: it is `exit` in a single stage, with an operand at
most. -/
def World.AsksToLeave (world : World) (line : Text) (status : Int) : Prop :=
  ∃ p, world.read? line = some (.ok (some p)) ∧ p.assignments? = none ∧ p.right = none ∧
    Builtin.lookup? p.left.program = some .exit ∧
    ((p.left.args.tail = [] ∧ status = 0) ∨
      ∃ operand, p.left.args.tail = [operand] ∧ status = (int32? operand).getD 2)

theorem asksToLeave_of_runLine {quiet : Bool} {line : Text} {world : World} {status : Int}
    (leaves : ((runLine quiet line).outcome world).1 = .ok (.leave status)) :
    world.AsksToLeave line status := by
  obtain ⟨asked, read⟩ := exists_read world line
  match asked with
  | .error e =>
    rw [outcome_runLine_of_error quiet read] at leaves
    cases leaves
  | .ok none =>
    rw [outcome_runLine_of_none quiet read] at leaves
    cases leaves
  | .ok (some p) =>
    cases assigns : p.assignments? with
    | some assignments =>
      rw [outcome_runLine_of_assignments quiet read assigns] at leaves
      cases done : ((assign assignments).outcome world).1 <;> rw [done] at leaves <;> cases leaves
    | none =>
      rw [outcome_runLine_of_command quiet read assigns] at leaves
      cases two : p.right with
      | some right => exact absurd leaves ((runPipeline_of_right quiet two).2 world status)
      | none =>
        cases program : Builtin.lookup? p.left.program with
        | none => exact absurd leaves ((runPipeline_of_program quiet two program).2 world status)
        | some b =>
          rw [runPipeline_of_builtin quiet two program] at leaves
          rcases outcome_runBuiltin world b p.left with
            ⟨e, mid, -, ran⟩ | ⟨files, mid, -, ran⟩
          · rw [ran] at leaves
            cases leaves
          rw [ran] at leaves
          have left := runOutput_ok leaves
          by_cases exits : b = .exit
          · subst exits
            exact ⟨p, read, assigns, two, program,
              Builtin.runExit_leave (mid.output files) p.left.args (Prod.ext left rfl)⟩
          · exact absurd left (Builtin.stays_run (mid.output files) p.left.args exits mid status)

/-- What a shell comes to that has told of an error and ends. -/
def World.endsOver (world : World) (e : ShellError) : Int × World :=
  match world.told? ("vena: ".toList ++ e.message) with
  | some after => (1, after.flushed)
  | none => (crashStatus, world.flushed)

theorem outcome_setUp_cases (world : World) :
    (∃ e, setUp.outcome world = (.error (.error e), world)) ∨
      setUp.outcome world = (.ok (), world) := by
  rw [setUp, outcome_bind, outcome_get]
  dsimp only
  split
  · exact .inl ⟨_, rfl⟩
  split
  · exact .inl ⟨_, rfl⟩
  split
  · exact .inl ⟨_, rfl⟩
  · exact .inr rfl

theorem runMain_of_parsed (source : LineSource σ) (state : σ) (turns : Nat) {args : List Text}
    {flags : Flags} (world : World) (parsed : Flags.parse {} args = (.ok (), flags))
    (noHelp : flags.isSet .help = false) (noVersion : flags.isSet .version = false) :
    runMain source state turns args world =
      match (setUp >>= fun _ => runShell source state turns flags).outcome world with
      | (.ok status, after) => (status, after.flushed)
      | (.error (.error e), after) => after.endsOver e
      | (.error .crash, after) => (crashStatus, after.flushed) := by
  have program : runProgram source state turns args =
      (setUp >>= fun _ => runShell source state turns flags) := by
    rw [runProgram, parsed]
    dsimp only
    rw [noHelp, noVersion]
    rfl
  have main : runMain source state turns args world =
      match (runReporting source state turns args).outcome world with
      | (.ok status, after) => (status, after.flushed)
      | (.error _, after) => (crashStatus, after.flushed) := rfl
  rw [main, runReporting, outcome_bind, outcome_attempt, program]
  rcases (setUp >>= fun _ => runShell source state turns flags).outcome world with
    ⟨(e | -) | status, after⟩
  · simp only [outcome_bind, tellError, outcome_tell, List.append_nil, World.endsOver]
    cases after.told? ("vena: ".toList ++ e.message) <;> rfl
  · rfl
  · rfl

/-- The run of a shell. If it cannot be set up, or if its rc file cannot be had and that matters, it
tells of that and ends with status 1, and no line is run. Otherwise it runs the lines of that file
and then those of its input, each in the state that the line before has left, and writes their
errors to standard error, as far as the first line that asks to leave (or the first crash); its
status is then the one asked for, and 0 if no line asks. -/
theorem runMain_course (source : LineSource σ) (state : σ) {turns : Nat} {args : List Text}
    {flags : Flags} {inputs : List Text} (world : World)
    (parsed : Flags.parse {} args = (.ok (), flags)) (noHelp : flags.isSet .help = false)
    (noVersion : flags.isSet .version = false) (enough : inputs.length < turns) :
    let quiet := flags.isSet .quiet
    ((∃ e, setUp.outcome world = (.error (.error e), world) ∧
        runMain source state turns args world = world.endsOver e) ∨
      setUp.outcome world = (.ok (), world) ∧
      (∀ rc, RcFails flags world rc → ∃ e, rc.load world = .error e ∧
        runMain source state turns args world = world.endsOver (.config e)) ∧
      ∀ rcLines, rcTurns? flags world = some rcLines →
        (∀ mid, Course rcLines (state, world) (.ok none) mid → Delivers source quiet inputs mid) →
        ∃ answer last,
          Course (rcLines ++ inputs.map (inputTurn source quiet)) (state, world) answer last ∧
          runMain source state turns args world = match answer with
            | .ok none =>
              match farewell source quiet last with
              | .ok after => (0, after.flushed)
              | .error after => (crashStatus, after.flushed)
            | .ok (some status) => (status, last.2.flushed)
            | .error _ => (crashStatus, last.2.flushed)) ∧
    ∀ (quiet : Bool) (line : Text) (here : World) (status : Int),
      ((runLine quiet line).outcome here).1 = .ok (.leave status) → here.AsksToLeave line status := by
  intro quiet
  refine ⟨?_, fun _ _ _ _ leaves => asksToLeave_of_runLine leaves⟩
  have main := runMain_of_parsed source state turns world parsed noHelp noVersion
  rw [outcome_bind] at main
  rcases outcome_setUp_cases world with ⟨e, refused⟩ | ready
  · rw [refused] at main
    exact .inl ⟨e, refused, main⟩
  rw [ready] at main
  dsimp only at main
  refine .inr ⟨ready, fun rc fails => ?_, fun rcLines chosen delivers => ?_⟩
  · obtain ⟨e, failed, sourced⟩ := outcome_sourceRc_of_fails fails
    refine ⟨e, failed, ?_⟩
    rw [main, runShell, outcome_bind, sourced]
  · obtain ⟨answer, last, course, ran⟩ := course_runShell chosen delivers enough
    refine ⟨answer, last, course, ?_⟩
    rw [main, ran]
    rcases answer with (e | -) | (- | status)
    · exact absurd rfl (course.ne_error e)
    · rfl
    · rw [closing]
      cases farewell source quiet last <;> rfl
    · rfl

/-- Lines that are all at hand. -/
def scripted : LineSource (List Text)
  | [], world => (.error .endOfInput, [], world)
  | line :: rest, world => (.ok line, rest, world)

theorem delivers_scripted (quiet : Bool) {lines : List Text} {s : List Text × World}
    (atHand : s.1 = lines) : Delivers scripted quiet lines s := by
  induction lines generalizing s with
  | nil =>
    intro world _
    rw [atHand]
    rfl
  | cons line rest ih =>
    refine ⟨fun world _ => by rw [atHand]; rfl, fun next comes => ih ?_⟩
    have ready {state : List Text} {there : World}
        (ready : (inputTurn scripted quiet line).ready s = .ok (state, there)) : state = rest := by
      rw [inputTurn] at ready
      simp only [atHand] at ready
      cases reported : s.2.reported quiet with
      | error after => simp [reported, Except.map] at ready
      | ok after =>
        simp only [reported, Except.map, scripted] at ready
        exact (congrArg Prod.fst (Except.ok.inj ready)).symm
    cases comes with
    | ran atHand => exact ready atHand
    | told atHand => exact ready atHand

theorem state_of_course_rcTurn {quiet : Bool} {rc : RcFile} {lines : List Text} {s mid : σ × World}
    (course : Course (lines.map (rcTurn quiet rc)) s (.ok none) mid) : mid.1 = s.1 := by
  induction lines generalizing s with
  | nil =>
    cases course with
    | finished => rfl
  | cons line rest ih =>
    rw [List.map_cons] at course
    cases course with
    | ended _ ends => exact absurd rfl ends
    | next first others =>
      have same : ∀ {state ready}, (rcTurn quiet rc line).ready s = .ok (state, ready) →
          state = s.1 := fun atHand => (congrArg Prod.fst (Except.ok.inj atHand)).symm
      rw [ih others]
      cases first with
      | ran atHand => exact same atHand
      | told atHand => exact same atHand

/-- A shell on a tree in which `/rc` is the only file. -/
def shellWithRc (content : String) : World where
  place := .root
  descriptors := ∅
  machine := {
    root := .dir [("rc".toList, .file (encode content.toList) .standard)] .standard }

/-- A shell that has its rc file in `/`, which is the home directory by the accounts. Its standard
error goes to a buffer. -/
def shellAtRoot (content : String) : World where
  place := .root
  descriptors := .ofList [(Descriptors.stderr, ⟨0, false⟩)]
  machine := {
    root := .dir [(RcFile.usualName, .file (encode content.toList) .standard)] .standard
    streams := [⟨.buffer 0, false, true, true, 0⟩]
    buffers := [[]] }
  accountHome := "/".toList

/-- Of an rc file the first line fails and is told of, the last one leaves, and no line of input is
read. -/
theorem runMain_course_exit :
    let world := shellAtRoot "A=1 >\n\nB=2\nexit 7"
    let flags : Flags := { quiet := some "true".toList }
    let rcLines : List (Turn (List Text)) :=
      ["A=1 >".toList, "B=2".toList, "exit 7".toList].map
        (rcTurn true ⟨Path.push "/".toList RcFile.usualName, false⟩)
    let inputs := ["exit 8".toList]
    Flags.parse {} ["-q".toList] = (.ok (), flags) ∧ world.getenv "HOME" = none ∧
      rcTurns? flags world = some rcLines ∧
      (∀ mid, Course rcLines (inputs, world) (.ok none) mid → Delivers scripted true inputs mid) ∧
      ∃ last, Course (rcLines ++ inputs.map (inputTurn scripted true)) (inputs, world)
          (.ok (some 7)) last ∧
        runMain scripted inputs 2 ["-q".toList] world = (7, last.2.flushed) ∧
        last.2.flushed.machine.buffers =
          [encode "vena: /.venarc: syntax error: no file after >\n".toList] := by
  intro world flags rcLines inputs
  have parsed : Flags.parse {} ["-q".toList] = (.ok (), flags) := by decide +kernel
  have homeless : world.getenv "HOME" = none := by decide +kernel
  have status : (runMain scripted inputs 2 ["-q".toList] world).1 = 7 := by decide +kernel
  have told : (runMain scripted inputs 2 ["-q".toList] world).2.machine.buffers =
          [encode "vena: /.venarc: syntax error: no file after >\n".toList] := by
    decide +kernel
  have content : RcFile.readText world (Path.push "/".toList RcFile.usualName) =
      .ok "A=1 >\n\nB=2\nexit 7".toList := by decide +kernel
  have chosen : rcTurns? flags world = some rcLines := by
    have kept : RcFile.linesOf "A=1 >\n\nB=2\nexit 7".toList =
        ["A=1 >".toList, "B=2".toList, "exit 7".toList] := by decide +kernel
    have file : RcFile.ofFlags? world flags =
        some ⟨Path.push "/".toList RcFile.usualName, false⟩ := by decide +kernel
    simp only [rcTurns?, file, content, kept]
    rfl
  have delivers (mid : List Text × World) (course : Course rcLines (inputs, world) (.ok none) mid) :
      Delivers scripted true inputs mid := delivers_scripted true (state_of_course_rcTurn course)
  obtain ⟨ends, -⟩ := runMain_course scripted inputs world parsed rfl rfl
    (by decide : inputs.length < 2)
  have ready : setUp.outcome world = (.ok (), world) := rfl
  rcases ends with ⟨e, refused, -⟩ | ⟨-, -, runs⟩
  · exact absurd (congrArg Prod.fst (ready.symm.trans refused)) (by simp)
  obtain ⟨answer, last, course, ran⟩ := runs rcLines chosen delivers
  rw [ran] at status told
  refine ⟨parsed, homeless, chosen, delivers, last, ?_⟩
  rw [ran]
  rcases answer with e | (- | left)
  · simp [crashStatus] at status
  · cases ended : farewell scripted (flags.isSet .quiet) last <;>
      simp [ended, crashStatus] at status
  · obtain rfl : left = 7 := status
    exact ⟨course, rfl, told⟩

end LineShell
