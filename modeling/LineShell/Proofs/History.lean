import LineShell.Proofs.OwnState
import LineShell.Shell

/-! The life of a shell as a history. Lines are run one after the other, and between them other
things happen that leave the variables alone: messages, reports of jobs, reading input. Whatever
the shell does, from its rc file to the end of its input, is such a history
(`leads_runShell_inputLines`). -/

namespace LineShell

open Act

/-- What can happen to a shell: it runs a line, or it finds itself in another world with its
variables as they were. -/
inductive Happening
  | line (text : Text)
  | meanwhile (there : World)

def Happening.step (quiet : Bool) (world : World) : Happening → World
  | line text => ((runLine quiet text).outcome world).2
  | meanwhile there => there.withVars world.session.vars

/-- The world after a history, whatever came of its lines. -/
def World.after (quiet : Bool) (world : World) (history : List Happening) : World :=
  history.foldl (Happening.step quiet) world

/-- There is a history from one world to another. -/
def Leads (quiet : Bool) (before after : World) : Prop :=
  ∃ history, before.after quiet history = after

variable {quiet : Bool} {before mid after world : World}

theorem after_append (world : World) (front back : List Happening) :
    world.after quiet (front ++ back) = (world.after quiet front).after quiet back :=
  List.foldl_append ..

theorem after_concat (world : World) (history : List Happening) (last : Happening) :
    world.after quiet (history ++ [last]) = last.step quiet (world.after quiet history) :=
  after_append ..

namespace Leads

theorem refl : Leads quiet world world := ⟨[], rfl⟩

theorem trans (first : Leads quiet before mid) (second : Leads quiet mid after) :
    Leads quiet before after := by
  obtain ⟨front, rfl⟩ := first
  obtain ⟨back, rfl⟩ := second
  exact ⟨front ++ back, after_append ..⟩

theorem line (text : Text) : Leads quiet world ((runLine quiet text).outcome world).2 :=
  ⟨[.line text], rfl⟩

theorem meanwhile (same : after.session.vars = before.session.vars) : Leads quiet before after := by
  refine ⟨[.meanwhile after], ?_⟩
  show after.withVars before.session.vars = after
  rw [← same]
  rfl

end Leads

instance : Onward (Leads quiet) := ⟨fun _ => .refl, .trans⟩

/-- What a shell does in its lines, and between them, is within a relation. -/
structure Serving (R : World → World → Prop) (quiet : Bool) : Prop where
  lines : ∀ line, (runLine quiet line).Within R
  records : ∀ line world, R world (World.record world line)
  writes : ∀ before after, before.Wrote after → R before after
  settles : ∀ world : World, R world { world with machine := world.machine.settle world.held }
  finishes : ∀ world : World, R world world.finishedJobs.2

namespace Serving

variable {R : World → World → Prop} [Onward R]

omit [Onward R] in
theorem tell (serving : Serving R quiet) (text : Text) :
    (tell text : Act ShellError Unit).Within R :=
  (wrote_tell text).mono serving.writes

/-- Before a line is read, everyone goes on, and jobs that have ended are told of. -/
theorem reportJobs (serving : Serving R quiet) :
    (reportJobs quiet : Act ShellError Unit).Within R := by
  intro world
  rw [LineShell.reportJobs, outcome_bind, outcome_get]
  dsimp only
  rw [outcome_bind, outcome_set]
  dsimp only
  refine Onward.trans (Onward.trans (serving.settles world) (serving.finishes _)) ?_
  split
  · exact Within.forM (fun _ => serving.tell _) _ _
  · exact Within.pure _ _

theorem executeLine (serving : Serving R quiet) (line : Text) :
    (executeLine quiet line).Within R := by
  rw [LineShell.executeLine]
  split
  · exact .bind (.modify (serving.records line)) fun _ => serving.lines line
  · exact serving.lines line

theorem runTelling (serving : Serving R quiet) (label : Text) {run : Act ShellError Verdict}
    (led : run.Within R) : (runTelling label run).Within R := by
  refine .bind led.attempt ?_
  rintro ((e | -) | (- | status))
  · exact .bind (serving.tell _) fun _ => .pure _
  · exact .throw _
  · exact .pure _
  · exact .pure _

theorem runLines (serving : Serving R quiet) (label : Text) (lines : List Text) :
    (runLines quiet label lines).Within R := by
  induction lines with
  | nil => exact .pure _
  | cons line rest ih =>
    refine .bind (serving.runTelling label (serving.lines line)) ?_
    rintro (- | status)
    · exact ih
    · exact .pure _

theorem serve (serving : Serving R quiet) {σ : Type} {source : LineSource σ}
    (reads : ∀ state world, R world (source state world).2.2) (turns : Nat) (state : σ) :
    (serve source quiet turns state).Within R := by
  induction turns generalizing state with
  | zero => exact .pure _
  | succ turns ih =>
    refine .bind serving.reportJobs fun _ world => ?_
    have seen := reads state world
    rw [outcome_bind, outcome_get]
    dsimp only
    rw [outcome_bind, outcome_set]
    dsimp only
    rcases turn : source state world with ⟨answer, later, read⟩
    rw [turn] at seen
    refine Onward.trans seen ?_
    match answer with
    | .ok line =>
      refine Within.bind (serving.runTelling [] (serving.executeLine line)) ?_ read
      rintro (- | status)
      · exact ih later
      · exact .pure _
    | .error .interrupted =>
      dsimp only
      split
      · exact Within.bind (serving.tell _) (fun _ => ih later) read
      · exact ih later read
    | .error .endOfInput =>
      dsimp only
      split
      · exact Within.bind (serving.tell _) (fun _ => .pure _) read
      · exact Within.pure _ read
    | .error (.io cause) => exact Within.fail _ read

/-- So is all that it does from its rc file to the end of its input. -/
theorem runShell {flags : Flags} (serving : Serving R (flags.isSet .quiet)) {σ : Type}
    {source : LineSource σ} (reads : ∀ state world, R world (source state world).2.2) (state : σ)
    (turns : Nat) : (runShell source state turns flags).Within R := by
  have sources : (sourceRc flags).Within R := by
    refine .bind .get fun world => ?_
    split
    · exact .pure _
    · exact .bind (.ofExcept _) fun lines => serving.runLines _ lines
  refine .bind sources ?_
  rintro (- | status)
  · exact serving.serve reads turns state
  · exact .pure _

end Serving

section

variable {R : World → World → Prop} [onward : Onward R]

/-- Lines of standard input are read in chunks. -/
theorem within_inputLines (reads : ∀ {world : World} {stream count : Nat} {bytes : Bytes}
      {machine : Machine},
      world.machine.readStream world.held stream count = .done (bytes, machine) →
        R world { world with machine }) (pending : Bytes) (world : World) :
    R world (inputLines pending world).2.2 := by
  have fills (chunks : Nat) (pending : Bytes) (world : World) :
      R world (fill chunks pending world).2 := by
    induction chunks generalizing pending world with
    | zero => exact onward.refl world
    | succ chunks ih =>
      rw [fill]
      split
      · exact onward.refl world
      split
      · exact onward.refl world
      · next done => exact reads done
      · next done => exact onward.trans (reads done) (ih _ _)
      · exact onward.refl world
      · exact onward.refl world
  have filled := fills (world.inputSize + 1) pending world
  rw [inputLines]
  split <;> rename_i read <;> rw [read] at filled
  · exact filled
  · exact filled
  · dsimp only
    split <;> exact filled

end

/-- Whatever a shell does is a history of its variables. -/
theorem leads_runShell {σ : Type} {source : LineSource σ}
    (reads : ∀ state world, (source state world).2.2.session.vars = world.session.vars)
    (state : σ) (turns : Nat) (flags : Flags) :
    (runShell source state turns flags).Within (Leads (flags.isSet .quiet)) := by
  have serving : Serving (Leads (flags.isSet .quiet)) (flags.isSet .quiet) :=
    { lines := fun line _ => .line line
      records := fun _ _ => .meanwhile rfl
      writes := fun _ _ wrote => .meanwhile (congrArg (fun own => own.1.vars) wrote.own)
      settles := fun _ => .meanwhile rfl
      finishes := fun _ => .meanwhile rfl }
  exact serving.runShell (fun state world => .meanwhile (reads state world)) state turns

theorem vars_inputLines (pending : Bytes) (world : World) :
    (inputLines pending world).2.2.session.vars = world.session.vars :=
  within_inputLines (R := fun before after => after.session.vars = before.session.vars)
    (fun _ => rfl) pending world

theorem leads_runShell_inputLines (turns : Nat) (flags : Flags) :
    (runShell inputLines [] turns flags).Within (Leads (flags.isSet .quiet)) :=
  leads_runShell vars_inputLines [] turns flags

end LineShell
