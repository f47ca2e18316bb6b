import LineShell.Proofs.WordLoss

/-! A pass of the main loop that a signal handler interrupts. Between any two operations of the main
pass a child can end and a handler can run a whole pass of its own. The word of a tracked job
reaches its report exactly when no handler strikes while the main pass holds that word and its slot
still says that the job runs (`reported_iff_not_struck`). -/

namespace LineShell.Atomic
open JobTable

variable {p i : Nat} {m : Memory} {pc : Pc}

/-- The main pass, and the pass of the handler that has interrupted it. -/
structure Config where
  memory : Memory
  main : Pc := .start
  handler : Option Pc := none

inductive Action
  /-- The next operation, of the handler as long as there is one. -/
  | step
  | signal
  | ends (pid : Nat) (word : StatusWord)
  deriving Repr, DecidableEq

namespace Config

def act (c : Config) : Action → Config
  | .step =>
    match c.handler with
    | none =>
      let (memory, main) := c.main.step c.memory
      { c with memory, main }
    | some pc =>
      let (memory, next) := pc.step c.memory
      { c with memory, handler := if next = .finished then none else some next }
  | .signal => { c with handler := some .start }
  | .ends pid word =>
    { c with memory := c.memory.withChildren (c.memory.children.finish pid word) }

/-- A handler is not interrupted by its own signal, and a child ends once. -/
def Allows (c : Config) : Action → Prop
  | .step => True
  | .signal => c.handler = none
  | .ends pid _ => c.memory.children.status? pid = some .running

/-- The schedule can happen, and stops when the main pass has finished. -/
def AllowsAll : Config → List Action → Prop
  | _, [] => True
  | c, a :: rest => c.main ≠ .finished ∧ c.Allows a ∧ (c.act a).AllowsAll rest

def run (c : Config) (schedule : List Action) : Config := schedule.foldl act c

/-- At some point of the schedule a handler starts while the main pass holds the word. -/
def Struck (pid : Nat) : Config → List Action → Prop
  | _, [] => False
  | c, a :: rest => (a = .signal ∧ c.main.Holds pid) ∨ Struck pid (c.act a) rest

instance decidableAllows (c : Config) : (a : Action) → Decidable (c.Allows a)
  | .step => .isTrue trivial
  | .signal => inferInstanceAs (Decidable (c.handler = none))
  | .ends pid _ => inferInstanceAs (Decidable (c.memory.children.status? pid = some .running))

instance decidableAllowsAll :
    (c : Config) → (schedule : List Action) → Decidable (c.AllowsAll schedule)
  | _, [] => .isTrue trivial
  | c, a :: rest =>
    @instDecidableAnd _ _ _ (@instDecidableAnd _ _ _ (decidableAllowsAll (c.act a) rest))

instance decidableStruck (pid : Nat) :
    (c : Config) → (schedule : List Action) → Decidable (c.Struck pid schedule)
  | _, [] => .isFalse id
  | c, a :: rest => @instDecidableOr _ _ _ (decidableStruck pid (c.act a) rest)

/-- What a drain reports of one child. -/
def reports (c : Config) (pid : Nat) : List (Nat × ChildState) :=
  c.memory.table.drain.1.filter fun report => report.1 = pid

/-- A pass is about to start, over jobs that run. -/
structure Fresh (c : Config) : Prop where
  main : c.main = .start
  handler : c.handler = none
  quiet : c.memory.foreground = 0
  distinct : c.memory.children.Distinct
  phases : ∀ i < c.memory.size,
    (c.memory.cells i).phase = .free ∨ (c.memory.cells i).phase = .running
  apart : ∀ i < c.memory.size, ∀ j < c.memory.size, (c.memory.cells i).phase = .running →
    (c.memory.cells j).phase = .running → (c.memory.cells i).pid = (c.memory.cells j).pid → i = j

end Config

namespace Config

/-- The pass at work. -/
def active (c : Config) : Pc := c.handler.getD c.main

def suspended (c : Config) : Option Pc := c.handler.map fun _ => c.main

/-- The word of the job `p` in slot `i` is on its way. -/
def Safe (p i : Nat) (word : Option StatusWord) (c : Config) : Prop :=
  Clear p i c.memory ∧ Stage p i word c.memory c.active c.suspended

def Spoiled (p i : Nat) (c : Config) : Prop := Doomed p i c.memory c.active c.suspended

theorem Safe.step {c : Config} {word : Option StatusWord} (safe : c.Safe p i word) :
    (c.act .step).Safe p i word := by
  obtain ⟨memory, main, handler⟩ := c
  obtain ⟨clear, stage⟩ := safe
  have next := stage.step clear
  cases handler with
  | none => exact next
  | some pc =>
    obtain ⟨still_clear, still_stage⟩ := next
    refine ⟨still_clear, ?_⟩
    simp only [active, suspended, act]
    split
    · next ended =>
      rw [active, Option.getD_some, ended] at still_stage
      exact still_stage.resume
    · exact still_stage

theorem Spoiled.step {c : Config} (spoiled : c.Spoiled p i) : (c.act .step).Spoiled p i := by
  obtain ⟨memory, main, handler⟩ := c
  have next := Doomed.step spoiled
  cases handler with
  | none => exact next
  | some pc =>
    simp only [Spoiled, active, suspended, act]
    split
    · next ended =>
      rw [active, Option.getD_some, ended] at next
      exact next.resume
    · exact next

theorem Safe.act {c : Config} {word : Option StatusWord} (safe : c.Safe p i word) {a : Action}
    (allowed : c.Allows a) (unstruck : ¬ (a = .signal ∧ c.main.Holds p)) :
    ∃ now, (c.act a).Safe p i now ∧ (∀ w, word = some w → now = some w) ∧
      ∀ w, a = .ends p w → now = some w := by
  cases a with
  | step => exact ⟨word, safe.step, fun _ => id, by simp⟩
  | signal =>
    obtain ⟨memory, main, handler⟩ := c
    obtain rfl : handler = none := allowed
    have free : ¬ main.Holds p := fun holds => unstruck ⟨rfl, holds⟩
    exact ⟨word, ⟨safe.1, safe.2.signal free⟩, fun _ => id, by simp⟩
  | ends q w =>
    obtain ⟨clear, stage⟩ := safe
    have still_clear := clear.withChildren (clear.distinct.finish q w)
    refine ⟨_, ⟨still_clear, stage.ends allowed w⟩, fun v told => ?_, fun v told => ?_⟩
    · subst told
      refine if_neg ?_
      rintro rfl
      exact stage.not_running allowed
    · obtain ⟨rfl, rfl⟩ := Action.ends.inj told
      exact if_pos rfl

theorem Safe.strike {c : Config} {word : Option StatusWord} (safe : c.Safe p i word)
    (allowed : c.Allows .signal) (holds : c.main.Holds p) : (c.act .signal).Spoiled p i := by
  obtain ⟨memory, main, handler⟩ := c
  obtain rfl : handler = none := allowed
  exact safe.2.strike safe.1 holds

theorem Spoiled.act {c : Config} (spoiled : c.Spoiled p i) {a : Action} (allowed : c.Allows a) :
    (c.act a).Spoiled p i := by
  cases a with
  | step => exact spoiled.step
  | signal =>
    obtain ⟨memory, main, handler⟩ := c
    obtain rfl : handler = none := allowed
    cases spoiled with
    | lost inside cell distinct leaves =>
      exact .lost inside cell distinct trivial fun b mem => Option.some.inj mem ▸ leaves
  | ends q w => exact Doomed.ends spoiled allowed w

/-- As long as no handler strikes, the word of a job stays on its way. -/
theorem Safe.run {c : Config} {word : Option StatusWord} (safe : c.Safe p i word)
    {schedule : List Action} (allowed : c.AllowsAll schedule) (unstruck : ¬ c.Struck p schedule) :
    ∃ now, (c.run schedule).Safe p i now ∧ (∀ w, word = some w → now = some w) ∧
      ∀ w, .ends p w ∈ schedule → now = some w := by
  induction schedule generalizing c word with
  | nil => exact ⟨word, safe, fun _ => id, by simp⟩
  | cons a rest ih =>
    obtain ⟨-, here, later⟩ := allowed
    obtain ⟨free, still_free⟩ := not_or.mp unstruck
    obtain ⟨next, next_safe, kept, told⟩ := safe.act here free
    obtain ⟨now, now_safe, still_kept, still_told⟩ := ih next_safe later still_free
    refine ⟨now, now_safe, fun w h => still_kept w (kept w h), fun w h => ?_⟩
    rcases List.mem_cons.mp h with first | more
    · exact still_kept w (told w first.symm)
    · exact still_told w more

theorem Spoiled.run {c : Config} (spoiled : c.Spoiled p i) {schedule : List Action}
    (allowed : c.AllowsAll schedule) : (c.run schedule).Spoiled p i := by
  induction schedule generalizing c with
  | nil => exact spoiled
  | cons a rest ih =>
    obtain ⟨-, here, later⟩ := allowed
    exact ih (spoiled.act here) later

/-- Once a handler has struck, the word does not come into the slot. -/
theorem Safe.spoiled {c : Config} {word : Option StatusWord} (safe : c.Safe p i word)
    {schedule : List Action} (allowed : c.AllowsAll schedule) (struck : c.Struck p schedule) :
    (c.run schedule).Spoiled p i := by
  induction schedule generalizing c word with
  | nil => exact struck.elim
  | cons a rest ih =>
    obtain ⟨-, here, later⟩ := allowed
    by_cases first : a = .signal ∧ c.main.Holds p
    · obtain ⟨rfl, holds⟩ := first
      exact Spoiled.run (safe.strike here holds) later
    · obtain ⟨next, next_safe, -, -⟩ := safe.act here first
      exact ih next_safe later (struck.resolve_left first)

end Config

namespace Config

/-- No guard is held, and the main pass does not finish before every child that has ended is
collected. -/
structure Orderly (c : Config) : Prop where
  quiet : c.memory.foreground = 0
  distinct : c.memory.children.Distinct
  last : c.main = .finished → c.handler = none ∧ c.memory.children.ended = []

theorem Orderly.act {c : Config} (orderly : c.Orderly) (unfinished : c.main ≠ .finished)
    (a : Action) : (c.act a).Orderly := by
  obtain ⟨memory, main, handler⟩ := c
  obtain ⟨quiet, distinct, -⟩ := orderly
  cases a with
  | step =>
    cases handler with
    | none =>
      obtain ⟨-, foreground, still_distinct⟩ := step_frame distinct main
      refine ⟨foreground.trans quiet, still_distinct, fun done => ⟨rfl, ?_⟩⟩
      obtain ⟨none_ended, same⟩ := step_finished quiet unfinished done
      exact (congrArg (ChildTable.ended ∘ Memory.children) same).trans none_ended
    | some pc =>
      obtain ⟨-, foreground, still_distinct⟩ := step_frame distinct pc
      exact ⟨foreground.trans quiet, still_distinct, fun done => absurd done unfinished⟩
  | signal => exact ⟨quiet, distinct, fun done => absurd done unfinished⟩
  | ends q w => exact ⟨quiet, distinct.finish q w, fun done => absurd done unfinished⟩

theorem Orderly.run {c : Config} (orderly : c.Orderly) {schedule : List Action}
    (allowed : c.AllowsAll schedule) : (c.run schedule).Orderly := by
  induction schedule generalizing c with
  | nil => exact orderly
  | cons a rest ih =>
    obtain ⟨unfinished, -, later⟩ := allowed
    exact ih (orderly.act unfinished a) later

end Config

/-- What a drain reports of one child is what the slots say of it. -/
theorem reports_eq (c : Config) (pid : Nat) : c.reports pid =
    (List.range c.memory.size).filterMap fun k =>
      (report? (c.memory.cells k).slot).filter fun report => report.1 = pid := by
  rw [Config.reports, drain, Memory.table, List.filterMap_map, List.filter_filterMap]
  rfl

theorem filterMap_range_eq_singleton {α : Type} {n i : Nat} {f : Nat → Option α} {x : α}
    (inside : i < n) (here : f i = some x) (elsewhere : ∀ k < n, k ≠ i → f k = none) :
    (List.range n).filterMap f = [x] := by
  induction n with
  | zero => contradiction
  | succ n ih =>
    rw [List.range_succ, List.filterMap_append]
    by_cases last : i = n
    · subst last
      have before : (List.range i).filterMap f = [] := by
        refine List.filterMap_eq_nil_iff.mpr fun k hk => ?_
        have less := List.mem_range.mp hk
        exact elsewhere k (by omega) (by omega)
      simp [before, here]
    · rw [ih (by omega) fun k less => elsewhere k (by omega)]
      simp [elsewhere n (by omega) (Ne.symm last)]

theorem reports_of_settled {c : Config} {word : StatusWord} (clear : Clear p i c.memory)
    (phase : (c.memory.cells i).phase = .done) (filled : (c.memory.cells i).word = some word) :
    c.reports p = [(p, .ofWord word)] := by
  rw [reports_eq]
  refine filterMap_range_eq_singleton clear.inside ?_ fun k inside elsewhere => ?_
  · simp [Cell.slot, phase, report?, clear.own, filled]
  · by_cases own : (c.memory.cells k).pid = p
    · rcases clear.others k inside elsewhere own with free | claimed
      · simp [Cell.slot, free, report?]
      · simp [Cell.slot, claimed, report?]
    · cases shown : (c.memory.cells k).phase <;> simp [Cell.slot, shown, report?, own]

theorem mem_reports_of_lost {c : Config} (inside : i < c.memory.size)
    (cell : c.memory.cells i = ⟨.done, p, none⟩) : (p, .reaped) ∈ c.reports p := by
  rw [reports_eq]
  refine List.mem_filterMap.mpr ⟨i, List.mem_range.mpr inside, ?_⟩
  simp [cell, Cell.slot, report?]

namespace Config

theorem Fresh.safe {c : Config} (fresh : c.Fresh) (tracked : c.memory.table.slot i = .running p)
    {word : Option StatusWord} (status : c.memory.children.status? p = some (standing word)) :
    c.Safe p i word := by
  obtain ⟨memory, main, handler⟩ := c
  obtain ⟨rfl, rfl, quiet, distinct, phases, apart⟩ := fresh
  have inside : i < memory.size := memory.length_table ▸ inside_of_running tracked
  rw [Memory.slot_table _ inside] at tracked
  have settled : (memory.cells i).phase ≠ .finishing := by
    have idle : (memory.cells i).phase = .free ∨ (memory.cells i).phase = .running :=
      phases i inside
    rcases idle with free | running
    · simp [free]
    · simp [running]
  obtain ⟨running, own⟩ := (slot_eq_running settled).mp tracked
  refine ⟨⟨inside, own, fun k bound elsewhere same => ?_, quiet, distinct⟩,
    .waiting running status trivial (by simp [suspended])⟩
  refine (phases k bound).imp_right fun other => ?_
  exact absurd (apart k bound i inside other running (same.trans own.symm)) elsewhere

/-- A child ends before the pass, or during it. -/
def Ended (c : Config) (pid : Nat) (word : StatusWord) (schedule : List Action) : Prop :=
  c.memory.children.status? pid = some (.ended word) ∨
  (c.memory.children.status? pid = some .running ∧ .ends pid word ∈ schedule)

/-- Whatever the handlers do, a tracked job that has ended is reported exactly once and with its
own word, except when a handler strikes while the main pass holds that word. -/
theorem reported_iff_not_struck {c : Config} (fresh : c.Fresh) {i pid : Nat}
    (tracked : c.memory.table.slot i = .running pid) {schedule : List Action}
    (allowed : c.AllowsAll schedule) (finished : (c.run schedule).main = .finished)
    {word : StatusWord} (ended : c.Ended pid word schedule) :
    (c.run schedule).reports pid = [(pid, .ofWord word)] ↔ ¬ c.Struck pid schedule := by
  have orderly : c.Orderly := by
    refine ⟨fresh.quiet, fresh.distinct, fun done => ?_⟩
    rw [fresh.main] at done
    contradiction
  obtain ⟨-, last_distinct, last⟩ := orderly.run allowed
  obtain ⟨unhandled, none_ended⟩ := last finished
  have active : (c.run schedule).active = .finished := by
    rw [Config.active, unhandled, finished]
    rfl
  have alone : (c.run schedule).suspended = none := by rw [suspended, unhandled, Option.map_none]
  obtain ⟨first, safe, told⟩ : ∃ first, c.Safe pid i first ∧
      (first = some word ∨ .ends pid word ∈ schedule) := by
    rcases ended with before | ⟨alive, during⟩
    · exact ⟨some word, fresh.safe tracked before, .inl rfl⟩
    · exact ⟨none, fresh.safe tracked alive, .inr during⟩
  -- The main pass has finished, so the word is in the slot or it is lost.
  constructor
  · intro reported struck
    have spoiled := safe.spoiled allowed struck
    rw [Spoiled, active, alone] at spoiled
    cases spoiled with
    | lost bound cell =>
      have mark := mem_reports_of_lost bound cell
      rw [reported, List.mem_singleton, Prod.mk.injEq] at mark
      exact ofWord_ne_reaped word mark.2.symm
  · intro unstruck
    obtain ⟨now, ⟨clear, stage⟩, kept, learnt⟩ := safe.run allowed unstruck
    obtain rfl : now = some word := told.elim (kept word) (learnt word)
    rw [active, alone] at stage
    cases stage with
    | waiting phase status =>
      -- The last thing a pass does is to find no child that has ended.
      have left := (ChildTable.mem_ended_iff last_distinct).mpr status
      rw [none_ended] at left
      contradiction
    | held phase status holding => exact holding.elim
    | filling phase status filling => exact filling.elim
    | settled phase filled => exact reports_of_settled clear phase filled

/-- One job in the table, which has ended or still runs. -/
def lone (status : ChildStatus) : Config where
  memory :=
    { size := capacity
      cells := fun k => if k = 0 then { phase := .running, pid := 7 } else {}
      children := ⟨[(7, status)]⟩ }

theorem fresh_lone (status : ChildStatus) : (lone status).Fresh := by
  refine ⟨rfl, rfl, rfl, by simp [lone, ChildTable.Distinct, ChildTable.pids], ?_, ?_⟩
  · intro i _
    by_cases here : i = 0
    · simp [lone, here]
    · simp [lone, here]
  · intro i _ j _ at_i at_j _
    have only (k : Nat) (running : ((lone status).memory.cells k).phase = .running) : k = 0 := by
      by_contra elsewhere
      simp [lone, elsewhere] at running
    rw [only i at_i, only j at_j]

/-- The handler strikes after the phase is loaded, and collects the job itself. -/
def collected : List Action := [.step, .step, .signal] ++ List.replicate 141 .step

/-- The handler strikes after the main pass has collected the job. -/
def struck : List Action := [.step, .step, .step, .signal] ++ List.replicate 204 .step

/-- The job ends when its slot has been passed, and the handler strikes in the sweep. -/
def struckInSweep : List Action :=
  List.replicate 68 .step ++ [.ends 7 0x300, .step, .signal] ++ List.replicate 208 .step

theorem reported_iff_not_struck_collected :
    let c := lone (.ended 0x300)
    c.Fresh ∧ c.memory.table.slot 0 = .running 7 ∧ c.AllowsAll collected ∧
      (c.run collected).main = .finished ∧ c.Ended 7 0x300 collected ∧
      (c.run collected).reports 7 = [(7, .exited 3)] := by
  have fresh := fresh_lone (.ended 0x300)
  have tracked : (lone (.ended 0x300)).memory.table.slot 0 = .running 7 := rfl
  have allowed : (lone (.ended 0x300)).AllowsAll collected := by decide +kernel
  have finished : ((lone (.ended 0x300)).run collected).main = .finished := by decide +kernel
  have ended : (lone (.ended 0x300)).Ended 7 0x300 collected := .inl rfl
  have unstruck : ¬ (lone (.ended 0x300)).Struck 7 collected := by decide +kernel
  have reported := reported_iff_not_struck fresh tracked allowed finished ended
  exact ⟨fresh, tracked, allowed, finished, ended, reported.mpr unstruck⟩

/-- A job of which a handler takes the slot while the main pass has its word is reported without
it, and twice when that happens in the sweep. -/
theorem struck_reports :
    let c := lone (.ended 0x300)
    let d := lone .running
    (c.Fresh ∧ c.memory.table.slot 0 = .running 7 ∧ c.AllowsAll struck ∧
      (c.run struck).main = .finished ∧ c.Ended 7 0x300 struck ∧
      (c.run struck).reports 7 = [(7, .reaped)]) ∧
    d.Fresh ∧ d.memory.table.slot 0 = .running 7 ∧ d.AllowsAll struckInSweep ∧
      (d.run struckInSweep).main = .finished ∧ d.Ended 7 0x300 struckInSweep ∧
      (d.run struckInSweep).reports 7 = [(7, .reaped), (7, .exited 3)] := by
  refine ⟨⟨fresh_lone _, rfl, ?_, ?_, .inl rfl, ?_⟩, fresh_lone _, rfl, ?_, ?_, .inr ⟨rfl, ?_⟩, ?_⟩
  all_goals decide +kernel

end Config

end LineShell.Atomic
