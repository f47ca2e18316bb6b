import LineShell.Builtin.Basic
import Mathlib.Data.List.Basic

/-! The actions of a shell, taken apart. An action that succeeds has succeeded in each of its parts
(`outcome_bind_ok`), so what a command did is read off its text from the first line to the last.
`Within` says that the world after an action, whether it succeeds or fails, is related to the world
before it, and `CommutesWith` that a change of the world makes no difference to an action; both go
through sequences, failures and clean-ups. -/

namespace LineShell

theorem mapError_eq_ok {ε ε' α : Type} {f : ε → ε'} {result : Except ε α} {a : α} :
    result.mapError f = .ok a ↔ result = .ok a := by
  cases result <;> simp [Except.mapError]

theorem mapError_eq_error {ε ε' α : Type} {f : ε → ε'} {result : Except ε α} {e : ε'} :
    result.mapError f = .error e ↔ ∃ cause, result = .error cause ∧ f cause = e := by
  cases result <;> simp [Except.mapError]

theorem map_eq_error_iff {ε α β : Type} {f : α → β} {result : Except ε α} {e : ε} :
    result.map f = .error e ↔ result = .error e := by
  cases result <;> simp [Except.map]

theorem bind_eq_ok {ε α β : Type} {result : Except ε α} {next : α → Except ε β} {b : β} :
    result >>= next = .ok b ↔ ∃ a, result = .ok a ∧ next a = .ok b := by
  cases result <;> simp [bind, Except.bind]

namespace Act

variable {ε ε' α β : Type} {world world' : World}

/-- What an action gives in a world, and the world that it leaves. -/
def outcome (act : Act ε α) (world : World) : Except (Failure ε) α × World := act.run world

@[simp] theorem outcome_pure (a : α) : (pure a : Act ε α).outcome world = (.ok a, world) := rfl

@[simp] theorem outcome_fail (e : ε) :
    (fail e : Act ε α).outcome world = (.error (.error e), world) := rfl

@[simp] theorem outcome_get : (get : Act ε World).outcome world = (.ok world, world) := rfl

@[simp] theorem outcome_set : (set world' : Act ε PUnit).outcome world = (.ok ⟨⟩, world') := rfl

theorem outcome_modify (f : World → World) :
    (modify f : Act ε PUnit).outcome world = (.ok ⟨⟩, f world) := rfl

theorem outcome_bind (act : Act ε α) (next : α → Act ε β) :
    (act >>= next).outcome world =
      match act.outcome world with
      | (.ok a, world) => (next a).outcome world
      | (.error e, world) => (.error e, world) := by
  show (match act.outcome world with
    | (result, world) => (ExceptT.bindCont next result).run world) = _
  rcases act.outcome world with ⟨_ | _, _⟩ <;> rfl

@[simp] theorem outcome_bind_ok {act : Act ε α} {next : α → Act ε β} {b : β} :
    (act >>= next).outcome world = (.ok b, world') ↔
      ∃ a mid, act.outcome world = (.ok a, mid) ∧ (next a).outcome mid = (.ok b, world') := by
  rw [outcome_bind]
  rcases act.outcome world with ⟨_ | _, _⟩ <;> simp [and_assoc]

@[simp] theorem outcome_ofExcept_ok {result : Except ε α} {a : α} :
    (ofExcept result).outcome world = (.ok a, world') ↔ result = .ok a ∧ world = world' := by
  cases result <;> simp [ofExcept]

@[simp] theorem outcome_mapError_ok {f : ε → ε'} {act : Act ε α} {a : α} :
    (act.mapError f).outcome world = (.ok a, world') ↔ act.outcome world = (.ok a, world') := by
  have h : (act.mapError f).outcome world = match act.outcome world with
    | (.ok a, world) => (.ok a, world)
    | (.error e, world) => (.error (e.map f), world) := rfl
  rw [h]
  rcases act.outcome world with ⟨_ | _, _⟩ <;> simp

end Act

/-- Worlds that one comes to by doing one thing after the other. -/
class Onward (R : World → World → Prop) : Prop where
  refl : ∀ world, R world world
  trans : ∀ {before mid after}, R before mid → R mid after → R before after

instance {σ : Type} (view : World → σ) : Onward fun before after => view after = view before where
  refl _ := rfl
  trans first second := second.trans first

namespace Act

variable {σ ε ε' α β : Type} {view : World → σ} {world : World} {R : World → World → Prop}

theorem outcome_ofExcept (result : Except ε α) :
    (ofExcept result).outcome world = (result.mapError .error, world) := by
  cases result <;> rfl

theorem outcome_mapError (f : ε → ε') (act : Act ε α) : (act.mapError f).outcome world =
    ((act.outcome world).1.mapError (Failure.map f), (act.outcome world).2) := by
  simp only [mapError, Act.of, outcome, ExceptT.run]
  split <;> simp_all [Except.mapError]

theorem outcome_attempt (act : Act ε α) : act.attempt.outcome world =
    (.ok (act.outcome world).1, (act.outcome world).2) := rfl

theorem outcome_insist (act : Act ε α) : (act.insist : Act ε' α).outcome world =
    ((act.outcome world).1.mapError fun _ => .crash, (act.outcome world).2) := by
  simp only [insist, Act.of, outcome, ExceptT.run]
  split <;> simp_all [Except.mapError]

theorem outcome_ensuring (cleanup : World → World) (act : Act ε α) :
    (act.ensuring cleanup).outcome world =
      ((act.outcome world).1, cleanup (act.outcome world).2) := rfl

/-- Whatever comes of the action, the world that it leaves is related to the one that it finds. -/
def Within (R : World → World → Prop) (act : Act ε α) : Prop :=
  ∀ world, R world (act.outcome world).2

/-- The action changes nothing of what `view` shows, whether it succeeds or fails. -/
abbrev Keeps (view : World → σ) (act : Act ε α) : Prop :=
  act.Within fun before after => view after = view before

namespace Within

theorem modify {f : World → World} (leads : ∀ world, R world (f world)) :
    Within R (modify f : Act ε PUnit) := leads

theorem mapError {act : Act ε α} (led : act.Within R) (f : ε → ε') :
    (act.mapError f).Within R := fun world => by
  rw [outcome_mapError]
  exact led world

theorem insist {act : Act ε α} (led : act.Within R) : (act.insist : Act ε' α).Within R :=
  fun world => by
    rw [outcome_insist]
    exact led world

theorem mono {S : World → World → Prop} {act : Act ε α} (led : act.Within R)
    (leads : ∀ before after, R before after → S before after) : act.Within S :=
  fun world => leads _ _ (led world)

theorem attempt {act : Act ε α} (led : act.Within R) : act.attempt.Within R := led

variable [onward : Onward R]

theorem pure (a : α) : Within R (pure a : Act ε α) := onward.refl

theorem throw (e : Failure ε) : Within R (throw e : Act ε α) := onward.refl

theorem fail (e : ε) : Within R (fail e : Act ε α) := onward.refl

theorem get : Within R (get : Act ε World) := onward.refl

theorem ofExcept (result : Except ε α) : Within R (ofExcept result) := fun world => by
  rw [outcome_ofExcept]
  exact onward.refl world

theorem bind {act : Act ε α} {next : α → Act ε β} (first : act.Within R)
    (second : ∀ a, (next a).Within R) : (act >>= next).Within R := by
  intro world
  have led := first world
  rw [outcome_bind]
  rcases ran : act.outcome world with ⟨_ | a, mid⟩ <;> rw [ran] at led
  · exact led
  · exact onward.trans led (second a mid)

/-- An action that sets a world which it has put together itself. -/
theorem rebuild {result : World → Except ε α} {rebuilt : World → α → World}
    {next : World → α → Act ε β}
    (leads : ∀ world a, result world = .ok a → R world (rebuilt world a))
    (goesOn : ∀ world a, (next world a).Within R) :
    Within R (do
      let world ← MonadState.get
      let a ← Act.ofExcept (result world)
      set (rebuilt world a)
      next world a) := by
  intro world
  rw [outcome_bind, outcome_get]
  dsimp only
  cases known : result world with
  | error e => exact onward.refl world
  | ok a => exact onward.trans (leads world a known) (goesOn world a (rebuilt world a))

theorem ensuring {act : Act ε α} {cleanup : World → World} (led : act.Within R)
    (leads : ∀ world, R world (cleanup world)) : (act.ensuring cleanup).Within R :=
  fun world => onward.trans (led world) (leads _)

theorem forM {act : α → Act ε PUnit} (led : ∀ a, (act a).Within R) (items : List α) :
    (items.forM act).Within R := by
  induction items with
  | nil => exact .pure _
  | cons a rest ih => exact .bind (led a) fun _ => ih

theorem mapM {act : α → Act ε β} (led : ∀ a, (act a).Within R) (item : Option α) :
    (item.mapM act).Within R := by
  cases item with
  | none => exact .pure _
  | some a => exact .bind (led a) fun _ => .pure _

end Within

/-- The action never asks to leave the shell. -/
def Stays (act : Act ε Verdict) : Prop :=
  ∀ world status, (act.outcome world).1 ≠ .ok (.leave status)

theorem Stays.proceed : Stays (Pure.pure .proceed : Act ε Verdict) := fun _ _ => by simp

theorem Stays.bind {act : Act ε α} {next : α → Act ε Verdict} (last : ∀ a, (next a).Stays) :
    (act >>= next).Stays := by
  intro world status
  rw [outcome_bind]
  rcases act.outcome world with ⟨_ | a, mid⟩
  · simp
  · exact last a mid status

/-- The action goes the same way after a change of the world, and the change is still there after
it. -/
def CommutesWith (change : World → World) (act : Act ε α) : Prop :=
  ∀ world, act.outcome (change world) = ((act.outcome world).1, change (act.outcome world).2)

namespace CommutesWith

variable {change : World → World}

theorem pure (a : α) : CommutesWith change (pure a : Act ε α) := fun _ => rfl

theorem throw (e : Failure ε) : CommutesWith change (throw e : Act ε α) := fun _ => rfl

theorem fail (e : ε) : CommutesWith change (fail e : Act ε α) := throw _

theorem ofExcept (result : Except ε α) : CommutesWith change (ofExcept result) := by
  cases result with
  | error e => exact throw _
  | ok a => exact pure a

theorem modify {f : World → World}
    (commutes : ∀ world, f (change world) = change (f world)) :
    CommutesWith change (modify f : Act ε PUnit) := fun world =>
  congrArg (Except.ok PUnit.unit, ·) (commutes world)

theorem bind {act : Act ε α} {next : α → Act ε β} (first : act.CommutesWith change)
    (second : ∀ a, (next a).CommutesWith change) : (act >>= next).CommutesWith change := by
  intro world
  rw [outcome_bind, outcome_bind, first]
  rcases act.outcome world with ⟨_ | a, mid⟩
  · rfl
  · exact second a mid

/-- What is done with a world that has been asked for does not depend on the change. -/
theorem get_bind {next : World → Act ε α}
    (same : ∀ world, next (change world) = next world)
    (rest : ∀ world, (next world).CommutesWith change) :
    (MonadState.get >>= next : Act ε α).CommutesWith change := by
  intro world
  rw [outcome_bind, outcome_bind, outcome_get, outcome_get]
  dsimp only
  rw [same]
  exact rest world world

/-- An action that sets a world which it has put together itself. -/
theorem rebuild {result : World → Except ε α} {rebuilt : World → α → World}
    {next : World → α → Act ε β}
    (found : ∀ world, result (change world) = result world)
    (commutes : ∀ world a, rebuilt (change world) a = change (rebuilt world a))
    (same : ∀ world, next (change world) = next world)
    (rest : ∀ world a, (next world a).CommutesWith change) : CommutesWith change (do
      let world ← MonadState.get
      let a ← Act.ofExcept (result world)
      set (rebuilt world a)
      next world a) := by
  intro world
  rw [outcome_bind, outcome_bind, outcome_get, outcome_get]
  dsimp only
  rw [found, same]
  cases result world with
  | error e => rfl
  | ok a =>
    show (next world a).outcome (rebuilt (change world) a) = _
    rw [commutes]
    exact rest world a _

theorem mapError {act : Act ε α} (known : act.CommutesWith change) (f : ε → ε') :
    (act.mapError f).CommutesWith change := by
  intro world
  rw [outcome_mapError, outcome_mapError, known]

theorem attempt {act : Act ε α} (known : act.CommutesWith change) :
    act.attempt.CommutesWith change := by
  intro world
  rw [outcome_attempt, outcome_attempt, known]

theorem ensuring {act : Act ε α} {cleanup : World → World} (known : act.CommutesWith change)
    (commutes : ∀ world, cleanup (change world) = change (cleanup world)) :
    (act.ensuring cleanup).CommutesWith change := by
  intro world
  rw [outcome_ensuring, outcome_ensuring, known, commutes]

theorem insist {act : Act ε α} (known : act.CommutesWith change) :
    (act.insist : Act ε' α).CommutesWith change := by
  intro world
  rw [outcome_insist, outcome_insist, known]

theorem forM {act : α → Act ε PUnit} (known : ∀ a, (act a).CommutesWith change) (items : List α) :
    (items.forM act).CommutesWith change := by
  induction items with
  | nil => exact .pure _
  | cons a rest ih => exact .bind (known a) fun _ => ih

theorem mapM {act : α → Act ε β} (known : ∀ a, (act a).CommutesWith change) (item : Option α) :
    (item.mapM act).CommutesWith change := by
  cases item with
  | none => exact .pure _
  | some a => exact .bind (known a) fun _ => .pure _

end CommutesWith

end Act

end LineShell
