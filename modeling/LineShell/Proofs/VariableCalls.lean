import LineShell.Variables
import Mathlib.Data.List.Induction
import Mathlib.Logic.Function.Basic

/-! The variables of a shell under any calls. A name has an entry in the table and a value in the
environment, its view, and a call changes the view of one name: what it makes of that is a machine
with no tables at all (`Call.onView`), and `view_carryOut` says that the two stores follow it. A
call is also made of single writes, one store after the other, of which a refusal may leave some
undone; `writeAll_writes` says that it never leaves some of them done. -/

namespace LineShell.Variables

inductive Call
  | setLocal (name value : Text)
  | setExported (name value : Text)
  | markExported (name : Text)
  | unset (name : Text)
  deriving Repr, DecidableEq

/-- What the table and the environment hold of one name. -/
@[ext]
structure View where
  entry : Option Variable
  inherited : Option Text
  deriving DecidableEq

namespace View

def isExported (v : View) : Bool := v.entry.any (·.exported)

def lookup (v : View) : Option Text := v.inherited.or (v.entry.map (·.value))

/-- An exported entry has its value in the environment. -/
def Mirrored (v : View) : Prop := ∀ value, v.entry = some ⟨value, true⟩ → v.inherited = some value

/-- The environment has a value of its own, which the table does not export. -/
def Shadowed (v : View) : Prop := v.inherited ≠ none ∧ v.isExported = false

/-- A value goes into both stores, unless the environment cannot hold it. -/
def exporting (value : Text) : Except (Failure EnvError) View :=
  if '\x00' ∈ value then .error .crash else .ok ⟨some ⟨value, true⟩, some value⟩

/-- What an assignment makes of a view, if the value can be stored. -/
def assigned (v : View) (value : Text) : View :=
  ⟨some ⟨value, v.isExported⟩, if v.isExported then some value else v.inherited⟩

theorem lookup_of_free {v : View} (free : ¬ v.Shadowed) (value : Text) :
    (v.assigned value).lookup = some value := by
  cases exported : v.isExported with
  | true => simp [assigned, lookup, exported]
  | false =>
    have absent : v.inherited = none := by
      by_contra inherited
      exact free ⟨inherited, exported⟩
    simp [assigned, lookup, exported, absent]

theorem lookup_of_shadowed {v : View} (shadowed : v.Shadowed) (value : Text) :
    (v.assigned value).lookup = v.inherited := by
  obtain ⟨inherited, hidden⟩ := shadowed
  obtain ⟨own, holds⟩ := Option.ne_none_iff_exists'.mp inherited
  simp [assigned, lookup, hidden, holds]

end View

def view (vars : Variables) (name : Text) : View :=
  ⟨vars.table.get? name, vars.environment.get? name⟩

theorem isExported_eq_view (vars : Variables) (name : Text) :
    vars.isExported name = (vars.view name).isExported := rfl

theorem lookup_eq_view (vars : Variables) (name : Text) :
    vars.lookup name = (vars.view name).lookup := rfl

namespace Call

def name : Call → Text
  | setLocal name _ | setExported name _ | markExported name | unset name => name

def apply (vars : Variables) : Call → Except (Failure EnvError) Variables
  | setLocal name value => vars.setLocal name value
  | setExported name value => vars.setExported name value
  | markExported name => vars.markExported name
  | unset name => vars.unset name

/-- The answer to a call, and the variables after it. -/
def carryOut (c : Call) (vars : Variables) : Except (Failure EnvError) Unit × Variables :=
  match c.apply vars with
  | .ok after => (.ok (), after)
  | .error e => (.error e, vars)

def change (v : View) : Call → Except (Failure EnvError) View
  | setLocal _ value =>
    if v.isExported then View.exporting value else .ok ⟨some ⟨value, false⟩, v.inherited⟩
  | setExported _ value => View.exporting value
  | markExported name =>
    match v.entry with
    | none => .error (.error (.notFound name))
    | some known => View.exporting known.value
  | unset _ => .ok ⟨none, none⟩

/-- What a call makes of the view of its name. -/
def onView (c : Call) (v : View) : Except (Failure EnvError) View :=
  if isIdentifier c.name then c.change v else .error (.error (.invalidName c.name))

/-- What a call makes of the views of all names. -/
def onViews (c : Call) (views : Text → View) : Text → View :=
  match c.onView (views c.name) with
  | .ok v => Function.update views c.name v
  | .error _ => views

end Call

theorem view_insert (table : Table Text Variable) (environment : Environment) (name : Text)
    (entry : Variable) (value : Text) :
    (⟨table.insert name entry, environment.insert name value⟩ : Variables).view =
      Function.update (view ⟨table, environment⟩) name ⟨some entry, some value⟩ := by
  funext other
  by_cases same : other = name <;> simp [view, same]

theorem view_insert_table (table : Table Text Variable) (environment : Environment) (name : Text)
    (entry : Variable) :
    (⟨table.insert name entry, environment⟩ : Variables).view =
      Function.update (view ⟨table, environment⟩) name ⟨some entry, environment.get? name⟩ := by
  funext other
  by_cases same : other = name <;> simp [view, same]

theorem view_erase (table : Table Text Variable) (environment : Environment) (name : Text) :
    (⟨table.erase name, environment.erase name⟩ : Variables).view =
      Function.update (view ⟨table, environment⟩) name ⟨none, none⟩ := by
  funext other
  by_cases same : other = name <;> simp [view, same]

theorem store_bind (environment : Environment) (name value : Text) (keep : Environment → Variables) :
    (store environment name value >>= fun after => pure (keep after)) =
      if '\x00' ∈ value then .error .crash else .ok (keep (environment.insert name value)) := by
  rw [store]
  split <;> rfl

theorem setLocal_of_identifier {vars : Variables} {name : Text} (named : isIdentifier name)
    (value : Text) : vars.setLocal name value =
      if vars.isExported name then
        if '\x00' ∈ value then .error .crash
        else .ok ⟨vars.table.insert name ⟨value, true⟩, vars.environment.insert name value⟩
      else .ok { vars with table := vars.table.insert name ⟨value, false⟩ } := by
  rw [setLocal, validate, if_pos named]
  show (if _ then _ else _) = _
  rw [store_bind]
  rfl

theorem setExported_of_identifier {vars : Variables} {name : Text} (named : isIdentifier name)
    (value : Text) : vars.setExported name value =
      if '\x00' ∈ value then .error .crash
      else .ok ⟨vars.table.insert name ⟨value, true⟩, vars.environment.insert name value⟩ := by
  rw [setExported, validate, if_pos named]
  exact store_bind ..

theorem markExported_of_identifier {vars : Variables} {name : Text} (named : isIdentifier name) :
    vars.markExported name =
      match vars.table.get? name with
      | none => .error (.error (.notFound name))
      | some known =>
        if '\x00' ∈ known.value then .error .crash
        else .ok ⟨vars.table.insert name { known with exported := true },
          vars.environment.insert name known.value⟩ := by
  rw [markExported, validate, if_pos named]
  cases vars.table.get? name with
  | none => rfl
  | some known => exact store_bind ..

theorem unset_of_identifier {vars : Variables} {name : Text} (named : isIdentifier name) :
    vars.unset name = .ok ⟨vars.table.erase name, vars.environment.erase name⟩ := by
  rw [unset, validate, if_pos named]
  rfl

theorem apply_of_invalid {c : Call} (invalid : ¬ isIdentifier c.name) (vars : Variables) :
    c.apply vars = .error (.error (.invalidName c.name)) := by
  have refused : validate c.name = .error (.error (.invalidName c.name)) := by
    rw [validate, if_neg invalid]
  cases c <;> simp only [Call.name] at refused <;>
    simp only [Call.apply, setLocal, setExported, markExported, unset, refused] <;> rfl

/-- The two stores follow the machine on views. -/
theorem apply_view (c : Call) (vars : Variables) :
    (c.apply vars).map view =
      (c.onView (vars.view c.name)).map (Function.update vars.view c.name) := by
  by_cases named : isIdentifier c.name
  · rw [Call.onView, if_pos named]
    -- exporting writes the same to both stores, whichever call it is part of
    have both (name value : Text) : (if '\x00' ∈ value then .error .crash
        else .ok (⟨vars.table.insert name ⟨value, true⟩, vars.environment.insert name value⟩ :
          Variables) : Except (Failure EnvError) Variables).map view =
        (View.exporting value).map (Function.update vars.view name) := by
      rw [View.exporting]
      split
      · rfl
      · exact congrArg Except.ok (view_insert ..)
    cases c with
    | setLocal name value =>
      rw [Call.name] at named
      rw [Call.apply, Call.change, Call.name, setLocal_of_identifier named, isExported_eq_view]
      cases (vars.view name).isExported with
      | true => exact both name value
      | false => exact congrArg Except.ok (view_insert_table ..)
    | setExported name value =>
      rw [Call.name] at named
      rw [Call.apply, Call.change, Call.name, setExported_of_identifier named]
      exact both name value
    | markExported name =>
      rw [Call.name] at named
      rw [Call.apply, Call.change, Call.name, markExported_of_identifier named, view]
      cases vars.table.get? name with
      | none => rfl
      | some known => exact both name known.value
    | unset name =>
      rw [Call.name] at named
      rw [Call.apply, Call.change, Call.name, unset_of_identifier named]
      exact congrArg Except.ok (view_erase ..)
  · rw [apply_of_invalid named, Call.onView, if_neg named]
    rfl

theorem view_carryOut (c : Call) (vars : Variables) :
    (c.carryOut vars).2.view = c.onViews vars.view := by
  have follows := apply_view c vars
  rw [Call.carryOut, Call.onViews]
  cases done : c.apply vars <;> cases seen : c.onView (vars.view c.name) <;>
    simp_all [Except.map]

theorem answer_carryOut (c : Call) (vars : Variables) :
    (c.carryOut vars).1 = (c.onView (vars.view c.name)).map fun _ => () := by
  have follows := apply_view c vars
  rw [Call.carryOut]
  cases done : c.apply vars <;> cases seen : c.onView (vars.view c.name) <;>
    simp_all [Except.map]

theorem carryOut_of_error {c : Call} {vars : Variables} {e : Failure EnvError}
    (refused : (c.carryOut vars).1 = .error e) : (c.carryOut vars).2 = vars := by
  rw [Call.carryOut] at refused ⊢
  cases done : c.apply vars <;> simp_all

theorem onViews_of_ne {c : Call} {name : Text} (other : name ≠ c.name) (views : Text → View) :
    c.onViews views name = views name := by
  rw [Call.onViews]
  cases c.onView (views c.name) with
  | ok v => exact Function.update_of_ne other _ _
  | error e => rfl

theorem view_carryOut_of_ne {c : Call} {name : Text} (other : name ≠ c.name) (vars : Variables) :
    (c.carryOut vars).2.view name = vars.view name := by
  rw [view_carryOut, onViews_of_ne other]

theorem view_carryOut_of_ok {c : Call} {vars : Variables} (done : (c.carryOut vars).1 = .ok ()) :
    c.onView (vars.view c.name) = .ok ((c.carryOut vars).2.view c.name) := by
  rw [answer_carryOut] at done
  rw [view_carryOut, Call.onViews]
  cases seen : c.onView (vars.view c.name) with
  | ok w => simp
  | error e => simp [seen, Except.map] at done

theorem carryOut_keeps {P : View → Prop} {c : Call} {vars : Variables} {name : Text}
    (before : P (vars.view name))
    (made : ∀ w, c.name = name → c.onView (vars.view name) = .ok w → P w) :
    P ((c.carryOut vars).2.view name) := by
  by_cases own : name = c.name
  · cases done : (c.carryOut vars).1 with
    | ok =>
      have seen := view_carryOut_of_ok done
      rw [← own] at seen
      exact made _ own.symm seen
    | error e => rwa [carryOut_of_error done]
  · rwa [view_carryOut_of_ne own]

namespace Call

def isLocal : Call → Bool
  | setLocal _ _ => true
  | _ => false

/-- The value that a call sends to the environment. -/
def published? (c : Call) (v : View) : Option Text :=
  match c with
  | setLocal _ value => if v.isExported then some value else none
  | setExported _ value => some value
  | markExported _ => v.entry.map (·.value)
  | unset _ => none

/-- The name is no identifier or is not known, or the environment cannot hold the value. -/
def Refused (c : Call) (v : View) : Prop :=
  ¬ isIdentifier c.name ∨ (c = markExported c.name ∧ v.entry = none) ∨
    ∃ value ∈ c.published? v, '\x00' ∈ value

variable {c : Call} {v w : View} {name value : Text}

theorem exporting_eq_ok (seen : View.exporting value = .ok w) :
    w = ⟨some ⟨value, true⟩, some value⟩ := by
  rw [View.exporting] at seen
  split at seen
  · cases seen
  · exact (Except.ok.inj seen).symm

theorem exporting_eq_error_iff (value : Text) :
    (∃ e, View.exporting value = .error e) ↔ '\x00' ∈ value := by
  rw [View.exporting]
  split <;> simp_all

theorem change_of_onView (seen : c.onView v = .ok w) : c.change v = .ok w := by
  rw [onView] at seen
  split at seen
  · exact seen
  · cases seen

theorem onView_setLocal (seen : (setLocal name value).onView v = .ok w) :
    w = v.assigned value := by
  have changed := change_of_onView seen
  rw [change] at changed
  cases exported : v.isExported with
  | true =>
    rw [if_pos exported] at changed
    rw [View.assigned, exported]
    exact exporting_eq_ok changed
  | false =>
    rw [exported] at changed
    rw [View.assigned, exported]
    exact (Except.ok.inj changed).symm

theorem onView_setExported (seen : (setExported name value).onView v = .ok w) :
    w = ⟨some ⟨value, true⟩, some value⟩ :=
  exporting_eq_ok (change_of_onView seen)

theorem onView_markExported (seen : (markExported name).onView v = .ok w) :
    ∃ known, v.entry = some known ∧ w = ⟨some ⟨known.value, true⟩, some known.value⟩ := by
  have changed := change_of_onView seen
  rw [change] at changed
  cases entry : v.entry with
  | none => simp [entry] at changed
  | some known =>
    rw [entry] at changed
    exact ⟨known, rfl, exporting_eq_ok changed⟩

theorem onView_unset (seen : (unset name).onView v = .ok w) : w = ⟨none, none⟩ :=
  (Except.ok.inj (change_of_onView seen)).symm

theorem onView_eq_error_iff (c : Call) (v : View) : (∃ e, c.onView v = .error e) ↔ c.Refused v := by
  rw [onView, Refused]
  by_cases named : isIdentifier c.name
  · simp only [named, if_true, not_true, false_or]
    cases c with
    | setLocal name value =>
      rw [change]
      cases exported : v.isExported <;> simp [published?, exported, exporting_eq_error_iff]
    | setExported name value => simp [change, published?, exporting_eq_error_iff]
    | markExported name =>
      rw [change]
      cases entry : v.entry <;> simp [published?, entry, exporting_eq_error_iff, Call.name]
    | unset name => simp [change, published?]
  · simp [named]

theorem mirrored_onView (seen : c.onView v = .ok w) : w.Mirrored := by
  intro value entry
  cases c with
  | setLocal name given =>
    obtain rfl := onView_setLocal seen
    simp_all [View.assigned]
  | setExported name given =>
    obtain rfl := onView_setExported seen
    simp_all
  | markExported name =>
    obtain ⟨known, -, rfl⟩ := onView_markExported seen
    simp_all
  | unset name =>
    obtain rfl := onView_unset seen
    simp_all

theorem of_isLocal (here : c.isLocal) (seen : c.onView v = .ok w) :
    w.isExported = v.isExported ∧ (v.isExported = false → w.inherited = v.inherited) := by
  cases c with
  | setLocal name given =>
    obtain rfl := onView_setLocal seen
    refine ⟨rfl, fun hidden => ?_⟩
    simp [View.assigned, hidden]
  | _ => cases here

theorem storable_of_onView (seen : c.onView v = .ok w) (entry : w.entry = some ⟨value, true⟩) :
    isIdentifier c.name ∧ '\x00' ∉ value := by
  have carried : ¬ c.Refused v := by
    rw [← onView_eq_error_iff, seen]
    simp
  have published : c.published? v = some value := by
    cases c with
    | setLocal name given =>
      rw [onView_setLocal seen] at entry
      simp_all [published?, View.assigned]
    | setExported name given =>
      rw [onView_setExported seen] at entry
      simp_all [published?]
    | markExported name =>
      obtain ⟨known, before, rfl⟩ := onView_markExported seen
      simp_all [published?]
    | unset name =>
      rw [onView_unset seen] at entry
      cases entry
  simp only [Refused, not_or, not_not, published, Option.mem_some_iff] at carried
  exact ⟨carried.1, fun nul => carried.2.2 ⟨value, rfl, nul⟩⟩

/-- No call gives a name a value in the environment that is not exported. -/
theorem shadowed_of_onView (seen : c.onView v = .ok w) (shadowed : w.Shadowed) : v.Shadowed := by
  obtain ⟨inherited, hidden⟩ := shadowed
  cases c with
  | setLocal name given =>
    obtain ⟨exported, kept⟩ := of_isLocal rfl seen
    rw [exported] at hidden
    exact ⟨kept hidden ▸ inherited, hidden⟩
  | setExported name given =>
    rw [onView_setExported seen] at hidden
    cases hidden
  | markExported name =>
    obtain ⟨known, -, rfl⟩ := onView_markExported seen
    cases hidden
  | unset name =>
    rw [onView_unset seen] at inherited
    exact absurd rfl inherited

end Call

/-- The variables after calls, each of them made whatever came of the ones before. -/
def afterCalls (vars : Variables) (calls : List Call) : Variables :=
  calls.foldl (fun vars c => (c.carryOut vars).2) vars

theorem afterCalls_concat (vars : Variables) (calls : List Call) (c : Call) :
    afterCalls vars (calls ++ [c]) = (c.carryOut (afterCalls vars calls)).2 := by
  simp [afterCalls]

/-- Calls one after the other, up to the first that is refused. -/
def callAll : List Call → Variables → Except (Failure EnvError) Unit × Variables
  | [], vars => (.ok (), vars)
  | c :: rest, vars =>
    match c.carryOut vars with
    | (.ok (), vars) => callAll rest vars
    | (.error e, vars) => (.error e, vars)

theorem callAll_keeps {P : View → Prop} {name : Text} {calls : List Call} {vars : Variables}
    (before : P (vars.view name))
    (made : ∀ c ∈ calls, c.name = name → ∀ v w, P v → c.onView v = .ok w → P w) :
    P ((callAll calls vars).2.view name) := by
  induction calls generalizing vars with
  | nil => exact before
  | cons c rest ih =>
    have first : P ((c.carryOut vars).2.view name) :=
      carryOut_keeps before fun w own seen => made c (by simp) own _ w before seen
    have later := fun d there => made d (List.mem_cons_of_mem c there)
    rw [callAll]
    rcases done : c.carryOut vars with ⟨_ | ⟨⟩, after⟩ <;> rw [done] at first
    · exact first
    · exact ih first later

theorem view_callAll_of_notMem {name : Text} {calls : List Call}
    (other : name ∉ calls.map Call.name) (vars : Variables) :
    (callAll calls vars).2.view name = vars.view name :=
  callAll_keeps (P := (· = vars.view name)) rfl fun c there own => by
    exact absurd (List.mem_map.mpr ⟨c, there, own⟩) other

/-- Assignments export nothing, and leave the environment alone where nothing was exported. -/
theorem callAll_of_isLocal {calls : List Call} (here : ∀ c ∈ calls, c.isLocal) (vars : Variables)
    (name : Text) :
    ((callAll calls vars).2.view name).isExported = (vars.view name).isExported ∧
      ((vars.view name).isExported = false →
        ((callAll calls vars).2.view name).inherited = (vars.view name).inherited) := by
  refine callAll_keeps (P := fun v => v.isExported = (vars.view name).isExported ∧
    ((vars.view name).isExported = false → v.inherited = (vars.view name).inherited))
    ⟨rfl, fun _ => rfl⟩ fun c there _ v w ⟨same, before⟩ seen => ?_
  obtain ⟨exported, inherited⟩ := Call.of_isLocal (here c there) seen
  refine ⟨exported.trans same, fun hidden => ?_⟩
  exact (inherited (same.trans hidden)).trans (before hidden)

theorem callAll_append_of_ok {front back : List Call} {vars : Variables}
    (done : (callAll (front ++ back) vars).1 = .ok ()) :
    callAll (front ++ back) vars = callAll back (callAll front vars).2 := by
  induction front generalizing vars with
  | nil => rfl
  | cons c rest ih =>
    rw [List.cons_append, callAll] at done ⊢
    rw [callAll]
    rcases first : c.carryOut vars with ⟨_ | ⟨⟩, mid⟩ <;> rw [first] at done
    · cases done
    · exact ih done

/-- One of the calls has exported or unset the name, and was not refused. -/
def Published (start : Variables) (calls : List Call) (name : Text) : Prop :=
  ∃ earlier c later, calls = earlier ++ c :: later ∧ c.name = name ∧ c.isLocal = false ∧
    (c.carryOut (afterCalls start earlier)).1 = .ok ()

theorem Published.concat {start : Variables} {calls : List Call} {name : Text}
    (published : Published start calls name) (c : Call) : Published start (calls ++ [c]) name := by
  obtain ⟨earlier, d, later, rfl, own, outward, done⟩ := published
  exact ⟨earlier, d, later ++ [c], by simp, own, outward, done⟩

theorem mirrored_afterCalls {start : Variables} {name : Text}
    (mirrored : (start.view name).Mirrored) (calls : List Call) :
    ((afterCalls start calls).view name).Mirrored := by
  induction calls using List.reverseRecOn with
  | nil => exact mirrored
  | append_singleton calls c ih =>
    rw [afterCalls_concat]
    exact carryOut_keeps ih fun w _ seen => Call.mirrored_onView seen

/-- As long as a name is not published, its value in the environment stays. -/
theorem untouched_or_published {start : Variables} {name : Text}
    (hidden : (start.view name).isExported = false) (calls : List Call) :
    (((afterCalls start calls).view name).inherited = (start.view name).inherited ∧
      ((afterCalls start calls).view name).isExported = false) ∨ Published start calls name := by
  induction calls using List.reverseRecOn with
  | nil => exact .inl ⟨rfl, hidden⟩
  | append_singleton calls c ih =>
    rcases ih with untouched | published
    · -- a last call that does not publish the name is about another, refused, or an assignment
      by_cases outward : c.name = name ∧ c.isLocal = false ∧
          (c.carryOut (afterCalls start calls)).1 = .ok ()
      · exact .inr ⟨calls, c, [], by simp, outward⟩
      · left
        rw [afterCalls_concat]
        refine carryOut_keeps (P := fun v => v.inherited = (start.view name).inherited ∧
          v.isExported = false) untouched fun w own seen => ?_
        have done : (c.carryOut (afterCalls start calls)).1 = .ok () := by
          rw [answer_carryOut, own, seen]
          rfl
        have here : c.isLocal := by
          by_contra outside
          exact outward ⟨own, by simpa using outside, done⟩
        obtain ⟨exported, inherited⟩ := Call.of_isLocal here seen
        exact ⟨(inherited untouched.2).trans untouched.1, exported.trans untouched.2⟩
    · exact .inr (published.concat c)

/-! A call as the writes it is made of. -/

inductive Write
  | publish (name value : Text)
  | withdraw (name : Text)
  | enter (name : Text) (entry : Variable)
  | forget (name : Text)

def Write.make (vars : Variables) : Write → Except (Failure EnvError) Variables
  | publish name value =>
    (store vars.environment name value).map fun environment => { vars with environment }
  | withdraw name => .ok { vars with environment := vars.environment.erase name }
  | enter name entry => .ok { vars with table := vars.table.insert name entry }
  | forget name => .ok { vars with table := vars.table.erase name }

/-- Writes one after the other. What was written before a failure stays written. -/
def writeAll : List Write → Variables → Except (Failure EnvError) Unit × Variables
  | [], vars => (.ok (), vars)
  | w :: rest, vars =>
    match w.make vars with
    | .ok vars => writeAll rest vars
    | .error e => (.error e, vars)

/-- The writes of a call on an identifier, in the order in which they are made. -/
def Call.writes (vars : Variables) : Call → Except EnvError (List Write)
  | setLocal name value =>
    let exported := vars.isExported name
    .ok ((if exported then [.publish name value] else []) ++ [.enter name ⟨value, exported⟩])
  | setExported name value => .ok [.publish name value, .enter name ⟨value, true⟩]
  | markExported name =>
    match vars.table.get? name with
    | none => .error (.notFound name)
    | some known =>
      .ok [.publish name known.value, .enter name { known with exported := true }]
  | unset name => .ok [.forget name, .withdraw name]

/-- A call as it is made, write by write. -/
def Call.perform (c : Call) (vars : Variables) : Except (Failure EnvError) Unit × Variables :=
  if isIdentifier c.name then
    match c.writes vars with
    | .ok writes => writeAll writes vars
    | .error e => (.error (.error e), vars)
  else (.error (.error (.invalidName c.name)), vars)

/-- The only write that can fail comes first, so no call stops halfway. -/
theorem perform_eq_carryOut (c : Call) (vars : Variables) : c.perform vars = c.carryOut vars := by
  rw [Call.perform, Call.carryOut]
  by_cases named : isIdentifier c.name
  · rw [if_pos named]
    have both (name value : Text) (entry : Variable) :
        writeAll [.publish name value, .enter name entry] vars =
          if '\x00' ∈ value then (.error .crash, vars)
          else (.ok (), ⟨vars.table.insert name entry, vars.environment.insert name value⟩) := by
      by_cases nul : '\x00' ∈ value <;> simp [writeAll, Write.make, store, nul, Except.map]
    cases c with
    | setLocal name value =>
      rw [Call.name] at named
      rw [Call.apply, setLocal_of_identifier named, Call.writes]
      cases exported : vars.isExported name with
      | true =>
        simp only [if_true, List.singleton_append, both]
        split <;> rfl
      | false => rfl
    | setExported name value =>
      rw [Call.name] at named
      rw [Call.apply, setExported_of_identifier named, Call.writes]
      simp only [both]
      split <;> rfl
    | markExported name =>
      rw [Call.name] at named
      rw [Call.apply, markExported_of_identifier named, Call.writes]
      cases vars.table.get? name with
      | none => rfl
      | some known =>
        simp only [both]
        split <;> rfl
    | unset name =>
      rw [Call.name] at named
      rw [Call.apply, unset_of_identifier named, Call.writes]
      rfl
  · rw [if_neg named, apply_of_invalid named]

/-- All that can be said of one more call after any others on an empty table. -/
theorem call_after_calls (environment : Environment) (earlier : List Call) (c : Call) :
    let before := afterCalls ⟨∅, environment⟩ earlier
    let answer := (c.carryOut before).1
    let after := (c.carryOut before).2
    after.view = c.onViews before.view ∧
    (∀ name value, after.table.get? name = some ⟨value, true⟩ →
      after.environment.get? name = some value) ∧
    (∀ name, after.environment.get? name ≠ environment.get? name →
      Published ⟨∅, environment⟩ (earlier ++ [c]) name) ∧
    (∀ name value, c = .setLocal name value → after.isExported name = before.isExported name) ∧
    (∀ name value, c = .setExported name value → answer = .ok () →
      after.lookup name = some value) ∧
    (∀ name, c = .unset name → answer = .ok () → after.lookup name = none) ∧
    (∀ name ≠ c.name, after.table.get? name = before.table.get? name ∧
      after.environment.get? name = before.environment.get? name ∧
      after.lookup name = before.lookup name) ∧
    ((∃ e, answer = .error e) ↔ c.Refused (before.view c.name)) ∧
    (∀ e, answer = .error e → after = before ∧ c.perform before = (.error e, before)) := by
  intro before answer after
  have last : after = afterCalls ⟨∅, environment⟩ (earlier ++ [c]) := by
    rw [afterCalls_concat]
  have other {name : Text} (ne : name ≠ c.name) : after.view name = before.view name :=
    view_carryOut_of_ne ne before
  refine ⟨view_carryOut c before, fun name value entry => ?_, fun name touched => ?_, ?_, ?_, ?_,
    fun name ne => ⟨congrArg View.entry (other ne), congrArg View.inherited (other ne),
      congrArg View.lookup (other ne)⟩, ?_, fun e refused => ?_⟩
  · have mirrored : (after.view name).Mirrored := by
      rw [last]
      exact mirrored_afterCalls (by simp [View.Mirrored, view]) _
    exact mirrored value entry
  · have hidden : ((⟨∅, environment⟩ : Variables).view name).isExported = false := rfl
    rcases untouched_or_published hidden (earlier ++ [c]) with ⟨same, -⟩ | published
    · rw [← last] at same
      exact absurd same touched
    · exact published
  · rintro name value rfl
    cases done : answer with
    | ok =>
      have seen := Call.onView_setLocal (view_carryOut_of_ok done)
      exact congrArg View.isExported seen
    | error e => exact congrArg (isExported · name) (carryOut_of_error done)
  · rintro name value rfl done
    have seen := Call.onView_setExported (view_carryOut_of_ok done)
    exact congrArg View.lookup seen
  · rintro name rfl done
    have seen := Call.onView_unset (view_carryOut_of_ok done)
    exact congrArg View.lookup seen
  · rw [← Call.onView_eq_error_iff]
    show (∃ e, (c.carryOut before).1 = .error e) ↔ _
    rw [answer_carryOut]
    cases c.onView (before.view c.name) <;> simp [Except.map]
  · have unchanged : after = before := carryOut_of_error refused
    refine ⟨unchanged, ?_⟩
    rw [perform_eq_carryOut]
    exact Prod.ext refused unchanged

end LineShell.Variables
