import LineShell.Text

/-! Finite tables in the order in which their keys were first given: a new key goes to the end, a
known key keeps its place. Keys are distinct, which is part of the type; `get?_insert` and
`get?_erase` say what the operations do to the view `get?`. -/

namespace LineShell

structure Table (κ α : Type) where
  entries : List (κ × α)
  nodup : (entries.map Prod.fst).Nodup

namespace Table

variable {κ α : Type} [DecidableEq κ]

def empty : Table κ α := ⟨[], by simp⟩

instance : EmptyCollection (Table κ α) := ⟨empty⟩
instance : Inhabited (Table κ α) := ⟨empty⟩

instance [DecidableEq α] : DecidableEq (Table κ α) := fun a b =>
  decidable_of_iff (a.entries = b.entries) ⟨fun h => by cases a; cases b; simp_all, fun h => h ▸ rfl⟩

def get? (t : Table κ α) (key : κ) : Option α :=
  (t.entries.find? fun entry => entry.1 = key).map Prod.snd

def keys (t : Table κ α) : List κ := t.entries.map Prod.fst

def put (key : κ) (value : α) : List (κ × α) → List (κ × α)
  | [] => [(key, value)]
  | entry :: rest => if entry.1 = key then (key, value) :: rest else entry :: put key value rest

theorem mem_keys_put {key : κ} {value : α} {entries : List (κ × α)} {k : κ} :
    k ∈ (put key value entries).map Prod.fst ↔ k = key ∨ k ∈ entries.map Prod.fst := by
  induction entries with
  | nil => simp [put]
  | cons entry rest ih =>
    by_cases h : entry.1 = key
    · simp [put, h]
    · simp only [put, h, if_false, List.map_cons, List.mem_cons, ih]
      grind

theorem nodup_put {key : κ} {value : α} {entries : List (κ × α)}
    (h : (entries.map Prod.fst).Nodup) : ((put key value entries).map Prod.fst).Nodup := by
  induction entries with
  | nil => simp [put]
  | cons entry rest ih =>
    simp only [List.map_cons, List.nodup_cons] at h
    by_cases he : entry.1 = key
    · simp only [put, he, if_true, List.map_cons, List.nodup_cons]
      exact ⟨he ▸ h.1, h.2⟩
    · rw [put, if_neg he]
      simp only [List.map_cons, List.nodup_cons, mem_keys_put, not_or]
      exact ⟨⟨he, h.1⟩, ih h.2⟩

/-- The table with `value` under `key`. -/
def insert (t : Table κ α) (key : κ) (value : α) : Table κ α :=
  ⟨put key value t.entries, nodup_put t.nodup⟩

/-- The table without `key`. -/
def erase (t : Table κ α) (key : κ) : Table κ α :=
  ⟨t.entries.filter fun entry => entry.1 ≠ key,
    (List.filter_sublist.map Prod.fst).nodup t.nodup⟩

@[simp] theorem get?_empty (k : κ) : (∅ : Table κ α).get? k = none := rfl

@[simp] theorem get?_insert (t : Table κ α) (key : κ) (value : α) (k : κ) :
    (t.insert key value).get? k = if k = key then some value else t.get? k := by
  obtain ⟨entries, nodup⟩ := t
  simp only [get?, insert]
  clear nodup
  induction entries with
  | nil => by_cases h : k = key <;> simp [put, h, eq_comm]
  | cons entry rest ih => by_cases h : entry.1 = key <;> by_cases hk : entry.1 = k <;> grind [put]

@[simp] theorem get?_erase (t : Table κ α) (key k : κ) :
    (t.erase key).get? k = if k = key then none else t.get? k := by
  obtain ⟨entries, nodup⟩ := t
  simp only [get?, erase]
  clear nodup
  induction entries with
  | nil => simp
  | cons entry rest ih => by_cases h : entry.1 = key <;> by_cases hk : entry.1 = k <;> grind

def ofList (entries : List (κ × α)) : Table κ α :=
  entries.foldl (fun t entry => t.insert entry.1 entry.2) ∅

end Table
end LineShell
