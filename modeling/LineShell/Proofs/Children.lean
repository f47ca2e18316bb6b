import LineShell.ChildTable
import Mathlib.Data.List.Nodup

/-! What the operations on the children of a process do to the status of each child. Two children
never share a number (`Distinct`); collecting all that have ended is then collecting them one
after the other (`ended_setStatus`, `collectEnded_setStatus`). -/

namespace LineShell.ChildTable

def pids (t : ChildTable) : List Nat := t.children.map Prod.fst

/-- Each number names one child. -/
def Distinct (t : ChildTable) : Prop := t.pids.Nodup

theorem status?_eq_none_iff {t : ChildTable} {pid : Nat} : t.status? pid = none ↔ pid ∉ t.pids := by
  rw [status?, Option.map_eq_none_iff, List.find?_eq_none, pids, List.mem_map]
  constructor
  · rintro none_found ⟨child, known, rfl⟩
    exact none_found child known (by simp)
  · intro unknown child known hit
    exact unknown ⟨child, known, of_decide_eq_true hit⟩

theorem mem_of_status? {t : ChildTable} {pid : Nat} {status : ChildStatus}
    (h : t.status? pid = some status) : (pid, status) ∈ t.children := by
  obtain ⟨child, found, rfl⟩ := Option.map_eq_some_iff.mp h
  have name := List.find?_some found
  simp only [decide_eq_true_eq] at name
  exact name ▸ List.mem_of_find?_eq_some found

theorem status?_of_mem {t : ChildTable} (distinct : t.Distinct) {pid : Nat} {status : ChildStatus}
    (h : (pid, status) ∈ t.children) : t.status? pid = some status := by
  match found : t.status? pid with
  | none => exact absurd (List.mem_map_of_mem h) (status?_eq_none_iff.mp found)
  | some other =>
    have same := List.inj_on_of_nodup_map distinct (mem_of_status? found) h rfl
    exact congrArg (some ∘ Prod.snd) same

theorem status?_eq_some_iff {t : ChildTable} (distinct : t.Distinct) {pid : Nat}
    {status : ChildStatus} : t.status? pid = some status ↔ (pid, status) ∈ t.children :=
  ⟨mem_of_status?, status?_of_mem distinct⟩

@[simp] theorem pids_setStatus (t : ChildTable) (pid : Nat) (status : ChildStatus) :
    (t.setStatus pid status).pids = t.pids := by
  rw [pids, setStatus, List.map_map]
  refine List.map_congr_left fun child _ => ?_
  rw [Function.comp_apply]
  split
  · next h => exact h.symm
  · rfl

theorem Distinct.setStatus {t : ChildTable} (distinct : t.Distinct) (pid : Nat)
    (status : ChildStatus) : (t.setStatus pid status).Distinct := by
  rwa [Distinct, pids_setStatus]

theorem status?_cons (child : Nat × ChildStatus) (rest : List (Nat × ChildStatus)) (pid : Nat) :
    (⟨child :: rest⟩ : ChildTable).status? pid =
      if child.1 = pid then some child.2 else (⟨rest⟩ : ChildTable).status? pid := by
  rw [status?, List.find?_cons]
  by_cases hit : child.1 = pid
  · simp [hit]
  · simp [hit, status?]

theorem setStatus_cons (child : Nat × ChildStatus) (rest : List (Nat × ChildStatus)) (pid : Nat)
    (status : ChildStatus) : (⟨child :: rest⟩ : ChildTable).setStatus pid status =
      ⟨(if child.1 = pid then (pid, status) else child) ::
        ((⟨rest⟩ : ChildTable).setStatus pid status).children⟩ := rfl

@[simp] theorem pids_finish (t : ChildTable) (pid : Nat) (word : StatusWord) :
    (t.finish pid word).pids = t.pids := by
  rw [finish]
  split
  · exact pids_setStatus ..
  · rfl

@[simp] theorem pids_collect (t : ChildTable) (pid : Nat) : (t.collect pid).2.pids = t.pids := by
  rw [collect.eq_def]
  split
  · rfl
  · exact pids_setStatus ..
  · rfl
  · rfl

@[simp] theorem pids_collectEnded (t : ChildTable) : t.collectEnded.pids = t.pids := by
  rw [pids, collectEnded, List.map_map]
  refine List.map_congr_left fun child _ => ?_
  obtain ⟨pid, status⟩ := child
  cases status <;> rfl

@[simp] theorem pids_start (t : ChildTable) (pid : Nat) : (t.start pid).pids = t.pids ++ [pid] := by
  simp [pids, start]

theorem Distinct.finish {t : ChildTable} (distinct : t.Distinct) (pid : Nat) (word : StatusWord) :
    (t.finish pid word).Distinct := by
  rwa [Distinct, pids_finish]

theorem status?_setStatus_of_ne (t : ChildTable) {pid other : Nat} (ne : other ≠ pid)
    (status : ChildStatus) : (t.setStatus pid status).status? other = t.status? other := by
  obtain ⟨children⟩ := t
  induction children with
  | nil => rfl
  | cons child rest ih =>
    rw [setStatus_cons, status?_cons, status?_cons, ih]
    by_cases here : child.1 = pid
    · simp [here, Ne.symm ne]
    · simp [here]

theorem status?_setStatus_self {t : ChildTable} {pid : Nat} (known : t.status? pid ≠ none)
    (status : ChildStatus) : (t.setStatus pid status).status? pid = some status := by
  obtain ⟨children⟩ := t
  induction children with
  | nil => exact absurd rfl known
  | cons child rest ih =>
    rw [setStatus_cons, status?_cons]
    by_cases here : child.1 = pid
    · simp [here]
    · rw [status?_cons, if_neg here] at known
      simpa [here] using ih known

theorem status?_setStatus {t : ChildTable} {pid : Nat} (known : t.status? pid ≠ none)
    (status : ChildStatus) (other : Nat) : (t.setStatus pid status).status? other =
      if other = pid then some status else t.status? other := by
  split
  · next same => rw [same, status?_setStatus_self known]
  · next ne => exact status?_setStatus_of_ne t ne status

theorem status?_start {t : ChildTable} {pid : Nat} (fresh : t.status? pid = none) (other : Nat) :
    (t.start pid).status? other = if other = pid then some .running else t.status? other := by
  obtain ⟨children⟩ := t
  simp only [start]
  induction children with
  | nil => simp [status?, eq_comm]
  | cons child rest ih =>
    rw [status?_cons] at fresh
    have elsewhere : child.1 ≠ pid := by
      intro h
      simp [h] at fresh
    rw [if_neg elsewhere] at fresh
    rw [List.cons_append, status?_cons, status?_cons, ih fresh]
    by_cases hit : child.1 = other
    · simp [hit, hit ▸ elsewhere]
    · simp [hit]

theorem Distinct.start {t : ChildTable} (distinct : t.Distinct) {pid : Nat}
    (fresh : t.status? pid = none) : (t.start pid).Distinct := by
  have unused := status?_eq_none_iff.mp fresh
  rw [Distinct, pids_start]
  refine List.nodup_append.mpr ⟨distinct, by simp, fun name known other last => ?_⟩
  rintro rfl
  exact unused (List.mem_singleton.mp last ▸ known)

theorem setStatus_of_unknown {t : ChildTable} {pid : Nat} (unknown : pid ∉ t.pids)
    (status : ChildStatus) : t.setStatus pid status = t := by
  obtain ⟨children⟩ := t
  rw [setStatus]
  congr 1
  refine (List.map_congr_left fun child known => ?_).trans (List.map_id _)
  have elsewhere : child.1 ≠ pid := by
    rintro rfl
    exact unknown (List.mem_map_of_mem known)
  exact if_neg elsewhere

theorem status?_collected {t : ChildTable} {pid : Nat} {word : StatusWord}
    (ended : t.status? pid = some (.ended word)) (other : Nat) :
    (t.setStatus pid .collected).status? other =
      if other = pid then some .collected else t.status? other :=
  status?_setStatus (by simp [ended]) .collected other

/-- Collecting a child that has ended concerns no child that runs. -/
theorem running_collect_iff {t : ChildTable} {pid : Nat} {word : StatusWord}
    (ended : t.status? pid = some (.ended word)) (other : Nat) :
    (t.setStatus pid .collected).status? other = some .running ↔
      t.status? other = some .running := by
  rw [status?_collected ended]
  split
  · next same => simp [same, ended]
  · rfl

theorem status?_finish {t : ChildTable} {pid : Nat} (alive : t.status? pid = some .running)
    (word : StatusWord) (other : Nat) :
    (t.finish pid word).status? other =
      if other = pid then some (.ended word) else t.status? other := by
  rw [finish, if_pos alive]
  exact status?_setStatus (by simp [alive]) (.ended word) other

theorem collect_of_ended {t : ChildTable} {pid : Nat} {word : StatusWord}
    (ended : t.status? pid = some (.ended word)) :
    t.collect pid = (.status word, t.setStatus pid .collected) := by
  rw [collect.eq_def, ended]

theorem collect_of_gone {t : ChildTable} {pid : Nat}
    (gone : t.status? pid = some .collected ∨ t.status? pid = none) :
    t.collect pid = (.noChild, t) := by
  rcases gone with gone | gone <;> rw [collect.eq_def, gone]

theorem status?_collect_of_ne (t : ChildTable) {pid other : Nat} (ne : other ≠ pid) :
    (t.collect pid).2.status? other = t.status? other := by
  rw [collect.eq_def]
  split
  · rfl
  · exact status?_setStatus_of_ne t ne .collected
  · rfl
  · rfl

theorem collected_collect {t : ChildTable} {pid other : Nat}
    (collected : t.status? other = some .collected) :
    (t.collect pid).2.status? other = some .collected := by
  by_cases same : other = pid
  · rw [← same, collect_of_gone (.inl collected)]
    exact collected
  · rw [status?_collect_of_ne t same, collected]

/-! Collecting the children that have ended. -/

theorem mem_ended_iff {t : ChildTable} (distinct : t.Distinct) {pid : Nat} {word : StatusWord} :
    (pid, word) ∈ t.ended ↔ t.status? pid = some (.ended word) := by
  rw [status?_eq_some_iff distinct, ended, List.mem_filterMap]
  constructor
  · rintro ⟨⟨other, status⟩, known, hit⟩
    cases status with
    | ended w =>
      simp only [Option.some.injEq, Prod.mk.injEq] at hit
      exact hit.1 ▸ hit.2 ▸ known
    | running => contradiction
    | collected => contradiction
  · intro known
    exact ⟨(pid, .ended word), known, rfl⟩

/-- Collecting the first child that has ended leaves the others that have. -/
theorem ended_setStatus {t : ChildTable} (distinct : t.Distinct) {pid : Nat} {word : StatusWord}
    {others : List (Nat × StatusWord)} (first : t.ended = (pid, word) :: others) :
    (t.setStatus pid .collected).ended = others := by
  obtain ⟨children⟩ := t
  induction children with
  | nil => contradiction
  | cons child rest ih =>
    obtain ⟨name, status⟩ := child
    obtain ⟨unused, inner⟩ := List.nodup_cons.mp distinct
    have skipped (later : (⟨rest⟩ : ChildTable).ended = (pid, word) :: others) : name ≠ pid := by
      rintro rfl
      have hit : (name, word) ∈ (⟨rest⟩ : ChildTable).ended := by simp [later]
      have known := mem_of_status? ((mem_ended_iff inner).mp hit)
      exact unused (List.mem_map.mpr ⟨_, known, rfl⟩)
    rw [setStatus_cons]
    cases status with
    | ended w =>
      obtain ⟨here, rfl⟩ := List.cons.inj first
      obtain ⟨rfl, rfl⟩ := Prod.mk.inj here
      rw [setStatus_of_unknown unused, if_pos rfl]
      rfl
    | running =>
      rw [if_neg (skipped first)]
      exact ih inner first
    | collected =>
      rw [if_neg (skipped first)]
      exact ih inner first

theorem collectEnded_setStatus {t : ChildTable} (distinct : t.Distinct) {pid : Nat}
    {word : StatusWord} (hit : t.status? pid = some (.ended word)) :
    (t.setStatus pid .collected).collectEnded = t.collectEnded := by
  simp only [collectEnded, setStatus, List.map_map, ChildTable.mk.injEq]
  refine List.map_congr_left fun child known => ?_
  obtain ⟨name, status⟩ := child
  have known_status : t.status? name = some status := status?_of_mem distinct known
  by_cases here : name = pid
  · rw [here, hit] at known_status
    simp [here, ← Option.some.inj known_status]
  · simp [here]

/-- When no child has ended there is none to collect. -/
theorem collectEnded_of_ended_eq_nil {t : ChildTable} (none_ended : t.ended = []) :
    t.collectEnded = t := by
  obtain ⟨children⟩ := t
  rw [ended, List.filterMap_eq_nil_iff] at none_ended
  rw [collectEnded]
  congr 1
  refine (List.map_congr_left fun child known => ?_).trans (List.map_id _)
  have alive := none_ended child known
  obtain ⟨pid, status⟩ := child
  cases status <;> simp_all

end LineShell.ChildTable
