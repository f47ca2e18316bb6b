import LineShell.Proofs.AtomicPass

/-! What one step of a pass can do: it leaves the memory as it is, or it collects a child, or it
writes one slot (`step_cases`). -/

namespace LineShell.Atomic

theorem cells_setCell (m : Memory) (k : Nat) (x : Cell) (j : Nat) :
    (m.setCell k x).cells j = if j = k then x else m.cells j :=
  Function.update_apply m.cells k x j

theorem pid_setPhase (m : Memory) (k : Nat) (phase : Phase) (j : Nat) :
    ((m.setPhase k phase).cells j).pid = (m.cells j).pid := by
  rw [Memory.setPhase, cells_setCell]
  split
  · next here => rw [here]
  · rfl

theorem pid_setWord (m : Memory) (k : Nat) (word : Option StatusWord) (j : Nat) :
    ((m.setWord k word).cells j).pid = (m.cells j).pid := by
  rw [Memory.setWord, cells_setCell]
  split
  · next here => rw [here]
  · rfl

theorem setPhase_self (m : Memory) (i : Nat) (phase : Phase) :
    (m.setPhase i phase).cells i = { m.cells i with phase } :=
  (cells_setCell _ _ _ _).trans (if_pos rfl)

theorem setWord_self (m : Memory) (i : Nat) (word : Option StatusWord) :
    (m.setWord i word).cells i = { m.cells i with word } :=
  (cells_setCell _ _ _ _).trans (if_pos rfl)

/-- The step of a pass that writes a slot. -/
inductive Write (m : Memory) : Pc → Nat → Cell → Prop
  | giveBack (i : Nat) : Write m (.giveBack i) i { m.cells i with phase := .free }
  | take {i : Nat} (running : (m.cells i).phase = .running) (pid : Nat) (word : Option StatusWord)
      (back : Back) : Write m (.take i pid word back) i { m.cells i with phase := .finishing }
  | fill (i : Nat) (word : Option StatusWord) (back : Back) :
      Write m (.fill i word back) i { m.cells i with word }
  | close (i : Nat) (back : Back) : Write m (.close i back) i { m.cells i with phase := .done }
  | claim {j : Nat} (free : (m.cells j).phase = .free) (pid : Nat) (word : StatusWord) :
      Write m (.claim pid word j) j { m.cells j with phase := .claimed }
  | putPid (pid : Nat) (word : StatusWord) (j : Nat) :
      Write m (.putPid pid word j) j { m.cells j with pid }
  | putWord (word : StatusWord) (j : Nat) :
      Write m (.putWord word j) j { m.cells j with word := some word }
  | putDone (j : Nat) : Write m (.putDone j) j { m.cells j with phase := .done }

/-- The step of a pass that collects a child. -/
inductive Collect : Pc → Nat → StatusWord → Pc → Prop
  | ask (i pid : Nat) (word : StatusWord) :
      Collect (.ask i pid) pid word (.take i pid (some word) (.loop (i + 1)))
  | sweep (pid : Nat) (word : StatusWord) : Collect .sweep pid word (.matchPhase pid word 0)

theorem step_cases (m : Memory) (distinct : m.children.Distinct) (pc : Pc) :
    (pc.step m).1 = m ∨
    (∃ pid word, m.children.status? pid = some (.ended word) ∧ Collect pc pid word (pc.step m).2 ∧
      (pc.step m).1 = m.withChildren (m.children.setStatus pid .collected)) ∨
    ∃ i x, Write m pc i x ∧ (pc.step m).1 = m.setCell i x := by
  cases pc with
  | loadPhase i =>
    rw [Pc.step]
    split
    · split <;> exact .inl rfl
    · exact .inl rfl
  | loadPid i => exact .inl rfl
  | ask i pid =>
    cases status : m.children.status? pid with
    | none =>
      rw [Pc.step, ChildTable.collect_of_gone (.inr status)]
      exact .inl rfl
    | some now =>
      cases now with
      | running =>
        rw [Pc.step, ChildTable.collect.eq_def, status]
        exact .inl rfl
      | ended word =>
        rw [Pc.step, ChildTable.collect_of_ended status]
        exact .inr (.inl ⟨pid, word, status, .ask i pid word, rfl⟩)
      | collected =>
        rw [Pc.step, ChildTable.collect_of_gone (.inl status)]
        exact .inl rfl
  | seekPhase i pid j =>
    rw [Pc.step]
    split
    · split <;> exact .inl rfl
    · exact .inl rfl
  | seekPid i pid j =>
    rw [Pc.step]
    split
    · split <;> exact .inl rfl
    · exact .inl rfl
  | giveBack i => exact .inr (.inr ⟨i, _, .giveBack i, rfl⟩)
  | take i pid word back =>
    rw [Pc.step]
    split
    · next running => exact .inr (.inr ⟨i, _, .take running pid word back, rfl⟩)
    · exact .inl rfl
  | fill i word back => exact .inr (.inr ⟨i, _, .fill i word back, rfl⟩)
  | close i back => exact .inr (.inr ⟨i, _, .close i back, rfl⟩)
  | loadForeground =>
    rw [Pc.step]
    split <;> exact .inl rfl
  | sweep =>
    rw [Pc.step]
    split
    · exact .inl rfl
    · next pid word others list =>
      have ended : m.children.status? pid = some (.ended word) :=
        (ChildTable.mem_ended_iff distinct).mp (by simp [list])
      exact .inr (.inl ⟨pid, word, ended, .sweep pid word, rfl⟩)
  | matchPhase pid word j =>
    rw [Pc.step]
    split
    · split <;> exact .inl rfl
    · exact .inl rfl
  | matchPid pid word j =>
    rw [Pc.step]
    split <;> exact .inl rfl
  | claim pid word j =>
    rw [Pc.step]
    split
    · split
      · next free => exact .inr (.inr ⟨j, _, .claim free pid word, rfl⟩)
      · exact .inl rfl
    · exact .inl rfl
  | putPid pid word j => exact .inr (.inr ⟨j, _, .putPid pid word j, rfl⟩)
  | putWord word j => exact .inr (.inr ⟨j, _, .putWord word j, rfl⟩)
  | putDone j => exact .inr (.inr ⟨j, _, .putDone j, rfl⟩)
  | finished => exact .inl rfl

variable {m : Memory} {pc : Pc}

/-- A step leaves the child `p` as it is, or collects it. -/
theorem status_step (distinct : m.children.Distinct) (p : Nat) (pc : Pc) :
    (pc.step m).1.children.status? p = m.children.status? p ∨
    ∃ word, m.children.status? p = some (.ended word) ∧
      (pc.step m).1.children.status? p = some .collected ∧ Collect pc p word (pc.step m).2 := by
  rcases step_cases m distinct pc with same | ⟨q, word, ended, collect, collected⟩ |
    ⟨k, x, -, written⟩
  · exact .inl (by rw [same])
  · by_cases own : p = q
    · subst own
      refine .inr ⟨word, ended, ?_, collect⟩
      rw [collected]
      exact (ChildTable.status?_collected ended p).trans (if_pos rfl)
    · rw [collected]
      exact .inl (ChildTable.status?_setStatus_of_ne _ own _)
  · exact .inl (by rw [written]; rfl)

theorem collected_ne {t : ChildTable} {pid : Nat} {word : StatusWord}
    (ended : t.status? pid = some (.ended word)) :
    (t.setStatus pid .collected).status? pid ≠ t.status? pid := by
  rw [ChildTable.status?_collected ended, if_pos rfl, ended]
  simp

theorem step_frame (distinct : m.children.Distinct) (pc : Pc) :
    (pc.step m).1.size = m.size ∧ (pc.step m).1.foreground = m.foreground ∧
      (pc.step m).1.children.Distinct := by
  rcases step_cases m distinct pc with same | ⟨q, word, -, -, collected⟩ | ⟨k, x, -, written⟩
  · rw [same]
    exact ⟨rfl, rfl, distinct⟩
  · rw [collected]
    exact ⟨rfl, rfl, distinct.setStatus q .collected⟩
  · rw [written]
    exact ⟨rfl, rfl, distinct⟩

theorem back_ne_finished (back : Back) : back.pc ≠ .finished := by
  cases back <;> simp [Back.pc]

/-- A pass that holds off for nobody finishes when no child is left that has ended. -/
theorem step_finished (quiet : m.foreground = 0) (unfinished : pc ≠ .finished)
    (last : (pc.step m).2 = .finished) : m.children.ended = [] ∧ (pc.step m).1 = m := by
  have open_loop (back : Back) (h : back.pc = .finished) : False := back_ne_finished back h
  cases pc with
  | sweep =>
    cases list : m.children.ended with
    | nil => exact ⟨rfl, by rw [Pc.step, list]⟩
    | cons child others => simp [Pc.step, list] at last
  | take j q word back =>
    rw [Pc.step] at last
    split at last
    · contradiction
    · exact (open_loop back last).elim
  | close j back => exact (open_loop back last).elim
  | loadForeground => simp [Pc.step, quiet] at last
  | finished => exact absurd rfl unfinished
  | loadPhase j =>
    rw [Pc.step] at last
    split at last
    · split at last <;> contradiction
    · contradiction
  | ask j q =>
    rw [Pc.step] at last
    split at last <;> contradiction
  | seekPhase j q k =>
    rw [Pc.step] at last
    split at last
    · split at last <;> contradiction
    · contradiction
  | seekPid j q k =>
    rw [Pc.step] at last
    split at last
    · split at last <;> contradiction
    · contradiction
  | matchPhase q word k =>
    rw [Pc.step] at last
    split at last
    · split at last <;> contradiction
    · contradiction
  | matchPid q word k =>
    rw [Pc.step] at last
    split at last <;> contradiction
  | claim q word k =>
    rw [Pc.step] at last
    split at last
    · split at last <;> contradiction
    · contradiction
  | _ => contradiction

end LineShell.Atomic
