import LineShell.Proofs.WordPassage

/-! A pass that starts while another one holds the word of a job. It finds the slot of the job
running and no child to ask for, so that the slot comes to say that nobody knows the word
(`Doomed.step`). -/

namespace LineShell.Atomic

variable {p i : Nat} {m : Memory} {pc : Pc}

/-- The pass has not come to slot `i` yet. -/
def Before (i : Nat) : Pc → Prop
  | .loadPhase k => k ≤ i
  | .loadPid k | .ask k _ | .seekPhase k _ _ | .seekPid k _ _ | .giveBack k => k < i
  | .take k _ _ back | .fill k _ back | .close k back => k < i ∧ back = .loop (k + 1)
  | _ => False

theorem Before.leaves (before : Before i pc) : Leaves i pc := by
  cases pc with
  | loadPhase k => trivial
  | loadPid k => exact Nat.ne_of_lt before
  | ask k q => exact Nat.ne_of_lt before
  | seekPhase k q j => exact Nat.ne_of_lt before
  | seekPid k q j => exact Nat.ne_of_lt before
  | giveBack k => exact Nat.ne_of_lt before
  | take k q word back => trivial
  | fill k word back => exact Nat.ne_of_lt before.1
  | close k back => exact Nat.ne_of_lt before.1
  | _ => exact before.elim

theorem Before.next (before : Before i pc) (inside : i < m.size)
    (running : (m.cells i).phase = .running) :
    Before i (pc.step m).2 ∨ (pc.step m).2 = .loadPid i := by
  cases pc with
  | loadPhase k =>
    have bound : k < m.size := Nat.lt_of_le_of_lt before inside
    rw [Pc.step, if_pos bound]
    split
    · by_cases here : k = i
      · exact .inr (congrArg Pc.loadPid here)
      · exact .inl (Nat.lt_of_le_of_ne before here)
    · next idle =>
      have elsewhere : k ≠ i := by
        rintro rfl
        exact idle running
      exact .inl (Nat.lt_of_le_of_ne before elsewhere)
  | loadPid k => exact .inl before
  | ask k q =>
    refine .inl ?_
    rw [Pc.step]
    split
    · exact before
    · exact ⟨before, rfl⟩
    · exact before
  | seekPhase k q j =>
    refine .inl ?_
    rw [Pc.step]
    split
    · split <;> exact before
    · exact ⟨before, rfl⟩
  | seekPid k q j =>
    refine .inl ?_
    rw [Pc.step]
    split
    · split <;> exact before
    · exact before
  | giveBack k => exact .inl before
  | take k q word back =>
    obtain ⟨bound, rfl⟩ := before
    refine .inl ?_
    rw [Pc.step]
    split
    · exact ⟨bound, rfl⟩
    · exact bound
  | fill k word back => exact .inl before
  | close k back =>
    obtain ⟨bound, rfl⟩ := before
    exact .inl bound
  | _ => exact before.elim

/-- The pass asks for `p`, or looks for a report of it, or gives up. -/
def Asking (p i : Nat) (m : Memory) : Pc → Prop
  | .loadPid j => j = i
  | .ask j q | .seekPhase j q _ => j = i ∧ q = p
  | .seekPid j q k => j = i ∧ q = p ∧ (m.cells k).pid ≠ p
  | .take j _ word _ => j = i ∧ word = none
  | _ => False

theorem Asking.next (asking : Asking p i m pc) (clear : Clear p i m)
    (running : (m.cells i).phase = .running) (collected : m.children.status? p = some .collected) :
    ((pc.step m).1 = m ∧ Asking p i m (pc.step m).2) ∨
    ((pc.step m).1 = m.setPhase i .finishing ∧
      Filling i none (m.setPhase i .finishing) (pc.step m).2) := by
  cases pc with
  | loadPid j =>
    obtain rfl := asking
    exact .inl ⟨rfl, rfl, clear.own⟩
  | ask j q =>
    obtain ⟨rfl, rfl⟩ := asking
    rw [Pc.step, ChildTable.collect_of_gone (.inl collected)]
    exact .inl ⟨rfl, rfl, rfl⟩
  | seekPhase j q k =>
    -- Slot `i` runs, and no other slot shows `p`, so the search finds nothing.
    obtain ⟨rfl, rfl⟩ := asking
    refine .inl ?_
    rw [Pc.step]
    split
    · next inside =>
      split
      · next done =>
        have elsewhere : k ≠ j := by
          rintro rfl
          simp [running] at done
        exact ⟨rfl, rfl, rfl, clear.foreign inside elsewhere (by simp [done]) (by simp [done])⟩
      · exact ⟨rfl, rfl, rfl⟩
    · exact ⟨rfl, rfl, rfl⟩
  | seekPid j q k =>
    obtain ⟨rfl, rfl, foreign⟩ := asking
    rw [Pc.step, if_neg foreign]
    exact .inl ⟨rfl, rfl, rfl⟩
  | take j q word back =>
    obtain ⟨rfl, rfl⟩ := asking
    rw [Pc.step, if_pos running]
    exact .inr ⟨rfl, rfl, rfl⟩
  | _ => exact asking.elim

/-- The word of `p` will not come into slot `i`. -/
inductive Doomed (p i : Nat) : Memory → Pc → Option Pc → Prop
  | toward {m : Memory} {pc b : Pc} (clear : Clear p i m) (phase : (m.cells i).phase = .running)
      (status : m.children.status? p = some .collected) (clean : Clean p i m pc)
      (before : Before i pc) (leaves : Leaves i b) : Doomed p i m pc (some b)
  | asking {m : Memory} {pc b : Pc} (clear : Clear p i m) (phase : (m.cells i).phase = .running)
      (status : m.children.status? p = some .collected) (asking : Asking p i m pc)
      (leaves : Leaves i b) : Doomed p i m pc (some b)
  | filling {m : Memory} {pc b : Pc} (clear : Clear p i m) (phase : (m.cells i).phase = .finishing)
      (filling : Filling i none m pc) (leaves : Leaves i b) : Doomed p i m pc (some b)
  /-- The slot is done, with the mark of a job whose word was given to someone else. -/
  | lost {m : Memory} {pc : Pc} {rest : Option Pc} (inside : i < m.size)
      (cell : m.cells i = ⟨.done, p, none⟩) (distinct : m.children.Distinct)
      (leaves : Leaves i pc) (others : ∀ b ∈ rest, Leaves i b) : Doomed p i m pc rest

theorem leaves_back (i : Nat) (back : Back) : Leaves i back.pc := by
  cases back <;> trivial

theorem Doomed.step {rest : Option Pc} (doomed : Doomed p i m pc rest) :
    Doomed p i (pc.step m).1 (pc.step m).2 rest := by
  cases doomed with
  | toward clear phase status clean before leaves =>
    have taken : (m.cells i).phase ≠ .free := by simp [phase]
    obtain ⟨still_clear, cell_eq, -⟩ := clean.memory clear taken
    have still_phase : ((pc.step m).1.cells i).phase = .running := by rw [cell_eq, phase]
    rcases clean.next clear taken (by simp [status]) (fun _ => .inr before.leaves) with
      ⟨same, still_clean⟩ | ⟨w, ended, -, -⟩
    · rcases before.next clear.inside phase with still_before | here
      · exact .toward still_clear still_phase (same.trans status) still_clean still_before leaves
      · rw [here]
        exact .asking still_clear still_phase (same.trans status) rfl leaves
    · simp [status] at ended
  | asking clear phase status asking leaves =>
    rcases asking.next clear phase status with ⟨same, still_asking⟩ | ⟨written, filling⟩
    · rw [same]
      exact .asking clear phase status still_asking leaves
    · rw [written]
      exact .filling (clear.setOwn clear.own) (by rw [setPhase_self]) filling leaves
  | filling clear phase filling leaves =>
    rcases filling.next with ⟨written, still_filling⟩ | ⟨written, filled, back, next⟩
    · rw [written]
      refine .filling (clear.setOwn clear.own) ?_ still_filling leaves
      rw [setWord_self, phase]
    · rw [written, next]
      refine .lost clear.inside ?_ clear.distinct (leaves_back i back) fun b hb => ?_
      · simp [setPhase_self, filled, clear.own]
      · exact Option.some.inj hb ▸ leaves
  | lost inside cell distinct leaves others =>
    have taken : (m.cells i).phase ≠ .free := by simp [cell]
    have idle : (m.cells i).phase ≠ .running := by simp [cell]
    obtain ⟨size, -, still_distinct⟩ := step_frame distinct pc
    have cell_eq := leaves.cell distinct idle taken
    exact .lost (size ▸ inside) (cell_eq.trans cell) still_distinct (leaves.next idle taken) others

theorem Holding.leaves {word : StatusWord} (holding : Holding p i word m pc) : Leaves i pc := by
  cases pc with
  | take j q w back => trivial
  | matchPhase q w k => trivial
  | matchPid q w k => trivial
  | _ => exact holding.elim

theorem Stage.strike {word : Option StatusWord} (stage : Stage p i word m pc none)
    (clear : Clear p i m) (holds : pc.Holds p) : Doomed p i m .start (some pc) := by
  cases stage with
  | waiting phase status clean => exact absurd holds clean.not_holds
  | held phase status holding =>
    exact .toward clear phase status trivial (Nat.zero_le i) holding.leaves
  | filling phase status filling => exact absurd holds filling.not_holds
  | settled phase filled status clean => exact absurd holds clean.not_holds

theorem Doomed.resume {b : Pc} (doomed : Doomed p i m .finished (some b)) :
    Doomed p i m b none := by
  cases doomed with
  | toward clear phase status clean before => exact before.elim
  | asking clear phase status asking => exact asking.elim
  | filling clear phase filling => exact filling.elim
  | lost inside cell distinct leaves others =>
    exact .lost inside cell distinct (others b rfl) (by simp)

theorem Doomed.ends {rest : Option Pc} (doomed : Doomed p i m pc rest) {q : Nat}
    (alive : m.children.status? q = some .running) (w : StatusWord) :
    Doomed p i (m.withChildren (m.children.finish q w)) pc rest := by
  have status_eq := ChildTable.status?_finish alive w p
  have clear_still (clear : Clear p i m) := clear.withChildren (clear.distinct.finish q w)
  have other (collected : m.children.status? p = some .collected) :
      (m.children.finish q w).status? p = some .collected := by
    have ne : q ≠ p := by
      rintro rfl
      simp [alive] at collected
    rw [status_eq, if_neg (Ne.symm ne), collected]
  cases doomed with
  | toward clear phase status clean before leaves =>
    have still_clean := clean.keep (fun _ => id) id
    exact .toward (clear_still clear) phase (other status) still_clean before leaves
  | asking clear phase status asking leaves =>
    refine .asking (clear_still clear) phase (other status) ?_ leaves
    cases pc <;> exact asking
  | filling clear phase filling leaves =>
    exact .filling (clear_still clear) phase (filling.keep rfl) leaves
  | lost inside cell distinct leaves others =>
    exact .lost inside cell (distinct.finish q w) leaves others

end LineShell.Atomic
