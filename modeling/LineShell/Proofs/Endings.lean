import LineShell.Proofs.Children
import LineShell.Proofs.Holding

/-! How processes go on and how they end. In a step one process goes on as its program says, and
perhaps splits off a new one; the programs of all others stay as they are, and whoever ends does so
as its own program says, or by a signal (`proceeds_step`). So a process whose program always goes on
in one way ends in that way or by a signal, whatever all the others do (`Abides.run`). -/

namespace LineShell

/-- What a process may do after one step of its program: it goes on with the answer to its request,
or as another program. -/
inductive Code.Follows : Code → Code → Prop
  | reply (request : Request) (next : request.Reply → Code) (value : request.Reply) :
      Follows (.call request next) (next value)
  | split (child : Code) (next : Except Errno Nat → Code) (value : Except Errno Nat) :
      Follows (.fork child next) (next value)
  | becomes (path : Text) (args : List Text) (environment : List (Text × Text))
      (next : Errno → Code) (other : Code) : Follows (.call (.execute path args environment) next) other

/-- A signal that ends a process. -/
def Ending.IsSignal (ending : Ending) : Prop :=
  ∃ signal, 0 < signal ∧ signal ≤ Signal.greatest ∧ ending = .signaled signal

namespace Machine

variable {m mid m' : Machine} {held : List Nat} {task task' : Task} {pid : Nat}

/-- A child is as it was, or has just ended in such a way. -/
def Ends (m m' : Machine) (pid : Nat) (ending : Ending → Prop) : Prop :=
  m'.children.status? pid = m.children.status? pid ∨
    m.children.status? pid = some .running ∧
      ∃ e, ending e ∧ m'.children.status? pid = some (.ended e.word)

theorem ends_finish (m : Machine) (task : Task) (ending : Ending) (pid : Nat) :
    m.Ends (m.finish task ending) pid fun e => pid = task.pid ∧ e = ending := by
  rw [Ends, finish]
  split
  · change (m.children.finish task.pid ending.word).status? pid = _ ∨ _ ∧ ∃ e, _ ∧
      (m.children.finish task.pid ending.word).status? pid = _
    by_cases alive : m.children.status? task.pid = some .running
    · rw [ChildTable.status?_finish alive]
      by_cases same : pid = task.pid
      · subst same
        exact .inr ⟨alive, ending, ⟨rfl, rfl⟩, if_pos rfl⟩
      · exact .inl (if_neg same)
    · rw [ChildTable.finish, if_neg alive]
      exact .inl rfl
  · exact .inl rfl

theorem pids_finish (m : Machine) (task : Task) (ending : Ending) :
    (m.finish task ending).children.pids = m.children.pids := by
  rw [finish]
  split
  · exact ChildTable.pids_finish ..
  · rfl

theorem Ends.trans {ending : Ending → Prop} (first : m.Ends mid pid ending)
    (second : mid.Ends m' pid ending) : m.Ends m' pid ending := by
  rcases first with same | ⟨alive, e, known, ended⟩
  · rwa [Ends, same] at second
  · rcases second with same | ⟨alive', -⟩
    · exact .inr ⟨alive, e, known, same.trans ended⟩
    · rw [ended] at alive'
      cases alive'

/-- Every process was there before, with the program that it has. -/
def KeepsCodes (m m' : Machine) : Prop :=
  ∀ task' ∈ m'.tasks, ∃ old ∈ m.tasks, task'.pid = old.pid ∧ task'.code = old.code

namespace KeepsCodes

theorem trans (first : m.KeepsCodes mid) (second : mid.KeepsCodes m') : m.KeepsCodes m' := by
  intro task' there
  obtain ⟨between, there, pid, code⟩ := second task' there
  obtain ⟨old, there, pid', code'⟩ := first between there
  exact ⟨old, there, pid.trans pid', code.trans code'⟩

theorem wake (m : Machine) : m.KeepsCodes m.wake := by
  intro task' there
  obtain ⟨old, member, rfl⟩ := List.mem_map.mp there
  exact ⟨old, member, by split <;> exact ⟨rfl, rfl⟩⟩

theorem finish (m : Machine) (task : Task) (ending : Ending) :
    m.KeepsCodes (m.finish task ending) := by
  have others : ∀ task' ∈ (m.tasks.filter fun other => other.pid ≠ task.pid).map fun other =>
      if other.parent = task.pid then { other with parent := 0 }
      else if other.pid = task.parent ∧ Signal.childEnded ∈ other.handled then
        { other with caught := other.caught ++ [Signal.childEnded] }
      else other,
      ∃ old ∈ m.tasks, task'.pid = old.pid ∧ task'.code = old.code := by
    intro task' there
    obtain ⟨old, member, rfl⟩ := List.mem_map.mp there
    refine ⟨old, List.mem_of_mem_filter member, ?_⟩
    split
    · exact ⟨rfl, rfl⟩
    · split <;> exact ⟨rfl, rfl⟩
  rw [Machine.finish]
  refine .trans ?_ (wake _)
  split <;> exact others

end KeepsCodes

/-- Processes may have been told something by signals, and some may have ended of that; nobody's
program has gone on. -/
structure Spares (m m' : Machine) : Prop where
  nextPid : m'.nextPid = m.nextPid
  codes : m.KeepsCodes m'
  ends : ∀ pid, m.Ends m' pid Ending.IsSignal
  pids : m'.children.pids = m.children.pids

namespace Spares

theorem of_same (nextPid : m'.nextPid = m.nextPid) (tasks : m'.tasks = m.tasks)
    (children : m'.children = m.children) : m.Spares m' :=
  ⟨nextPid, fun task there => ⟨task, tasks ▸ there, rfl, rfl⟩, fun _ => .inl (by rw [children]),
    by rw [children]⟩

theorem refl (m : Machine) : m.Spares m := of_same rfl rfl rfl

theorem trans (first : m.Spares mid) (second : mid.Spares m') : m.Spares m' where
  nextPid := second.nextPid.trans first.nextPid
  codes := first.codes.trans second.codes
  ends := fun pid => (first.ends pid).trans (second.ends pid)
  pids := second.pids.trans first.pids

theorem wake (m : Machine) : m.Spares m.wake := ⟨rfl, .wake m, fun _ => .inl rfl, rfl⟩

theorem setTask (there : task ∈ m.tasks) (pid : task'.pid = task.pid)
    (code : task'.code = task.code) : m.Spares (m.setTask task') := by
  refine ⟨rfl, fun other there' => ?_, fun _ => .inl rfl, rfl⟩
  obtain ⟨old, member, rfl⟩ := List.mem_map.mp there'
  split
  · exact ⟨task, there, pid, code⟩
  · exact ⟨old, member, rfl, rfl⟩

theorem finish (m : Machine) (task : Task) {ending : Ending} (signal : ending.IsSignal) :
    m.Spares (m.finish task ending) where
  nextPid := (Steady.finish m task ending).nextPid
  codes := .finish m task ending
  ends := by
    intro pid
    rcases ends_finish m task ending pid with same | ⟨alive, e, ⟨-, rfl⟩, ended⟩
    · exact .inl same
    · exact .inr ⟨alive, e, signal, ended⟩
  pids := pids_finish m task ending

/-- A signal that is sent may end the process that it reaches. -/
theorem deliver (there : task ∈ m.tasks) {signal : Nat} (known : signal ≤ Signal.greatest) :
    m.Spares (m.deliver task signal) := by
  rw [Machine.deliver]
  split
  · next kill => exact finish m task ⟨signal, by rw [kill]; decide, known, rfl⟩
  split
  · exact setTask there rfl rfl
  have resumed : ∃ task', (if signal = Signal.resume ∧ task.isStopped then
      { task with isStopped := false, clock := max task.clock m.now } else task) = task' ∧
      task'.pid = task.pid ∧ task'.code = task.code := by
    split <;> exact ⟨_, rfl, rfl, rfl⟩
  obtain ⟨task', same, pid, code⟩ := resumed
  simp only [same]
  split
  · refine .trans ?_ (wake _)
    exact setTask there pid code
  split
  · exact setTask there pid code
  split
  · next ends =>
    have positive : 0 < signal := by
      by_contra zero
      rw [Nat.eq_zero_of_not_pos zero] at ends
      exact absurd ends (by decide)
    exact finish m task' ⟨signal, positive, known, rfl⟩
  · exact setTask there pid code
  · exact setTask there pid code
  · exact setTask there pid code

theorem send {target : Int} {signal : Nat} (sent : m.send target signal = .ok m') : m.Spares m' := by
  rw [Machine.send] at sent
  split at sent
  · cases sent
  next known =>
  split at sent
  · cases sent
  split at sent
  · cases sent
    exact refl m
  split at sent
  · next found =>
    cases sent
    exact deliver (List.mem_of_find?_eq_some found) (Nat.not_lt.mp known)
  · split at sent <;> cases sent
    exact refl m

end Spares

/-- An answer changes no program, and it is for the process that has asked. -/
theorem answer_spares {request : Request} {value : request.Reply} {wakes : Bool}
    (answered : m.answer held task request = .answered value task' m' wakes) :
    m.Spares m' ∧ task'.pid = task.pid := by
  have moved {m' : Machine} (moved : m.Moved m') : m.Spares m' := by
    obtain ⟨_, _, _, _, rfl, -⟩ := moved
    exact .of_same rfl rfl rfl
  cases request with
  | openFile path mode =>
    rw [answer] at answered
    split at answered
    · cases answered
      exact ⟨.refl m, rfl⟩
    · next opens =>
      cases answered
      obtain ⟨_, _, -, -, rfl⟩ := openPath_opened opens
      exact ⟨.of_same rfl rfl rfl, rfl⟩
  | pipe =>
    rw [answer, addPipe_eq] at answered
    cases answered
    exact ⟨.of_same rfl rfl rfl, rfl⟩
  | read fd count =>
    rw [answer, answerRead] at answered
    split at answered
    · cases answered
      exact ⟨.refl m, rfl⟩
    split at answered
    · next done =>
      cases answered
      exact ⟨moved (readStream_done done), rfl⟩
    · cases answered
      exact ⟨.refl m, rfl⟩
    · split at answered <;> cases answered
      exact ⟨.refl m, rfl⟩
    · cases answered
      exact ⟨.refl m, rfl⟩
  | write fd bytes =>
    rw [answer, answerWrite] at answered
    split at answered
    · cases answered
      exact ⟨.refl m, rfl⟩
    split at answered
    · next done =>
      cases answered
      exact ⟨moved (writeStream_done done), rfl⟩
    · cases answered
      exact ⟨.refl m, rfl⟩
    · split at answered <;> cases answered
      exact ⟨.refl m, rfl⟩
    · repeat' split at answered
      all_goals cases answered
      all_goals exact ⟨.refl m, rfl⟩
  | seek fd origin offset =>
    rw [answer] at answered
    split at answered
    · cases answered
      exact ⟨.refl m, rfl⟩
    split at answered
    · next moves =>
      cases answered
      exact ⟨moved (seekStream_ok moves), rfl⟩
    · cases answered
      exact ⟨.refl m, rfl⟩
  | wait child blocks =>
    rw [answer, answerWait] at answered
    dsimp only at answered
    split at answered
    · cases answered
      exact ⟨.of_same rfl rfl rfl, rfl⟩
    repeat' split at answered
    all_goals cases answered
    all_goals exact ⟨.refl m, rfl⟩
  | kill target signal =>
    rw [answer, answerKill] at answered
    split at answered
    · cases answered
      exact ⟨.refl m, rfl⟩
    · next sent =>
      split at answered <;> cases answered
      next found => exact ⟨.send sent, by simpa using List.find?_some found⟩
  | setMode path mode =>
    rw [answer] at answered
    split at answered
    · next set =>
      cases answered
      obtain ⟨root, rfl⟩ := answerSetMode_ok set
      exact ⟨.of_same rfl rfl rfl, rfl⟩
    · cases answered
      exact ⟨.refl m, rfl⟩
  | setSignal signal action =>
    cases action <;> cases answered <;> exact ⟨.refl m, rfl⟩
  | close | redirect | duplicate | changeDir | currentDir | status =>
    rw [answer] at answered
    split at answered <;> cases answered <;> exact ⟨.refl m, rfl⟩
  | _ =>
    rw [answer] at answered
    cases answered
    exact ⟨.refl m, rfl⟩

theorem mem_setTask (there : task ∈ m.tasks) (task' : Task) :
    ∃ other ∈ (m.setTask task').tasks, other.pid = task.pid := by
  refine ⟨_, List.mem_map_of_mem there, ?_⟩
  split
  · next same => exact same.symm
  · rfl

/-- To ask with signal 0 whether a process is there does nothing to it. -/
theorem mem_of_send_zero {target : Int} (sent : m.send target 0 = .ok m') (there : task ∈ m.tasks) :
    ∃ other ∈ m'.tasks, other.pid = task.pid := by
  have awake {m : Machine} (known : ∃ other ∈ m.tasks, other.pid = task.pid) :
      ∃ other ∈ m.wake.tasks, other.pid = task.pid := by
    obtain ⟨other, member, pid⟩ := known
    refine ⟨_, List.mem_map_of_mem member, ?_⟩
    split <;> exact pid
  rw [send] at sent
  simp only [Nat.not_lt_zero, if_false] at sent
  split at sent
  · cases sent
  split at sent
  · cases sent
    exact ⟨task, there, rfl⟩
  split at sent
  · cases sent
    rw [deliver, if_neg (by decide), if_neg (by decide)]
    simp only [if_neg (fun resumes : 0 = Signal.resume ∧ _ => absurd resumes.1 (by decide))]
    split
    · exact awake (mem_setTask there _)
    split
    · exact mem_setTask there _
    · exact mem_setTask there _
  · split at sent <;> cases sent
    exact ⟨task, there, rfl⟩

/-- A process that an answer ends has been ended by a signal. -/
theorem killed_isSignal {request : Request} {signal : Nat} (there : task ∈ m.tasks)
    (killed : m.answer held task request = .killed signal) : (Ending.signaled signal).IsSignal := by
  cases request with
  | write fd bytes =>
    rw [answer, answerWrite] at killed
    repeat' split at killed
    all_goals cases killed
    exact ⟨Signal.brokenPipe, by decide, by decide, rfl⟩
  | kill target signal =>
    rw [answer, answerKill] at killed
    split at killed
    · cases killed
    next after sent =>
    split at killed
    · cases killed
    next gone =>
    cases killed
    refine ⟨signal, ?_, ?_, rfl⟩
    · by_contra zero
      obtain rfl := Nat.eq_zero_of_not_pos zero
      obtain ⟨other, member, pid⟩ := mem_of_send_zero sent there
      exact List.find?_eq_none.mp gone other member (by simpa using pid)
    · by_contra unknown
      rw [send, if_pos (Nat.not_le.mp unknown)] at sent
      cases sent
  | setSignal signal action => cases action <;> cases killed
  | read =>
    rw [answer, answerRead] at killed
    repeat' split at killed
    all_goals cases killed
  | wait =>
    rw [answer, answerWait] at killed
    repeat' split at killed
    all_goals cases killed
  | _ =>
    rw [answer] at killed
    repeat' split at killed
    all_goals cases killed

/-- What a step of a process leaves of it and of all the others: the process goes on as its program
says, another one is new, and the rest have their programs still. Whoever has ended has been told so
by its own program, or by a signal, and the shell has the children that it had. -/
structure Proceeds (m m' : Machine) (task : Task) : Prop where
  nextPid : m.nextPid ≤ m'.nextPid
  codes : ∀ task' ∈ m'.tasks,
    (∃ old ∈ m.tasks, task'.pid = old.pid ∧
      (task'.code = old.code ∨ old = task ∧ task.code.Follows task'.code)) ∨
    task'.pid = m.nextPid ∧ m.nextPid < m'.nextPid
  ends : ∀ pid, m.Ends m' pid fun e =>
    e.IsSignal ∨ pid = task.pid ∧ ∃ status, task.code = .exit status ∧ e = .exited status
  pids : m'.children.pids = m.children.pids

theorem Ends.mono {ending wider : Ending → Prop} (ends : m.Ends m' pid ending)
    (weaker : ∀ e, ending e → wider e) : m.Ends m' pid wider := by
  rcases ends with same | ⟨alive, e, known, ended⟩
  · exact .inl same
  · exact .inr ⟨alive, e, weaker e known, ended⟩

namespace Proceeds

theorem of_spares (spares : m.Spares m') : m.Proceeds m' task where
  nextPid := spares.nextPid.ge
  codes := fun task' there => by
    obtain ⟨old, member, pid, code⟩ := spares.codes task' there
    exact .inl ⟨old, member, pid, .inl code⟩
  ends := fun pid => (spares.ends pid).mono fun _ => .inl
  pids := spares.pids

theorem wake (proceeds : m.Proceeds m' task) : m.Proceeds m'.wake task where
  nextPid := proceeds.nextPid
  codes := fun task' there => by
    obtain ⟨old, member, pid, code⟩ := KeepsCodes.wake m' task' there
    rw [pid, code]
    exact proceeds.codes old member
  ends := proceeds.ends
  pids := proceeds.pids

/-- The process has had an answer, and goes on with it. -/
theorem of_answer (spares : m.Spares m') (there : task ∈ m.tasks) (pid : task'.pid = task.pid)
    (follows : task.code.Follows task'.code) : m.Proceeds (m'.setTask task') task where
  nextPid := spares.nextPid.ge
  codes := fun other there' => by
    obtain ⟨old, member, rfl⟩ := List.mem_map.mp there'
    left
    split
    · exact ⟨task, there, pid, .inr ⟨rfl, follows⟩⟩
    · obtain ⟨first, member, pid', code⟩ := spares.codes old member
      exact ⟨first, member, pid', .inl code⟩
  ends := fun pid => (spares.ends pid).mono fun _ => .inl
  pids := spares.pids

end Proceeds

theorem proceeds_carryOut {request : Request} {next : request.Reply → Code} (there : task ∈ m.tasks)
    (asks : task.code = .call request next) :
    m.Proceeds (m.carryOut held task request next) task := by
  rw [carryOut]
  split
  · exact .of_spares (.setTask there rfl rfl)
  · next killed => exact .of_spares (.finish m task (killed_isSignal there killed))
  · next value task' after wakes answered =>
    obtain ⟨spares, pid⟩ := answer_spares answered
    have goesOn : m.Proceeds (after.goOn task' (next value) requestTime) task :=
      .of_answer spares there pid (asks ▸ .reply request next value)
    dsimp only
    split
    · exact goesOn.wake
    · exact goesOn

theorem Proceeds.of_now (now : Nat) (proceeds : Proceeds { m with now } m' task) :
    m.Proceeds m' task := ⟨proceeds.nextPid, proceeds.codes, proceeds.ends, proceeds.pids⟩

theorem proceeds_step (there : task ∈ m.tasks) : m.Proceeds (m.step held task) task := by
  refine .of_now (max m.now task.clock) ?_
  rw [step]
  split
  · next status exits =>
    refine ⟨(Steady.finish _ task _).nextPid.ge, fun task' member => ?_, fun pid => ?_,
      pids_finish _ task _⟩
    · obtain ⟨old, member, pid, code⟩ := KeepsCodes.finish _ task _ task' member
      exact .inl ⟨old, member, pid, .inl code⟩
    · refine (ends_finish _ task _ pid).mono fun e known => .inr ?_
      exact ⟨known.1, status, exits, known.2⟩
  · next child next splits =>
    refine ⟨Nat.le_succ _, fun task' there' => ?_, fun _ => .inl rfl, rfl⟩
    obtain ⟨old, member, rfl⟩ := List.mem_map.mp there'
    by_cases own : old.pid = task.pid
    · rw [if_pos own]
      exact .inl ⟨task, there, rfl, .inr ⟨rfl, splits ▸ .split child next _⟩⟩
    rw [if_neg own]
    rcases List.mem_append.mp member with before | new
    · exact .inl ⟨old, before, rfl, .inl rfl⟩
    · obtain rfl := List.mem_singleton.mp new
      exact .inr ⟨rfl, Nat.lt_succ_self _⟩
  · next path args environment next executes =>
    split
    · next after becomes =>
      obtain ⟨pid, -⟩ := become_ok becomes
      refine .wake ?_
      exact .of_answer (.refl _) there pid (executes ▸ .becomes path args environment next _)
    · exact .of_answer (.refl _) there rfl (executes ▸ .reply _ next _)
  · next time next pauses =>
    split
    · split
      · exact .of_spares (.setTask there rfl rfl)
      · exact .of_answer (.refl _) there rfl (pauses ▸ .reply _ next _)
    · exact .of_answer (.refl _) there rfl (pauses ▸ .reply _ next _)
  · next time next works => exact .of_answer (.refl _) there rfl (works ▸ .reply _ next _)
  · next request next _ _ _ asks => exact proceeds_carryOut there asks

/-- A child of the shell does what is good, or has ended as those end who do so, or by a signal. -/
structure Abides (m : Machine) (pid : Nat) (good : Code → Prop) : Prop where
  known : pid < m.nextPid
  codes : ∀ task ∈ m.tasks, task.pid = pid → good task.code
  status : m.children.status? pid = some .running ∨
    ∃ e : Ending, m.children.status? pid = some (.ended e.word) ∧
      (e.IsSignal ∨ ∃ status, good (.exit status) ∧ e = .exited status)

variable {good : Code → Prop} (closed : ∀ code code', good code → code.Follows code' → good code')
include closed

theorem Abides.step (abides : m.Abides pid good) (there : task ∈ m.tasks) :
    (m.step held task).Abides pid good := by
  have proceeds : m.Proceeds (m.step held task) task := proceeds_step there
  refine ⟨abides.known.trans_le proceeds.nextPid, fun task' member own => ?_, ?_⟩
  · rcases proceeds.codes task' member with ⟨old, before, pid, code⟩ | ⟨new, -⟩
    · have here := abides.codes old before (pid.symm.trans own)
      rcases code with same | ⟨rfl, follows⟩
      · rwa [same]
      · exact closed _ _ here follows
    · exact absurd abides.known (new.symm.trans own).not_gt
  · rcases proceeds.ends pid with same | ⟨-, e, known, ended⟩
    · rw [same]
      exact abides.status
    refine .inr ⟨e, ended, known.imp_right ?_⟩
    rintro ⟨own, status, exits, rfl⟩
    exact ⟨status, exits ▸ abides.codes task there own.symm, rfl⟩

/-- Whatever all the processes do, for as long as they are at work. -/
theorem Abides.run (abides : m.Abides pid good) (held : List Nat) (isOver : Machine → Bool)
    (steps : Nat) : (m.run held isOver steps).Abides pid good := by
  induction steps generalizing m with
  | zero => exact abides
  | succ steps ih =>
    rw [Machine.run]
    split
    · exact abides
    split
    · exact abides
    · next acts => exact ih (abides.step closed (mem_of_next? acts))

end Machine
end LineShell
