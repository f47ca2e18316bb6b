import LineShell.Launch
import LineShell.Proofs.Endings
import LineShell.Proofs.Printing

/-! A child whose command is not found. Its program writes one message on standard error and ends
with status 1, whatever the system answers (`complains_fail`), so the shell finds it ended with that
status unless a signal has ended it (`state_of_waitFor`). When nobody else is at work and standard
error takes the message, two steps are all that it needs (`run_complains`). -/

namespace LineShell

open Act Descriptors

namespace Code

/-- What is left of a message is written on standard error, as often as need be, and then the process
ends. -/
inductive Finishes (status : Nat) : Bytes → Code → Prop
  | ends (rest : Bytes) : Finishes status rest (.exit status)
  | writes (rest : Bytes) (next : (Request.write stderr rest).Reply → Code)
      (wrote : ∀ count : Nat, Finishes status (rest.drop count) (next (.ok count)))
      (failed : ∀ e : Errno, Finishes status rest (next (.error e))) :
      Finishes status rest (.call (.write stderr rest) next)

/-- The process asks for the message to be written on standard error. When all of it has been
written, it ends, and until then it does nothing else. -/
structure Complains (code : Code) (status : Nat) (message : Bytes) : Prop where
  finishes : code.Finishes status message
  asks : ∃ next, code = .call (.write stderr message) next ∧ next (.ok message.length) = .exit status

theorem Finishes.follows {status : Nat} {rest : Bytes} {code code' : Code}
    (finishes : code.Finishes status rest) (follows : code.Follows code') :
    ∃ rest', code'.Finishes status rest' := by
  cases finishes with
  | ends => cases follows
  | writes _ _ wrote failed =>
    cases follows with
    | reply _ _ value =>
      cases value with
      | ok count => exact ⟨_, wrote count⟩
      | error e => exact ⟨_, failed e⟩

theorem status_of_finishes {status other : Nat} {rest : Bytes}
    (finishes : (Code.exit other).Finishes status rest) : other = status := by
  cases finishes
  rfl

end Code

theorem finishes_writeAll (status fuel : Nat) (bytes : Bytes) :
    (Program.writeAll.go stderr fuel bytes fun _ => .exit status).Finishes status bytes := by
  induction fuel generalizing bytes with
  | zero => exact .ends bytes
  | succ fuel ih =>
    rw [Program.writeAll.go]
    split
    · exact .ends bytes
    · refine .writes bytes _ (fun count => ih _) fun e => ?_
      dsimp only
      split
      · exact ih bytes
      · exact .ends bytes

theorem writeAll_nil (fd fuel : Nat) (next : Except Errno Unit → Code) :
    Program.writeAll.go fd fuel [] next = next (.ok ()) := by
  cases fuel <;> rfl

theorem complains_fail {message : Text} (given : message ≠ []) (status : Nat) :
    (Process.fail message status).code.Complains status (encode message) where
  finishes := finishes_writeAll status _ _
  asks := by
    have code : (Process.fail message status).code =
        Program.writeAll.go stderr (encode message).length (encode message) fun _ => .exit status :=
      rfl
    rw [code]
    cases bytes : encode message with
    | nil => exact absurd bytes (encode_ne_nil given)
    | cons byte rest =>
      refine ⟨_, rfl, ?_⟩
      dsimp only
      rw [List.drop_length, writeAll_nil]

/-- What a child does that is wired. Without a program it complains that there is none. Otherwise it
becomes that program, and if that fails, it complains and ends. -/
def Code.Begins (code : Code) (program : Option Text) (image : Image) : Prop :=
  match program with
  | none => code.Complains 1 (encode (notFoundText (image.args.headD [])))
  | some path => ∃ next, code = .call (.execute (octets path) (image.args.map octets)
        (image.environment.entries.map fun (name, value) => (octets name, octets value))) next ∧
      ∀ e, ∃ status message, (next e).Complains status message

theorem begins_becomeProgram (p : Process) : p.becomeProgram.code.Begins p.program p.image := by
  have ends (text : String) (name : Text) (given : text.toList ≠ []) : name ++ text.toList ≠ [] :=
    List.append_ne_nil_of_right_ne_nil _ given
  rw [Process.becomeProgram]
  cases p.program with
  | none => exact complains_fail (ends _ _ (by decide)) 1
  | some path =>
    refine ⟨_, rfl, fun e => ?_⟩
    dsimp only
    split
    · exact ⟨1, _, complains_fail (ends _ _ (by decide)) 1⟩
    · exact ⟨126, _, complains_fail (ends _ _ (by decide)) 126⟩

/-! A child that is the only one at work. -/

namespace Machine

variable {m : Machine} {held : List Nat} {isOver : Machine → Bool} {task : Task} {steps : Nat}

theorem run_of_over (done : isOver m = true) (steps : Nat) : m.run held isOver steps = m := by
  cases steps with
  | zero => rfl
  | succ => rw [run, if_pos done]

theorem run_of_next (goesOn : isOver m = false) (acts : m.next? = some task) (steps : Nat) :
    m.run held isOver (steps + 1) = (m.step held task).run held isOver steps := by
  rw [run, goesOn, acts, if_neg Bool.false_ne_true]

theorem next?_of_alone (alone : m.tasks = [task]) (ready : task.isBlocked = false)
    (going : task.isStopped = false) : m.next? = some task := by
  rw [next?, alone]
  simp [ready, going]

/-- A process that is alone has written something, and goes on. -/
theorem step_writes {root : Node} {streams : List Stream} {buffers pipes : List Bytes}
    {bytes : Bytes} {next : Except Errno Nat → Code} {fd stream count : Nat}
    (alone : m.tasks = [task]) (ready : task.isBlocked = false)
    (asks : task.code = .call (.write fd bytes) next)
    (leads : task.descriptors.stream? fd = some stream)
    (takes : { m with now := max m.now task.clock }.writeStream held stream bytes =
      .done (count, { m with now := max m.now task.clock, root, streams, buffers, pipes })) :
    m.step held task = { m with
      now := max m.now task.clock, root, streams, buffers, pipes
      tasks := [{ task with
        code := next (.ok count)
        clock := max m.now task.clock + requestTime
        deadline := none }] } := by
  simp only [step, asks, carryOut, answer, answerWrite, leads, takes]
  simp [goOn, setTask, wake, alone, ready]

theorem step_exits (held : List Nat) {status : Nat} (alone : m.tasks = [task])
    (ours : task.parent = shellPid) (exits : task.code = .exit status) :
    m.step held task = { m with
      now := max m.now task.clock, tasks := []
      ended := m.ended.filter fun other => other.parent ≠ task.pid
      children := m.children.finish task.pid (Ending.exited status).word } := by
  simp only [step, exits, finish]
  simp [ours, alone, wake]

/-- The message is taken in one piece, and then the child ends. -/
theorem run_complains {written : Machine} {status stream : Nat} {message : Bytes}
    (alone : m.tasks = [task]) (ready : task.isBlocked = false) (going : task.isStopped = false)
    (ours : task.parent = shellPid) (alive : m.children.status? task.pid = some .running)
    (complains : task.code.Complains status message)
    (leads : task.descriptors.stream? Descriptors.stderr = some stream)
    (takes : { m with now := max m.now task.clock }.writeStream held stream message =
      .done (message.length, written)) (enough : 2 ≤ steps) :
    let last := m.run held (fun m => m.children.status? task.pid ≠ some .running) steps
    last.children.status? task.pid = some (.ended (Ending.exited status).word) ∧
      last.files = written.files ∧ last.pipes = written.pipes := by
  obtain ⟨more, rfl⟩ := Nat.exists_eq_add_of_le' enough
  obtain ⟨next, asks, ends⟩ := complains.asks
  obtain ⟨root, streams, buffers, pipes, rfl, -⟩ := writeStream_done takes
  let told : Task := { task with
    code := .exit status, clock := max m.now task.clock + requestTime, deadline := none }
  have first := step_writes alone ready asks leads takes
  rw [ends] at first
  have left : (m.step held task).tasks = [told] := congrArg Machine.tasks first
  have second := step_exits held left ours rfl
  intro last
  have steps_done : last = (m.step held task).step held told := by
    refine (run_of_next (by simpa using alive) (next?_of_alone alone ready going) _).trans ?_
    refine (run_of_next ?_ (next?_of_alone left ready going) _).trans ?_
    · simpa [first] using alive
    · refine run_of_over ?_ _
      rw [second, first]
      simp [told, ChildTable.status?_finish alive]
  rw [steps_done, second, first]
  exact ⟨(ChildTable.status?_finish alive _ _).trans (if_pos rfl), rfl, rfl⟩

end Machine

/-! What the shell finds when it asks for a child. -/

theorem ofWord_exited (status : Nat) :
    ChildState.ofWord (Ending.exited status).word = .exited (status % 256) := by
  have known : ∀ byte : Fin 256,
      ChildState.ofWord (UInt32.ofNat byte.val <<< 8) = .exited byte.val := by decide +kernel
  exact known ⟨status % 256, Nat.mod_lt _ (by decide)⟩

theorem ofWord_of_isSignal {e : Ending} (ends : e.IsSignal) :
    ∃ signal, ChildState.ofWord e.word = .signaled signal := by
  have known : ∀ signal : Fin 65, 0 < signal.val →
      ChildState.ofWord (UInt32.ofNat (signal.val % 128)) = .signaled signal.val := by decide +kernel
  obtain ⟨signal, positive, small, rfl⟩ := ends
  exact ⟨signal, known ⟨signal, Nat.lt_succ_of_le small⟩ positive⟩

variable {world after : World} {pid status : Nat} {state : ChildState}

/-- A child that only complains and then ends is found to do so, to have ended with its status, or to
have been ended by a signal. -/
theorem Machine.Abides.finds {m : Machine}
    (abides : m.Abides pid fun code => ∃ rest, code.Finishes status rest) :
    m.children.status? pid = some .running ∨ ∃ word, m.children.status? pid = some (.ended word) ∧
      (ChildState.ofWord word = .exited (status % 256) ∨
        ∃ signal, ChildState.ofWord word = .signaled signal) := by
  refine abides.status.imp_right fun ⟨e, ended, known⟩ => ⟨e.word, ended, ?_⟩
  rcases known with signal | ⟨other, ⟨rest, finishes⟩, rfl⟩
  · exact .inr (ofWord_of_isSignal signal)
  · rw [Code.status_of_finishes finishes]
    exact .inl (ofWord_exited status)

theorem Machine.Abides.run_finishes {m : Machine}
    (abides : m.Abides pid fun code => ∃ rest, code.Finishes status rest) (held : List Nat)
    (isOver : Machine → Bool) (steps : Nat) :
    (m.run held isOver steps).Abides pid fun code => ∃ rest, code.Finishes status rest :=
  abides.run (fun _ _ ⟨_, finishes⟩ follows => finishes.follows follows) held isOver steps

theorem outcome_waitFor_of_granted (world : World) (granted : world.machine.refusals.waits = [])
    (pid : Nat) :
    (waitFor pid).outcome world =
      (.ok (stateOf (world.machine.await world.held pid).1),
        { world with machine := (world.machine.await world.held pid).2 }) := by
  obtain ⟨session, place, descriptors, jobs, machine⟩ := world
  obtain ⟨root, streams, buffers, pipes, now, children, tasks, ended, nextPid, refusals⟩ := machine
  obtain ⟨opens, pipes, forks, waits⟩ := refusals
  obtain rfl : waits = [] := granted
  rfl

theorem Machine.Abides.withRefusals {m : Machine} {good : Code → Prop} (abides : m.Abides pid good)
    (refusals : Refusals) : Machine.Abides { m with refusals } pid good :=
  ⟨abides.known, abides.codes, abides.status⟩

theorem Machine.Abides.state_of_await {m : Machine}
    (abides : m.Abides pid fun code => ∃ rest, code.Finishes status rest) (held : List Nat) :
    let state := stateOf (m.await held pid).1
    state = .exited (status % 256) ∨ (∃ signal, state = .signaled signal) ∨ state = .running := by
  have finds := (abides.run_finishes held (fun m => m.children.status? pid ≠ some .running)
    stepBound).finds
  rw [await]
  rcases finds with running | ⟨word, ended, ofWord⟩
  · rw [ChildTable.collect, running]
    exact .inr (.inr rfl)
  · rw [ChildTable.collect_of_ended ended]
    exact ofWord.imp_right .inl

/-- What a wait for such a child comes to. That it runs is the answer when no process can act any
more. -/
theorem state_of_waitFor (waited : (waitFor pid).outcome world = (.ok state, after))
    (abides : world.machine.Abides pid fun code => ∃ rest, code.Finishes status rest) :
    state = .exited (status % 256) ∨ (∃ signal, state = .signaled signal) ∨ state = .running ∨
      state = .reaped ∧ some Errno.noChild ∈ world.machine.refusals.waits := by
  simp only [waitFor, Act.of, outcome, ExceptT.run] at waited
  split at waited
  · next e refused =>
    split at waited <;> cases waited
    next gone =>
    subst gone
    have listed : some .noChild ∈ world.machine.refusals.waits.dropWhile (· = some .interrupted) := by
      cases left : world.machine.refusals.waits.dropWhile (· = some .interrupted) with
      | nil =>
        rw [left] at refused
        cases refused
      | cons answer rest =>
        rw [left] at refused
        obtain rfl : answer = some .noChild := refused
        exact List.mem_cons_self
    exact .inr (.inr (.inr ⟨rfl, (List.dropWhile_suffix _).subset listed⟩))
  · cases waited
    rcases (abides.withRefusals _).state_of_await _ with exited | signaled | running
    · exact .inl exited
    · exact .inr (.inl signaled)
    · exact .inr (.inr (.inl running))

end LineShell
