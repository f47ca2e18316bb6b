import LineShell.Proofs.LineEffects
import LineShell.Shell

/-! Coming through lines. A shell comes to its lines one after the other, each in the state that the
line before has left, and writes the errors of lines to standard error. `Turn.Comes` says what it
comes to with one line, and `Course` with many. -/

namespace LineShell

open Act

variable {σ : Type}

/-- The world after messages, one after the other; if one of them is refused, then as an error the
world after those before it. -/
def World.toldAll (world : World) : List Text → Except World World
  | [] => .ok world
  | text :: rest =>
    match world.told? text with
    | some after => after.toldAll rest
    | none => .error world

theorem outcome_forM_tell {ε α : Type} (text : α → Text) (items : List α) (world : World) :
    (items.forM fun item => tell (text item) : Act ε Unit).outcome world =
      match world.toldAll (items.map text) with
      | .ok after => (.ok (), after)
      | .error after => (.error .crash, after) := by
  induction items generalizing world with
  | nil => rfl
  | cons item rest ih =>
    show (tell (text item) >>= fun _ => rest.forM fun item => tell (text item)).outcome world = _
    rw [outcome_bind, outcome_tell, List.map_cons, World.toldAll]
    cases world.told? (text item) with
    | none => rfl
    | some after => exact ih after

/-- A line as a shell comes to it, beside the reader of its input: what happens until the line is at
hand, unless standard error refuses a message before, how it is run, and what is put before its
error. -/
structure Turn (σ : Type) where
  ready : σ × World → Except World (σ × World)
  quiet : Bool
  label : Text
  line : Text

namespace Turn

/-- What is written to standard error for an error of the line. -/
def message (t : Turn σ) (e : ShellError) : Text := "vena: ".toList ++ t.label ++ e.message

/-- What a shell comes to with a line: it goes on to the next one, with no answer, or it ends, with
the status that the line asks for or by a crash. -/
inductive Comes (t : Turn σ) (s : σ × World) :
    Except (Failure ShellError) (Option Int) → σ × World → Prop
  | ran {state : σ} {ready after : World} (atHand : t.ready s = .ok (state, ready))
      (goesOn : (runLine t.quiet t.line).outcome ready = (.ok .proceed, after)) :
      Comes t s (.ok none) (state, after)
  | told {state : σ} {ready failed after : World} {e : ShellError}
      (atHand : t.ready s = .ok (state, ready))
      (fails : (runLine t.quiet t.line).outcome ready = (.error (.error e), failed))
      (tells : failed.told? (t.message e) = some after) : Comes t s (.ok none) (state, after)
  | left {state : σ} {ready after : World} {status : Int} (atHand : t.ready s = .ok (state, ready))
      (leaves : (runLine t.quiet t.line).outcome ready = (.ok (.leave status), after)) :
      Comes t s (.ok (some status)) (state, after)
  | crashed {state : σ} {ready after : World} (atHand : t.ready s = .ok (state, ready))
      (crashes : (runLine t.quiet t.line).outcome ready = (.error .crash, after)) :
      Comes t s (.error .crash) (state, after)
  | untold {state : σ} {ready failed : World} {e : ShellError}
      (atHand : t.ready s = .ok (state, ready))
      (fails : (runLine t.quiet t.line).outcome ready = (.error (.error e), failed))
      (refused : failed.told? (t.message e) = none) : Comes t s (.error .crash) (state, failed)
  | unready {after : World} (refused : t.ready s = .error after) :
      Comes t s (.error .crash) (s.1, after)

end Turn

theorem outcome_runTelling (label : Text) (run : Act ShellError Verdict) (world : World) :
    (runTelling label run).outcome world = match run.outcome world with
      | (.ok .proceed, after) => (.ok none, after)
      | (.ok (.leave status), after) => (.ok (some status), after)
      | (.error (.error e), failed) =>
        match failed.told? ("vena: ".toList ++ label ++ e.message) with
        | some after => (.ok none, after)
        | none => (.error .crash, failed)
      | (.error .crash, after) => (.error .crash, after) := by
  rw [runTelling, outcome_bind, outcome_attempt]
  rcases run.outcome world with ⟨(e | -) | (- | status), after⟩
  · simp only [outcome_bind, tellError, outcome_tell]
    cases after.told? ("vena: ".toList ++ label ++ e.message) <;> rfl
  all_goals rfl

theorem Turn.comes_runTelling {t : Turn σ} {s : σ × World} {state : σ} {ready : World}
    (atHand : t.ready s = .ok (state, ready)) :
    t.Comes s ((runTelling t.label (runLine t.quiet t.line)).outcome ready).1
      (state, ((runTelling t.label (runLine t.quiet t.line)).outcome ready).2) := by
  rw [outcome_runTelling]
  rcases ran : (runLine t.quiet t.line).outcome ready with ⟨(e | -) | (- | status), after⟩
  · dsimp only
    cases told : after.told? ("vena: ".toList ++ t.label ++ e.message) with
    | some last => exact .told atHand ran told
    | none => exact .untold atHand ran told
  · exact .crashed atHand ran
  · exact .ran atHand ran
  · exact .left atHand ran

/-- How a shell comes through lines, each in the state that the line before has left: it comes to
all of them, or it comes to an end with one and runs none after it. -/
inductive Course : List (Turn σ) → σ × World → Except (Failure ShellError) (Option Int) →
    σ × World → Prop
  | finished {s : σ × World} : Course [] s (.ok none) s
  | next {t : Turn σ} {turns : List (Turn σ)} {s mid last : σ × World}
      {answer : Except (Failure ShellError) (Option Int)} (first : t.Comes s (.ok none) mid)
      (others : Course turns mid answer last) : Course (t :: turns) s answer last
  | ended {t : Turn σ} {turns : List (Turn σ)} {s last : σ × World}
      {answer : Except (Failure ShellError) (Option Int)} (comes : t.Comes s answer last)
      (ends : answer ≠ .ok none) : Course (t :: turns) s answer last

namespace Course

variable {front back turns : List (Turn σ)} {t : Turn σ} {s last mid : σ × World}
  {answer : Except (Failure ShellError) (Option Int)}

/-- Once a shell has come through a first part, the course goes on through the second. -/
theorem append (first : Course front s (.ok none) mid) (second : Course back mid answer last) :
    Course (front ++ back) s answer last := by
  generalize all : (.ok none : Except (Failure ShellError) (Option Int)) = through at first
  induction first with
  | finished => exact second
  | next here _ ih => exact .next here (ih second all)
  | ended _ ends => exact absurd all.symm ends

/-- If it comes to an end in the first part, the second does not matter. -/
theorem append_of_ends (first : Course front s answer last) (ends : answer ≠ .ok none)
    (back : List (Turn σ)) : Course (front ++ back) s answer last := by
  induction first with
  | finished => exact absurd rfl ends
  | next here _ ih => exact .next here (ih ends)
  | ended comes _ => exact .ended comes ends

/-- The line with which a shell comes to an end. -/
theorem exists_end (course : Course turns s answer last) (ends : answer ≠ .ok none) :
    ∃ front t back mid, turns = front ++ t :: back ∧ Course front s (.ok none) mid ∧
      t.Comes mid answer last := by
  induction course with
  | finished => exact absurd rfl ends
  | next here _ ih =>
    obtain ⟨front, t, back, mid, rfl, before, comes⟩ := ih ends
    exact ⟨_ :: front, t, back, mid, rfl, .next here before, comes⟩
  | ended comes _ => exact ⟨[], _, _, _, rfl, .finished, comes⟩

/-- Errors of lines are told, so no course ends with one. -/
theorem ne_error (course : Course turns s answer last) (e : ShellError) :
    answer ≠ .error (.error e) := by
  rintro rfl
  obtain ⟨front, t, back, mid, -, -, comes⟩ := course.exists_end (by simp)
  cases comes

end Course
end LineShell
