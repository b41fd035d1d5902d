import Mathlib.Data.List.Induction

/-!
Systems that take one step after the other. A step may be impossible in a state. A schedule is a
list of steps; it can be followed if every step is possible when its turn comes.
-/
namespace RemoteDesk.Schedule

variable {α σ : Type} {step : α → σ → Option σ}

/-- The state that a schedule leads to. -/
def run (step : α → σ → Option σ) : List α → σ → Option σ
  | [], w => some w
  | a :: schedule, w => (step a w).bind (run step schedule)

@[simp] theorem run_nil (w : σ) : run step [] w = some w := rfl

theorem run_cons (a : α) (schedule : List α) (w : σ) :
    run step (a :: schedule) w = (step a w).bind (run step schedule) := rfl

@[simp] theorem run_singleton (a : α) (w : σ) : run step [a] w = step a w :=
  Option.bind_fun_some (step a w)

theorem run_append (schedule more : List α) (w : σ) :
    run step (schedule ++ more) w = (run step schedule w).bind (run step more) := by
  induction schedule generalizing w with
  | nil => rfl
  | cons a schedule ih =>
    rw [List.cons_append, run_cons, run_cons, Option.bind_assoc]
    exact congrArg _ (funext ih)

theorem run_append_of_eq {schedule more : List α} {w w' : σ}
    (h : run step schedule w = some w') : run step (schedule ++ more) w = run step more w' := by
  rw [run_append, h, Option.bind_some]

/-- What holds of the start, and is kept by every step that can be taken next, holds of every state
that is reached. It may speak of the steps that have been taken. -/
theorem run_invariant {P : List α → σ → Prop} {start : σ} (hstart : P [] start)
    (hstep : ∀ schedule a w w', P schedule w → step a w = some w' → P (schedule ++ [a]) w')
    {schedule : List α} {w : σ} (h : run step schedule start = some w) : P schedule w := by
  induction schedule using List.reverseRecOn generalizing w with
  | nil =>
    obtain rfl := Option.some.inj h
    exact hstart
  | append_singleton schedule a ih =>
    rw [run_append, Option.bind_eq_some_iff] at h
    obtain ⟨earlier, hearlier, hlast⟩ := h
    rw [run_singleton] at hlast
    exact hstep schedule a earlier w (ih hearlier) hlast

end RemoteDesk.Schedule
