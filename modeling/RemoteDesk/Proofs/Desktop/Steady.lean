import RemoteDesk.Desktop.Crashing
import RemoteDesk.Desktop.Recording

/-!
Desktops whose answers do not depend on earlier calls. A desktop has this property behind its guard
if each call is answered alike in all states that calls lead to, and none crashes; after a crash
the guard is closed, and that is an answer which earlier calls have brought about.
-/
namespace RemoteDesk.Desktop

variable {σ : Type} [Backend σ]

namespace Guarded

/-- The desktop after some calls. -/
def after (calls : List Call) (g : Guarded σ) : Guarded σ :=
  calls.foldl (fun g c => (g.perform c).2) g

@[simp] theorem after_nil (g : Guarded σ) : g.after [] = g := rfl

@[simp] theorem after_cons (c : Call) (calls : List Call) (g : Guarded σ) :
    g.after (c :: calls) = (g.perform c).2.after calls := rfl

theorem after_append (calls more : List Call) (g : Guarded σ) :
    g.after (calls ++ more) = (g.after calls).after more :=
  List.foldl_append

/-- Every call is answered as if it were the first. -/
def Steady (g : Guarded σ) : Prop :=
  ∀ (earlier : List Call) (c : Call), ((g.after earlier).perform c).1 = (g.perform c).1

/-- What a guard that is open makes of how a call ends. -/
theorem perform_of_open {g : Guarded σ} (h : g.poisoned = false) (c : Call) :
    ((Backend.perform c g.backend).1 ≠ .crashed →
      (g.perform c).2 = ⟨(Backend.perform c g.backend).2, false⟩) ∧
    (g.perform c).1 = match (Backend.perform c g.backend).1 with
      | .done reply => .ok reply
      | .failed e => .error e
      | .crashed => .error .taskLost := by
  unfold perform
  rw [if_neg (by rw [h]; decide)]
  rcases Backend.perform c g.backend with ⟨_ | _ | _, backend⟩
  · exact ⟨fun _ => rfl, rfl⟩
  · exact ⟨fun _ => rfl, rfl⟩
  · exact ⟨fun hne => absurd rfl hne, rfl⟩

variable {P : σ → Prop} {answer : (c : Call) → Outcome c.Reply}

/-- States that answer alike and do not crash, and that calls do not lead out of. -/
theorem after_of_alike (alike : ∀ s, P s → ∀ c, (Backend.perform c s).1 = answer c)
    (safe : ∀ c, answer c ≠ .crashed)
    (stay : ∀ s, P s → ∀ c, P (Backend.perform c s).2) (calls : List Call) {g : Guarded σ}
    (hopen : g.poisoned = false) (h : P g.backend) :
    (g.after calls).poisoned = false ∧ P (g.after calls).backend := by
  induction calls generalizing g with
  | nil => exact ⟨hopen, h⟩
  | cons c calls ih =>
    have hdone : (Backend.perform c g.backend).1 ≠ .crashed := by
      rw [alike g.backend h c]
      exact safe c
    have hnext := (perform_of_open hopen c).1 hdone
    rw [after_cons, hnext]
    exact ih rfl (stay g.backend h c)

theorem steady_of_alike (alike : ∀ s, P s → ∀ c, (Backend.perform c s).1 = answer c)
    (safe : ∀ c, answer c ≠ .crashed) (stay : ∀ s, P s → ∀ c, P (Backend.perform c s).2)
    {g : Guarded σ} (hopen : g.poisoned = false) (h : P g.backend) : g.Steady := by
  intro earlier c
  obtain ⟨hopen', h'⟩ := after_of_alike alike safe stay earlier hopen h
  rw [(perform_of_open hopen' c).2, (perform_of_open hopen c).2, alike _ h' c, alike _ h c]

end Guarded

namespace Recording

theorem answer_ne_crashed (c : Call) (r : Recording) : r.answer c ≠ .crashed := by
  unfold answer
  split
  · simp
  · split <;> simp

/-- A recording desktop answers from its displays, its windows and its switch, which no call
changes. -/
theorem steady (r : Recording) : (Guarded.new r).Steady := by
  let P (s : Recording) : Prop := s.shouldFail = r.shouldFail ∧
    s.allDisplays = r.allDisplays ∧ s.allWindows = r.allWindows
  have alike : ∀ s, P s → ∀ c, (Backend.perform c s).1 = r.answer c := by
    rintro s ⟨hfail, hdisplays, hwindows⟩ c
    show (s.enter c).2.answer c = r.answer c
    cases c <;> simp [answer, reply, enter, hfail, hdisplays, hwindows]
  exact Guarded.steady_of_alike alike (fun c => r.answer_ne_crashed c)
    (fun s hs _ => hs) rfl ⟨rfl, rfl, rfl⟩

end Recording

/-- After a crash, calls that do not crash are refused as well. -/
theorem Crashing.not_steady : ¬ (Guarded.new (Crashing.mk)).Steady := by
  intro h
  have hlisting := h [.mouseMove ⟨0, 0⟩] .displays
  contradiction

end RemoteDesk.Desktop
