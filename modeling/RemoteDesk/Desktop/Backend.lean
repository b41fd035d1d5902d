import RemoteDesk.Desktop.Call

/-!
Desktops that carry out calls, and the guard in front of one. The guard lets calls in one after
the other; once a call has crashed, it lets none in.
-/
namespace RemoteDesk.Desktop

/-- How a call ends. -/
inductive Outcome (α : Type) where
  | done (a : α)
  | failed (e : Error)
  | crashed
  deriving Inhabited

/-- A desktop with states `σ`. -/
class Backend (σ : Type) where
  perform : (c : Call) → σ → Outcome c.Reply × σ

/-- A desktop behind its guard. -/
structure Guarded (σ : Type) where
  backend : σ
  poisoned : Bool
  deriving Inhabited

namespace Guarded

variable {σ : Type} [Backend σ]

def new (backend : σ) : Guarded σ := ⟨backend, false⟩

/-- Carries out a call. -/
def perform (c : Call) (g : Guarded σ) : Except Error c.Reply × Guarded σ :=
  if g.poisoned then (.error .lockPoisoned, g)
  else match Backend.perform c g.backend with
    | (.done reply, backend) => (.ok reply, ⟨backend, false⟩)
    | (.failed e, backend) => (.error e, ⟨backend, false⟩)
    | (.crashed, backend) => (.error .taskLost, ⟨backend, true⟩)

theorem perform_of_poisoned (c : Call) {g : Guarded σ} (h : g.poisoned = true) :
    g.perform c = (.error .lockPoisoned, g) := by simp [perform, h]

end Guarded

end RemoteDesk.Desktop
