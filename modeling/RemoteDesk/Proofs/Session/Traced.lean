import RemoteDesk.Session.Dispatch

/-!
Which calls a frame makes. A traced desktop does what the desktop in it does and lists the calls
it gets; nothing else about what comes of a frame depends on the list. A guard that is closed lets
no call through to the desktop, so that none is listed.
-/
namespace RemoteDesk

open Desktop

namespace Desktop

/-- A desktop beside the calls it has got, the first one first. -/
structure Traced (σ : Type) where
  backend : σ
  calls : List Call

variable {σ : Type}

instance [Backend σ] : Backend (Traced σ) where
  perform c t :=
    let (outcome, backend) := Backend.perform c t.backend
    (outcome, ⟨backend, t.calls ++ [c]⟩)

theorem Traced.perform_eq [Backend σ] (c : Call) (t : Traced σ) :
    Backend.perform c t =
      ((Backend.perform c t.backend).1, ⟨(Backend.perform c t.backend).2, t.calls ++ [c]⟩) := rfl

namespace Guarded

/-- The same desktop with a list of the calls from now on. -/
def trace (g : Guarded σ) : Guarded (Traced σ) := ⟨⟨g.backend, []⟩, g.poisoned⟩

/-- The desktop without its list. -/
def untrace (g : Guarded (Traced σ)) : Guarded σ := ⟨g.backend.backend, g.poisoned⟩

@[simp] theorem untrace_trace (g : Guarded σ) : g.trace.untrace = g := rfl

variable [Backend σ]

theorem perform_untrace (c : Call) (g : Guarded (Traced σ)) :
    g.untrace.perform c = ((g.perform c).1, (g.perform c).2.untrace) := by
  unfold perform
  by_cases hp : g.poisoned = true
  · rw [if_pos hp, if_pos (show g.untrace.poisoned = true from hp)]
  · rw [if_neg hp, if_neg (show ¬ g.untrace.poisoned = true from hp)]
    rw [Traced.perform_eq, show g.untrace.backend = g.backend.backend from rfl]
    rcases Backend.perform c g.backend.backend with ⟨_ | _ | _, backend⟩ <;> rfl

/-- A call is listed unless the guard is closed. -/
theorem calls_perform (c : Call) (g : Guarded (Traced σ)) :
    (g.perform c).2.backend.calls =
      if g.poisoned then g.backend.calls else g.backend.calls ++ [c] := by
  unfold perform
  by_cases hp : g.poisoned = true
  · rw [if_pos hp, if_pos hp]
  · rw [if_neg hp, if_neg hp]
    rw [Traced.perform_eq]
    rcases Backend.perform c g.backend.backend with ⟨_ | _ | _, backend⟩ <;> rfl

end Guarded

end Desktop

variable {σ : Type}

/-- The same server with a list of the calls from now on. -/
def Server.trace (server : Server σ) : Server (Traced σ) :=
  ⟨server.failures, server.desktop.trace⟩

def Server.untrace (server : Server (Traced σ)) : Server σ :=
  ⟨server.failures, server.desktop.untrace⟩

@[simp] theorem Server.untrace_trace (server : Server σ) : server.trace.untrace = server := rfl

/-- The calls listed so far. -/
def Server.calls (server : Server (Traced σ)) : List Call := server.desktop.backend.calls

@[simp] theorem Server.calls_trace (server : Server σ) : server.trace.calls = [] := rfl

def Turn.untrace (t : Turn (Traced σ)) : Turn σ :=
  ⟨t.response, t.events, t.waited, t.session, t.server.untrace⟩

namespace Dispatch

open Json

theorem login_untrace (service : Service) (m : Moment) (id : String) (c : Credentials)
    (session : Session) (server : Server (Traced σ)) :
    login service m id c session server.untrace =
      (login service m id c session server).untrace := by
  unfold login
  have hf : server.untrace.failures = server.failures := rfl
  simp only [hf]
  cases (Auth.Attempt.settle service.auth server.failures
    ⟨session.peer.host, c, m.random⟩ m.settled).result with
  | ok context => rfl
  | error e => rfl

variable [Backend σ]

theorem call_untrace (service : Service) (m : Moment) (id : String) (c : Call)
    (session : Session) (server : Server (Traced σ)) :
    call service m id c session server.untrace =
      (call service m id c session server).untrace := by
  unfold call
  have hd : server.untrace.desktop.perform c =
      ((server.desktop.perform c).1, (server.desktop.perform c).2.untrace) :=
    Guarded.perform_untrace c server.desktop
  rw [hd]
  rcases server.desktop.perform c with ⟨reply | e, desktop⟩ <;> rfl

theorem perform_untrace (service : Service) (m : Moment) (id : String) (r : Request)
    (session : Session) (server : Server (Traced σ)) :
    perform service m id r session server.untrace =
      (perform service m id r session server).untrace := by
  cases r with
  | authenticate c => exact login_untrace service m id c session server
  | desktop c => exact call_untrace service m id c session server

theorem handle_untrace (service : Service) (m : Moment) (c : Command) (session : Session)
    (server : Server (Traced σ)) :
    handle service m c session server.untrace =
      (handle service m c session server).untrace := by
  unfold handle
  cases session.remember c.id service.limits.duplicateWindow with
  | error r => rfl
  | ok session =>
    dsimp only
    rcases session.letThrough service.limits m.instant with ⟨r | _, session⟩
    · rfl
    · dsimp only
      cases session.authorize c m.now with
      | error r => rfl
      | ok kind =>
        dsimp only
        cases Request.parse kind c.payload with
        | error e => rfl
        | ok request => exact perform_untrace service m c.id request session server

/-- Tracing changes nothing about what comes of a frame. -/
theorem dispatch_untrace (service : Service) (m : Moment) (frame : Members) (session : Session)
    (server : Server (Traced σ)) :
    dispatch service m frame session server.untrace =
      (dispatch service m frame session server).untrace := by
  unfold dispatch
  cases Command.ofObject frame with
  | error e => rfl
  | ok c => exact handle_untrace service m c session.count server

/-- The calls that reach the desktop while a frame is dispatched. -/
def calls (service : Service) (m : Moment) (frame : Members) (session : Session)
    (server : Server σ) : List Call :=
  (dispatch service m frame session server.trace).server.calls

end Dispatch

end RemoteDesk
