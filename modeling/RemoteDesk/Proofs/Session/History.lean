import RemoteDesk.Proofs.Session.Order

/-!
The history of one session. Between two of its frames other sessions may do to the server what
they like, and the accounts may change; the session itself changes by its own frames only. What
holds of a new session and is kept by every frame holds at each point of every history.
-/
namespace RemoteDesk

open Json Desktop

variable {σ : Type}

/-- Handles a frame, or what is wrong with the payload of one. -/
def Dispatch.answer [Backend σ] (service : Service) (m : Moment)
    (frame : Except ProtocolError Members) (session : Session) (server : Server σ) : Turn σ :=
  match frame with
  | .ok frame => dispatch service m frame session server
  | .error e => rejectFrame m e session server

theorem Dispatch.handlePayload_eq [Backend σ] (service : Service) (m : Moment) (payload : Bytes)
    (session : Session) (server : Server σ) :
    handlePayload service m payload session server =
      answer service m (Frame.object payload) session server := by
  unfold handlePayload answer
  cases Frame.object payload <;> rfl

/-- A frame of a session, with what it meets. -/
structure Visit (σ : Type) where
  frame : Except ProtocolError Members
  moment : Moment
  /-- The accounts at that time. -/
  accounts : Accounts
  /-- What has become of the server since the frame before. -/
  meanwhile : Server σ → Server σ

/-- A frame of a session, with the session and the server that it finds. -/
structure Exchange (σ : Type) where
  visit : Visit σ
  session : Session
  server : Server σ

namespace Exchange

variable [Backend σ]

/-- What comes of the frame. -/
def turn (service : Service) (e : Exchange σ) : Turn σ :=
  Dispatch.answer (service.withAccounts e.visit.accounts) e.visit.moment e.visit.frame e.session
    e.server

/-- The calls that reach the desktop meanwhile. -/
def calls (service : Service) (e : Exchange σ) : List Call :=
  (Dispatch.answer (service.withAccounts e.visit.accounts) e.visit.moment e.visit.frame e.session
    e.server.trace).server.calls

omit [Backend σ] in
/-- The command in the frame. -/
def command? (e : Exchange σ) : Option Command :=
  match e.visit.frame with
  | .ok frame => Dispatch.command? frame
  | .error _ => none

theorem turn_of_ok (service : Service) {e : Exchange σ} {frame : Members}
    (h : e.visit.frame = .ok frame) :
    e.turn service = Dispatch.dispatch (service.withAccounts e.visit.accounts) e.visit.moment frame
      e.session e.server := by
  rw [turn, h]
  rfl

theorem calls_of_ok {service : Service} {e : Exchange σ} {frame : Members}
    (h : e.visit.frame = .ok frame) :
    e.calls service = Dispatch.calls (service.withAccounts e.visit.accounts) e.visit.moment frame
      e.session e.server := by
  rw [calls, h]
  rfl

theorem calls_of_error {service : Service} {e : Exchange σ} {fault : ProtocolError}
    (h : e.visit.frame = .error fault) : e.calls service = [] := by
  rw [calls, h]
  rfl

end Exchange

variable [Backend σ]

/-- The exchanges of a session, frame by frame. -/
def exchanges (service : Service) : List (Visit σ) → Session → Server σ → List (Exchange σ)
  | [], _, _ => []
  | visit :: visits, session, server =>
    let e : Exchange σ := ⟨visit, session, visit.meanwhile server⟩
    e :: exchanges service visits (e.turn service).session (e.turn service).server

/-- What relates a session to its past and is kept by every frame holds at each point of a
history. -/
theorem exchanges_invariant {service : Service} {P : List (Exchange σ) → Session → Prop}
    (step : ∀ past e, P past e.session → P (past ++ [e]) (e.turn service).session)
    (visits : List (Visit σ)) {session : Session} {server : Server σ} {past : List (Exchange σ)}
    (start : P past session) {before after : List (Exchange σ)} {e : Exchange σ}
    (h : exchanges service visits session server = before ++ e :: after) :
    P (past ++ before) e.session := by
  induction visits generalizing session server past before with
  | nil => simp [exchanges] at h
  | cons visit visits ih =>
    cases before with
    | nil =>
      obtain ⟨rfl, -⟩ := List.cons.inj h
      rwa [List.append_nil]
    | cons first before =>
      obtain ⟨rfl, hrest⟩ := List.cons.inj h
      have hnext := ih (step past ⟨visit, session, visit.meanwhile server⟩ start) hrest
      rwa [List.append_assoc] at hnext

end RemoteDesk
