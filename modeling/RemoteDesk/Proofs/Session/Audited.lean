import RemoteDesk.Proofs.Session.Effects
import RemoteDesk.Proofs.Session.Neighbours

/-!
The audit log next to the responses. A login that succeeds is on it once, and so is one that fails;
so is every command that is refused because of its sender, with what the refusal is about. No other
frame is on it.
-/
namespace RemoteDesk

open Json Desktop

variable {σ : Type}

/-- The audit log gets one entry, of this level and with this message. -/
def Turn.logs (t : Turn σ) (level message : String) (v : AuditEvent) : Prop :=
  t.events = [v] ∧ v.level = level ∧ v.message = message

/-- The codes of responses that come with an entry in the audit log. -/
def auditedCodes : List String := ["AuthError", "Forbidden", "Unauthorized", "Unauthenticated"]

/-! ### Refusals -/

namespace Refusal

theorem forbidden_of_code {r : Refusal} (h : r.code = "Forbidden") :
    ∃ username kind p, r = .forbidden username kind p := by
  cases r with
  | forbidden username kind p => exact ⟨username, kind, p, rfl⟩
  | auth e => cases e <;> simp [code, Auth.Error.code] at h
  | _ => simp [code] at h

theorem auth_of_code {r : Refusal} (h : r.code = "Unauthorized" ∨ r.code = "Unauthenticated") :
    ∃ e, r = .auth e ∧ e ≠ .invalidCredentials := by
  cases r with
  | auth e =>
    refine ⟨e, rfl, ?_⟩
    rintro rfl
    simp [code, Auth.Error.code] at h
  | _ => simp [code] at h

end Refusal

namespace Dispatch

theorem refusalEvents_of_auth (peer : Net.Endpoint) (id? : Option String) {e : Auth.Error}
    (h : e ≠ .invalidCredentials) :
    refusalEvents peer id? (.auth e) = [.rejected peer e id?] := by
  cases e with
  | invalidCredentials => contradiction
  | _ => rfl

/-- Other refusals are not on the audit log. -/
theorem refusalEvents_of_code (peer : Net.Endpoint) (id? : Option String) {r : Refusal}
    (h : r.code ∉ auditedCodes) : refusalEvents peer id? r = [] := by
  cases r with
  | auth e => cases e <;> simp [auditedCodes, Refusal.code, Auth.Error.code] at h
  | forbidden username kind p => simp [auditedCodes, Refusal.code] at h
  | _ => rfl

theorem login_events_of_some (service : Service) (m : Moment) (id : String) {c : Credentials}
    {who : Identity} (session : Session) (server : Server σ)
    (h : service.auth.accounts.identify c.username c.password = some who) :
    let context := Auth.Attempt.context service.auth ⟨session.peer.host, c, m.random⟩ who m.settled
    (login service m id c session server).events =
      [.loggedIn who.username session.peer.host context.permissions context.expiresAt] := by
  intro context
  rw [login_events, Auth.Attempt.settle_of_some _ _ h]

theorem login_events_of_none (service : Service) (m : Moment) (id : String) {c : Credentials}
    (session : Session) (server : Server σ)
    (h : service.auth.accounts.identify c.username c.password = none) :
    let failures := server.failures.record session.peer.host m.settled
    (login service m id c session server).events =
      [.loginFailed c.username session.peer.host (failures.prior session.peer.host m.settled)] := by
  intro failures
  rw [login_events, Auth.Attempt.settle_of_none _ _ h]

/-- A call is not logged, whether it succeeds or fails. -/
theorem call_answer [Backend σ] (service : Service) (m : Moment) (id : String) (c : Call)
    (session : Session) (server : Server σ) :
    let turn := call service m id c session server
    turn.events = [] ∧
      (turn.response.isSuccess = true ∧ turn.response.errorCode? = none ∨
        turn.response.isSuccess = false ∧ turn.response.errorCode? = some "FacadeError") := by
  dsimp only
  unfold call
  rcases server.desktop.perform c with ⟨e | reply, desktop⟩
  · exact ⟨rfl, .inr ⟨rfl, rfl⟩⟩
  · exact ⟨rfl, .inl ⟨rfl, rfl⟩⟩

variable [Backend σ] {service : Service} {m : Moment} {frame : Members} {session : Session}
  {server : Server σ}

/-- What is forbidden is what the login lacks the permission for. -/
theorem forbidden_of_early {username : String} {kind : CommandKind} {p : Permission}
    (h : Check.early.findSome? (fault service m frame session server) =
      some (.forbidden username kind p)) :
    ∃ context, session.context? = some context ∧ username = context.username ∧
      (command? frame).bind Command.kind? = some kind ∧ kind.permission? = some p ∧
      context.permissions.contains p = false := by
  obtain ⟨check, -, hcheck⟩ := List.exists_of_findSome?_eq_some h
  have hpermission : check = .permission := by
    have hcode : "Forbidden" = check.code := code_of_fault hcheck
    revert hcode
    cases check <;> decide
  rw [hpermission] at hcheck
  obtain ⟨c, hc, hcheck⟩ := Option.bind_eq_some_iff.mp hcheck
  obtain ⟨kind', hk, hcheck⟩ := Option.bind_eq_some_iff.mp hcheck
  obtain ⟨p', hp, hcheck⟩ := Option.bind_eq_some_iff.mp hcheck
  obtain ⟨context, hx, hcheck⟩ := Option.bind_eq_some_iff.mp hcheck
  obtain ⟨hlacks, hsame⟩ := Option.ite_none_left_eq_some.mp hcheck
  obtain ⟨rfl, rfl, rfl⟩ := Refusal.forbidden.inj (Option.some.inj hsame)
  exact ⟨context, hx, rfl, by rw [hc]; exact hk, hp, by simpa using hlacks⟩

end Dispatch

/-! ### What is logged -/

namespace Exchange

/-- The kind of the command in the frame, if it is known. -/
def kind? (e : Exchange σ) : Option CommandKind := e.command?.bind Command.kind?

/-- What a frame leaves on the audit log, by the response to it. -/
structure Audited (service : Service) (e : Exchange σ) (turn : Turn σ) : Prop where
  /-- A frame is answered with success or with a code. -/
  answered : turn.response.isSuccess = true ∨ ∃ code, turn.response.errorCode? = some code
  /-- A login that succeeds is logged with what the client is told. -/
  loggedIn : turn.response.isSuccess = true → e.kind? = some .authenticate →
    ∃ c who, e.request? = some (.authenticate c) ∧
      e.visit.accounts.identify c.username c.password = some who ∧
      turn.response.data? = some (Dispatch.loginData (e.opens service c who)) ∧
      turn.logs "INFO" "authentication succeeded" (.loggedIn who.username e.session.peer.host
        (e.opens service c who).permissions (e.opens service c who).expiresAt)
  carriedOut : turn.response.isSuccess = true → e.kind? ≠ some .authenticate → turn.events = []
  /-- A login that fails is logged with what counts against its address from then on. -/
  loginFailed : turn.response.errorCode? = some "AuthError" →
    ∃ c, e.request? = some (.authenticate c) ∧
      turn.logs "WARN" "authentication failed" (.loginFailed c.username e.session.peer.host
        (turn.server.failures.prior e.session.peer.host e.visit.moment.settled))
  /-- A command for which the login lacks the permission is logged with both. -/
  denied : turn.response.errorCode? = some "Forbidden" →
    ∃ context kind p, e.session.context? = some context ∧ e.kind? = some kind ∧
      kind.permission? = some p ∧ context.permissions.contains p = false ∧
      turn.logs "WARN" "authorization denied" (.denied context.username e.session.peer p kind)
  /-- A command without a login that it may use is logged with the reason that the client is told,
  and the identifier that it is answered under. -/
  rejected : turn.response.errorCode? = some "Unauthorized" ∨
      turn.response.errorCode? = some "Unauthenticated" →
    ∃ reason : Auth.Error, turn.response.error? = some (reason.code ++ ": " ++ reason.message) ∧
      turn.logs "WARN" "unauthenticated command rejected"
        (.rejected e.session.peer reason turn.response.commandId?)
  refused : ∀ code, turn.response.errorCode? = some code → code ∉ auditedCodes → turn.events = []

variable {service : Service} {e : Exchange σ}

/-- A frame that is refused before its request is carried out. -/
theorem audited_refuse (id? : Option String) {r : Refusal} (server : Server σ)
    (password : r.code ≠ "AuthError")
    (forbidden : ∀ username kind p, r = .forbidden username kind p →
      ∃ context, e.session.context? = some context ∧ username = context.username ∧
        e.kind? = some kind ∧ kind.permission? = some p ∧ context.permissions.contains p = false) :
    e.Audited service (Dispatch.refuse e.visit.moment id? r (e.received service) server) := by
  have hpeer := (e.received_login service).1
  refine ⟨.inr ⟨r.code, rfl⟩, fun h => by contradiction, fun h => by contradiction, ?_, ?_, ?_, ?_⟩
  · exact fun hcode => absurd (Option.some.inj hcode) password
  · intro hcode
    obtain ⟨username, kind, p, rfl⟩ := Refusal.forbidden_of_code (Option.some.inj hcode)
    obtain ⟨context, hx, rfl, hk, hp, hlacks⟩ := forbidden username kind p rfl
    refine ⟨context, kind, p, hx, hk, hp, hlacks, ?_, rfl, rfl⟩
    rw [← hpeer]
    rfl
  · intro hcode
    obtain ⟨reason, rfl, hreason⟩ :=
      Refusal.auth_of_code (hcode.imp Option.some.inj Option.some.inj)
    refine ⟨reason, rfl, ?_, rfl, rfl⟩
    rw [← hpeer]
    exact Dispatch.refusalEvents_of_auth _ _ hreason
  · intro code hcode hnot
    rw [← Option.some.inj hcode] at hnot
    exact Dispatch.refusalEvents_of_code _ _ hnot

theorem kind?_of_request {request : Request} {c : Command} (hc : e.command? = some c)
    (hr : e.request? = some request) : e.kind? = some request.kind := by
  rw [kind?, hc]
  exact kind?_of_request? hc hr

/-- A login, right or wrong. -/
theorem audited_login {c : Command} {credentials : Credentials} (hc : e.command? = some c)
    (hr : e.request? = some (.authenticate credentials)) (server : Server σ) :
    e.Audited service (Dispatch.login (service.withAccounts e.visit.accounts) e.visit.moment c.id
      credentials (e.received service) server) := by
  let service' := service.withAccounts e.visit.accounts
  have hkind : e.kind? = some .authenticate := kind?_of_request hc hr
  have hpeer := (e.received_login service).1
  cases hwho : e.visit.accounts.identify credentials.username credentials.password with
  | some who =>
    have hevents := Dispatch.login_events_of_some service' e.visit.moment c.id
      (e.received service) server hwho
    obtain ⟨hresponse, -⟩ := Dispatch.login_of_some service' e.visit.moment c.id
      (e.received service) server hwho
    generalize Dispatch.login _ _ _ _ _ _ = turn at hevents hresponse ⊢
    rw [hpeer] at hevents hresponse
    have hcode : turn.response.errorCode? = none := by rw [hresponse]; rfl
    refine ⟨.inl (by rw [hresponse]; rfl), ?_, fun _ hnot => absurd hkind hnot, ?_, ?_, ?_, ?_⟩
    · exact fun _ _ => ⟨credentials, who, hr, hwho, by rw [hresponse]; rfl, hevents, rfl, rfl⟩
    all_goals simp [hcode]
  | none =>
    have hevents := Dispatch.login_events_of_none service' e.visit.moment c.id
      (e.received service) server hwho
    obtain ⟨hresponse, -, hserver⟩ := Dispatch.login_of_none service' e.visit.moment c.id
      (e.received service) server hwho
    generalize Dispatch.login _ _ _ _ _ _ = turn at hevents hresponse hserver ⊢
    rw [hpeer] at hevents hserver
    have hcode : turn.response.errorCode? = some "AuthError" := by rw [hresponse]; rfl
    have hno : turn.response.isSuccess = false := by rw [hresponse]; rfl
    refine ⟨.inr ⟨_, hcode⟩, by simp [hno], by simp [hno], ?_, ?_, ?_, ?_⟩
    · exact fun _ => ⟨credentials, hr, by rw [hserver]; exact hevents, rfl, rfl⟩
    all_goals simp [hcode, auditedCodes]

/-- A call, done or failed. -/
theorem audited_call [Backend σ] {c : Command} {call : Call} (hc : e.command? = some c)
    (hr : e.request? = some (.desktop call)) (server : Server σ) :
    e.Audited service (Dispatch.call (service.withAccounts e.visit.accounts) e.visit.moment c.id
      call (e.received service) server) := by
  have hkind : e.kind? ≠ some .authenticate := by
    rw [kind?_of_request hc hr]
    exact fun heq => call.kind_ne_authenticate (Option.some.inj heq)
  obtain ⟨hevents, hanswer⟩ := Dispatch.call_answer (service.withAccounts e.visit.accounts)
    e.visit.moment c.id call (e.received service) server
  generalize Dispatch.call (service.withAccounts e.visit.accounts) e.visit.moment c.id call
    (e.received service) server = turn at hevents hanswer ⊢
  have hcode : ∀ code ∈ auditedCodes, turn.response.errorCode? ≠ some code := by
    rcases hanswer with ⟨-, hnone⟩ | ⟨-, hfacade⟩
    · simp [hnone]
    · simp [hfacade, auditedCodes]
  refine ⟨hanswer.imp And.left fun h => ⟨_, h.2⟩, fun _ h => absurd h hkind, fun _ _ => hevents,
    fun h => absurd h (hcode _ (by decide)), fun h => absurd h (hcode _ (by decide)), ?_,
    fun _ _ _ => hevents⟩
  rintro (h | h)
  · exact absurd h (hcode _ (by decide))
  · exact absurd h (hcode _ (by decide))

/-- Every frame is audited, whatever it is and whatever it finds. -/
theorem audited [Backend σ] (service : Service) (e : Exchange σ) :
    e.Audited service (e.turn service) := by
  cases hframe : e.visit.frame with
  | error fault =>
    have hreceived : e.received service = e.session.count := by rw [received, hframe]
    have hturn : e.turn service =
        Dispatch.refuse e.visit.moment none (.protocol fault) (e.received service) e.server := by
      rw [hreceived, turn, hframe]
      rfl
    have hcode : Refusal.code (.protocol fault) = "ProtocolError" := rfl
    rw [hturn]
    exact audited_refuse none e.server (by rw [hcode]; decide) (by simp)
  | ok frame =>
    let service' := service.withAccounts e.visit.accounts
    have hreceived : Dispatch.received service'.limits e.visit.moment frame e.session =
        e.received service := by
      rw [received, hframe]
      rfl
    have hcommand := command?_of_ok hframe
    rw [turn_of_ok service hframe]
    cases hfound : Check.early.findSome?
        (Dispatch.fault service' e.visit.moment frame e.session e.server) with
    | some r =>
      rw [Dispatch.dispatch_of_stopped hfound, hreceived]
      refine audited_refuse _ e.server (Dispatch.code_of_early hfound).1 ?_
      rintro username kind p rfl
      rw [kind?, hcommand]
      exact Dispatch.forbidden_of_early hfound
    | none =>
      obtain ⟨c, request, hc, hr, hdispatch⟩ := Dispatch.dispatch_of_passed hfound
      have hc := hcommand.trans (Dispatch.command?_of_ok hc)
      have hr := (request?_of_ok hframe).trans hr
      rw [hdispatch, hreceived]
      cases request with
      | authenticate credentials => exact audited_login hc hr e.server
      | desktop call => exact audited_call hc hr e.server

end Exchange

end RemoteDesk
