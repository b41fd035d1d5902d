import RemoteDesk.Proofs.Session.History

/-!
The course of a frame. The session receives it, which does not touch the login. Then a check stops
it, and that is all; or its request is a login, which changes the login and the failures on record;
or it is a call, which changes the desktop.
-/
namespace RemoteDesk

open Json Desktop

variable {σ : Type}

namespace Dispatch

variable {service : Service} {m : Moment} {frame : Members} {session : Session}
  {server : Server σ} {c : Command}

theorem ofObject_of_command? (h : command? frame = some c) : Command.ofObject frame = .ok c := by
  unfold command? at h
  cases hc : Command.ofObject frame with
  | error e =>
    rw [hc] at h
    contradiction
  | ok c' =>
    rw [hc] at h
    rw [Option.some.inj h]

/-- A request is of the kind of its command. -/
theorem kind?_of_request? {request : Request} (hc : command? frame = some c)
    (hr : request? frame = some request) : c.kind? = some request.kind := by
  obtain ⟨c', hc', hr⟩ := Option.bind_eq_some_iff.mp hr
  obtain rfl : c = c' := Option.some.inj (hc.symm.trans hc')
  obtain ⟨kind, hk, hr⟩ := Option.bind_eq_some_iff.mp hr
  cases hp : Request.parse kind c.payload with
  | error e => rw [hp] at hr; contradiction
  | ok request' =>
    rw [hp] at hr
    obtain rfl : request' = request := Option.some.inj hr
    rw [hk, Request.kind_of_parse hp]

/-- What comes of a login with right credentials. -/
theorem login_of_some (service : Service) (m : Moment) (id : String) {c : Credentials}
    {who : Identity} (session : Session) (server : Server σ)
    (h : service.auth.accounts.identify c.username c.password = some who) :
    let context := Auth.Attempt.context service.auth ⟨session.peer.host, c, m.random⟩ who m.settled
    let turn := login service m id c session server
    turn.response = .success (some id) (loginData context) m.stamp ∧
      turn.session = { session with context? := some context } ∧
      turn.server = { server with failures := server.failures.clear session.peer.host } := by
  dsimp only
  rw [login, Auth.Attempt.settle_of_some _ _ h]
  exact ⟨rfl, rfl, rfl⟩

/-- What comes of a login with wrong credentials. -/
theorem login_of_none (service : Service) (m : Moment) (id : String) {c : Credentials}
    (session : Session) (server : Server σ)
    (h : service.auth.accounts.identify c.username c.password = none) :
    let turn := login service m id c session server
    turn.response = refusalResponse (some id) (.auth .invalidCredentials) m.stamp ∧
      turn.session = session ∧
      turn.server =
        { server with failures := server.failures.record session.peer.host m.settled } := by
  dsimp only
  rw [login, Auth.Attempt.settle_of_none _ _ h]
  exact ⟨rfl, rfl, rfl⟩

/-- A login does not touch the desktop. -/
theorem login_desktop (service : Service) (m : Moment) (id : String) (c : Credentials)
    (session : Session) (server : Server σ) :
    (login service m id c session server).server.desktop = server.desktop := by
  unfold login
  dsimp only
  split <;> rfl

variable [Backend σ]

/-- What comes of a call. -/
theorem call_eq (service : Service) (m : Moment) (id : String) (c : Call) (session : Session)
    (server : Server σ) :
    let turn := call service m id c session server
    (turn.response.isSuccess = true ∨ turn.response.isSuccess = false ∧
        turn.response.errorCode? = some "FacadeError") ∧
      turn.session = session ∧
      turn.server = { server with desktop := (server.desktop.perform c).2 } := by
  dsimp only
  unfold call
  rcases server.desktop.perform c with ⟨e | reply, desktop⟩
  · exact ⟨.inr ⟨rfl, rfl⟩, rfl, rfl⟩
  · exact ⟨.inl rfl, rfl, rfl⟩

theorem fault_fresh (hc : Command.ofObject frame = .ok c) :
    fault service m frame session server .fresh =
      if c.id ∈ session.seenIds then some (.protocol (.duplicateId c.id)) else none := by
  rw [fault, command?_of_ok hc]
  rfl

/-- A frame that passes the early checks has a new identifier. -/
theorem new_of_early (hc : Command.ofObject frame = .ok c)
    (h : Check.early.findSome? (fault service m frame session server) = none) :
    c.id ∉ session.seenIds := by
  have hfresh := List.findSome?_eq_none_iff.mp h .fresh (by decide)
  rw [fault_fresh hc] at hfresh
  simpa using hfresh

theorem dispatch_of_stopped {r : Refusal}
    (h : Check.early.findSome? (fault service m frame session server) = some r) :
    dispatch service m frame session server =
      refuse m (Command.peekId frame) r (received service.limits m frame session) server := by
  have hp := dispatch_passage service m frame session server
  generalize dispatch service m frame session server = turn at hp ⊢
  cases hp with
  | stopped r' fails => rw [Option.some.inj (h.symm.trans fails)]
  | passed c request passes =>
    rw [h] at passes
    contradiction

theorem dispatch_of_passed
    (h : Check.early.findSome? (fault service m frame session server) = none) :
    ∃ c request, Command.ofObject frame = .ok c ∧ request? frame = some request ∧
      dispatch service m frame session server =
        perform service m c.id request (received service.limits m frame session) server := by
  have hp := dispatch_passage service m frame session server
  generalize dispatch service m frame session server = turn at hp ⊢
  cases hp with
  | stopped r fails =>
    rw [h] at fails
    contradiction
  | passed c request passes hc hr => exact ⟨c, request, hc, hr, rfl⟩

/-- A frame that is stopped early has asked neither the accounts nor the desktop. -/
theorem code_of_early {r : Refusal}
    (h : Check.early.findSome? (fault service m frame session server) = some r) :
    r.code ≠ "AuthError" ∧ r.code ≠ "FacadeError" := by
  obtain ⟨check, hmem, hcheck⟩ := List.exists_of_findSome?_eq_some h
  rw [code_of_fault hcheck]
  revert hmem
  cases check <;> decide

end Dispatch

namespace Exchange

theorem command?_of_ok {e : Exchange σ} {frame : Members} (h : e.visit.frame = .ok frame) :
    e.command? = Dispatch.command? frame := by
  rw [command?, h]

/-- The request in the frame. -/
def request? (e : Exchange σ) : Option Request :=
  match e.visit.frame with
  | .ok frame => Dispatch.request? frame
  | .error _ => none

theorem request?_of_ok {e : Exchange σ} {frame : Members} (h : e.visit.frame = .ok frame) :
    e.request? = Dispatch.request? frame := by
  rw [request?, h]

/-- The session once the frame has been received. -/
def received (service : Service) (e : Exchange σ) : Session :=
  match e.visit.frame with
  | .ok frame => Dispatch.received service.limits e.visit.moment frame e.session
  | .error _ => e.session.count

/-- The session receives a command with the frame that the command is in. -/
theorem received_of_command (service : Service) {e : Exchange σ} {c : Command}
    (h : e.command? = some c) : ∃ frame, Command.ofObject frame = .ok c ∧
      e.received service = Dispatch.received service.limits e.visit.moment frame e.session := by
  cases hframe : e.visit.frame with
  | error fault =>
    rw [command?, hframe] at h
    contradiction
  | ok frame =>
    rw [command?_of_ok hframe] at h
    exact ⟨frame, Dispatch.ofObject_of_command? h, by rw [received, hframe]⟩

/-- A frame that is no command, or has a remembered identifier, is counted and that is all. -/
theorem received_of_known (service : Service) {e : Exchange σ}
    (h : ∀ c, e.command? = some c → c.id ∈ e.session.seenIds) :
    e.received service = e.session.count := by
  unfold received
  cases hframe : e.visit.frame with
  | error fault => rfl
  | ok frame =>
    rw [command?_of_ok hframe] at h
    exact Dispatch.received_of_known service.limits e.visit.moment
      fun c hc => h c (Dispatch.command?_of_ok hc)

theorem kind?_of_request? {e : Exchange σ} {c : Command} {request : Request}
    (hc : e.command? = some c) (hr : e.request? = some request) : c.kind? = some request.kind := by
  cases hframe : e.visit.frame with
  | error fault =>
    rw [request?, hframe] at hr
    contradiction
  | ok frame =>
    rw [command?_of_ok hframe] at hc
    rw [request?_of_ok hframe] at hr
    exact Dispatch.kind?_of_request? hc hr

theorem received_login (service : Service) (e : Exchange σ) :
    (e.received service).peer = e.session.peer ∧
      (e.received service).context? = e.session.context? := by
  unfold received
  cases e.visit.frame with
  | error fault => exact ⟨rfl, rfl⟩
  | ok frame => exact Dispatch.received_login ..

variable [Backend σ]

/-- A frame is stopped before its request is carried out, or that is carried out. Which of these
it is, the server has no say in. With it stand the calls that reach the desktop. -/
inductive Course (service : Service) (e : Exchange σ) :
    (Server σ → Turn σ) → (Server σ → List Call) → Prop where
  | stopped (id? : Option String) (r : Refusal) (password : r.code ≠ "AuthError")
      (desktop : r.code ≠ "FacadeError") :
      Course service e (Dispatch.refuse e.visit.moment id? r (e.received service)) fun _ => []
  | login (c : Command) (credentials : Credentials) (command : e.command? = some c)
      (new : c.id ∉ e.session.seenIds) (request : e.request? = some (.authenticate credentials)) :
      Course service e (Dispatch.login (service.withAccounts e.visit.accounts) e.visit.moment c.id
        credentials (e.received service)) fun _ => []
  | call (c : Command) (call : Call) (command : e.command? = some c)
      (new : c.id ∉ e.session.seenIds) (request : e.request? = some (.desktop call)) :
      Course service e (Dispatch.call (service.withAccounts e.visit.accounts) e.visit.moment c.id
        call (e.received service)) fun server => if server.desktop.poisoned then [] else [call]

/-- The frame with another server. -/
def withServer (e : Exchange σ) (server : Server σ) : Exchange σ := { e with server }

theorem course_of_error (service : Service) {e : Exchange σ} {fault : ProtocolError}
    (h : e.visit.frame = .error fault) :
    e.Course service (fun server => (e.withServer server).turn service)
      (fun server => (e.withServer server).calls service) := by
  have hreceived : e.received service = e.session.count := by rw [received, h]
  have hturn : (fun server => (e.withServer server).turn service) =
      Dispatch.refuse e.visit.moment none (.protocol fault) (e.received service) := by
    funext server
    rw [hreceived, turn, withServer, h]
    rfl
  have hcalls : (fun server => (e.withServer server).calls service) = fun _ => [] :=
    funext fun server => calls_of_error h
  have hcode : Refusal.code (.protocol fault) = "ProtocolError" := rfl
  rw [hturn, hcalls]
  exact .stopped none (.protocol fault) (by rw [hcode]; decide) (by rw [hcode]; decide)

/-- The calls of a frame that can be read, whatever the server is. -/
theorem calls_withServer (service : Service) {e : Exchange σ} {frame : Members}
    (h : e.visit.frame = .ok frame) (server : Server σ) :
    (e.withServer server).calls service =
      match Check.early.findSome? (Dispatch.fault (service.withAccounts e.visit.accounts)
        e.visit.moment frame e.session server), Dispatch.request? frame with
      | none, some (.desktop call) => if server.desktop.poisoned then [] else [call]
      | _, _ => [] :=
  (calls_of_ok (e := e.withServer server) h).trans
    (Dispatch.calls_eq (service.withAccounts e.visit.accounts) e.visit.moment frame e.session
      server)

theorem course_of_ok (service : Service) {e : Exchange σ} {frame : Members}
    (h : e.visit.frame = .ok frame) :
    e.Course service (fun server => (e.withServer server).turn service)
      (fun server => (e.withServer server).calls service) := by
  let service' := service.withAccounts e.visit.accounts
  let finds (server : Server σ) := Dispatch.fault service' e.visit.moment frame e.session server
  have hreceived : Dispatch.received service'.limits e.visit.moment frame e.session =
      e.received service := by
    rw [received, h]
    rfl
  have hearly : ∀ server, Check.early.findSome? (finds server) =
      Check.early.findSome? (finds e.server) :=
    fun server => Dispatch.findSome?_early_congr e.visit.moment frame e.session rfl e.server server
  have hturn : ∀ server, (e.withServer server).turn service =
      Dispatch.dispatch service' e.visit.moment frame e.session server :=
    fun server => turn_of_ok service h
  have hcalls := calls_withServer service h
  cases hfound : Check.early.findSome? (finds e.server) with
  | some r =>
    obtain ⟨hpassword, hdesktop⟩ := Dispatch.code_of_early hfound
    have hturn : (fun server => (e.withServer server).turn service) = _ := funext fun server =>
      (hturn server).trans (Dispatch.dispatch_of_stopped ((hearly server).trans hfound))
    have hcalls : (fun server => (e.withServer server).calls service) = fun _ => [] := by
      funext server
      rw [hcalls server, (hearly server).trans hfound]
    rw [hturn, hcalls, hreceived]
    exact .stopped _ r hpassword hdesktop
  | none =>
    obtain ⟨c, request, hc, hr, -⟩ := Dispatch.dispatch_of_passed hfound
    have hcommand := (command?_of_ok h).trans (Dispatch.command?_of_ok hc)
    have hrequest : e.request? = some request := (request?_of_ok h).trans hr
    have hnew := Dispatch.new_of_early hc hfound
    have hturn : (fun server => (e.withServer server).turn service) = fun server =>
        Dispatch.perform service' e.visit.moment c.id request (e.received service) server := by
      funext server
      obtain ⟨c', request', hc', hr', hdispatch⟩ :=
        Dispatch.dispatch_of_passed ((hearly server).trans hfound)
      obtain rfl : c = c' := Except.ok.inj (hc.symm.trans hc')
      obtain rfl : request = request' := Option.some.inj (hr.symm.trans hr')
      rw [hturn, hdispatch, hreceived]
    rw [hturn]
    cases request with
    | authenticate credentials =>
      have hcalls : (fun server => (e.withServer server).calls service) = fun _ => [] := by
        funext server
        rw [hcalls server, (hearly server).trans hfound, hr]
      rw [hcalls]
      exact .login c credentials hcommand hnew hrequest
    | desktop call =>
      have hcalls : (fun server => (e.withServer server).calls service) = fun server =>
          if server.desktop.poisoned then [] else [call] := by
        funext server
        rw [hcalls server, (hearly server).trans hfound, hr]
      rw [hcalls]
      exact .call c call hcommand hnew hrequest

/-- Every frame takes its course, whatever the server is. -/
theorem course (service : Service) (e : Exchange σ) :
    e.Course service (fun server => (e.withServer server).turn service)
      (fun server => (e.withServer server).calls service) := by
  cases hframe : e.visit.frame with
  | error fault => exact course_of_error service hframe
  | ok frame => exact course_of_ok service hframe

/-- After a frame has been received, it changes no more of the session than the login. -/
theorem Course.session {service : Service} {e : Exchange σ} {turn : Server σ → Turn σ}
    {made : Server σ → List Call} (h : e.Course service turn made) (server : Server σ) :
    ∃ context?, (turn server).session = { e.received service with context? } := by
  cases h with
  | stopped id? r => exact ⟨_, rfl⟩
  | call c call => exact ⟨_, (Dispatch.call_eq ..).2.1⟩
  | login c credentials =>
    cases hwho : e.visit.accounts.identify credentials.username credentials.password with
    | some who => exact ⟨_, (Dispatch.login_of_some _ _ _ _ _ hwho).2.1⟩
    | none => exact ⟨_, (Dispatch.login_of_none _ _ _ _ _ hwho).2.1⟩

theorem turn_session (service : Service) (e : Exchange σ) :
    ∃ context?, (e.turn service).session = { e.received service with context? } :=
  (e.course service).session e.server

end Exchange

end RemoteDesk
