import RemoteDesk.Proofs.Command.Secrets
import RemoteDesk.Proofs.Session.Audited

/-!
Secrets do not show. Of a password, a session learns no more than whose the accounts take it for,
and of a token no more than whether it is its own. Take two runs whose frames differ in passwords
and in tokens, and that agree on these answers: what is logged, and how long it takes, is the same
in both. If they differ in passwords alone, so is all else.
-/
namespace RemoteDesk

open Json Desktop

/-! ### Sessions but for the token -/

/-- The context without its token. -/
def Auth.Context.masked (c : Context) : Context := { c with token := "" }

/-- What two contexts share that differ in their tokens only. -/
theorem Auth.Context.fields_of_masked {c c' : Context} (h : c.masked = c'.masked) :
    c.username = c'.username ∧ c.expiresAt = c'.expiresAt ∧ c.permissions = c'.permissions := by
  obtain ⟨-, husername, -, hexpires, hpermissions⟩ := Context.mk.inj h
  exact ⟨husername, hexpires, hpermissions⟩

namespace Session

/-- The session without the token of its login. -/
def masked (s : Session) : Session := { s with context? := s.context?.map (·.masked) }

variable {s s' : Session}

theorem peer_of_masked (h : s.masked = s'.masked) : s.peer = s'.peer := by
  show s.masked.peer = s'.masked.peer
  rw [h]

theorem seenIds_of_masked (h : s.masked = s'.masked) : s.seenIds = s'.seenIds := by
  show s.masked.seenIds = s'.masked.seenIds
  rw [h]

theorem recentCommands_of_masked (h : s.masked = s'.masked) :
    s.recentCommands = s'.recentCommands := by
  show s.masked.recentCommands = s'.masked.recentCommands
  rw [h]

theorem context?_of_masked (h : s.masked = s'.masked) :
    s.context? = none ∧ s'.context? = none ∨
    ∃ c c', s.context? = some c ∧ s'.context? = some c' ∧ c.masked = c'.masked := by
  have h : s.context?.map Auth.Context.masked = s'.context?.map Auth.Context.masked := by
    show s.masked.context? = s'.masked.context?
    rw [h]
  cases hs : s.context? with
  | none =>
    rw [hs] at h
    exact .inl ⟨rfl, Option.map_eq_none_iff.mp h.symm⟩
  | some c =>
    rw [hs] at h
    obtain ⟨c', hs', hc⟩ := Option.map_eq_some_iff.mp h.symm
    exact .inr ⟨c, c', rfl, hs', hc.symm⟩

end Session

namespace Dispatch

/-- Whether the token that a frame presents is that of the login, if there are both. -/
def presentsOwn (frame : Members) (session : Session) : Option Bool := do
  let c ← command? frame
  let token ← c.token?
  let context ← session.context?
  return token == context.token

end Dispatch

/-- The same times, but for that in the response. The random bytes may differ. -/
structure Moment.Alike (m m' : Moment) : Prop where
  now : m.now = m'.now
  settled : m.settled = m'.settled
  instant : m.instant = m'.instant

/-! ### One frame -/

namespace Dispatch

variable {σ : Type} {service : Service} {m m' : Moment} {ms ns : Members} {s s' : Session}
  {server : Server σ}

theorem presentsOwn_eq {frame : Members} {session : Session} {c : Command} {x : Auth.Context}
    (hc : Command.ofObject frame = .ok c) (hx : session.context? = some x) :
    presentsOwn frame session = c.token?.map (· == x.token) := by
  rw [presentsOwn, command?_of_ok hc, hx]
  cases ht : c.token? with
  | none => simp [ht]
  | some token => simp [ht]

/-- Of a token, nothing counts but whether it is the session's own. -/
theorem fault_token_eq [Backend σ] {frame : Members} {session : Session} {c : Command}
    {x : Auth.Context} (hg : guarded? frame = some c) (hx : session.context? = some x) :
    fault service m frame session server .token =
      (c.token?.map (· == x.token)).bind fun own =>
        if own then none else some (.auth .unknownToken) := by
  rw [fault, hg, hx]
  cases ht : c.token? with
  | none => simp [ht]
  | some token => by_cases hown : token = x.token <;> simp [ht, hown]

/-- The checks of the login find the same. -/
theorem fault_login_alike [Backend σ] {c d : Command} (hm : m.Alike m')
    (hs : s.masked = s'.masked) (own : presentsOwn ms s = presentsOwn ns s')
    (hms : Command.ofObject ms = .ok c) (hns : Command.ofObject ns = .ok d)
    (hkind : c.kind? = d.kind?) {check : Check} (hcheck : check ∈ Check.login) :
    fault service m ms s server check = fault service m' ns s' server check := by
  have hgc := guarded?_of_ok hms
  have hgd := guarded?_of_ok hns
  rw [← hkind] at hgd
  by_cases hk : c.kind? = some .authenticate
  · rw [if_pos hk] at hgc hgd
    cases check with
    | context | token | expiry => rw [fault, fault, hgc, hgd]; rfl
    | _ => exact absurd hcheck (by decide)
  · rw [if_neg hk] at hgc hgd
    rcases Session.context?_of_masked hs with ⟨hx, hx'⟩ | ⟨x, x', hx, hx', hmask⟩
    · cases check with
      | context | token | expiry => rw [fault, fault, hgc, hgd, hx, hx']; rfl
      | _ => exact absurd hcheck (by decide)
    · obtain ⟨-, hexpires, -⟩ := Auth.Context.fields_of_masked hmask
      cases check with
      | context => rw [fault, fault, hgc, hgd, hx, hx']; rfl
      | expiry =>
        rw [fault, fault, hgc, hgd, hx, hx']
        simp only [Option.bind_eq_bind, Option.bind_some, hexpires, hm.now]
      | token =>
        rw [presentsOwn_eq hms hx, presentsOwn_eq hns hx'] at own
        rw [fault_token_eq hgc hx, fault_token_eq hgd hx', own]
      | _ => exact absurd hcheck (by decide)

/-- So does the check of the permission. -/
theorem fault_permission_alike [Backend σ] {c d : Command} (hs : s.masked = s'.masked)
    (hms : Command.ofObject ms = .ok c) (hns : Command.ofObject ns = .ok d)
    (hkind : c.kind? = d.kind?) :
    fault service m ms s server .permission = fault service m' ns s' server .permission := by
  rw [fault, fault, command?_of_ok hms, command?_of_ok hns]
  simp only [Option.bind_eq_bind, Option.bind_some, hkind]
  rcases Session.context?_of_masked hs with ⟨hx, hx'⟩ | ⟨x, x', hx, hx', hmask⟩
  · rw [hx, hx']
  · obtain ⟨husername, -, hpermissions⟩ := Auth.Context.fields_of_masked hmask
    simp only [hx, hx', Option.bind_some, husername, hpermissions]

/-- The early checks find the same. -/
theorem fault_alike [Backend σ] (h : AlikeUnder OtherSecret ms ns) (hm : m.Alike m')
    (hs : s.masked = s'.masked) (own : presentsOwn ms s = presentsOwn ns s') {check : Check}
    (hcheck : check ∈ Check.early) :
    fault service m ms s server check = fault service m' ns s' server check := by
  have hseen := Session.seenIds_of_masked hs
  have hrate : fault service m ms s server .rate = fault service m' ns s' server .rate := by
    have hrecent : (s.expire service.limits.rateWindow m.instant).recentCommands =
        (s'.expire service.limits.rateWindow m'.instant).recentCommands := by
      rw [Session.expire, Session.expire, Session.recentCommands_of_masked hs, hm.instant]
    simp only [fault]
    rw [hrecent]
  rcases Command.ofObject_alike h with ⟨e, hms, hns⟩ | ⟨c, d, hms, hns, hcd⟩
  · have hc : command? ms = none := by rw [command?, hms]; rfl
    have hd : command? ns = none := by rw [command?, hns]; rfl
    have hgc : guarded? ms = none := by rw [guarded?, hc]; rfl
    have hgd : guarded? ns = none := by rw [guarded?, hd]; rfl
    cases check with
    | rate => exact hrate
    | password | desktop => exact absurd hcheck (by decide)
    | _ => simp [fault, hms, hns, hc, hd, hgc, hgd]
  · have hc := command?_of_ok hms
    have hd := command?_of_ok hns
    have hgc := guarded?_of_ok hms
    have hgd := guarded?_of_ok hns
    rw [← hcd.kind?] at hgd
    cases check with
    | rate => exact hrate
    | password | desktop => exact absurd hcheck (by decide)
    | envelope => simp only [fault, hms, hns]
    | fresh => rw [fault_fresh hms, fault_fresh hns, hcd.id, hseen]
    | kind => simp only [fault, hc, hd, Option.bind_eq_bind, Option.bind_some, hcd.kind?, hcd.kindName]
    | payload =>
      simp only [fault, hc, hd, hcd.kind?, Option.bind_eq_bind, Option.bind_some]
      cases hk : d.kind? with
      | none => rfl
      | some kind =>
        rcases Request.parse_alike kind hcd.payload with ⟨e, hp, hq⟩ | ⟨r, r', hp, hq, -⟩ <;>
          simp [hp, hq]
    | permission => exact fault_permission_alike hs hms hns hcd.kind?
    | context | token | expiry => exact fault_login_alike hm hs own hms hns hcd.kind? (by decide)

/-- What a session receives does not depend on its token. -/
theorem received_masked (limits : Limits) (m : Moment) (frame : Members) (s : Session) :
    (received limits m frame s).masked = received limits m frame s.masked := by
  by_cases hnew : ∃ c, Command.ofObject frame = .ok c ∧ c.id ∉ s.seenIds
  · obtain ⟨c, hc, hnew⟩ := hnew
    have hnew' : c.id ∉ s.masked.seenIds := hnew
    rw [received_of_new limits m hc hnew, received_of_new limits m hc hnew',
      Session.letThrough_session, Session.letThrough_session]
    rfl
  · have hknown : ∀ c, Command.ofObject frame = .ok c → c.id ∈ s.seenIds :=
      fun c hc => by_contra fun h => hnew ⟨c, hc, h⟩
    have hknown' : ∀ c, Command.ofObject frame = .ok c → c.id ∈ s.masked.seenIds := hknown
    rw [received_of_known limits m hknown, received_of_known limits m hknown']
    rfl

/-- Nor on a secret in the frame. -/
theorem received_alike (limits : Limits) (h : AlikeUnder OtherSecret ms ns)
    (hm : m.instant = m'.instant) (s : Session) :
    received limits m ms s = received limits m' ns s := by
  rw [received, received]
  rcases Command.ofObject_alike h with ⟨e, hms, hns⟩ | ⟨c, d, hms, hns, hcd⟩
  · rw [hms, hns]
  · rw [hms, hns]
    dsimp only
    rw [hcd.id, hm]

/-! ### What comes of a frame -/

end Dispatch

/-- What two turns share whose frames differ in secrets. -/
structure Turn.Alike {σ : Type} (m m' : Moment) (s s' : Session) (t t' : Turn σ) : Prop where
  events : t.events = t'.events
  waited : t.waited = t'.waited
  server : t.server = t'.server
  masked : t.session.masked = t'.session.masked
  /-- Responses differ only where the random bytes of a token or the time do. -/
  response : m = m' → t.response = t'.response
  session : m = m' → s = s' → t.session = t'.session

theorem Turn.Alike.eq {σ : Type} {m m' : Moment} {s s' : Session} {t t' : Turn σ}
    (h : Turn.Alike m m' s s' t t') (hm : m = m') (hs : s = s') : t = t' := by
  obtain ⟨hevents, hwaited, hserver, -, hresponse, hsession⟩ := h
  have hresponse := hresponse hm
  have hsession := hsession hm hs
  cases t
  cases t'
  simp_all only

/-- What two sessions share, they share before they receive their frames. -/
theorem Turn.Alike.of_received {σ : Type} {m m' : Moment} {r r' s s' : Session} {t t' : Turn σ}
    (h : Turn.Alike m m' r r' t t') (same : m = m' → s = s' → r = r') :
    Turn.Alike m m' s s' t t' :=
  { h with session := fun hm hs => h.session hm (same hm hs) }

namespace Dispatch

variable {σ : Type} {service : Service} {m m' : Moment} {s s' : Session} {server : Server σ}

theorem refuse_alike (id? : Option String) (r : Refusal) (hs : s.masked = s'.masked) :
    Turn.Alike m m' s s' (refuse m id? r s server) (refuse m' id? r s' server) where
  events := by
    show refusalEvents s.peer id? r = refusalEvents s'.peer id? r
    rw [Session.peer_of_masked hs]
  waited := rfl
  server := rfl
  masked := hs
  response hm := by rw [hm]; rfl
  session _ hs := hs

theorem call_alike [Backend σ] (id : String) (call : Call) (hs : s.masked = s'.masked) :
    Turn.Alike m m' s s' (Dispatch.call service m id call s server)
      (Dispatch.call service m' id call s' server) := by
  unfold Dispatch.call
  rcases server.desktop.perform call with ⟨e | reply, desktop⟩
  · exact refuse_alike (some id) (.desktop e) hs
  · exact ⟨rfl, rfl, rfl, hs, fun hm => by rw [hm], fun _ hs => hs⟩

theorem masked_login (s : Session) (x : Auth.Context) :
    ({ s with context? := some x } : Session).masked =
      { s.masked with context? := some x.masked } := rfl

/-- Of a password, nothing counts but whose the accounts take it for. -/
theorem login_alike (id : String) {c d : Credentials} (hm : m.Alike m') (hs : s.masked = s'.masked)
    (username : c.username = d.username)
    (verdict : service.auth.accounts.identify c.username c.password =
      service.auth.accounts.identify d.username d.password) :
    Turn.Alike m m' s s' (login service m id c s server) (login service m' id d s' server) := by
  have hpeer := Session.peer_of_masked hs
  have hwaited : (login service m id c s server).waited =
      (login service m' id d s' server).waited := by
    rw [login_waited, login_waited, hpeer, hm.now]
  cases hwho : service.auth.accounts.identify c.username c.password with
  | some who =>
    have hwho' := verdict.symm.trans hwho
    have hevents := login_events_of_some service m id s server hwho
    have hevents' := login_events_of_some service m' id s' server hwho'
    obtain ⟨hresponse, hsession, hserver⟩ := login_of_some service m id s server hwho
    obtain ⟨hresponse', hsession', hserver'⟩ := login_of_some service m' id s' server hwho'
    refine ⟨?_, hwaited, ?_, ?_, ?_, ?_⟩
    · rw [hevents, hevents', hpeer]
      simp only [Auth.Attempt.context, hm.settled]
    · rw [hserver, hserver', hpeer]
    · rw [hsession, hsession', masked_login, masked_login, hs]
      simp only [Auth.Attempt.context, Auth.Context.masked, hm.settled]
    · rintro rfl
      rw [hresponse, hresponse']
      simp only [Auth.Attempt.context]
    · rintro rfl rfl
      rw [hsession, hsession']
      simp only [Auth.Attempt.context]
  | none =>
    have hwho' := verdict.symm.trans hwho
    have hevents := login_events_of_none service m id s server hwho
    have hevents' := login_events_of_none service m' id s' server hwho'
    obtain ⟨hresponse, hsession, hserver⟩ := login_of_none service m id s server hwho
    obtain ⟨hresponse', hsession', hserver'⟩ := login_of_none service m' id s' server hwho'
    refine ⟨?_, hwaited, ?_, ?_, ?_, ?_⟩
    · rw [hevents, hevents', hpeer, username, hm.settled]
    · rw [hserver, hserver', hpeer, hm.settled]
    · rw [hsession, hsession', hs]
    · rintro rfl
      rw [hresponse, hresponse']
    · rintro - rfl
      rw [hsession, hsession']

variable [Backend σ] {ms ns : Members}

/-- Whose the accounts take the credentials of a login for. -/
def verdict (accounts : Accounts) (frame : Members) : Option (Option Identity) :=
  match request? frame with
  | some (.authenticate c) => some (accounts.identify c.username c.password)
  | _ => none

/-- Frames that differ in secrets ask for the same but for the password, or not at all. -/
theorem request?_alike (h : AlikeUnder OtherSecret ms ns) :
    request? ms = none ∧ request? ns = none ∨
    ∃ r r', request? ms = some r ∧ request? ns = some r' ∧ r.Alike r' := by
  rcases Command.ofObject_alike h with ⟨e, hms, hns⟩ | ⟨c, d, hms, hns, hcd⟩
  · have hc : command? ms = none := by rw [command?, hms]; rfl
    have hd : command? ns = none := by rw [command?, hns]; rfl
    exact .inl ⟨by rw [request?, hc]; rfl, by rw [request?, hd]; rfl⟩
  · cases hk : c.kind? with
    | none =>
      have hk' : d.kind? = none := hcd.kind?.symm.trans hk
      rw [request?, request?, command?_of_ok hms, command?_of_ok hns]
      simp [hk, hk']
    | some kind =>
      have hk' : d.kind? = some kind := hcd.kind?.symm.trans hk
      rw [request?_of_ok hms hk, request?_of_ok hns hk']
      rcases Request.parse_alike kind hcd.payload with ⟨e, hp, hq⟩ | ⟨r, r', hp, hq, halike⟩
      · rw [hp, hq]
        exact .inl ⟨rfl, rfl⟩
      · rw [hp, hq]
        exact .inr ⟨r, r', rfl, rfl, halike⟩

/-- The request of a frame, carried out. -/
theorem perform_alike {c d : Command} (hm : m.Alike m') (hs : s.masked = s'.masked)
    (id : c.id = d.id) {r r' : Request} (hms : request? ms = some r) (hns : request? ns = some r')
    (hr : r.Alike r')
    (same : verdict service.auth.accounts ms = verdict service.auth.accounts ns) :
    Turn.Alike m m' s s' (perform service m c.id r s server)
      (perform service m' d.id r' s' server) := by
  rw [id]
  cases hr with
  | desktop call => exact call_alike d.id call hs
  | authenticate username =>
    rw [verdict, verdict, hms, hns] at same
    exact login_alike d.id hm hs username (Option.some.inj same)

theorem dispatch_alike (service : Service) (server : Server σ) (h : AlikeUnder OtherSecret ms ns)
    (hm : m.Alike m') (hs : s.masked = s'.masked) (own : presentsOwn ms s = presentsOwn ns s')
    (same : verdict service.auth.accounts ms = verdict service.auth.accounts ns) :
    Turn.Alike m m' s s' (dispatch service m ms s server) (dispatch service m' ns s' server) := by
  have hearly : Check.early.findSome? (fault service m ms s server) =
      Check.early.findSome? (fault service m' ns s' server) :=
    findSome?_congr fun _ hcheck => fault_alike h hm hs own hcheck
  have hreceived := received_alike service.limits h hm.instant
  have hmasked : (received service.limits m ms s).masked =
      (received service.limits m' ns s').masked := by
    rw [hreceived, received_masked, received_masked, hs]
  have hexact : m = m' → s = s' →
      received service.limits m ms s = received service.limits m' ns s' :=
    fun _ hs => (hreceived s).trans (hs ▸ rfl)
  cases hfound : Check.early.findSome? (fault service m ms s server) with
  | some r =>
    rw [dispatch_of_stopped hfound, dispatch_of_stopped (hearly ▸ hfound), Command.peekId_alike h]
    exact (refuse_alike _ r hmasked).of_received hexact
  | none =>
    obtain ⟨c, r, hc, hr, hdispatch⟩ := dispatch_of_passed hfound
    obtain ⟨d, r', hd, hr', hdispatch'⟩ := dispatch_of_passed (hearly ▸ hfound)
    obtain ⟨c', d', hc', hd', hcd⟩ := (Command.ofObject_alike h).resolve_left (by simp [hc])
    obtain rfl : c = c' := Except.ok.inj (hc.symm.trans hc')
    obtain rfl : d = d' := Except.ok.inj (hd.symm.trans hd')
    obtain ⟨a, a', ha, ha', halike⟩ := (request?_alike h).resolve_left (by simp [hr])
    obtain rfl : r = a := Option.some.inj (hr.symm.trans ha)
    obtain rfl : r' = a' := Option.some.inj (hr'.symm.trans ha')
    rw [hdispatch, hdispatch']
    exact (perform_alike hm hmasked hcd.id hr hr' halike same).of_received hexact

omit [Backend σ] in
/-- With the same token as well, it is the session's own in both frames or in neither. -/
theorem presentsOwn_of_payload (h : AlikeUnder OtherPayload ms ns) (s : Session) :
    presentsOwn ms s = presentsOwn ns s := by
  rw [presentsOwn, presentsOwn, command?, command?]
  rcases Command.ofObject_alike (h.mono fun _ _ _ => .inl) with
    ⟨e, hms, hns⟩ | ⟨c, d, hms, hns, -⟩
  · rw [hms, hns]
  · rw [hms, hns]
    simp only [Except.toOption, Option.bind_eq_bind, Option.bind_some,
      Command.token_of_payload h hms hns]

end Dispatch

/-! ### Runs -/

variable {σ : Type}

/-- Whose the accounts take the credentials in a frame for, if it is a login. -/
def Visit.verdict (v : Visit σ) : Option (Option Identity) :=
  match v.frame with
  | .ok frame => Dispatch.verdict v.accounts frame
  | .error _ => none

/-- Whether the token that a frame presents is the session's own, if there are both. -/
def Exchange.presentsOwn (e : Exchange σ) : Option Bool :=
  match e.visit.frame with
  | .ok frame => Dispatch.presentsOwn frame e.session
  | .error _ => none

/-- Two visits that differ in passwords, which the accounts take for the same user's or refuse. -/
structure Visit.OtherPasswords (v w : Visit σ) : Prop where
  frame : Both (AlikeUnder OtherPayload) v.frame w.frame
  moment : v.moment = w.moment
  accounts : v.accounts = w.accounts
  meanwhile : v.meanwhile = w.meanwhile
  verdict : v.verdict = w.verdict

/-- Two visits that differ in such passwords, in tokens, and in the random bytes for new ones. -/
structure Visit.OtherSecrets (v w : Visit σ) : Prop where
  frame : Both (AlikeUnder OtherSecret) v.frame w.frame
  moment : v.moment.Alike w.moment
  accounts : v.accounts = w.accounts
  meanwhile : v.meanwhile = w.meanwhile
  verdict : v.verdict = w.verdict

theorem Visit.OtherPasswords.secrets {v w : Visit σ} (h : v.OtherPasswords w) : v.OtherSecrets w where
  frame := by
    rcases h.frame with herror | ⟨ms, ns, hv, hw, halike⟩
    · exact .inl herror
    · exact .inr ⟨ms, ns, hv, hw, halike.mono fun _ _ _ => .inl⟩
  moment := ⟨by rw [h.moment], by rw [h.moment], by rw [h.moment]⟩
  accounts := h.accounts
  meanwhile := h.meanwhile
  verdict := h.verdict

/-- Passwords do not change whose token it is. -/
theorem Visit.OtherPasswords.presentsOwn {v w : Visit σ} (h : v.OtherPasswords w)
    (session : Session) (server server' : Server σ) :
    (Exchange.mk v session server).presentsOwn = (Exchange.mk w session server').presentsOwn := by
  rw [Exchange.presentsOwn, Exchange.presentsOwn]
  rcases h.frame with ⟨e, hv, hw⟩ | ⟨ms, ns, hv, hw, halike⟩
  · rw [hv, hw]
  · rw [hv, hw]
    exact Dispatch.presentsOwn_of_payload halike session

variable [Backend σ]

theorem Exchange.turn_otherSecrets (service : Service) {v w : Visit σ} {s s' : Session}
    (server : Server σ) (h : v.OtherSecrets w) (hs : s.masked = s'.masked)
    (own : (Exchange.mk v s server).presentsOwn = (Exchange.mk w s' server).presentsOwn) :
    Turn.Alike v.moment w.moment s s' ((Exchange.mk v s server).turn service)
      ((Exchange.mk w s' server).turn service) := by
  have hverdict := h.verdict
  rw [Exchange.presentsOwn, Exchange.presentsOwn] at own
  rw [Visit.verdict, Visit.verdict] at hverdict
  rw [Exchange.turn, Exchange.turn]
  rcases h.frame with ⟨e, hv, hw⟩ | ⟨ms, ns, hv, hw, halike⟩
  · dsimp only
    rw [hv, hw]
    have hcount : s.count.masked = s'.count.masked := by
      show s.masked.count = s'.masked.count
      rw [hs]
    exact (Dispatch.refuse_alike none (.protocol e) hcount).of_received fun _ hs => hs ▸ rfl
  · dsimp only at own ⊢
    rw [hv, hw] at own hverdict ⊢
    rw [← h.accounts] at hverdict ⊢
    exact Dispatch.dispatch_alike (service.withAccounts v.accounts) server halike h.moment hs own
      hverdict

/-- Runs that differ in passwords come to the same, turn by turn. -/
theorem turns_otherPasswords (service : Service) {visits others : List (Visit σ)}
    (h : List.Forall₂ Visit.OtherPasswords visits others) (session : Session) (server : Server σ) :
    (exchanges service visits session server).map (·.turn service) =
      (exchanges service others session server).map (·.turn service) := by
  induction h generalizing session server with
  | nil => rfl
  | cons hvw h ih =>
    rename_i v w visits others
    have hturn : (Exchange.mk v session (v.meanwhile server)).turn service =
        (Exchange.mk w session (w.meanwhile server)).turn service := by
      rw [← hvw.meanwhile]
      exact (Exchange.turn_otherSecrets service (v.meanwhile server) hvw.secrets rfl
        (hvw.presentsOwn session _ _)).eq hvw.moment rfl
    rw [exchanges, exchanges, List.map_cons, List.map_cons, hturn, ih]

/-- Runs that differ in secrets log the same and take the same time, as long as they agree on which
tokens are the sessions' own. -/
theorem events_otherSecrets (service : Service) {visits others : List (Visit σ)}
    (h : List.Forall₂ Visit.OtherSecrets visits others) {s s' : Session} (server : Server σ)
    (hs : s.masked = s'.masked)
    (own : (exchanges service visits s server).map (·.presentsOwn) =
      (exchanges service others s' server).map (·.presentsOwn)) :
    (exchanges service visits s server).map
        (fun e => ((e.turn service).events, (e.turn service).waited)) =
      (exchanges service others s' server).map
        (fun e => ((e.turn service).events, (e.turn service).waited)) := by
  induction h generalizing s s' server with
  | nil => rfl
  | cons hvw h ih =>
    rename_i v w visits others
    rw [exchanges, exchanges, List.map_cons, List.map_cons, ← hvw.meanwhile] at own
    obtain ⟨hfirst, hrest⟩ := List.cons.inj own
    have halike := Exchange.turn_otherSecrets service (v.meanwhile server) hvw hs hfirst
    rw [← halike.server] at hrest
    rw [exchanges, exchanges, List.map_cons, List.map_cons, ← hvw.meanwhile, halike.events,
      halike.waited, ← halike.server, ih _ halike.masked hrest]

/-- The audit log matches the responses one for one, and no secret shows in it. Every frame of
every run is audited: what it leaves on the log is fixed by the code it is answered with, and says
what the response and the session say. Of the passwords that clients send, the responses, the log
and all that is left behind depend on what the accounts make of them and on nothing else. And of
the tokens, the log depends on which ones are presented by the sessions that they belong to. -/
theorem audit_log_exact (service : Service) :
    (∀ (visits : List (Visit σ)) (session : Session) (server : Server σ),
      ∀ e ∈ exchanges service visits session server, e.Audited service (e.turn service)) ∧
    (∀ (visits others : List (Visit σ)) (session : Session) (server : Server σ),
      List.Forall₂ Visit.OtherPasswords visits others →
      (exchanges service visits session server).map (·.turn service) =
        (exchanges service others session server).map (·.turn service)) ∧
    ∀ (visits others : List (Visit σ)) (s s' : Session) (server : Server σ),
      List.Forall₂ Visit.OtherSecrets visits others → s.masked = s'.masked →
      let run := exchanges service visits s server
      let other := exchanges service others s' server
      run.map (·.presentsOwn) = other.map (·.presentsOwn) →
      run.map (fun e => ((e.turn service).events, (e.turn service).waited)) =
        other.map (fun e => ((e.turn service).events, (e.turn service).waited)) := by
  refine ⟨fun visits session server e _ => e.audited service, ?_, ?_⟩
  · intro visits others session server h
    exact turns_otherPasswords service h session server
  · intro visits others s s' server h hs run other own
    exact events_otherSecrets service h server hs own

/-- A login, a command with a token, and one with the wrong token. -/
def confiding (password token : String) (random : Bytes) : List (Visit Recording) :=
  let visit (second : Nat) (frame : Members) : Visit Recording :=
    let now := Time.ofNanos (second * 1000000000)
    ⟨.ok frame, ⟨now, now, second * 1000000000, random, ""⟩, hourly.auth.accounts,
      fun server => server⟩
  [visit 1 [("id", .str "1"),
      ("payload", .obj [("password", .str password), ("username", .str "ada")]),
      ("type", .str "authenticate")],
    visit 2 [("auth_token", .str token), ("id", .str "2"), ("type", .str "get_displays")],
    visit 3 [("auth_token", .str "none"), ("id", .str "3"), ("type", .str "get_displays")]]

/-- Two clients with their own passwords, and with their own tokens made of other bytes. -/
theorem audit_log_exact_confiding :
    let visits := confiding "secret" "AQID" [1, 2, 3]
    let others := confiding "sesame" "BAUG" [4, 5, 6]
    let server := firstLogin.server
    let run := exchanges hourly visits (.new default) server
    let other := exchanges hourly others (.new default) server
    let logged (e : Exchange Recording) := ((e.turn hourly).events, (e.turn hourly).waited)
    List.Forall₂ Visit.OtherSecrets visits others ∧
    run.map (·.presentsOwn) = [none, some true, some false] ∧
    run.map (·.presentsOwn) = other.map (·.presentsOwn) ∧
    run.map (fun e => (e.turn hourly).events.map (·.message)) =
      [["authentication succeeded"], [], ["unauthenticated command rejected"]] ∧
    (∀ e ∈ run, e.Audited hourly (e.turn hourly)) ∧ run.map logged = other.map logged := by
  intro visits others server run other logged
  have alike : List.Forall₂ Visit.OtherSecrets visits others := by
    refine .cons ⟨.ok ?_, ⟨rfl, rfl, rfl⟩, rfl, rfl, rfl⟩
      (.cons ⟨.ok ?_, ⟨rfl, rfl, rfl⟩, rfl, rfl, rfl⟩
        (.cons ⟨.ok (.refl _ _), ⟨rfl, rfl, rfl⟩, rfl, rfl, rfl⟩ .nil))
    · have hpassword : AlikeUnder OtherPassword
          [("password", .str "secret"), ("username", .str "ada")]
          [("password", .str "sesame"), ("username", .str "ada")] :=
        .cons ⟨rfl, .inr ⟨rfl, _, _, rfl, rfl⟩⟩ (.cons ⟨rfl, .inl rfl⟩ .nil)
      exact .cons ⟨rfl, .inl rfl⟩ (.cons ⟨rfl, .inr (.inl ⟨rfl, _, _, rfl, rfl, hpassword⟩)⟩
        (.cons ⟨rfl, .inl rfl⟩ .nil))
    · exact .cons ⟨rfl, .inr (.inr ⟨rfl, _, _, rfl, rfl⟩)⟩ (AlikeUnder.refl _ _)
  have own : run.map (·.presentsOwn) = other.map (·.presentsOwn) := by decide +kernel
  obtain ⟨audited, -, discreet⟩ := @audit_log_exact Recording _ hourly
  exact ⟨alike, by decide +kernel, own, by decide +kernel, audited visits (.new default) server,
    discreet visits others (.new default) (.new default) server alike rfl own⟩

end RemoteDesk
