import RemoteDesk.Proofs.Session.Duplicates
import RemoteDesk.Proofs.Session.Rate

/-!
What a frame leaves behind. Every frame is counted; a new command leaves its identifier, and its
instant unless it is refused for the rate. Beyond that, a frame that is refused leaves the session
as it was: only a wrong password goes on record, and only calls reach the desktop. A frame that is
answered with success opens a login if it asks for one.
-/
namespace RemoteDesk

open Json Desktop

/-! ### Windows -/

namespace Session

/-- An identifier enters its window, unless that has no size; the oldest ones make room. -/
structure EntersIds (window : Nat) (id : String) (s s' : Session) : Prop where
  recent : s'.recentIds = if window = 0 then s.recentIds else (s.recentIds ++ [id]).rtake window
  seen : s'.seenIds = if window = 0 then s.seenIds
    else id :: s.seenIds.diff (s.recentIds.take (s.recentIds.length + 1 - window))

/-- Instants enter their window. Some that it does not reach back to may go. -/
def EntersRate (window : Duration) (now : Nat) (instants : List Nat) (s s' : Session) : Prop :=
  ∃ gone kept, s.recentCommands = gone ++ kept ∧ (∀ t ∈ gone, window.toNanos ≤ now - t) ∧
    s'.recentCommands = kept ++ instants

/-- What a session forgets stands in front and is outside of the window. -/
theorem expire_split (window : Duration) (now : Nat) (s : Session) :
    ∃ gone, s.recentCommands = gone ++ (s.expire window now).recentCommands ∧
      ∀ t ∈ gone, window.toNanos ≤ now - t := by
  refine ⟨s.recentCommands.takeWhile fun t => window.toNanos ≤ now - t,
    List.takeWhile_append_dropWhile.symm, ?_⟩
  intro t ht
  simpa using List.mem_takeWhile_imp ht

end Session

/-! ### What is left behind -/

variable {σ : Type} [Backend σ]

namespace Exchange

/-- A frame is counted. If it is a command that is not refused as repeated, its identifier enters
the session's window, and its instant does as well unless it is refused for the rate. -/
structure Counts (service : Service) (e : Exchange σ) : Prop where
  peer : (e.turn service).session.peer = e.session.peer
  once : (e.turn service).session.commands.issued = e.session.commands.issued + 1
  ids : ∀ id, e.newId? service = some id →
    e.session.EntersIds service.limits.duplicateWindow id (e.turn service).session
  instants : ∀ id, e.newId? service = some id →
    if service.limits.maxCommands = 0 then
      (e.turn service).session.recentCommands = e.session.recentCommands
    else e.session.EntersRate service.limits.rateWindow e.instant
      (if e.limited service then [] else [e.instant]) (e.turn service).session

/-- What a refused frame leaves behind, apart from being counted. -/
structure Refused (service : Service) (e : Exchange σ) (turn : Turn σ) : Prop where
  context : turn.session.context? = e.session.context?
  /-- A frame that is no command, or a repeated one, is counted and that is all. -/
  unread : e.newId? service = none → turn.session = e.session.count ∧ turn.server = e.server
  failures : turn.server.failures =
    if turn.response.errorCode? = some "AuthError" then
      e.server.failures.record e.session.peer.host e.visit.moment.settled
    else e.server.failures
  desktop : turn.response.errorCode? ≠ some "FacadeError" →
    turn.server.desktop = e.server.desktop

omit [Backend σ] in
/-- The context that a login with somebody's credentials opens. -/
def opens (service : Service) (e : Exchange σ) (c : Credentials) (who : Identity) : Auth.Context :=
  Auth.Attempt.context (service.withAccounts e.visit.accounts).auth
    ⟨e.session.peer.host, c, e.visit.moment.random⟩ who e.visit.moment.settled

/-- What a request that is answered with success leaves behind, apart from being counted. -/
inductive Granted (service : Service) (e : Exchange σ) (turn : Turn σ) : Prop where
  | login (c : Credentials) (who : Identity) (request : e.request? = some (.authenticate c))
      (right : e.visit.accounts.identify c.username c.password = some who)
      (context : turn.session.context? = some (e.opens service c who))
      (told : turn.response.data? = some (Dispatch.loginData (e.opens service c who)))
      (failures : turn.server.failures = e.server.failures.clear e.session.peer.host)
      (desktop : turn.server.desktop = e.server.desktop)
  | call (made : Call) (request : e.request? = some (.desktop made))
      (context : turn.session.context? = e.session.context?)
      (failures : turn.server.failures = e.server.failures)

/-! ### Frames -/

theorem fresh_of_newId? {service : Service} {e : Exchange σ} {id : String}
    (h : e.newId? service = some id) : e.fresh = true := by
  unfold newId? at h
  obtain ⟨hnot, hcommand⟩ := Option.ite_none_left_eq_some.mp h
  obtain ⟨c, hc, -⟩ := Option.map_eq_some_iff.mp hcommand
  refine fresh_iff.mpr ⟨c, hc, fun hin => hnot ?_⟩
  exact (e.repeated_iff service).mpr ⟨c, hc, hin⟩

/-- A frame that carries out a request has a new identifier. -/
theorem newId?_ne_none (service : Service) {e : Exchange σ} {c : Command}
    (hc : e.command? = some c) (hnew : c.id ∉ e.session.seenIds) : e.newId? service ≠ none := by
  rw [newId?_of_new service hc hnew]
  exact Option.some_ne_none c.id

theorem received_of_unread {service : Service} {e : Exchange σ} (h : e.newId? service = none) :
    e.received service = e.session.count := by
  apply received_of_known
  intro c hc
  by_contra hnew
  exact newId?_ne_none service hc hnew h

omit [Backend σ] in
theorem received_once (service : Service) (e : Exchange σ) :
    (e.received service).commands = e.session.commands.next.2 := by
  by_cases h : ∃ c, e.command? = some c ∧ c.id ∉ e.session.seenIds
  · obtain ⟨c, hc, hnew⟩ := h
    obtain ⟨frame, hframe, hreceived⟩ := received_of_command service hc
    rw [hreceived, Dispatch.received_of_new service.limits e.visit.moment hframe hnew]
    rfl
  · rw [received_of_known service fun c hc => by_contra fun hnew => h ⟨c, hc, hnew⟩]
    rfl

theorem counts (service : Service) (e : Exchange σ) : e.Counts service := by
  obtain ⟨context?, hsession⟩ := e.turn_session service
  refine ⟨?_, ?_, ?_, ?_⟩
  · rw [hsession]
    exact (e.received_login service).1
  · rw [hsession]
    exact congrArg Sequence.issued (e.received_once service)
  · intro id hid
    rcases e.turn_ids service with ⟨hnone, -⟩ | ⟨id', hid', -, hrecent, hseen⟩
    · rw [hnone] at hid
      contradiction
    · obtain rfl : id = id' := Option.some.inj (hid.symm.trans hid')
      exact ⟨hrecent, hseen⟩
  · intro id hid
    have hfresh := fresh_of_newId? hid
    have hrecent := e.turn_recent service
    by_cases hm : service.limits.maxCommands = 0
    · rw [if_pos hm]
      rwa [if_neg fun h => h.2 hm] at hrecent
    · rw [if_neg hm]
      rw [if_pos ⟨hfresh, hm⟩] at hrecent
      obtain ⟨gone, hsplit, hgone⟩ := e.session.expire_split service.limits.rateWindow e.instant
      refine ⟨gone, _, hsplit, hgone, hrecent.trans ?_⟩
      by_cases hcrowd : e.crowded service
      · have hlimited : e.limited service = true := (e.limited_iff service).mpr ⟨hfresh, hcrowd⟩
        rw [if_pos hcrowd, if_pos hlimited, List.append_nil]
      · have hlimited : ¬ e.limited service = true :=
          fun h => hcrowd ((e.limited_iff service).mp h).2
        rw [if_neg hcrowd, if_neg hlimited]

variable {service : Service} {e : Exchange σ} {turn : Server σ → Turn σ}
  {made : Server σ → List Call}

/-- A frame that is not answered with success leaves the login alone, and gets no further than its
code tells. -/
theorem Course.refused (h : e.Course service turn made)
    (hno : (turn e.server).response.isSuccess = false) : e.Refused service (turn e.server) := by
  obtain ⟨hpeer, hkept⟩ := e.received_login service
  cases h with
  | stopped id? r password desktop =>
    have hcode : some r.code ≠ some "AuthError" := fun heq => password (Option.some.inj heq)
    exact ⟨hkept, fun hunread => ⟨received_of_unread hunread, rfl⟩, (if_neg hcode).symm,
      fun _ => rfl⟩
  | call c made hc hnew hr =>
    obtain ⟨hanswer, hsession, hserver⟩ := Dispatch.call_eq
      (service.withAccounts e.visit.accounts) e.visit.moment c.id made (e.received service) e.server
    obtain ⟨-, hcode⟩ := hanswer.resolve_left (by rw [hno]; decide)
    refine ⟨(congrArg Session.context? hsession).trans hkept,
      fun hunread => absurd hunread (newId?_ne_none service hc hnew), ?_,
      fun hne => absurd hcode hne⟩
    rw [hcode, if_neg (by decide), hserver]
  | login c credentials hc hnew hr =>
    cases hwho : e.visit.accounts.identify credentials.username credentials.password with
    | some who =>
      obtain ⟨hresponse, -⟩ := Dispatch.login_of_some (service.withAccounts e.visit.accounts)
        e.visit.moment c.id (e.received service) e.server hwho
      rw [hresponse] at hno
      contradiction
    | none =>
      obtain ⟨hresponse, hsession, hserver⟩ := Dispatch.login_of_none
        (service.withAccounts e.visit.accounts) e.visit.moment c.id (e.received service) e.server
        hwho
      refine ⟨(congrArg Session.context? hsession).trans hkept,
        fun hunread => absurd hunread (newId?_ne_none service hc hnew), ?_, fun _ => by rw [hserver]⟩
      rw [hserver, hpeer]
      exact (if_pos (congrArg Response.errorCode? hresponse)).symm

/-- A frame that is answered with success carries out its request. -/
theorem Course.granted (h : e.Course service turn made)
    (hyes : (turn e.server).response.isSuccess = true) : e.Granted service (turn e.server) := by
  obtain ⟨hpeer, hkept⟩ := e.received_login service
  cases h with
  | stopped id? r => contradiction
  | call c made hc hnew hr =>
    obtain ⟨-, hsession, hserver⟩ := Dispatch.call_eq
      (service.withAccounts e.visit.accounts) e.visit.moment c.id made (e.received service) e.server
    refine .call made hr ((congrArg Session.context? hsession).trans hkept) ?_
    rw [hserver]
  | login c credentials hc hnew hr =>
    cases hwho : e.visit.accounts.identify credentials.username credentials.password with
    | some who =>
      obtain ⟨hresponse, hsession, hserver⟩ := Dispatch.login_of_some
        (service.withAccounts e.visit.accounts) e.visit.moment c.id (e.received service) e.server
        hwho
      rw [hpeer] at hresponse hsession hserver
      exact .login credentials who hr hwho (congrArg Session.context? hsession)
        (congrArg Response.data? hresponse) (congrArg Server.failures hserver)
        (Dispatch.login_desktop ..)
    | none =>
      obtain ⟨hresponse, -⟩ := Dispatch.login_of_none (service.withAccounts e.visit.accounts)
        e.visit.moment c.id (e.received service) e.server hwho
      rw [hresponse] at hyes
      contradiction

/-- What has become of the desktop is the work of the calls, of which there is at most one. -/
theorem Course.calls (h : e.Course service turn made) :
    made e.server = [] ∧ (turn e.server).server.desktop = e.server.desktop ∨
    ∃ call, made e.server = [call] ∧ e.request? = some (.desktop call) ∧
      (turn e.server).server.desktop = (e.server.desktop.perform call).2 ∧
      ((turn e.server).response.isSuccess = true ∨
        (turn e.server).response.errorCode? = some "FacadeError") := by
  cases h with
  | stopped id? r => exact .inl ⟨rfl, rfl⟩
  | login c credentials hc hnew hr => exact .inl ⟨rfl, Dispatch.login_desktop ..⟩
  | call c call hc hnew hr =>
    obtain ⟨hanswer, -, hserver⟩ := Dispatch.call_eq
      (service.withAccounts e.visit.accounts) e.visit.moment c.id call (e.received service) e.server
    rw [hserver]
    by_cases hp : e.server.desktop.poisoned = true
    · -- The call stops at the guard.
      refine .inl ⟨if_pos hp, ?_⟩
      rw [Guarded.perform_of_poisoned call hp]
    · exact .inr ⟨call, if_neg hp, hr, rfl, hanswer.imp_right And.right⟩

/-- What a frame leaves behind, whatever it is and whatever it finds. A frame that is refused
leaves the login alone. If it is no command, or a repeated one, it is counted and nothing else
changes. If it is refused for the rate, its identifier enters the window; if it is refused for
anything else, its instant does as well. The failures on record change only for a wrong password,
by one of the address that it came from. A frame that is answered with success opens a login if it
asks for one, and otherwise leaves the login alone. The desktop changes only by a call, which comes
with success or with an error of the desktop. -/
theorem effects (service : Service) (e : Exchange σ) :
    let turn := e.turn service
    let made := e.calls service
    e.Counts service ∧
    (turn.response.isSuccess = false → e.Refused service turn) ∧
    (turn.response.isSuccess = true → e.Granted service turn) ∧
    (turn.server.desktop ≠ e.server.desktop → made ≠ []) ∧
    (made ≠ [] → ∃ call, made = [call] ∧ e.request? = some (.desktop call) ∧
      turn.server.desktop = (e.server.desktop.perform call).2 ∧
      (turn.response.isSuccess = true ∨ turn.response.errorCode? = some "FacadeError")) := by
  intro turn made
  have hcourse := e.course service
  refine ⟨e.counts service, hcourse.refused, hcourse.granted, ?_, ?_⟩
  · intro hchanged hnone
    rcases hcourse.calls with ⟨-, hsame⟩ | ⟨call, hmade, -⟩
    · exact hchanged hsame
    · exact List.cons_ne_nil _ _ (hmade.symm.trans hnone)
  · intro hmade
    rcases hcourse.calls with ⟨hnone, -⟩ | hcall
    · exact absurd hnone hmade
    · exact hcall

end Exchange

end RemoteDesk
