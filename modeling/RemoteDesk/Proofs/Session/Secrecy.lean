import Mathlib.Data.List.Forall2
import RemoteDesk.Proofs.Session.Answer

/-!
What a client without a login learns about commands, which is nothing. Take two runs whose frames
are the same logins, and otherwise commands that have the same identifiers and tokens but may be of
any kind, known or not, with any payload. As long as the session has no login that the commands
could use, the two runs cannot be told apart by any answer, by the audit log, by the time they take
or by what they leave behind; and neither reaches the desktop.
-/
namespace RemoteDesk

open Json Desktop

/-! ### The time of a response -/

/-- The response with another time. -/
def Response.restamp (stamp : String) (r : Response) : Response := { r with timestamp := stamp }

variable {σ : Type}

/-- The turn with another time in its response. -/
def Turn.restamp (stamp : String) (t : Turn σ) : Turn σ :=
  { t with response := t.response.restamp stamp }

/-- The same moment with another time for the response. -/
def Moment.restamp (stamp : String) (m : Moment) : Moment := { m with stamp }

namespace Dispatch

theorem login_restamp (service : Service) (m : Moment) (stamp id : String) (c : Credentials)
    (session : Session) (server : Server σ) :
    login service (m.restamp stamp) id c session server =
      (login service m id c session server).restamp stamp := by
  unfold login
  simp only [Moment.restamp]
  cases (Auth.Attempt.settle service.auth server.failures
    ⟨session.peer.host, c, m.random⟩ m.settled).result with
  | ok context => rfl
  | error e => rfl

variable [Backend σ]

theorem call_restamp (service : Service) (m : Moment) (stamp id : String) (c : Call)
    (session : Session) (server : Server σ) :
    call service (m.restamp stamp) id c session server =
      (call service m id c session server).restamp stamp := by
  unfold call
  rcases server.desktop.perform c with ⟨e | reply, desktop⟩ <;> rfl

theorem perform_restamp (service : Service) (m : Moment) (stamp id : String) (r : Request)
    (session : Session) (server : Server σ) :
    perform service (m.restamp stamp) id r session server =
      (perform service m id r session server).restamp stamp := by
  cases r with
  | authenticate c => exact login_restamp service m stamp id c session server
  | desktop c => exact call_restamp service m stamp id c session server

theorem handle_restamp (service : Service) (m : Moment) (stamp : String) (c : Command)
    (session : Session) (server : Server σ) :
    handle service (m.restamp stamp) c session server =
      (handle service m c session server).restamp stamp := by
  unfold handle
  cases session.remember c.id service.limits.duplicateWindow with
  | error r => rfl
  | ok session =>
    simp only [Moment.restamp]
    rcases session.letThrough service.limits m.instant with ⟨r | _, session⟩
    · rfl
    · dsimp only
      cases session.authorize c m.now with
      | error r => rfl
      | ok kind =>
        dsimp only
        cases Request.parse kind c.payload with
        | error e => rfl
        | ok request => exact perform_restamp service m stamp c.id request session server

theorem dispatch_of_command {frame : Members} {c : Command} (service : Service) (m : Moment)
    (session : Session) (server : Server σ) (h : Command.ofObject frame = .ok c) :
    dispatch service m frame session server = handle service m c session.count server := by
  rw [dispatch, h]

end Dispatch

/-! ### Locked out -/

/-- There is no login, or it has run out, or the command has the token of another one. -/
def lockedOut (context? : Option Auth.Context) (token? : Option String) (now : Time) : Bool :=
  match context? with
  | none => true
  | some c => c.isExpired now || token?.any (· ≠ c.token)

theorem validate_of_lockedOut {context? : Option Auth.Context} {token? : Option String}
    {now : Time} (h : lockedOut context? token? now = true) :
    ∃ e, Auth.validate context? token? now = .error e := by
  cases context? with
  | none => exact ⟨.notAuthenticated, rfl⟩
  | some c =>
    rw [Auth.validate]
    by_cases ht : token?.any (· ≠ c.token) = true
    · exact ⟨.unknownToken, if_pos ht⟩
    · have he : c.isExpired now = true := (Bool.or_eq_true_iff.mp h).resolve_right ht
      exact ⟨.tokenExpired, by rw [if_neg ht, if_pos he]⟩

theorem Session.authorize_of_lockedOut {s : Session} {c : Command} {now : Time}
    (hk : c.kind? ≠ some .authenticate) {e : Auth.Error}
    (h : Auth.validate s.context? c.token? now = .error e) :
    s.authorize c now = .error (.auth e) := by
  unfold authorize
  split
  · contradiction
  · rw [h]

namespace Dispatch

variable [Backend σ] {service : Service} {m : Moment} {session : Session} {server : Server σ}
  {c d : Command}

/-- Of a command that is locked out, nothing counts but its identifier and its token. -/
theorem handle_eq_of_lockedOut (hid : c.id = d.id) (htoken : c.token? = d.token?)
    (hc : c.kind? ≠ some .authenticate) (hd : d.kind? ≠ some .authenticate)
    (h : lockedOut session.context? c.token? m.now = true) :
    handle service m c session server = handle service m d session server := by
  obtain ⟨e, he⟩ := validate_of_lockedOut h
  rw [handle_eq, handle_eq, hid]
  by_cases hin : d.id ∈ session.seenIds
  · rw [Session.remember_of_mem _ hin]
  · rw [Session.remember_of_not_mem service.limits.duplicateWindow hin]
    dsimp only
    generalize hs : Session.mk session.peer session.context? session.commands _ _ _ = s
    have hkept : (s.letThrough service.limits m.instant).2.context? = session.context? := by
      rw [Session.letThrough_session, ← hs]
    unfold meter
    rcases hl : s.letThrough service.limits m.instant with ⟨r | _, s'⟩
    · dsimp only
      rw [hid]
    · rw [hl] at hkept
      dsimp only at hkept ⊢
      rw [← hkept] at he
      unfold judge
      rw [Session.authorize_of_lockedOut hc he, Session.authorize_of_lockedOut hd (htoken ▸ he),
        hid]

/-- A command that is locked out does not reach the desktop. -/
theorem calls_of_lockedOut {frame : Members} (h : Command.ofObject frame = .ok c)
    (hlocked : lockedOut session.context? c.token? m.now = true) :
    calls service m frame session server = [] := by
  rw [List.eq_nil_iff_forall_not_mem]
  intro call hcall
  obtain ⟨hearly, hr⟩ := mem_calls hcall
  have hcommand := command?_of_ok h
  obtain ⟨context, hcontext, htoken, htime, -⟩ :=
    context_of_early hearly hcommand (kind?_of_request? hcommand hr)
  rw [hcontext] at hlocked
  rcases Bool.or_eq_true_iff.mp hlocked with hexpired | hother
  · exact absurd (of_decide_eq_true hexpired) (Int.not_le.mpr htime)
  · cases ht : c.token? with
    | none => simp [ht] at hother
    | some token => simp [ht, htoken token ht] at hother

/-- Nor does a login. -/
theorem calls_of_authenticate {frame : Members} (h : Command.ofObject frame = .ok c)
    (hc : c.kind? = some .authenticate) : calls service m frame session server = [] := by
  rw [List.eq_nil_iff_forall_not_mem]
  intro call hcall
  obtain ⟨-, hr⟩ := mem_calls hcall
  have hk := kind?_of_request? (command?_of_ok h) hr
  exact call.kind_ne_authenticate (Option.some.inj (hk.symm.trans hc))

end Dispatch

/-! ### Two runs -/

/-- Both frames are commands: the same login, or two commands that are no logins and have the same
identifier and the same token. -/
def Indistinct (f g : Except ProtocolError Members) : Prop :=
  ∃ ms ns c d, f = .ok ms ∧ g = .ok ns ∧ Command.ofObject ms = .ok c ∧
    Command.ofObject ns = .ok d ∧
    (c.kind? = some .authenticate ∧ c = d ∨
      c.kind? ≠ some .authenticate ∧ d.kind? ≠ some .authenticate ∧ c.id = d.id ∧
        c.token? = d.token?)

/-- Two visits that differ in what their frames ask for, and in the time of the response. -/
structure Visit.Alike (v w : Visit σ) : Prop where
  frame : Indistinct v.frame w.frame
  moment : w.moment = v.moment.restamp w.moment.stamp
  accounts : w.accounts = v.accounts
  meanwhile : w.meanwhile = v.meanwhile

/-- What a client and the audit log get to see of a turn, but for the time of the response. -/
def Turn.seen (t : Turn σ) : Response × List AuditEvent × Duration :=
  (t.response.restamp "", t.events, t.waited)

variable [Backend σ]

/-- The session and the server after a run. -/
def aftermath (service : Service) : List (Visit σ) → Session → Server σ → Session × Server σ
  | [], session, server => (session, server)
  | visit :: visits, session, server =>
    let turn := (Exchange.mk visit session (visit.meanwhile server)).turn service
    aftermath service visits turn.session turn.server

namespace Exchange

/-- The frame is no command, or a login, or a command that is locked out. -/
def barred (e : Exchange σ) : Bool :=
  e.command?.all fun c => c.kind? == some .authenticate ||
    lockedOut e.session.context? c.token? e.visit.moment.now

variable {service : Service} {v w : Visit σ} {session : Session} {server : Server σ}

theorem turn_of_command {e : Exchange σ} {ms : Members} {c : Command} (h : e.visit.frame = .ok ms)
    (hc : Command.ofObject ms = .ok c) :
    e.turn service = Dispatch.handle (service.withAccounts e.visit.accounts) e.visit.moment c
      e.session.count e.server := by
  rw [turn_of_ok service h, Dispatch.dispatch_of_command _ _ _ _ hc]

omit [Backend σ] in
theorem command?_of_command {e : Exchange σ} {ms : Members} {c : Command}
    (h : e.visit.frame = .ok ms) (hc : Command.ofObject ms = .ok c) : e.command? = some c := by
  rw [command?_of_ok h, Dispatch.command?_of_ok hc]

omit [Backend σ] in
/-- A command that is barred and no login is locked out. -/
theorem lockedOut_of_barred {e : Exchange σ} {c : Command} (hb : e.barred = true)
    (hc : e.command? = some c) (hk : c.kind? ≠ some .authenticate) :
    lockedOut e.session.context? c.token? e.visit.moment.now = true := by
  rw [barred, hc] at hb
  simpa [hk] using hb

/-- Alike visits of one session come to the same, but for the time of the response. -/
theorem turn_alike (service : Service) (h : v.Alike w) (server : Server σ)
    (hb : (Exchange.mk v session server).barred = true) :
    let turn := (Exchange.mk v session server).turn service
    let other := (Exchange.mk w session server).turn service
    other.seen = turn.seen ∧ other.session = turn.session ∧ other.server = turn.server := by
  dsimp only
  obtain ⟨ms, ns, c, d, hv, hw, hc, hd, hcase⟩ := h.frame
  rw [turn_of_command (e := ⟨v, session, server⟩) hv hc,
    turn_of_command (e := ⟨w, session, server⟩) hw hd]
  dsimp only
  rw [h.accounts, h.moment, Dispatch.handle_restamp]
  have hsame : Dispatch.handle (service.withAccounts v.accounts) v.moment c session.count server =
      Dispatch.handle (service.withAccounts v.accounts) v.moment d session.count server := by
    rcases hcase with ⟨-, rfl⟩ | ⟨hkc, hkd, hid, htoken⟩
    · rfl
    · have hlocked := lockedOut_of_barred hb (command?_of_command hv hc) hkc
      exact Dispatch.handle_eq_of_lockedOut hid htoken hkc hkd hlocked
  rw [hsame]
  exact ⟨rfl, rfl, rfl⟩

omit [Backend σ] in
/-- If one of two alike visits is barred, so is the other. -/
theorem barred_alike (h : v.Alike w) (hb : (Exchange.mk v session server).barred = true) :
    (Exchange.mk w session server).barred = true := by
  obtain ⟨ms, ns, c, d, hv, hw, hc, hd, hcase⟩ := h.frame
  have hwc : (Exchange.mk w session server).command? = some d := command?_of_command hw hd
  have hnow : w.moment.now = v.moment.now := by rw [h.moment]; rfl
  rw [barred, hwc]
  rcases hcase with ⟨hk, rfl⟩ | ⟨hkc, hkd, hid, htoken⟩
  · simp [hk]
  · have hlocked := lockedOut_of_barred hb (command?_of_command hv hc) hkc
    dsimp only at hlocked
    simp [hnow, ← htoken, hlocked]

/-- A barred command makes no call. -/
theorem calls_of_barred {e : Exchange σ} (hb : e.barred = true) : e.calls service = [] := by
  cases hframe : e.visit.frame with
  | error fault => exact calls_of_error hframe
  | ok ms =>
    rw [calls_of_ok hframe]
    cases hc : Command.ofObject ms with
    | error err =>
      rw [List.eq_nil_iff_forall_not_mem]
      intro call hcall
      obtain ⟨c, hcommand, -⟩ := Option.bind_eq_some_iff.mp (Dispatch.mem_calls hcall).2
      rw [Dispatch.command?, hc] at hcommand
      contradiction
    | ok c =>
      by_cases hk : c.kind? = some .authenticate
      · exact Dispatch.calls_of_authenticate hc hk
      · exact Dispatch.calls_of_lockedOut hc
          (lockedOut_of_barred hb (command?_of_command hframe hc) hk)

end Exchange

/-- An unauthenticated client learns nothing about commands. Take two runs from one session and one
server whose frames are the same logins, and otherwise commands with the same identifiers and
tokens, of whatever kinds and with whatever payloads. If the session never has a login that those
commands could use, the runs give the same responses but for their times, the same events and the
same delays, and leave the same session and the same server; and no frame of either reaches the
desktop. It is enough to know of one run that its commands are barred. -/
theorem runs_indistinguishable (service : Service) (visits others : List (Visit σ))
    (session : Session) (server : Server σ) (alike : List.Forall₂ Visit.Alike visits others)
    (barred : ∀ e ∈ exchanges service visits session server, e.barred = true) :
    let run := exchanges service visits session server
    let other := exchanges service others session server
    run.map (fun e => (e.turn service).seen) = other.map (fun e => (e.turn service).seen) ∧
    aftermath service visits session server = aftermath service others session server ∧
    ∀ e ∈ run ++ other, e.calls service = [] := by
  intro run other
  induction alike generalizing session server with
  | nil => exact ⟨rfl, rfl, fun _ h => absurd h List.not_mem_nil⟩
  | cons h alike ih =>
    rename_i v w visits others
    have hb : (Exchange.mk v session (v.meanwhile server)).barred = true :=
      barred _ List.mem_cons_self
    have hb' : (Exchange.mk w session (v.meanwhile server)).barred = true :=
      Exchange.barred_alike h hb
    obtain ⟨hseen, hsession, hserver⟩ :=
      Exchange.turn_alike service h (v.meanwhile server) hb
    obtain ⟨hmap, hafter, hcalls⟩ := ih _ _ fun e he => barred e (List.mem_cons_of_mem _ he)
    have hother : other = ⟨w, session, v.meanwhile server⟩ :: exchanges service others
        ((Exchange.mk v session (v.meanwhile server)).turn service).session
        ((Exchange.mk v session (v.meanwhile server)).turn service).server := by
      rw [← hsession, ← hserver, ← h.meanwhile]
      rfl
    refine ⟨?_, ?_, ?_⟩
    · rw [hother, List.map_cons, hseen, ← hmap]
      rfl
    · rw [aftermath, aftermath, h.meanwhile]
      rw [hsession, hserver]
      exact hafter
    · intro e he
      rw [hother] at he
      rcases List.mem_append.mp he with he | he
      · rcases List.mem_cons.mp he with rfl | he
        · exact Exchange.calls_of_barred hb
        · exact hcalls e (List.mem_append_left _ he)
      · rcases List.mem_cons.mp he with rfl | he
        · exact Exchange.calls_of_barred hb'
        · exact hcalls e (List.mem_append_right _ he)

/-- A login between two commands; the second one comes after the hour is over. -/
def asking (first last : String) (payload : Members) : List (Visit Recording) :=
  [commandAt 1 "1" first payload,
    commandAt 2 "2" "authenticate" [("password", .str "secret"), ("username", .str "ada")],
    commandAt 7200 "3" last payload]

/-- Commands of known kinds before the login and after it has run out, and made-up ones. -/
theorem runs_indistinguishable_asking :
    let visits := asking "get_displays" "capture_screen" []
    let others := asking "dance" "sing" [("loud", .bool true)]
    let server := firstLogin.server
    let run := exchanges hourly visits (.new default) server
    let other := exchanges hourly others (.new default) server
    List.Forall₂ Visit.Alike visits others ∧ (∀ e ∈ run, e.barred = true) ∧
    run.map (fun e => (e.turn hourly).seen) = other.map (fun e => (e.turn hourly).seen) ∧
    aftermath hourly visits (.new default) server =
      aftermath hourly others (.new default) server ∧
    ∀ e ∈ run ++ other, e.calls hourly = [] := by
  intro visits others server run other
  have alike : List.Forall₂ Visit.Alike visits others := by
    refine .cons ⟨?_, rfl, rfl, rfl⟩ (.cons ⟨?_, rfl, rfl, rfl⟩ (.cons ⟨?_, rfl, rfl, rfl⟩ .nil))
    · exact ⟨_, _, _, _, rfl, rfl, rfl, rfl, .inr ⟨by decide, by decide, rfl, rfl⟩⟩
    · exact ⟨_, _, _, _, rfl, rfl, rfl, rfl, .inl ⟨by decide, rfl⟩⟩
    · exact ⟨_, _, _, _, rfl, rfl, rfl, rfl, .inr ⟨by decide, by decide, rfl, rfl⟩⟩
  have barred : ∀ e ∈ run, e.barred = true := by decide +kernel
  exact ⟨alike, barred,
    runs_indistinguishable hourly visits others (.new default) server alike barred⟩

end RemoteDesk
