import RemoteDesk.Proofs.Session.Audited
import RemoteDesk.Proofs.Session.Rate
import RemoteDesk.Proofs.Time.Deadline

/-!
The lifetime of a login. A login has one deadline, which its client is told to the second, and
commands pass before it and not from it on. Only another login that succeeds gives the session
another deadline, so that a session whose login has run out stays out.
-/
namespace RemoteDesk

open Json Desktop

/-! ### The check of a login -/

namespace Auth

variable {context : Context} {token? : Option String} {now : Time}

/-- A command has the token of a login or none. -/
def Context.Accepts (context : Context) (token? : Option String) : Prop :=
  ∀ token, token? = some token → token = context.token

theorem any_ne_eq_false (h : context.Accepts token?) :
    token?.any (· ≠ context.token) = false := by
  cases token? with
  | none => rfl
  | some token => simpa using h token rfl

/-- With the right token or none, it is the deadline that decides. -/
theorem validate_of_accepts (h : context.Accepts token?) (now : Time) :
    validate (some context) token? now = .ok context ↔ now < context.expiresAt := by
  have hvalidate : validate (some context) token? now =
      if context.isExpired now then .error .tokenExpired else .ok context := by
    rw [validate, any_ne_eq_false h]
    rfl
  rw [hvalidate, Context.isExpired]
  by_cases hend : context.expiresAt ≤ now
  · rw [if_pos (decide_eq_true hend)]
    exact ⟨fun h => by contradiction, fun h => absurd hend (Int.not_le.mpr h)⟩
  · rw [if_neg (by simpa using hend)]
    exact ⟨fun _ => Time.lt_of_not_le hend, fun _ => rfl⟩

/-- From the deadline on, the token does not matter. -/
theorem validate_of_le (h : context.expiresAt ≤ now) (token? : Option String) :
    ∃ e, validate (some context) token? now = .error e ∧ e.code = "Unauthenticated" := by
  rw [validate]
  by_cases ht : token?.any (· ≠ context.token) = true
  · exact ⟨.unknownToken, if_pos ht, rfl⟩
  · exact ⟨.tokenExpired, by rw [if_neg ht]; exact if_pos (decide_eq_true h), rfl⟩

end Auth

namespace Dispatch

variable {σ : Type} [Backend σ] {service : Service} {m : Moment} {frame : Members}
  {session : Session} {server : Server σ} {c : Command}

/-- Only the checks of the login have its code. -/
theorem mem_login_of_code {check : Check} (h : check.code = "Unauthenticated") :
    check ∈ Check.login := by
  revert h
  cases check <;> decide

/-- A command that gets as far as the check of the login is answered with what that finds. -/
theorem code_unauthenticated_iff (hg : guarded? frame = some c)
    (hbefore : [Check.envelope, .fresh, .rate].findSome?
      (fault service m frame session server) = none) :
    (dispatch service m frame session server).response.errorCode? = some "Unauthenticated" ↔
      ∃ e, Auth.validate session.context? c.token? m.now = .error e ∧
        e.code = "Unauthenticated" := by
  have hall : Check.all = [.envelope, .fresh, .rate] ++ (Check.login ++
      [.kind, .permission, .payload, .password, .desktop]) := rfl
  have hv := validate_eq service m session server hg
  rw [errorCode?_eq, hall, List.findSome?_append, hbefore, Option.none_or, List.findSome?_append]
  cases hfound : Check.login.findSome? (fault service m frame session server) with
  | some r =>
    rw [hfound] at hv
    obtain ⟨e, rfl, he⟩ := hv
    rw [he]
    constructor
    · exact fun hcode => ⟨e, rfl, Option.some.inj hcode⟩
    · rintro ⟨e', he', hcode⟩
      obtain rfl := Except.error.inj he'
      exact congrArg some hcode
  | none =>
    rw [hfound] at hv
    obtain ⟨context, -, hok⟩ := hv
    rw [hok, Option.none_or]
    constructor
    · intro hcode
      obtain ⟨r, hr, hcode⟩ := Option.map_eq_some_iff.mp hcode
      obtain ⟨check, hmem, hcheck⟩ := List.exists_of_findSome?_eq_some hr
      rw [code_of_fault hcheck] at hcode
      rw [List.findSome?_eq_none_iff.mp hfound check (mem_login_of_code hcode)] at hcheck
      contradiction
    · rintro ⟨e, he, -⟩
      contradiction

/-- The answer to a command whose login has run out. -/
def expiredText : String := "Unauthenticated: token expired"

/-- A command is answered so only if the deadline has come. -/
theorem expired_of_error
    (hcode : (dispatch service m frame session server).response.errorCode? =
      some "Unauthenticated")
    (htext : (dispatch service m frame session server).response.error? = some expiredText) :
    ∃ context, session.context? = some context ∧ context.expiresAt ≤ m.now := by
  obtain ⟨hcodes, htexts⟩ := error_eq service m frame session server
  rw [hcodes] at hcode
  rw [htexts] at htext
  obtain ⟨r, hr, hcode⟩ := Option.map_eq_some_iff.mp hcode
  rw [hr] at htext
  obtain ⟨check, -, hcheck⟩ := List.exists_of_findSome?_eq_some hr
  have hmem := mem_login_of_code ((code_of_fault hcheck).symm.trans hcode)
  have htext : refusalText r = expiredText := Option.some.inj htext
  cases check with
  | context =>
    obtain ⟨c, -, hcheck⟩ := Option.bind_eq_some_iff.mp hcheck
    obtain ⟨-, hr⟩ := Option.ite_none_right_eq_some.mp hcheck
    rw [← Option.some.inj hr] at hcode
    exact absurd hcode (by decide)
  | token =>
    obtain ⟨c, -, hcheck⟩ := Option.bind_eq_some_iff.mp hcheck
    obtain ⟨context, -, hcheck⟩ := Option.bind_eq_some_iff.mp hcheck
    obtain ⟨token, -, hcheck⟩ := Option.bind_eq_some_iff.mp hcheck
    obtain ⟨-, hr⟩ := Option.ite_none_right_eq_some.mp hcheck
    rw [← Option.some.inj hr] at htext
    exact absurd htext (by decide)
  | expiry =>
    obtain ⟨c, -, hcheck⟩ := Option.bind_eq_some_iff.mp hcheck
    obtain ⟨context, hcontext, hcheck⟩ := Option.bind_eq_some_iff.mp hcheck
    exact ⟨context, hcontext, (Option.ite_none_right_eq_some.mp hcheck).1⟩
  | _ => exact absurd hmem (by decide)

end Dispatch

variable {σ : Type} [Backend σ] {service : Service} {e : Exchange σ}

namespace Exchange

/-- The frame is refused because the login has run out. -/
structure IsExpired (service : Service) (e : Exchange σ) : Prop where
  code : (e.turn service).response.errorCode? = some "Unauthenticated"
  text : (e.turn service).response.error? = some Dispatch.expiredText

theorem IsExpired.context (h : e.IsExpired service) :
    ∃ context, e.session.context? = some context ∧ context.expiresAt ≤ e.visit.moment.now := by
  obtain ⟨hcode, htext⟩ := h
  cases hframe : e.visit.frame with
  | error fault =>
    have hprotocol : "ProtocolError" = "Unauthenticated" := by
      rw [turn, hframe] at hcode
      exact Option.some.inj hcode
    exact absurd hprotocol (by decide)
  | ok frame =>
    rw [turn_of_ok service hframe] at hcode htext
    exact Dispatch.expired_of_error hcode htext

theorem IsExpired.not_isLogin (h : e.IsExpired service) : ¬ e.IsLogin service := by
  rintro ⟨-, hsuccess⟩
  have hcode := h.code
  cases hframe : e.visit.frame with
  | error fault =>
    rw [turn, hframe] at hsuccess
    contradiction
  | ok frame =>
    rw [turn_of_ok service hframe] at hcode hsuccess
    obtain ⟨id, data, hresponse⟩ := Dispatch.success_of_isSuccess hsuccess
    rw [hresponse] at hcode
    contradiction

/-- A frame that is refused for its login leaves the session its context. -/
theorem IsExpired.turn_context (h : e.IsExpired service) :
    ∃ context, (e.turn service).session.context? = some context ∧
      context.expiresAt ≤ e.visit.moment.now := by
  rcases e.turn_context service with ⟨hlogin, -⟩ | ⟨-, hsame⟩
  · exact absurd hlogin h.not_isLogin
  · rw [hsame]
    exact h.context

/-- A new command for which there is room gets as far as the check of the login. -/
theorem before_of_admitted {frame : Members} {c : Command} (hframe : e.visit.frame = .ok frame)
    (hc : Command.ofObject frame = .ok c) (h : e.admitted service = true) :
    [Check.envelope, .fresh, .rate].findSome? (Dispatch.fault
      (service.withAccounts e.visit.accounts) e.visit.moment frame e.session e.server) = none := by
  obtain ⟨hfresh, hroom⟩ := Bool.and_eq_true_iff.mp h
  have hroom : e.limited service = false := by simpa using hroom
  obtain ⟨c', hc', hnew⟩ := fresh_iff.mp hfresh
  obtain rfl : c = c' :=
    Option.some.inj ((Dispatch.command?_of_ok hc).symm.trans ((command?_of_ok hframe) ▸ hc'))
  have hcrowd : ¬ e.crowded service := fun hcrowd => by
    rw [(e.limited_iff service).mpr ⟨hfresh, hcrowd⟩] at hroom
    contradiction
  have hrate : Dispatch.fault (service.withAccounts e.visit.accounts) e.visit.moment frame
      e.session e.server .rate = none := if_neg hcrowd
  refine List.findSome?_eq_none_iff.mpr fun check hmem => ?_
  cases check with
  | envelope => rw [Dispatch.fault, hc]
  | fresh => rw [Dispatch.fault_fresh hc, if_neg hnew]
  | rate => exact hrate
  | _ => exact absurd hmem (by decide)

/-- Commands that get as far as the check of the login are answered with what that finds. -/
theorem code_unauthenticated_iff {c : Command} (hc : e.command? = some c)
    (hkind : c.kind? ≠ some .authenticate) (h : e.admitted service = true) :
    (e.turn service).response.errorCode? = some "Unauthenticated" ↔
      ∃ error, Auth.validate e.session.context? c.token? e.visit.moment.now = .error error ∧
        error.code = "Unauthenticated" := by
  cases hframe : e.visit.frame with
  | error fault =>
    rw [command?, hframe] at hc
    contradiction
  | ok frame =>
    rw [command?_of_ok hframe] at hc
    have hobject := Dispatch.ofObject_of_command? hc
    have hguarded : Dispatch.guarded? frame = some c := by
      rw [Dispatch.guarded?_of_ok hobject, if_neg hkind]
    rw [turn_of_ok service hframe]
    exact Dispatch.code_unauthenticated_iff hguarded (before_of_admitted hframe hobject h)

end Exchange

/-! ### Runs -/

/-- Until the next login, a session has the context that a frame left it. -/
theorem context_of_no_login {session : Session} {server : Server σ} {visits : List (Visit σ)}
    {past between rest : List (Exchange σ)} {later : Exchange σ}
    (h : exchanges service visits session server = past ++ e :: (between ++ later :: rest))
    (hno : ∀ other ∈ between, ¬ other.IsLogin service) :
    later.session.context? = (e.turn service).session.context? := by
  let Kept (all : List (Exchange σ)) (s : Session) : Prop :=
    ∀ past e between, all = past ++ e :: between → (∀ other ∈ between, ¬ other.IsLogin service) →
      s.context? = (e.turn service).session.context?
  have start : Kept [] session := fun past e between h _ => by simp at h
  have step : ∀ all next, Kept all next.session →
      Kept (all ++ [next]) (next.turn service).session := by
    intro all next hkept past e between h hno
    rcases List.eq_nil_or_concat between with rfl | ⟨between, last, rfl⟩
    · obtain ⟨-, hlast⟩ := List.append_inj' h rfl
      rw [(List.cons.inj hlast).1]
    · rw [List.concat_eq_append] at h hno
      rw [← List.cons_append, ← List.append_assoc] at h
      obtain ⟨hall, hlast⟩ := List.append_inj' h rfl
      obtain rfl : next = last := (List.cons.inj hlast).1
      rcases next.turn_context service with ⟨hlogin, -⟩ | ⟨-, hsame⟩
      · exact absurd hlogin (hno next (by simp))
      · rw [hsame]
        exact hkept past e between hall fun other hmem => hno other (List.mem_append_left _ hmem)
  have hsplit : exchanges service visits session server =
      (past ++ e :: between) ++ later :: rest := by
    rw [h, List.append_assoc, List.cons_append]
  exact exchanges_invariant (P := Kept) step visits start hsplit past e between rfl hno

omit [Backend σ] in
theorem le_of_ordered {past between rest : List (Exchange σ)} {later : Exchange σ}
    (h : ((past ++ e :: (between ++ later :: rest)).map (·.visit.moment.now)).Pairwise (· ≤ ·)) :
    e.visit.moment.now ≤ later.visit.moment.now := by
  rw [List.map_append, List.map_cons] at h
  exact (List.pairwise_cons.mp (List.pairwise_append.mp h).2.1).1 _
    (List.mem_map_of_mem (List.mem_append_right _ List.mem_cons_self))

/-- What a login is good for. -/
structure Exchange.Lasts (service : Service) (login : Exchange σ) (context : Auth.Context) :
    Prop where
  /-- The deadline is the lifetime after the login, or the last point in time. For lifetimes of less
  than a second it takes a clock that is not beyond that point. -/
  deadline : login.visit.moment.settled ≤ Time.last ∨ 1000000000 ≤ service.auth.tokenTtl.toNanos →
    context.expiresAt =
      (login.visit.moment.settled.plus service.auth.tokenTtl).earlier Time.last
  /-- A lifetime in whole seconds is added to the seconds. -/
  seconds : ∀ n, service.auth.tokenTtl = .ofSecs n → login.visit.moment.settled.isLeap = false →
    ∃ h, context.expiresAt = Time.earlier ⟨login.visit.moment.settled.secs + n.toNat,
      login.visit.moment.settled.nanos, h⟩ Time.last
  /-- Without a lifetime, a login within a leap second ends at once, wherever that is. -/
  atOnce : service.auth.tokenTtl = .ofSecs 0 → login.visit.moment.settled.isLeap = true →
    context.expiresAt = login.visit.moment.settled
  /-- With the token of the login or none, commands pass exactly before the deadline. -/
  valid : ∀ token?, context.Accepts token? → ∀ now,
    Auth.validate (some context) token? now = .ok context ↔ now < context.expiresAt
  /-- The client is told the deadline to the second. -/
  told : ∃ data, (login.turn service).response.data? = some data ∧
    data.get? "expires_at" = some (.str context.expiresAt.secondsText)
  /-- What it is told is less than a second too early, and never too late. For lifetimes of less
  than a second it takes a clock that has leap seconds at the ends of minutes only. -/
  readBack : login.visit.moment.settled.EndsMinute ∨
      1000000000 ≤ service.auth.tokenTtl.toNanos →
    ∃ read, Time.parse context.expiresAt.secondsText = some read ∧ read ≤ context.expiresAt ∧
      context.expiresAt.since read < 1000000000

theorem Exchange.Grants.lasts {login : Exchange σ} {context : Auth.Context}
    (h : login.Grants service context) : login.Lasts service context where
  deadline hclock := h.expires.trans (Time.after_eq hclock)
  seconds n hn hleap := by
    rw [h.expires, hn, Time.after_ofSecs hleap]
    exact ⟨_, rfl⟩
  atOnce hnone hleap := by rw [h.expires, hnone, Time.after_ofSecs_zero hleap]
  valid _ haccepts now := Auth.validate_of_accepts haccepts now
  told := ⟨_, h.told, by rw [Dispatch.loginData_eq]; rfl⟩
  readBack hclock := by
    rw [h.expires]
    exact Time.parse_after hclock

/-- A login is valid for exactly its lifetime, and a session whose login has run out is out for
good. Whatever the lifetime is and whenever the login is, the session has a context with a deadline,
which is that much later or the last point in time, and the client is told the second that it lies
in. Until the next login the session keeps that context, and its commands with the right token or
none pass the check of the login exactly if they come before the deadline. Once a command has been
refused because the deadline had come, every later one that gets as far as that check is refused,
until a login succeeds; logins that fail do not help. -/
theorem login_lasts (service : Service) (session : Session) (server : Server σ)
    (visits : List (Visit σ)) (ordered : (visits.map (·.moment.now)).Pairwise (· ≤ ·))
    (past : List (Exchange σ)) (e : Exchange σ) (future : List (Exchange σ))
    (h : exchanges service visits session server = past ++ e :: future) :
    (e.IsLogin service →
      ∃ context, (e.turn service).session.context? = some context ∧ e.Lasts service context ∧
        ∀ between later rest, future = between ++ later :: rest →
          (∀ other ∈ between, ¬ other.IsLogin service) →
          later.session.context? = some context ∧
          ∀ c, later.command? = some c → c.kind? ≠ some .authenticate →
            later.admitted service = true → context.Accepts c.token? →
            ((later.turn service).response.errorCode? = some "Unauthenticated" ↔
              context.expiresAt ≤ later.visit.moment.now)) ∧
    (e.IsExpired service → ∀ between later rest,
      future = between ++ later :: rest → (∀ other ∈ between, ¬ other.IsLogin service) →
      ∀ c, later.command? = some c → c.kind? ≠ some .authenticate →
        later.admitted service = true →
        (later.turn service).response.errorCode? = some "Unauthenticated") := by
  constructor
  · intro hlogin
    rcases e.turn_context service with ⟨-, context, hcontext, hgrants⟩ | ⟨hno, -⟩
    · refine ⟨context, hcontext, hgrants.lasts, ?_⟩
      rintro between later rest rfl hbetween
      have hkept := (context_of_no_login h hbetween).trans hcontext
      refine ⟨hkept, fun c hc hkind hadmitted haccepts => ?_⟩
      rw [Exchange.code_unauthenticated_iff hc hkind hadmitted, hkept]
      constructor
      · rintro ⟨error, herror, -⟩
        apply Classical.byContradiction
        intro hlt
        rw [(Auth.validate_of_accepts haccepts _).mpr (Time.lt_of_not_le hlt)] at herror
        contradiction
      · exact fun hle => Auth.validate_of_le hle c.token?
    · exact absurd hlogin hno
  · rintro hexpired between later rest rfl hbetween c hc hkind hadmitted
    obtain ⟨context, hcontext, hend⟩ := hexpired.turn_context
    rw [← exchanges_visits service visits session server, h, List.map_map] at ordered
    have hlater : context.expiresAt ≤ later.visit.moment.now :=
      Time.le_trans hend (le_of_ordered ordered)
    rw [Exchange.code_unauthenticated_iff hc hkind hadmitted,
      (context_of_no_login h hbetween).trans hcontext]
    exact Auth.validate_of_le hlater c.token?

/-- What a frame finds that follows another. -/
def Exchange.followedBy (e : Exchange Recording) (visit : Visit Recording) : Exchange Recording :=
  ⟨visit, (e.turn hourly).session, (e.turn hourly).server⟩

/-- A listing when the hour is over. -/
def overdue : Exchange Recording := firstLogin.followedBy (commandAt 3601 "2" "get_displays" [])

/-- Another login, with a password that is no longer right. -/
def refusedLogin : Exchange Recording :=
  overdue.followedBy { commandAt 3602 "3" "authenticate"
      [("password", .str "secret"), ("username", .str "ada")] with
    accounts := ⟨fun _ _ => none, hourly.auth.accounts.permissions⟩ }

def lastListing : Exchange Recording :=
  refusedLogin.followedBy (commandAt 3603 "4" "get_displays" [])

/-- An hour's login, overrun: it does not help that somebody tries to log in again. -/
theorem login_lasts_overrun :
    let visits := [firstLogin.visit, overdue.visit, refusedLogin.visit, lastListing.visit]
    (visits.map (·.moment.now)).Pairwise (· ≤ ·) ∧
    exchanges hourly visits (.new default) firstLogin.server =
      [firstLogin, overdue, refusedLogin, lastListing] ∧
    firstLogin.IsLogin hourly ∧ 1000000000 ≤ hourly.auth.tokenTtl.toNanos ∧
    (∃ context, (firstLogin.turn hourly).session.context? = some context ∧
      firstLogin.Lasts hourly context ∧ overdue.session.context? = some context) ∧
    overdue.IsExpired hourly ∧ ¬ refusedLogin.IsLogin hourly ∧
    (lastListing.turn hourly).response.errorCode? = some "Unauthenticated" := by
  intro visits
  have hordered : (visits.map (·.moment.now)).Pairwise (· ≤ ·) := by decide +kernel
  have hrun : exchanges hourly visits (.new default) firstLogin.server =
      [firstLogin, overdue, refusedLogin, lastListing] := rfl
  have hlogin : firstLogin.IsLogin hourly := ⟨⟨_, rfl, rfl⟩, by decide +kernel⟩
  have hlong : 1000000000 ≤ hourly.auth.tokenTtl.toNanos := by decide +kernel
  have hexpired : overdue.IsExpired hourly := ⟨by decide +kernel, by decide +kernel⟩
  have hrefused : ¬ refusedLogin.IsLogin hourly := fun h =>
    absurd h.granted (by decide +kernel)
  obtain ⟨context, hcontext, hlasts, hlater⟩ := (login_lasts hourly (.new default)
    firstLogin.server visits hordered [] firstLogin [overdue, refusedLogin, lastListing] hrun).1
    hlogin
  have hfirst : overdue.session.context? = some context :=
    (hlater [] overdue [refusedLogin, lastListing] rfl (by simp)).1
  have hlast := (login_lasts hourly (.new default) firstLogin.server visits hordered [firstLogin]
    overdue [refusedLogin, lastListing] hrun).2 hexpired [refusedLogin] lastListing [] rfl
    (by simpa using hrefused) _ rfl (by decide +kernel) (by decide +kernel)
  exact ⟨hordered, hrun, hlogin, hlong, ⟨context, hcontext, hlasts, hfirst⟩, hexpired, hrefused,
    hlast⟩

/-- The first login, at another time. -/
def loginAt (t : Time) : Exchange Recording :=
  { firstLogin with visit := { loginVisit with moment := ⟨t, t, 0, [1, 2, 3], ""⟩ } }

/-- Logins without a lifetime. -/
def momentary : Service := { hourly with auth := { hourly.auth with tokenTtl := .ofSecs 0 } }

/-- Half of a leap second beyond the last point in time. -/
def beyondLast : Time := ⟨Time.last.secs, Time.last.nanos + 500000001, by decide⟩

/-- Half of a leap second amid the first minute. -/
def amidMinute : Time := { beyondLast with secs := 29 }

/-- Without a lifetime, a login beyond the last point in time has a deadline beyond it as well; and
the client of a login amid a minute's leap second is told the second that comes after it. -/
theorem login_beyond_last :
    (loginAt beyondLast).IsLogin momentary ∧ (loginAt amidMinute).IsLogin momentary ∧
    (((loginAt beyondLast).turn momentary).session.context?).map (·.expiresAt) = some beyondLast ∧
    (beyondLast.plus momentary.auth.tokenTtl).earlier Time.last = Time.last ∧
    Time.last < beyondLast ∧
    (((loginAt amidMinute).turn momentary).session.context?).map (·.expiresAt) = some amidMinute ∧
    ∃ read, Time.parse amidMinute.secondsText = some read ∧ ¬ read ≤ amidMinute :=
  ⟨⟨⟨_, rfl, rfl⟩, by decide +kernel⟩, ⟨⟨_, rfl, rfl⟩, by decide +kernel⟩, by decide +kernel,
    by decide +kernel, by decide +kernel, by decide +kernel,
    ⟨⟨30, 0, by decide⟩, by decide +kernel, by decide⟩⟩

end RemoteDesk
