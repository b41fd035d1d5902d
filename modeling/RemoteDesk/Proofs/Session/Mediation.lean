import RemoteDesk.Desktop.Recording
import RemoteDesk.Proofs.Session.Course
import RemoteDesk.Proofs.Time.Limit

/-!
No call without a login. What a session knows about its client is what its latest login told the
client, so that whatever reaches the desktop was sent in time, under the right token or none, and
with the permission that it needs. Logins that failed since, and tokens of other logins, count for
nothing.
-/
namespace RemoteDesk

open Json Desktop

variable {σ : Type} [Backend σ] {service : Service} {past : List (Exchange σ)} {e : Exchange σ}
  {context : Auth.Context}

namespace Exchange

/-- A login: a command to log in that was answered with success. -/
structure IsLogin (service : Service) (e : Exchange σ) : Prop where
  asked : ∃ c, e.command? = some c ∧ c.kind? = some .authenticate
  granted : (e.turn service).response.isSuccess = true

/-- A context is what a login told its client. -/
structure Grants (service : Service) (login : Exchange σ) (context : Auth.Context) : Prop where
  told : (login.turn service).response.data? = some (Dispatch.loginData context)
  expires : context.expiresAt = login.visit.moment.settled.after service.auth.tokenTtl

/-- A frame is a login that grants the session its context, or leaves the context alone. -/
theorem turn_context (service : Service) (e : Exchange σ) :
    (e.IsLogin service ∧ ∃ context, (e.turn service).session.context? = some context ∧
      e.Grants service context) ∨
    (¬ e.IsLogin service ∧ (e.turn service).session.context? = e.session.context?) := by
  have hkept := (e.received_login service).2
  have hcourse := e.course service
  generalize hturn : (fun server => (e.withServer server).turn service) = turn,
    (fun server => (e.withServer server).calls service) = made at hcourse
  have ht : e.turn service = turn e.server := congrFun hturn e.server
  rw [ht]
  cases hcourse with
  | stopped id? r =>
    refine .inr ⟨?_, hkept⟩
    rintro ⟨-, hs⟩
    rw [ht] at hs
    contradiction
  | call c made hc hnew hr =>
    refine .inr ⟨?_, (congrArg Session.context? (Dispatch.call_eq ..).2.1).trans hkept⟩
    rintro ⟨⟨c', hc', hk⟩, -⟩
    obtain rfl : c = c' := Option.some.inj (hc.symm.trans hc')
    exact made.kind_ne_authenticate (Option.some.inj ((kind?_of_request? hc hr).symm.trans hk))
  | login c credentials hc hnew hr =>
    cases hwho : e.visit.accounts.identify credentials.username credentials.password with
    | some who =>
      obtain ⟨hresponse, hsession, -⟩ := Dispatch.login_of_some
        (service.withAccounts e.visit.accounts) e.visit.moment c.id (e.received service) e.server
        hwho
      refine .inl ⟨⟨⟨c, hc, kind?_of_request? hc hr⟩, ?_⟩, _, congrArg Session.context? hsession,
        ?_, rfl⟩
      · rw [ht]
        exact congrArg Response.isSuccess hresponse
      · rw [ht]
        exact congrArg Response.data? hresponse
    | none =>
      obtain ⟨hresponse, hsession, -⟩ := Dispatch.login_of_none
        (service.withAccounts e.visit.accounts) e.visit.moment c.id (e.received service) e.server
        hwho
      refine .inr ⟨?_, (congrArg Session.context? hsession).trans hkept⟩
      rintro ⟨-, hs⟩
      rw [ht] at hs
      exact Bool.false_ne_true ((congrArg Response.isSuccess hresponse).symm.trans hs)

end Exchange

/-! ### What a session knows -/

namespace Dispatch

theorem loginData_eq (context : Auth.Context) :
    loginData context = [("expires_at", .str context.expiresAt.secondsText),
      ("permissions", .arr (context.permissions.names.map .str)),
      ("token", .str context.token)] := by
  have h₁ : "expires_at" < "permissions" := by decide
  have h₂ : ¬ "token" < "permissions" := by decide
  have h₃ : ¬ "token" < "expires_at" := by decide
  have h₄ : ¬ "token" = "permissions" := by decide
  simp [loginData, Members.ofList, Members.ofReversed, Members.insertNew, h₁, h₂, h₃, h₄]

variable {m : Moment} {frame : Members} {session : Session} {server : Server σ} {c : Command}
  {call : Call}

theorem mem_calls (h : call ∈ calls service m frame session server) :
    Check.early.findSome? (fault service m frame session server) = none ∧
      request? frame = some (.desktop call) := by
  rw [calls_eq] at h
  split at h
  · rename_i made hearly hr
    have hmade : call = made := by
      by_cases hp : server.desktop.poisoned = true
      · rw [if_pos hp] at h
        contradiction
      · rw [if_neg hp] at h
        exact List.mem_singleton.mp h
    rw [hmade]
    exact ⟨hearly, hr⟩
  · contradiction

/-- What the checks of the sender say about a session that passes them. -/
theorem context_of_early (h : Check.early.findSome? (fault service m frame session server) = none)
    (hc : command? frame = some c) (hk : c.kind? = some call.kind) :
    ∃ context, session.context? = some context ∧
      (∀ token, c.token? = some token → token = context.token) ∧ m.now < context.expiresAt ∧
      ∃ p, call.kind.permission? = some p ∧ context.permissions.contains p = true := by
  have hnone := List.findSome?_eq_none_iff.mp h
  have hg : guarded? frame = some c := by
    simp [guarded?, hc, hk, call.kind_ne_authenticate]
  cases hcontext : session.context? with
  | none =>
    have hf := hnone .context (by decide)
    simp [fault, hg, hcontext] at hf
  | some context =>
    refine ⟨context, rfl, ?_, ?_, ?_⟩
    · intro token htoken
      have hf := hnone .token (by decide)
      simpa [fault, hg, hcontext, htoken] using hf
    · have hf := hnone .expiry (by decide)
      exact Time.lt_of_not_le (by simpa [fault, hg, hcontext] using hf)
    · cases hp : call.kind.permission? with
      | none =>
        have hkind := (CommandKind.permission?_eq_none_iff _).mp hp
        exact absurd hkind call.kind_ne_authenticate
      | some p =>
        have hf := hnone .permission (by decide)
        exact ⟨p, rfl, by simpa [fault, hc, hk, hp, hcontext] using hf⟩

end Dispatch

/-- Everybody may log in and look, for an hour. -/
def hourly : Service :=
  ⟨⟨⟨fun username _ => some ⟨username⟩, fun _ => ⟨false, false, true⟩⟩, fun _ => none, .ofSecs 3600⟩, .standard⟩

/-- A command that a session gets at a second of 1970. -/
def commandAt (second : Nat) (id kind : String) (payload : Members) : Visit Recording :=
  let now := Time.ofNanos (second * 1000000000)
  ⟨.ok [("id", .str id), ("payload", .obj payload), ("type", .str kind)],
    ⟨now, now, second * 1000000000, [1, 2, 3], ""⟩, hourly.auth.accounts, fun server => server⟩

def loginVisit : Visit Recording :=
  commandAt 1 "1" "authenticate" [("password", .str "secret"), ("username", .str "ada")]

/-- The exchange of that login. -/
def firstLogin : Exchange Recording := ⟨loginVisit, .new default, ⟨[], .new Recording.standard⟩⟩

def listing : Exchange Recording :=
  ⟨commandAt 3600 "2" "get_displays" [], (firstLogin.turn hourly).session,
    (firstLogin.turn hourly).server⟩

end RemoteDesk
