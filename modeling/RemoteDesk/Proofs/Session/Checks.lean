import Mathlib.Data.List.DropRight
import RemoteDesk.Proofs.Command.Reading
import RemoteDesk.Proofs.Session.Traced

/-!
The checks of a frame. Each is stated by itself, on the session as it was before the frame, so
that what it finds does not depend on the checks before it. A session lets a command run exactly
if the checks of its sender, which are five, find nothing.
-/
namespace RemoteDesk

open Json Desktop

/-- What a frame must pass, in order. -/
inductive Check where
  /-- The frame is a command. -/
  | envelope
  /-- Its identifier is not remembered. -/
  | fresh
  /-- There are not too many commands in the window. -/
  | rate
  /-- There has been a login, unless the command is one. -/
  | context
  /-- The token, if there is one, is that of the login. -/
  | token
  /-- The login has not run out. -/
  | expiry
  /-- The kind is known. -/
  | kind
  /-- The login has the permission that the kind needs. -/
  | permission
  /-- The payload suits the kind. -/
  | payload
  /-- The password of a login is right. -/
  | password
  /-- The desktop does what it is asked for. -/
  | desktop
  deriving DecidableEq, Repr

namespace Check

/-- The checks of the login. -/
def login : List Check := [.context, .token, .expiry]

/-- The checks of whoever sends a command. -/
def sender : List Check := login ++ [.kind, .permission]

/-- The checks before anything is asked of the accounts or the desktop. -/
def early : List Check := [.envelope, .fresh, .rate] ++ sender ++ [.payload]

/-- All checks. Of the last two, only one applies to a request. -/
def all : List Check := early ++ [.password, .desktop]

/-- The code in the response to a frame that fails a check. -/
def code : Check → String
  | .envelope | .fresh | .payload => "ProtocolError"
  | .rate => "RateLimited"
  | .context => "Unauthorized"
  | .token | .expiry => "Unauthenticated"
  | .kind => "UnknownCommand"
  | .permission => "Forbidden"
  | .password => "AuthError"
  | .desktop => "FacadeError"

end Check

namespace Session

variable {s : Session}

/-- A new identifier stands last, and the oldest ones make room. -/
theorem remember_of_not_mem {id : String} (window : Nat) (h : id ∉ s.seenIds) :
    s.remember id window = .ok { s with
      recentIds := if window = 0 then s.recentIds else (s.recentIds ++ [id]).rtake window
      seenIds := if window = 0 then s.seenIds
        else id :: s.seenIds.diff (s.recentIds.take (s.recentIds.length + 1 - window)) } := by
  unfold remember
  rw [if_neg (by simpa using h)]
  by_cases hw : window = 0
  · rw [if_pos hw, if_pos hw, if_pos hw]
  · have hle : s.recentIds.length + 1 - window ≤ s.recentIds.length := by omega
    rw [if_neg hw, if_neg hw, if_neg hw, List.rtake, List.length_append, List.length_singleton,
      List.drop_append_of_le_length hle, List.diff_eq_foldl]

theorem remember_of_mem {id : String} (window : Nat) (h : id ∈ s.seenIds) :
    s.remember id window = .error (.protocol (.duplicateId id)) := by
  unfold remember
  rw [if_pos (by simpa using h)]

/-- Letting a command through only changes the instants, which become those in the window, and the
command's own unless it is refused. -/
theorem letThrough_session (limits : Limits) (now : Nat) (s : Session) :
    (s.letThrough limits now).2 = { s with
      recentCommands :=
        if limits.maxCommands = 0 then s.recentCommands
        else
          let recent := (s.expire limits.rateWindow now).recentCommands
          if limits.maxCommands.toNat ≤ recent.length then recent else recent ++ [now] } := by
  unfold letThrough
  by_cases hm : limits.maxCommands = 0
  · rw [if_pos hm, if_pos hm]
  · rw [if_neg hm, if_neg hm]
    dsimp only
    split <;> rfl

theorem letThrough_result (limits : Limits) (now : Nat) :
    (s.letThrough limits now).1 =
      if limits.maxCommands ≠ 0 ∧
          limits.maxCommands.toNat ≤ (s.expire limits.rateWindow now).recentCommands.length
      then .error (.rateLimited limits.maxCommands limits.rateWindow.secs) else .ok () := by
  unfold letThrough
  by_cases hm : limits.maxCommands = 0
  · rw [if_pos hm, if_neg (fun h => h.1 hm)]
  · rw [if_neg hm]
    dsimp only
    by_cases hl :
      limits.maxCommands.toNat ≤ (s.expire limits.rateWindow now).recentCommands.length
    · rw [if_pos hl, if_pos ⟨hm, hl⟩]
    · rw [if_neg hl, if_neg (fun h => hl h.2)]

end Session

namespace Dispatch

/-- The command in a frame. -/
def command? (frame : Members) : Option Command := (Command.ofObject frame).toOption

/-- The request in a frame. -/
def request? (frame : Members) : Option Request := do
  let c ← command? frame
  let kind ← c.kind?
  (Request.parse kind c.payload).toOption

/-- The command in a frame, if it takes a login to run. -/
def guarded? (frame : Members) : Option Command :=
  (command? frame).filter fun c => c.kind? ≠ some .authenticate

variable {σ : Type}

/-- What a check finds wrong with a frame, if anything. -/
def fault [Backend σ] (service : Service) (m : Moment) (frame : Members) (session : Session)
    (server : Server σ) : Check → Option Refusal
  | .envelope => match Command.ofObject frame with
    | .ok _ => none
    | .error e => some (.protocol e)
  | .fresh => do
    let c ← command? frame
    if c.id ∈ session.seenIds then some (.protocol (.duplicateId c.id)) else none
  | .rate =>
    let limits := service.limits
    let recent := (session.expire limits.rateWindow m.instant).recentCommands
    if limits.maxCommands ≠ 0 ∧ limits.maxCommands.toNat ≤ recent.length then
      some (.rateLimited limits.maxCommands limits.rateWindow.secs)
    else none
  | .context => do
    let _ ← guarded? frame
    if session.context? = none then some (.auth .notAuthenticated) else none
  | .token => do
    let c ← guarded? frame
    let context ← session.context?
    let token ← c.token?
    if token ≠ context.token then some (.auth .unknownToken) else none
  | .expiry => do
    let _ ← guarded? frame
    let context ← session.context?
    if context.expiresAt ≤ m.now then some (.auth .tokenExpired) else none
  | .kind => do
    let c ← command? frame
    if c.kind? = none then some (.unknownCommand c.kindName) else none
  | .permission => do
    let c ← command? frame
    let kind ← c.kind?
    let p ← kind.permission?
    let context ← session.context?
    if context.permissions.contains p then none else some (.forbidden context.username kind p)
  | .payload => do
    let c ← command? frame
    let kind ← c.kind?
    match Request.parse kind c.payload with
    | .ok _ => none
    | .error e => some (.protocol e)
  | .password => match request? frame with
    | some (.authenticate c) =>
      if service.auth.accounts.verify c.username c.password then none
      else some (.auth .invalidCredentials)
    | _ => none
  | .desktop => match request? frame with
    | some (.desktop call) => match (server.desktop.perform call).1 with
      | .ok _ => none
      | .error e => some (.desktop e)
    | _ => none

/-! ### What each stage does -/

variable {service : Service} {m : Moment} {frame : Members} {session : Session}
  {server : Server σ} {c : Command}

theorem command?_of_ok (h : Command.ofObject frame = .ok c) : command? frame = some c := by
  rw [command?, h]
  rfl

theorem request?_of_ok {kind : CommandKind} (h : Command.ofObject frame = .ok c)
    (hk : c.kind? = some kind) : request? frame = (Request.parse kind c.payload).toOption := by
  simp [request?, command?_of_ok h, hk]

theorem guarded?_of_ok (h : Command.ofObject frame = .ok c) :
    guarded? frame = if c.kind? = some .authenticate then none else some c := by
  by_cases hk : c.kind? = some .authenticate <;> simp [guarded?, command?_of_ok h, hk]

section Sender

variable [Backend σ]

theorem authorize_congr {s : Session} (h : s.context? = session.context?) (c : Command)
    (now : Time) : s.authorize c now = session.authorize c now := by
  unfold Session.authorize
  rw [h]

/-- Validation finds the fault that the first of the checks of the login finds. -/
theorem validate_eq (service : Service) (m : Moment) (session : Session) (server : Server σ)
    (h : guarded? frame = some c) :
    match Check.login.findSome? (fault service m frame session server) with
    | some r => ∃ e, r = .auth e ∧ Auth.validate session.context? c.token? m.now = .error e
    | none => ∃ context, session.context? = some context ∧
        Auth.validate session.context? c.token? m.now = .ok context := by
  cases hx : session.context? with
  | none => simp [Check.login, fault, h, hx, Auth.validate]
  | some context =>
    cases ht : c.token? with
    | none =>
      by_cases he : context.expiresAt ≤ m.now <;>
        simp [Check.login, fault, h, hx, ht, he, Auth.validate, Auth.Context.isExpired]
    | some token =>
      by_cases hne : token = context.token <;> by_cases he : context.expiresAt ≤ m.now <;>
        simp [Check.login, fault, h, hx, ht, hne, he, Auth.validate, Auth.Context.isExpired]

theorem login_of_authenticate (h : guarded? frame = none) :
    Check.login.findSome? (fault service m frame session server) = none := by
  simp [Check.login, fault, h]

/-- Every command but the login needs a login that is valid, and the permission of its kind. -/
theorem authorize_of_ne_authenticate (h : c.kind? ≠ some .authenticate) (session : Session)
    (now : Time) :
    session.authorize c now =
      match Auth.validate session.context? c.token? now, c.kind? with
      | .error e, _ => .error (.auth e)
      | .ok _, none => .error (.unknownCommand c.kindName)
      | .ok context, some kind =>
        match kind.permission? with
        | none => .ok kind
        | some p =>
          if context.permissions.contains p then .ok kind
          else .error (.forbidden context.username kind p) := by
  unfold Session.authorize
  split
  · contradiction
  · rfl

/-- A session lets a command run exactly if no check of the sender finds a fault. -/
theorem authorize_eq (service : Service) (m : Moment) (session : Session) (server : Server σ)
    (h : Command.ofObject frame = .ok c) :
    match Check.sender.findSome? (fault service m frame session server) with
    | some r => session.authorize c m.now = .error r
    | none => ∃ kind, c.kind? = some kind ∧ session.authorize c m.now = .ok kind := by
  have hc := command?_of_ok h
  have hg := guarded?_of_ok h
  by_cases ha : c.kind? = some .authenticate
  · rw [if_pos ha] at hg
    rw [Check.sender, List.findSome?_append, login_of_authenticate hg]
    simp [fault, hc, ha, CommandKind.permission?, Session.authorize]
  · rw [if_neg ha] at hg
    have hv := validate_eq service m session server hg
    rw [Check.sender, List.findSome?_append, authorize_of_ne_authenticate ha session m.now]
    cases hl : Check.login.findSome? (fault service m frame session server) with
    | some r =>
      rw [hl] at hv
      obtain ⟨e, rfl, he⟩ := hv
      rw [he]
      rfl
    | none =>
      rw [hl] at hv
      obtain ⟨context, hx, hok⟩ := hv
      rw [hok]
      cases hk : c.kind? with
      | none => simp [fault, hc, hk]
      | some kind =>
        cases hp : kind.permission? with
        | none => simp [fault, hc, hk, hp]
        | some p =>
          by_cases hin : context.permissions.contains p = true <;>
            simp [fault, hc, hk, hp, hx, hin]

end Sender

end Dispatch

end RemoteDesk
