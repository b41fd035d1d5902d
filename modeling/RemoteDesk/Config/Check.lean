import RemoteDesk.Auth.Backoff
import RemoteDesk.Config.Basic
import RemoteDesk.Net.Address
import RemoteDesk.Session.State

/-!
Settings that can be read but not run, and what the others make of sessions and logins.
-/
namespace RemoteDesk.Config

/-- The first setting that cannot be run. -/
inductive Objection where
  | notAddress (text : String)
  | noConnections
  | frameSize
  | noTimeout
  | noLifetime
  | noWindow
  | noDuplicates
  | noUsername
  | sameUsername (username : String)
  | badRecord (b : BadRecord)
  deriving DecidableEq, Repr, Inhabited

def Objection.reason : Objection → String
  | .notAddress text => "server.bind_address " ++ Text.quoted text ++ " is not an IP address"
  | .noConnections => "server.max_connections must be at least 1"
  | .frameSize => "server.max_frame_bytes must be between 1 and 4294967295"
  | .noTimeout => "server timeouts must be at least 1 second"
  | .noLifetime => "auth.token_ttl_secs must be at least 1"
  | .noWindow => "limits.window_secs must be at least 1"
  | .noDuplicates => "limits.duplicate_window must be at least 1"
  | .noUsername => "users: username must not be empty"
  | .sameUsername username => "users: duplicate username " ++ Text.quoted username
  | .badRecord b => b.message

def Objection.message (o : Objection) : String := "invalid configuration: " ++ o.reason

/-- Where the server listens. -/
def Server.endpoint (s : Server) : Except Objection Net.Endpoint :=
  match Net.Address.parse s.bindAddress with
  | some host => .ok ⟨host, 0, s.port⟩
  | none => .error (.notAddress s.bindAddress)

/-- Accounts need names of their own and records that can be checked; `before` holds the names
of earlier ones. -/
def checkUsers (before : List String) : List UserEntry → Except Objection Unit
  | [] => .ok ()
  | u :: users =>
    if u.username = "" then .error .noUsername
    else if before.contains u.username then .error (.sameUsername u.username)
    else match Password.checkRecord u.record with
      | .error fault => .error (.badRecord ⟨u.username, fault⟩)
      | .ok () => checkUsers (u.username :: before) users

def check (c : Config) : Except Objection Unit := do
  let _ ← c.server.endpoint
  if c.server.maxConnections = 0 then .error .noConnections
  else if c.server.maxFrameBytes = 0 ∨ 4294967295 < c.server.maxFrameBytes then .error .frameSize
  else if c.server.idleTimeoutSecs = 0 ∨ c.server.handshakeTimeoutSecs = 0 then .error .noTimeout
  else if c.login.tokenTtlSecs = 0 then .error .noLifetime
  else if 0 < c.commands.maxPerWindow ∧ c.commands.windowSecs = 0 then .error .noWindow
  else if c.commands.duplicateWindow = 0 then .error .noDuplicates
  else checkUsers [] c.users

/-! ### What the settings mean -/

def handshakeTimeout (c : Config) : Duration := .ofSecs c.server.handshakeTimeoutSecs

def idleTimeout (c : Config) : Duration := .ofSecs c.server.idleTimeoutSecs

def limits (c : Config) : Limits :=
  ⟨c.commands.duplicateWindow, c.commands.maxPerWindow, .ofSecs c.commands.windowSecs,
    c.capture.maxInlineBytes⟩

def tokenTtl (c : Config) : Duration := .ofSecs c.login.tokenTtlSecs

def backoff (c : Config) : Auth.Backoff :=
  ⟨c.login.freeAttempts, .ofMillis c.login.backoffBaseMs, .ofSecs c.login.backoffMaxSecs⟩

end RemoteDesk.Config
