import RemoteDesk.Auth.Accounts
import RemoteDesk.Auth.Audit
import RemoteDesk.Auth.Backoff
import RemoteDesk.Auth.Failures
import RemoteDesk.Command.Request

/-!
One attempt to log in. It waits as long as the failures on record ask for, and is settled then: a
wrong password goes on record, a right one clears the record and opens a context.
-/
namespace RemoteDesk.Auth

/-- What attempts are judged by. -/
structure Settings where
  accounts : Accounts
  policy : Policy
  tokenTtl : Duration

/-- An attempt to log in. -/
structure Attempt where
  source : Net.Address
  credentials : Credentials
  /-- Random bytes for a token. -/
  random : Bytes
  deriving Inhabited

/-- How an attempt ends, and what stays of it. -/
structure Settlement where
  result : Except Error Context
  failures : Failures
  event : AuditEvent

namespace Attempt

/-- How long an attempt waits that starts now. -/
def delay (s : Settings) (fs : Failures) (source : Net.Address) (now : Time) : Option Duration :=
  s.policy (fs.prior source now)

/-- The context of an attempt in which somebody logs in now. -/
def context (s : Settings) (a : Attempt) (who : Identity) (now : Time) : Context :=
  ⟨tokenOf a.random, who.username, now, now.after s.tokenTtl, s.accounts.permissions who⟩

/-- Settles an attempt that has waited. -/
def settle (s : Settings) (fs : Failures) (a : Attempt) (now : Time) : Settlement :=
  match s.accounts.identify a.credentials.username a.credentials.password with
  | some who =>
    let c := a.context s who now
    ⟨.ok c, fs.clear a.source, .loggedIn who.username a.source c.permissions c.expiresAt⟩
  | none =>
    let fs := fs.record a.source now
    ⟨.error .invalidCredentials, fs,
      .loginFailed a.credentials.username a.source (fs.prior a.source now)⟩

theorem settle_of_some {s : Settings} {a : Attempt} {who : Identity} (fs : Failures) (now : Time)
    (h : s.accounts.identify a.credentials.username a.credentials.password = some who) :
    a.settle s fs now =
      ⟨.ok (a.context s who now), fs.clear a.source, .loggedIn who.username a.source
        (a.context s who now).permissions (a.context s who now).expiresAt⟩ := by rw [settle, h]

theorem settle_of_none {s : Settings} {a : Attempt} (fs : Failures) (now : Time)
    (h : s.accounts.identify a.credentials.username a.credentials.password = none) :
    a.settle s fs now =
      ⟨.error .invalidCredentials, fs.record a.source now, .loginFailed a.credentials.username
        a.source ((fs.record a.source now).prior a.source now)⟩ := by rw [settle, h]

end Attempt

end RemoteDesk.Auth
