import RemoteDesk.Auth.Context
import RemoteDesk.Command.Kind
import RemoteDesk.Net.Address

/-!
The audit log: who logged in, who did not, and who was refused.
-/
namespace RemoteDesk

inductive AuditEvent where
  | loggedIn (username : String) (source : Net.Address) (permissions : PermissionSet)
      (expiresAt : Time)
  | loginFailed (username : String) (source : Net.Address) (failures : UInt32)
  | denied (username : String) (peer : Net.Endpoint) (permission : Permission)
      (command : CommandKind)
  | rejected (peer : Net.Endpoint) (reason : Auth.Error) (id? : Option String)
  deriving DecidableEq, Inhabited

namespace AuditEvent

def level : AuditEvent → String
  | .loggedIn .. => "INFO"
  | _ => "WARN"

def message : AuditEvent → String
  | .loggedIn .. => "authentication succeeded"
  | .loginFailed .. => "authentication failed"
  | .denied .. => "authorization denied"
  | .rejected .. => "unauthenticated command rejected"

/-- The fields by name. -/
def fields : AuditEvent → List (String × String)
  | .loggedIn username source permissions expiresAt =>
    [("username", username), ("peer", source.text), ("permissions", permissions.title),
      ("expires_at", expiresAt.logText)]
  | .loginFailed username source failures =>
    [("username", username), ("peer", source.text), ("reason", "invalid credentials"),
      ("consecutive_failures", toString failures.toNat)]
  | .denied username peer permission command =>
    [("username", username), ("peer", peer.text), ("reason", "missing permission"),
      ("permission", permission.name), ("command", command.name)]
  | .rejected peer reason id? =>
    [("peer", peer.text), ("reason", reason.message), ("id", Text.quotedOption id?)]

end AuditEvent

end RemoteDesk
