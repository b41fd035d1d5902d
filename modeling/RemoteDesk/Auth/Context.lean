import RemoteDesk.Permission
import RemoteDesk.Text.Base64
import RemoteDesk.Text.Quoted
import RemoteDesk.Time.Calendar

/-!
What a session knows once its client has logged in, and the check that later commands pass. A
context belongs to one session and is kept nowhere else.
-/
namespace RemoteDesk.Auth

inductive Error where
  | invalidCredentials
  | notAuthenticated
  | unknownToken
  | tokenExpired
  deriving DecidableEq, Repr, Inhabited

namespace Error

def message : Error → String
  | .invalidCredentials => "invalid username or password"
  | .notAuthenticated => "not authenticated; send an authenticate command first"
  | .unknownToken => "unknown token"
  | .tokenExpired => "token expired"

/-- The kind of error in a response. -/
def code : Error → String
  | .invalidCredentials => "AuthError"
  | .notAuthenticated => "Unauthorized"
  | .unknownToken => "Unauthenticated"
  | .tokenExpired => "Unauthenticated"

end Error

structure Context where
  token : String
  username : String
  issuedAt : Time
  expiresAt : Time
  permissions : PermissionSet
  deriving DecidableEq, Inhabited

namespace Context

def isExpired (c : Context) (now : Time) : Bool := c.expiresAt ≤ now

/-- The context as a log may show it. -/
def redacted (c : Context) : String :=
  "AuthContext \x7b token: \"<redacted>\", username: " ++ Text.quoted c.username ++
    ", issued_at: " ++ c.issuedAt.fullText ++ ", expires_at: " ++ c.expiresAt.fullText ++
    ", permissions: " ++ c.permissions.title ++ " \x7d"

end Context

/-- Random bytes in a token. -/
def tokenBytes : Nat := 32

/-- The token made of random bytes. -/
def tokenOf (random : Bytes) : String := Base64.encodeShort Base64.urlSafe random

/-- Whether a session may run a command that presents a token, or none. A command without a token
is judged by the context alone. -/
def validate (context? : Option Context) (presented? : Option String) (now : Time) :
    Except Error Context :=
  match context? with
  | none => .error .notAuthenticated
  | some c =>
    if presented?.any (· ≠ c.token) then .error .unknownToken
    else if c.isExpired now then .error .tokenExpired
    else .ok c

end RemoteDesk.Auth
