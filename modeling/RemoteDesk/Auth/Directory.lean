import RemoteDesk.Auth.Accounts
import RemoteDesk.Password.Hash

/-!
Accounts that are listed by name. Of several entries for a name the last counts.
-/
namespace RemoteDesk

/-- An account as it is configured. -/
structure UserEntry where
  username : String
  record : String
  permissions : List Permission
  deriving DecidableEq, Repr, Inhabited

/-- An entry whose record is not accepted. -/
structure BadRecord where
  username : String
  fault : Password.RecordFault
  deriving DecidableEq, Repr, Inhabited

def BadRecord.message (e : BadRecord) : String :=
  "users: password_hash for " ++ Text.quoted e.username ++ " " ++ e.fault.message

/-- What is known about a name. -/
structure StoredUser where
  record : String
  permissions : PermissionSet
  deriving DecidableEq, Inhabited

structure Directory where
  /-- One account for each name. -/
  users : List (String × StoredUser)
  /-- The record that passwords for unknown names are checked against. -/
  decoy : Thunk String

namespace Directory

/-- Puts an account in the place of an earlier one. -/
def put (username : String) (user : StoredUser) (users : List (String × StoredUser)) :
    List (String × StoredUser) :=
  (username, user) :: users.filter (·.1 ≠ username)

/-- Adds entries to accounts, each of which must have an acceptable record. -/
def addEntries : List UserEntry → List (String × StoredUser) →
    Except BadRecord (List (String × StoredUser))
  | [], users => .ok users
  | e :: entries, users =>
    match Password.checkRecord e.record with
    | .error fault => .error ⟨e.username, fault⟩
    | .ok () => addEntries entries (put e.username ⟨e.record, .ofList e.permissions⟩ users)

/-- The record of a password that nobody has. -/
def decoyRecord (salt : Bytes) : String :=
  match Password.record Argon2.Params.standard salt "unknown user" with
  | .ok p => p.render
  | .error _ => ""

/-- The accounts of a list of entries. -/
def ofEntries (salt : Bytes) (entries : List UserEntry) : Except BadRecord Directory :=
  (addEntries entries []).map fun users => ⟨users, Thunk.mk fun _ => decoyRecord salt⟩

def size (d : Directory) : Nat := d.users.length

def isEmpty (d : Directory) : Bool := d.users.isEmpty

/-- Whether a password is a user's. -/
def verify (d : Directory) (username password : String) : Bool :=
  let user? := d.users.lookup username
  user?.isSome && Password.verify password ((user?.map (·.record)).getD d.decoy.get)

/-- Right credentials are those of the user that they name. -/
def identify (d : Directory) (username password : String) : Option Identity :=
  if d.verify username password then some ⟨username⟩ else none

def permissions (d : Directory) (username : String) : PermissionSet :=
  ((d.users.lookup username).map (·.permissions)).getD .empty

def accounts (d : Directory) : Accounts := ⟨d.identify, fun who => d.permissions who.username⟩

end Directory

end RemoteDesk
