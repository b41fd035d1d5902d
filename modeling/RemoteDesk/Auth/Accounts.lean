import RemoteDesk.Permission

/-!
Who may log in, and with which permissions.
-/
namespace RemoteDesk

/-- Who has shown the right credentials. -/
structure Identity where
  username : String
  deriving DecidableEq, Repr, Inhabited

/-- A store of accounts answers whose credentials a username and a password are, and what that user
may do. -/
structure Accounts where
  identify : (username password : String) → Option Identity
  permissions : (who : Identity) → PermissionSet

namespace Accounts

/-- Whether the credentials are somebody's. -/
def verify (accounts : Accounts) (username password : String) : Bool :=
  (accounts.identify username password).isSome

section
variable {accounts : Accounts} {username password : String}

theorem verify_eq_true_iff :
    accounts.verify username password = true ↔
      ∃ who, accounts.identify username password = some who :=
  Option.isSome_iff_exists

theorem verify_eq_false_iff :
    accounts.verify username password = false ↔ accounts.identify username password = none := by
  rw [verify]
  cases accounts.identify username password <;> simp

end

/-- The permissions that a list of names grants; other names grant nothing. -/
def granted (names : List String) : PermissionSet := .ofList (names.filterMap Permission.ofName?)

/-- Everybody may log in with the one password, and the username lists the permissions. -/
def selfNamed (password : String) : Accounts where
  identify username given := if given = password then some ⟨username⟩ else none
  permissions who := granted (who.username.splitOn ",")

end Accounts

end RemoteDesk
