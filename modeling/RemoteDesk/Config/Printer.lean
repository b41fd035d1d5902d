import RemoteDesk.Auth.Directory
import RemoteDesk.Toml.Printer

/-!
An account as a part of a settings file.
-/
namespace RemoteDesk

/-- The lines that add an account to a settings file. -/
def UserEntry.render (u : UserEntry) : String :=
  "[[users]]\n" ++
  "username = " ++ Toml.renderText u.username ++ "\n" ++
  "password_hash = " ++ Toml.renderText u.record ++ "\n" ++
  "permissions = [" ++
    ", ".intercalate (u.permissions.map fun p => Toml.renderText p.name) ++ "]\n"

end RemoteDesk
