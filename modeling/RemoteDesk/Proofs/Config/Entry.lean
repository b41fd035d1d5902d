import RemoteDesk.Config.Check
import RemoteDesk.Config.Load
import RemoteDesk.Config.Printer
import RemoteDesk.Proofs.Record
import RemoteDesk.Proofs.Text.Splitting
import RemoteDesk.Proofs.Toml.Values

/-!
The lines that add an account to a settings file, read as a file of their own, are settings with
that account and defaults for the rest. The lines are followed from character to character up to
the document they spell, and the document from field to field up to the settings.
-/
namespace RemoteDesk

open Toml

namespace UserEntry

/-! ### The document of an account -/

/-- The table of an account. -/
def table (u : UserEntry) : Entries :=
  [("username", .text u.username), ("password_hash", .text u.record),
    ("permissions", .list ((u.permissions.map (·.name)).map .text))]

/-- The document with an account alone. -/
def document (u : UserEntry) : Entries := [("users", .rows [u.table])]

/-- The entries of an account's table as they are read one by one. -/
def pairs (u : UserEntry) : List (Key × Toml) := u.table.map fun e => (⟨[], e.1⟩, e.2)

/-- An account's lines behind the heading. -/
def lines (u : UserEntry) : List Char :=
  "username".toList ++ ' ' :: '=' :: ' ' :: ((renderText u.username).toList ++ '\n' ::
  ("password_hash".toList ++ ' ' :: '=' :: ' ' :: ((renderText u.record).toList ++ '\n' ::
  ("permissions".toList ++ ' ' :: '=' :: ' ' ::
    '[' :: ((", ".intercalate ((u.permissions.map (·.name)).map renderText)).toList ++
      ']' :: ['\n'])))))

theorem toList_render (u : UserEntry) :
    u.render.toList = "[[users]]\n".toList ++ u.lines := by
  have hname : "username = ".toList = "username".toList ++ [' ', '=', ' '] := rfl
  have hrecord : "password_hash = ".toList = "password_hash".toList ++ [' ', '=', ' '] := rfl
  have hpermissions : "permissions = [".toList = "permissions".toList ++ [' ', '=', ' ', '['] := rfl
  have hend : "\n".toList = ['\n'] := rfl
  have hlist : "]\n".toList = [']', '\n'] := rfl
  unfold render lines
  simp only [String.toList_append, hname, hrecord, hpermissions, hend, hlist,
    List.append_assoc, List.cons_append, List.nil_append, List.map_map]
  rfl

theorem readPairs_lines (u : UserEntry) {limit count : Nat} (hlimit : u.permissions.length < limit)
    (hcount : 4 ≤ count) :
    readPairs (readValue limit maxDepth) count [] u.lines = some (u.pairs, []) := by
  have hlist : readValue limit maxDepth
      ('[' :: ((", ".intercalate ((u.permissions.map (·.name)).map renderText)).toList ++
        ']' :: ['\n'])) = some (.list ((u.permissions.map (·.name)).map .text), ['\n']) :=
    readValue_texts 78 (by simpa using hlimit)
  -- Three entries, and the end of the lines.
  obtain ⟨n, rfl⟩ : ∃ n, count = n + 4 := ⟨count - 4, by omega⟩
  unfold lines
  rw [readPairs_bare (by decide) (List.all_eq_true.mp rfl) (skip_renderText u.username _)
      (readValue_renderText limit maxDepth u.username (by simp) (by simp)),
    readPairs_bare (by decide) (List.all_eq_true.mp rfl) (skip_renderText u.record _)
      (readValue_renderText limit maxDepth u.record (by simp) (by simp)),
    readPairs_bare (by decide) (List.all_eq_true.mp rfl) rfl hlist, readPairs_end]
  simp only [String.ofList_toList]
  rfl

theorem length_permissions_lt (u : UserEntry) : u.permissions.length < u.lines.length := by
  have hlist := length_le_texts (u.permissions.map (·.name))
  rw [List.length_map] at hlist
  unfold lines
  simp only [List.length_append, List.length_cons]
  omega

theorem carriageReturn_not_mem_lines (u : UserEntry) : '\r' ∉ u.lines := by
  have htext : ∀ s, '\r' ∉ (renderText s).toList := fun s => by
    rw [toList_renderText]
    exact carriageReturn_not_mem_write s.toList
  have hlist : '\r' ∉ (", ".intercalate ((u.permissions.map (·.name)).map renderText)).toList := by
    intro h
    rcases Text.mem_intercalate h with h | ⟨t, ht, h⟩
    · exact absurd h (by decide)
    · obtain ⟨s, -, rfl⟩ := List.mem_map.mp ht
      exact htext s h
  unfold lines
  simp [-String.toList_intercalate, -List.map_map, htext, hlist]

/-- There is nothing to unify in an account's lines, and no mark in front of them. -/
theorem unifyLines_render (u : UserEntry) :
    unifyLines (skipMark u.render.toList) = u.render.toList := by
  have hreturn : '\r' ∉ u.render.toList := by
    rw [toList_render, List.mem_append, not_or]
    exact ⟨by decide, u.carriageReturn_not_mem_lines⟩
  have hmark : skipMark u.render.toList = u.render.toList := by
    rw [toList_render]
    rfl
  rw [hmark, unifyLines_eq hreturn]

/-- An account's lines are a document with that account. -/
theorem parse_render (u : UserEntry) : Toml.parse u.render = some u.document := by
  have hlength : u.permissions.length + 10 < u.render.toList.length := by
    have hhead : "[[users]]\n".toList.length = 10 := rfl
    have hlines := u.length_permissions_lt
    rw [toList_render, List.length_append, hhead]
    omega
  have hbefore : ∀ value n,
      readPairs value (n + 1) [] u.render.toList = some ([], u.render.toList) := by
    intro value n
    rw [toList_render]
    rfl
  have hheading : readHeading u.render.toList = some (.row ⟨[], "users"⟩, '\n' :: u.lines) := by
    rw [toList_render]
    have hne : "users".toList ≠ [] := by decide
    exact readHeading_row hne (List.all_eq_true.mp rfl) _
  have hpairs : readPairs (readValue (u.render.toList.length + 1) maxDepth)
      (u.render.toList.length + 1) [] u.lines = some (u.pairs, []) :=
    u.readPairs_lines (by omega) (by omega)
  simp only [Toml.parse, unifyLines_render, hbefore, Option.bind_eq_bind, Option.bind_some,
    readParts_part hheading hpairs, readParts_end]
  rfl

end UserEntry

/-! ### Tables read as records -/

namespace Config

open Data

/-- Apart from their accounts, the defaults can be run. -/
theorem check_users (users : List UserEntry) :
    ({ users := users } : Config).check = checkUsers [] users := by
  have haddress : Net.Address.parse ({} : Server).bindAddress = some (.v4 0 0 0 0) := by decide
  simp only [check, Server.endpoint, haddress]
  rfl

theorem check_singleton {u : UserEntry} (hname : u.username ≠ "")
    (hrecord : Password.checkRecord u.record = .ok ()) :
    ({ users := [u] } : Config).check = .ok () := by
  rw [check_users, checkUsers, if_neg hname, if_neg (by simp), hrecord]
  rfl

end Config

end RemoteDesk
