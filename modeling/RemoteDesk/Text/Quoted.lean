import RemoteDesk.Bytes
import RemoteDesk.Text.Unprintable

/-!
Quoted form of a text in messages: quotes and backslashes are escaped, the usual controls get
their letter, and every other code point that does not print stands as `\u{…}`.
-/
namespace RemoteDesk.Text

/-- Hexadecimal digits without padding. -/
def hexDigits (n : Nat) : String := String.ofList (Nat.toDigits 16 n)

/-- The escaped form of a character between quotes. -/
def escapeChar (c : Char) : String :=
  if c = '\n' then "\\n"
  else if c = '\r' then "\\r"
  else if c = '\t' then "\\t"
  else if c = '\\' then "\\\\"
  else if c.toNat = 0 then "\\0"
  else if c = '"' then "\\\""
  else if Unprintable.contains c.toNat then "\\u\x7b" ++ hexDigits c.toNat ++ "\x7d"
  else String.singleton c

/-- A text in double quotes. -/
def quoted (s : String) : String :=
  "\"" ++ s.toList.foldl (fun out c => out ++ escapeChar c) "" ++ "\""

/-- An optional text with its case named, as the audit log shows one. -/
def quotedOption : Option String → String
  | none => "None"
  | some s => "Some(" ++ quoted s ++ ")"

end RemoteDesk.Text
