import RemoteDesk.Command.Error
import RemoteDesk.Json.Printer
import RemoteDesk.Json.Typed

/-!
Commands as they travel: an identifier, the name of the kind, a payload and what goes with them.
The name stays text, so that a command of no known kind can be answered under its identifier.
-/
namespace RemoteDesk

structure Command where
  /-- Chosen by the client, and used once in a session. -/
  id : String
  kindName : String
  payload : Json.Members
  /-- Told by the client; nothing depends on it. -/
  timestamp : String
  /-- The token that `authenticate` gave. -/
  token? : Option String
  deriving Inhabited

namespace Command

open Json

def idField : Field Json String := .needed "id" asString
def kindField : Field Json String := .needed "type" asString
def payloadField : Field Json Members := .withDefault "payload" asMembers []
def timestampField : Field Json String := .withDefault "timestamp" asString ""
def tokenField : Field Json (Option String) := .withDefault "auth_token" (asOption asString) none

/-- The members that count, as tests of their values. -/
def fields : List (Field Json Unit) :=
  [idField.test, kindField.test, payloadField.test, timestampField.test, tokenField.test]

/-- The command in an object. -/
def ofMembers (ms : Members) : Except Mismatch Command := do
  checkFields fields ms
  return ⟨← idField.of ms, ← kindField.of ms, ← payloadField.of ms, ← timestampField.of ms,
    ← tokenField.of ms⟩

/-- The command in an object, with the session's word for a failure. -/
def ofObject (ms : Members) : Except ProtocolError Command :=
  match ofMembers ms with
  | .ok c => .ok c
  | .error m => .error (.invalidCommand m)

/-- The identifier of an object that may not be a command. -/
def peekId (ms : Members) : Option String :=
  match ms.get? "id" with
  | some (.str id) => some id
  | _ => none

def kind? (c : Command) : Option CommandKind := CommandKind.ofName? c.kindName

/-- The fields by name, in their order; an absent token is left out. -/
def members (c : Command) : List (String × Json) :=
  [("id", .str c.id), ("type", .str c.kindName), ("payload", .obj c.payload),
    ("timestamp", .str c.timestamp)] ++ (c.token?.map fun t => ("auth_token", .str t)).toList

/-- The text with the fields in their order. -/
def render (c : Command) : Bytes := Json.render (.obj c.members)

end Command

end RemoteDesk
