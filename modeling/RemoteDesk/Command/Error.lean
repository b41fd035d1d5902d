import RemoteDesk.Command.Kind
import RemoteDesk.Json.Fault

/-!
Why a frame that arrived whole is not a usable command. Such a frame is answered with an error;
the session goes on.
-/
namespace RemoteDesk

/-- Why a payload does not fit its command. -/
inductive PayloadFault where
  | mismatch (m : Mismatch)
  | emptyKey
  | longText (length limit : Nat)
  deriving Repr, Inhabited

inductive ProtocolError where
  | invalidJson (e : Json.SyntaxError)
  | notAnObject (kind : String)
  | invalidCommand (m : Mismatch)
  | invalidPayload (command : CommandKind) (fault : PayloadFault)
  | duplicateId (id : String)
  deriving Repr, Inhabited

def PayloadFault.message : PayloadFault → String
  | .mismatch m => m.message .wire
  | .emptyKey => "key cannot be empty"
  | .longText length limit =>
    "text is " ++ toString length ++ " characters, limit is " ++ toString limit

def ProtocolError.message : ProtocolError → String
  | .invalidJson e => "invalid JSON: " ++ e.message
  | .notAnObject kind => "frame payload must be a JSON object, got " ++ kind
  | .invalidCommand m => "invalid command: " ++ m.message .wire
  | .invalidPayload command fault =>
    "invalid payload for " ++ command.name ++ ": " ++ fault.message
  | .duplicateId id => "duplicate command id '" ++ id ++ "'"

end RemoteDesk
