import RemoteDesk.Command.Error
import RemoteDesk.Desktop.Call

/-!
Requests: commands with their payload understood. A request either proves who the client is or
calls the desktop; the kind of the command fixes which, and which call.
-/
namespace RemoteDesk

structure Credentials where
  username : String
  password : String
  deriving DecidableEq, Inhabited

/-- The credentials as a log may show them. -/
def Credentials.redacted (c : Credentials) : String :=
  "Credentials \x7b username: " ++ Text.quoted c.username ++
    ", password: \"<redacted>\" \x7d"

inductive Request where
  | authenticate (c : Credentials)
  | desktop (call : Desktop.Call)
  deriving Inhabited

/-- The kind of command that makes a call. -/
def Desktop.Call.kind : Desktop.Call → CommandKind
  | .mouseMove _ => .mouseMove
  | .mouseClick _ _ => .mouseClick
  | .mouseScroll _ _ => .mouseScroll
  | .keyPress _ => .keyPress
  | .keyRelease _ => .keyRelease
  | .typeText _ => .typeText
  | .captureScreen _ => .captureScreen
  | .displays => .getDisplays
  | .windows => .listWindows
  | .windowAt _ => .getWindowInfo

namespace Request

open Json Desktop

def kind : Request → CommandKind
  | .authenticate _ => .authenticate
  | .desktop call => call.kind

/-- Characters that one command may type. -/
def maxText : Nat := 1000

/-! ### The fields of payloads -/

def usernameField : Field Json String := .needed "username" asString
def passwordField : Field Json String := .needed "password" asString
def xField : Field Json Int32 := .needed "x" Data.int32
def yField : Field Json Int32 := .needed "y" Data.int32
def buttonField : Field Json MouseButton := .needed "button" (asChoice MouseButton.choices)
def keyField : Field Json String := .needed "key" asString
def textField : Field Json String := .needed "text" asString
def displayField : Field Json UInt32 := .withDefault "display_id" Data.uint32 0

/-- A fault of form, as a fault of a payload. -/
def formal (e : Except Mismatch α) : Except PayloadFault α :=
  match e with
  | .ok a => .ok a
  | .error m => .error (.mismatch m)

def readCredentials (ms : Members) : Except Mismatch Credentials := do
  checkFields [usernameField.test, passwordField.test] ms
  return ⟨← usernameField.of ms, ← passwordField.of ms⟩

def readPoint (ms : Members) : Except Mismatch Point := do
  checkFields [xField.test, yField.test] ms
  return ⟨← xField.of ms, ← yField.of ms⟩

def readClick (ms : Members) : Except Mismatch (MouseButton × Point) := do
  checkFields [buttonField.test, xField.test, yField.test] ms
  return (← buttonField.of ms, ⟨← xField.of ms, ← yField.of ms⟩)

/-- A key, which must have a name. -/
def readKey (ms : Members) : Except PayloadFault String := do
  let key ← formal (keyField.of ms)
  if key.isEmpty then .error .emptyKey else .ok key

/-- A text, which must not be long. -/
def readTyped (ms : Members) : Except PayloadFault String := do
  let text ← formal (textField.of ms)
  if maxText < text.length then .error (.longText text.length maxText) else .ok text

/-- The request in a payload. -/
def ofPayload (kind : CommandKind) (ms : Members) : Except PayloadFault Request :=
  match kind with
  | .authenticate => (formal (readCredentials ms)).map .authenticate
  | .mouseMove => (formal (readPoint ms)).map fun p => .desktop (.mouseMove p)
  | .mouseClick => (formal (readClick ms)).map fun (b, p) => .desktop (.mouseClick b p)
  | .mouseScroll => (formal (readPoint ms)).map fun p => .desktop (.mouseScroll p.x p.y)
  | .keyPress => (readKey ms).map fun key => .desktop (.keyPress key)
  | .keyRelease => (readKey ms).map fun key => .desktop (.keyRelease key)
  | .typeText => (readTyped ms).map fun text => .desktop (.typeText text)
  | .captureScreen => (formal (displayField.of ms)).map fun id => .desktop (.captureScreen id)
  | .getDisplays => .ok (.desktop .displays)
  | .listWindows => .ok (.desktop .windows)
  | .getWindowInfo => (formal (readPoint ms)).map fun p => .desktop (.windowAt p)

/-- The request in a payload, with the session's word for a failure. -/
def parse (kind : CommandKind) (ms : Members) : Except ProtocolError Request :=
  match ofPayload kind ms with
  | .ok r => .ok r
  | .error fault => .error (.invalidPayload kind fault)

end Request

end RemoteDesk
