import RemoteDesk.Frame.Basic
import RemoteDesk.Json.Record

/-!
Responses: what a session sends back for each frame. The members of a response go out in the
order of its fields, and those that are not set are left out.
-/
namespace RemoteDesk

inductive Status where
  | success
  | error
  deriving DecidableEq, Repr, Inhabited

def Status.name : Status → String
  | .success => "success"
  | .error => "error"

def Status.choices : List (String × Status) := [("success", .success), ("error", .error)]

structure Response where
  commandId? : Option String
  status : Status
  data? : Option Json.Members
  error? : Option String
  /-- The kind of error, for programs to tell errors apart. -/
  errorCode? : Option String
  timestamp : String
  deriving Inhabited

namespace Response

open Json

/-- A response to a command that was carried out. -/
def success (commandId? : Option String) (data : Members) (timestamp : String) : Response :=
  ⟨commandId?, .success, some data, none, none, timestamp⟩

/-- A response to a command that was not. -/
def failure (commandId? : Option String) (code message timestamp : String) : Response :=
  ⟨commandId?, .error, none, some message, some code, timestamp⟩

def isSuccess (r : Response) : Bool := r.status == .success

/-! ### Writing -/

/-- A member that is written when its value is set. -/
def optional (name : String) (v? : Option Json) : List (String × Json) :=
  (v?.map fun v => (name, v)).toList

/-- The members by name, in their order. -/
def members (r : Response) : List (String × Json) :=
  optional "command_id" (r.commandId?.map .str) ++ ("status", .str r.status.name) ::
    optional "data" (r.data?.map .obj) ++ optional "error" (r.error?.map .str) ++
    optional "error_code" (r.errorCode?.map .str) ++ [("timestamp", .str r.timestamp)]

def toJson (r : Response) : Json := .object r.members

/-- The text of a response. -/
def render (r : Response) : Bytes := Json.render (.obj r.members)

/-- The frame of a response. -/
def frame (r : Response) : Except FramingError Bytes := Frame.encode r.render

/-! ### Reading -/

/-- The response in a JSON value. -/
def ofJson : Json → Except Mismatch Response :=
  let commandId := Field.withDefault "command_id" (asOption asString) none
  let status := Field.needed "status" (asChoice Status.choices)
  let data := Field.withDefault "data" (asOption asMembers) none
  let error := Field.withDefault "error" (asOption asString) none
  let errorCode := Field.withDefault "error_code" (asOption asString) none
  let timestamp := Field.withDefault "timestamp" asString ""
  Data.record "Response"
    [commandId.test, status.test, data.test, error.test, errorCode.test, timestamp.test] fun ms => do
      return ⟨← commandId.of ms, ← status.of ms, ← data.of ms, ← error.of ms, ← errorCode.of ms,
        ← timestamp.of ms⟩

/-- Reads a response that may hold `depth` levels, itself included. -/
def read (limit : Nat) : Nat → Reader Response :=
  let text := readText "a string"
  readRecord "Response"
    (fun depth => [.free "command_id" (readOption text) fun commandId? r => { r with commandId? },
      .of "status" (readChoice Status.choices depth) fun status r => { r with status },
      .free "data" (readOption (readMap limit depth)) fun data? r => { r with data? },
      .free "error" (readOption text) fun error? r => { r with error? },
      .free "error_code" (readOption text) fun errorCode? r => { r with errorCode? },
      .free "timestamp" text fun timestamp r => { r with timestamp }])
    ⟨none, .success, none, none, none, ""⟩

/-- The response that a text spells. -/
def parse (text : Bytes) : Except SyntaxError Response :=
  readAll (read text.length maxDepth) text

end Response

end RemoteDesk
