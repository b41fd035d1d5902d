import RemoteDesk.Auth.Attempt
import RemoteDesk.Desktop.Backend
import RemoteDesk.Response
import RemoteDesk.Session.State

/-!
One frame in, one response out. The checks come in a fixed order, and the first that fails
decides: the envelope, the identifier, the rate, the login, the kind, the permission, the
payload, and last the password or the desktop.
-/
namespace RemoteDesk

/-- What all sessions share and nothing changes. -/
structure Service where
  auth : Auth.Settings
  limits : Limits

/-- What all sessions share and commands change. -/
structure Server (σ : Type) where
  failures : Auth.Failures
  desktop : Desktop.Guarded σ

/-- What one frame meets outside of the program. -/
structure Moment where
  /-- The time of day. -/
  now : Time
  /-- The time of day once a login has waited. -/
  settled : Time
  /-- The steady clock, in nanoseconds. -/
  instant : Nat
  /-- Random bytes for a token. -/
  random : Bytes
  /-- The time of the response, in words. -/
  stamp : String

/-- What comes of one frame. -/
structure Turn (σ : Type) where
  response : Response
  events : List AuditEvent
  /-- How long the response was held back. -/
  waited : Duration
  session : Session
  server : Server σ

namespace Dispatch

open Json Desktop

/-! ### Data of successful responses -/

/-- What a response tells about a picture. -/
def captureData (limits : Limits) (c : Capture) : List (String × Json) :=
  let size := c.data.length
  let inline := decide (size ≤ limits.maxInline)
  [("display_id", .nat c.displayId.toNat), ("format", .str c.format),
    ("width", .nat c.width.toNat), ("height", .nat c.height.toNat), ("data_size", .nat size),
    ("inline", .bool inline)] ++
    if inline then [("data", .str (Base64.encode Base64.standard c.data))] else []

/-- What a response tells about a call. -/
def replyData (limits : Limits) : (c : Call) → c.Reply → Members
  | .mouseMove p, _ => .ofList p.members
  | .mouseClick b p, _ => .ofList (("button", .str b.name) :: p.members)
  | .mouseScroll dx dy, _ => .ofList (Point.mk dx dy).members
  | .keyPress key, _ => [("key", .str key)]
  | .keyRelease key, _ => [("key", .str key)]
  | .typeText text, _ => [("length", .nat text.length)]
  | .captureScreen _, (r : Capture) => .ofList (captureData limits r)
  | .displays, (r : List Display) => [("displays", .arr (r.map (·.toJson)))]
  | .windows, (r : List Window) => [("windows", .arr (r.map (·.toJson)))]
  | .windowAt _, (r : Option Window) =>
    [("window", match r with
      | some w => w.toJson
      | none => .null)]

/-- What a response tells about a login. -/
def loginData (c : Auth.Context) : Members :=
  .ofList [("token", .str c.token), ("expires_at", .str c.expiresAt.secondsText),
    ("permissions", .arr (c.permissions.names.map .str))]

/-! ### Refusals -/

/-- What the audit log says about a refusal. Failed logins are on it already. -/
def refusalEvents (peer : Net.Endpoint) (id? : Option String) : Refusal → List AuditEvent
  | .auth .invalidCredentials => []
  | .auth e => [.rejected peer e id?]
  | .forbidden username command permission => [.denied username peer permission command]
  | _ => []

/-- The response to a refused frame. -/
def refusalResponse (id? : Option String) (r : Refusal) (stamp : String) : Response :=
  .failure id? r.code (r.code ++ ": " ++ r.message) stamp

variable {σ : Type}

/-- A frame is refused and nothing waits. -/
def refuse (m : Moment) (id? : Option String) (r : Refusal) (session : Session)
    (server : Server σ) : Turn σ :=
  ⟨refusalResponse id? r m.stamp, refusalEvents session.peer id? r, .zero, session, server⟩

/-! ### Requests -/

/-- Tries to log in. -/
def login (service : Service) (m : Moment) (id : String) (c : Credentials) (session : Session)
    (server : Server σ) : Turn σ :=
  let source := session.peer.host
  let waited := Auth.Attempt.delay service.auth server.failures source m.now
  let settled := Auth.Attempt.settle service.auth server.failures ⟨source, c, m.random⟩ m.settled
  let server := { server with failures := settled.failures }
  match settled.result with
  | .ok context =>
    ⟨.success (some id) (loginData context) m.stamp, [settled.event], waited.getD .zero,
      { session with context? := some context }, server⟩
  | .error e =>
    ⟨refusalResponse (some id) (.auth e) m.stamp, [settled.event], waited.getD .zero, session,
      server⟩

/-- Calls the desktop. -/
def call [Backend σ] (service : Service) (m : Moment) (id : String) (c : Call)
    (session : Session) (server : Server σ) : Turn σ :=
  let (reply, desktop) := server.desktop.perform c
  let server := { server with desktop }
  match reply with
  | .ok reply =>
    ⟨.success (some id) (replyData service.limits c reply) m.stamp, [], .zero, session, server⟩
  | .error e => refuse m (some id) (.desktop e) session server

/-- Carries out a request. -/
def perform [Backend σ] (service : Service) (m : Moment) (id : String) (r : Request)
    (session : Session) (server : Server σ) : Turn σ :=
  match r with
  | .authenticate c => login service m id c session server
  | .desktop c => call service m id c session server

/-- Handles a command whose frame has been counted. -/
def handle [Backend σ] (service : Service) (m : Moment) (c : Command) (session : Session)
    (server : Server σ) : Turn σ :=
  match session.remember c.id service.limits.duplicateWindow with
  | .error r => refuse m (some c.id) r session server
  | .ok session =>
    match session.letThrough service.limits m.instant with
    | (.error r, session) => refuse m (some c.id) r session server
    | (.ok (), session) =>
      match session.authorize c m.now with
      | .error r => refuse m (some c.id) r session server
      | .ok kind =>
        match Request.parse kind c.payload with
        | .error e => refuse m (some c.id) (.protocol e) session server
        | .ok request => perform service m c.id request session server

/-- Handles the object of a frame. -/
def dispatch [Backend σ] (service : Service) (m : Moment) (frame : Members) (session : Session)
    (server : Server σ) : Turn σ :=
  let session := session.count
  match Command.ofObject frame with
  | .error e => refuse m (Command.peekId frame) (.protocol e) session server
  | .ok c => handle service m c session server

/-- Answers a frame that holds no object. -/
def rejectFrame (m : Moment) (e : ProtocolError) (session : Session) (server : Server σ) :
    Turn σ :=
  refuse m none (.protocol e) session.count server

/-- Handles the payload of a frame. -/
def handlePayload [Backend σ] (service : Service) (m : Moment) (payload : Bytes)
    (session : Session) (server : Server σ) : Turn σ :=
  match Frame.object payload with
  | .ok frame => dispatch service m frame session server
  | .error e => rejectFrame m e session server

end Dispatch

end RemoteDesk
