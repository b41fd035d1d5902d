import RemoteDesk.Auth.Context
import RemoteDesk.Command.Envelope
import RemoteDesk.Desktop.Call
import RemoteDesk.Net.Address
import RemoteDesk.Sequence

/-!
The state of one session: who is logged in, which identifiers were used of late, and when
commands were let through of late. Nothing of it outlives the connection.
-/
namespace RemoteDesk

/-- What a session may do. -/
structure Limits where
  /-- How many identifiers are remembered. -/
  duplicateWindow : Nat
  /-- Commands in a rate window; none stands for no limit. -/
  maxCommands : UInt32
  rateWindow : Duration
  /-- Pictures of up to so many bytes are sent along. -/
  maxInline : Nat
  deriving Inhabited

namespace Limits

def standard : Limits := ⟨1024, 600, .ofSecs 60, 8388608⟩

end Limits

/-- Why a frame is not answered with success. -/
inductive Refusal where
  | protocol (e : ProtocolError)
  | auth (e : Auth.Error)
  | forbidden (username : String) (command : CommandKind) (permission : Permission)
  | unknownCommand (name : String)
  | desktop (e : Desktop.Error)
  | rateLimited (limit : UInt32) (windowSecs : UInt64)
  deriving Inhabited

namespace Refusal

/-- The kind of error in a response. -/
def code : Refusal → String
  | .protocol _ => "ProtocolError"
  | .auth e => e.code
  | .forbidden .. => "Forbidden"
  | .unknownCommand _ => "UnknownCommand"
  | .desktop _ => "FacadeError"
  | .rateLimited .. => "RateLimited"

def message : Refusal → String
  | .protocol e => e.message
  | .auth e => e.message
  | .forbidden _ command permission =>
    "permission '" ++ permission.name ++ "' is required for " ++ command.name
  | .unknownCommand name => "unknown command type '" ++ name ++ "'"
  | .desktop e => e.message
  | .rateLimited limit windowSecs =>
    "more than " ++ toString limit.toNat ++ " commands in " ++ toString windowSecs.toNat ++ "s"

end Refusal

structure Session where
  peer : Net.Endpoint
  context? : Option Auth.Context
  /-- Counts the frames. -/
  commands : Sequence
  /-- The remembered identifiers, oldest first. -/
  recentIds : List String
  /-- The remembered identifiers, for looking one up. -/
  seenIds : List String
  /-- When commands were let through, oldest first, in nanoseconds. -/
  recentCommands : List Nat
  deriving Inhabited

namespace Session

def new (peer : Net.Endpoint) : Session := ⟨peer, none, .start, [], [], []⟩

/-- Counts a frame. -/
def count (s : Session) : Session := { s with commands := s.commands.next.2 }

/-- Remembers an identifier, which must not be remembered yet. The oldest ones make room. -/
def remember (id : String) (window : Nat) (s : Session) : Except Refusal Session :=
  if s.seenIds.contains id then .error (.protocol (.duplicateId id))
  else if window = 0 then .ok s
  else
    let surplus := s.recentIds.length + 1 - window
    .ok { s with
      recentIds := s.recentIds.drop surplus ++ [id]
      seenIds := id :: (s.recentIds.take surplus).foldl List.erase s.seenIds }

/-- Forgets the commands that are outside the window. -/
def expire (window : Duration) (now : Nat) (s : Session) : Session :=
  { s with recentCommands := s.recentCommands.dropWhile fun t => window.toNanos ≤ now - t }

/-- Lets a command through, if there are not too many in the window. -/
def letThrough (limits : Limits) (now : Nat) (s : Session) : Except Refusal Unit × Session :=
  if limits.maxCommands = 0 then (.ok (), s)
  else
    let s := s.expire limits.rateWindow now
    if limits.maxCommands.toNat ≤ s.recentCommands.length then
      (.error (.rateLimited limits.maxCommands limits.rateWindow.secs), s)
    else (.ok (), { s with recentCommands := s.recentCommands ++ [now] })

/-- Whether the session may run a command: the kind of the command, if so. Whoever is not logged
in is not told which kinds there are. -/
def authorize (s : Session) (c : Command) (now : Time) : Except Refusal CommandKind :=
  match c.kind? with
  | some .authenticate => .ok .authenticate
  | kind? =>
    match Auth.validate s.context? c.token? now, kind? with
    | .error e, _ => .error (.auth e)
    | .ok _, none => .error (.unknownCommand c.kindName)
    | .ok context, some kind =>
      match kind.permission? with
      | none => .ok kind
      | some p =>
        if context.permissions.contains p then .ok kind
        else .error (.forbidden context.username kind p)

end Session

end RemoteDesk
