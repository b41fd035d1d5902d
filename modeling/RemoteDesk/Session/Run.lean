import RemoteDesk.Session.Dispatch
import RemoteDesk.Session.Peer

/-!
A session from its first frame to its end. Each frame has to arrive whole within the idle timeout,
which begins when the response before it has been written; a response has to be written within
the same time. Frames that cannot be told apart end the session without a response.
-/
namespace RemoteDesk

/-- How a session treats its connection. -/
structure Connection where
  maxFrame : Nat
  idleTimeout : Duration
  /-- Bytes that can be written while the peer reads none; the limit is absent if it reads. -/
  outgoing? : Option Nat

/-- Why a session breaks off. -/
inductive SessionError where
  | framing (e : FramingError)
  | writeTimeout (d : Duration)
  deriving DecidableEq

def SessionError.message : SessionError → String
  | .framing e => "framing error: " ++ e.message
  | .writeTimeout d => "response not written within " ++ d.text

inductive SessionEnd where
  /-- The peer closed between frames. -/
  | peerClosed
  /-- No whole frame came in time. -/
  | idleTimeout
  | broken (e : SessionError)
  deriving DecidableEq

/-- What is left of a session. -/
structure Transcript (σ : Type) where
  /-- What was written, frame by frame; the last may be cut off. -/
  written : List Bytes
  events : List AuditEvent
  ended : SessionEnd
  /-- When it ended, in nanoseconds. -/
  endedAt : Nat
  session : Session
  server : Server σ

namespace Session

variable {σ : Type}

/-- What a session waits for ends like this. -/
inductive Awaited where
  | payload (bytes : Bytes) (now : Nat) (peer : Peer)
  | nothing (ended : SessionEnd) (now : Nat)

/-- Waits for the next frame until a deadline. The deadline is taken to be exact: the session gives
up at that very nanosecond, where a real timer may be up to a millisecond late. -/
def awaitFrame (limit : Nat) (deadline now : Nat) (p : Peer) : Awaited :=
  match p.await deadline (p.size + 1) headLength now with
  | .late => .nothing .idleTimeout deadline
  | .ended [] now => .nothing .peerClosed now
  | .ended got now => .nothing (.broken (.framing (.truncated .head headLength got.length))) now
  | .complete head now p =>
    match Frame.declaredLength head limit with
    | .error e => .nothing (.broken (.framing e)) now
    | .ok declared =>
      match p.await deadline (p.size + 1) declared now with
      | .late => .nothing .idleTimeout deadline
      | .ended got now =>
        .nothing (.broken (.framing (.truncated .payload declared got.length))) now
      | .complete payload now p => .payload payload now p

/-- Where a session stands between two frames. -/
structure Standing (σ : Type) where
  now : Nat
  peer : Peer
  /-- The last frame comes first. -/
  written : List Bytes
  events : List AuditEvent
  session : Session
  server : Server σ

def Standing.finish (st : Standing σ) (ended : SessionEnd) (now : Nat) : Transcript σ :=
  ⟨st.written.reverse, st.events, ended, now, st.session, st.server⟩

/-- How much can still be written. -/
def Standing.room? (c : Connection) (st : Standing σ) : Option Nat :=
  c.outgoing?.map (· - st.written.flatten.length)

/-- Writes a response, or ends with its beginning written. To write is taken to be done at once: a
response for which there is room is ready and written at the same instant, and a peer that makes
room only later counts as one that does not read. -/
def Standing.write (c : Connection) (r : Response) (st : Standing σ) :
    Except (Transcript σ) (Standing σ) :=
  match r.frame with
  | .error e => .error (st.finish (.broken (.framing e)) st.now)
  | .ok frame =>
    if (st.room? c).all (frame.length ≤ ·) then .ok { st with written := frame :: st.written }
    else
      let cut := { st with written := frame.take ((st.room? c).getD 0) :: st.written }
      .error (cut.finish (.broken (.writeTimeout c.idleTimeout)) (st.now + c.idleTimeout.toNanos))

/-- The moment at which the frame of a number is handled, by the instant. -/
abbrev Moments := (number instant : Nat) → Moment

/-- Handles frame after frame, at most `limit` of them. -/
def loop [Desktop.Backend σ] (service : Service) (c : Connection) (moments : Moments) :
    (limit : Nat) → Standing σ → Transcript σ
  | 0, st => st.finish .peerClosed st.now
  | limit + 1, st =>
    match awaitFrame c.maxFrame (st.now + c.idleTimeout.toNanos) st.now st.peer with
    | .nothing ended now => st.finish ended now
    | .payload payload now peer =>
      let m := moments st.session.commands.issued.toNat now
      let turn := Dispatch.handlePayload service m payload st.session st.server
      let done := now + turn.waited.toNanos
      let st := { st with
        now := done
        peer := if now < done then (peer.advance now).advance done else peer
        events := st.events ++ turn.events
        session := turn.session
        server := turn.server }
      match st.write c turn.response with
      | .error t => t
      | .ok st => loop service c moments limit st

/-- Runs a session with a peer. Each frame takes at least one byte of what the peer sends. -/
def run [Desktop.Backend σ] (service : Service) (c : Connection) (moments : Moments)
    (endpoint : Net.Endpoint) (peer : Peer) (server : Server σ) : Transcript σ :=
  loop service c moments (peer.size + 1) ⟨0, peer.advance 0, [], [], .new endpoint, server⟩

end Session

end RemoteDesk
