import RemoteDesk.Bytes

/-!
The other side of a connection, as a script with times. What it sends passes through a buffer that
may be bounded; while there is no room in it, the script stands still. At an instant at which both
sides can act, this one acts first, and then again whenever the session waits. A session that
waits at its deadline waits no more, so what the peer could only send after that comes too late.
-/
namespace RemoteDesk

/-- A step of the script. -/
inductive PeerStep where
  | send (bytes : Bytes)
  /-- Waits, in nanoseconds. -/
  | pause (nanos : Nat)
  /-- Ends what is sent. -/
  | close
  deriving Inhabited

structure Peer where
  script : List PeerStep
  /-- When the next step of the script can run. -/
  ready : Nat
  /-- What could not be sent yet. -/
  unsent : Bytes
  /-- What has been sent and not been read. -/
  buffer : Bytes
  /-- Bytes the buffer holds at most. -/
  capacity? : Option Nat
  closed : Bool
  deriving Inhabited

namespace Peer

def new (script : List PeerStep) (capacity? : Option Nat) : Peer :=
  ⟨script, 0, [], [], capacity?, false⟩

/-- Sends what there is room for. -/
def push (bytes : Bytes) (p : Peer) : Peer :=
  match p.capacity? with
  | none => { p with buffer := p.buffer ++ bytes, unsent := [] }
  | some capacity =>
    let room := capacity - p.buffer.length
    { p with buffer := p.buffer ++ bytes.take room, unsent := bytes.drop room }

/-- Runs the script up to an instant, while there is room. -/
def play (now : Nat) : List PeerStep → Peer → Peer
  | [], p => { p with script := [] }
  | step :: script, p =>
    if now < p.ready then { p with script := step :: script }
    else match step with
      | .send bytes =>
        let p := if p.closed then p else p.push bytes
        if p.unsent.isEmpty then play now script p else { p with script }
      | .pause nanos => play now script { p with ready := p.ready + nanos }
      | .close => play now script { p with closed := true }

/-- Lets the peer act up to an instant. What it held back is sent at that instant. -/
def advance (now : Nat) (p : Peer) : Peer :=
  if p.unsent.isEmpty then play now p.script p
  else
    let p := p.push p.unsent
    if p.unsent.isEmpty then play now p.script { p with ready := max p.ready now } else p

/-- When the peer acts next if the session waits from an instant on. -/
def next? (now : Nat) (p : Peer) : Option Nat :=
  if !p.unsent.isEmpty then
    if p.capacity?.all (p.buffer.length < ·) then some now else none
  else if p.script.isEmpty then none
  else some (max p.ready now)

/-- Takes bytes that have been sent. -/
def take (count : Nat) (p : Peer) : Bytes × Peer :=
  (p.buffer.take count, { p with buffer := p.buffer.drop count })

/-- A bound on how often the peer can act. -/
def size (p : Peer) : Nat :=
  p.script.foldl (fun n step => match step with
    | .send bytes => n + bytes.length + 1
    | _ => n + 1) p.unsent.length

/-- How waiting for bytes ends. -/
inductive Arrival where
  /-- They are all there at this instant. -/
  | complete (bytes : Bytes) (now : Nat) (peer : Peer)
  /-- The peer has closed behind these. -/
  | ended (bytes : Bytes) (now : Nat)
  /-- The deadline has passed. -/
  | late

/-- Waits for so many bytes until a deadline. `limit` bounds how often the peer acts meanwhile. -/
def await (deadline : Nat) : (limit : Nat) → (wanted : Nat) → (now : Nat) → Peer → Arrival
  | 0, _, _, _ => .late
  | limit + 1, wanted, now, p =>
    let (got, p) := p.take wanted
    if got.length = wanted then .complete got now p
    else if p.closed ∧ p.unsent.isEmpty then .ended got now
    else if deadline ≤ now then .late
    else match p.next? now with
      | none => .late
      | some next =>
        if deadline < next then .late
        else match await deadline limit (wanted - got.length) next (p.advance next) with
          | .complete more now p => .complete (got ++ more) now p
          | .ended more now => .ended (got ++ more) now
          | .late => .late

end Peer

end RemoteDesk
