import RemoteDesk.Command.Error
import RemoteDesk.Json.Parser
import RemoteDesk.Json.Printer

/-!
Frames: a payload behind its length, a 32-bit number with the least significant byte first. The
payload is the JSON text of one object.
-/
namespace RemoteDesk

/-- Bytes of the length in front of a payload. -/
def headLength : Nat := 4

/-- The limit on payloads that applies when no other is set. -/
def defaultMaxLength : Nat := 1048576

/-- The greatest length that fits in front of a payload. -/
def maxDeclared : Nat := 4294967295

/-- The part of a frame that is cut off. -/
inductive FrameSection where
  | head
  | payload
  deriving DecidableEq, Repr, Inhabited

/-- A broken frame. Nothing behind it can be read. -/
inductive FramingError where
  | oversized (declared limit : Nat)
  | truncated (part : FrameSection) (expected received : Nat)
  deriving DecidableEq, Repr, Inhabited

def FrameSection.name : FrameSection → String
  | .head => "length prefix"
  | .payload => "payload"

def FramingError.message : FramingError → String
  | .oversized declared limit =>
    "frame of " ++ toString declared ++ " bytes exceeds the " ++ toString limit ++ "-byte limit"
  | .truncated part expected received =>
    "stream closed mid-frame: read " ++ toString received ++ " of " ++ toString expected ++ " " ++
      part.name ++ " bytes"

/-- Why no object could be taken off the front of some bytes. -/
inductive DecodeError where
  | framing (e : FramingError)
  | protocol (e : ProtocolError)
  deriving Repr, Inhabited

def DecodeError.message : DecodeError → String
  | .framing e => e.message
  | .protocol e => e.message

namespace Frame

/-- Puts the length in front of a payload. -/
def encode (payload : Bytes) : Except FramingError Bytes :=
  if payload.length ≤ maxDeclared then .ok (littleEndian headLength payload.length ++ payload)
  else .error (.oversized payload.length maxDeclared)

theorem encode_eq_ok {payload : Bytes} (h : payload.length ≤ maxDeclared) :
    encode payload = .ok (littleEndian headLength payload.length ++ payload) := if_pos h

/-- The frame of a JSON value. -/
def ofJson (v : Json) : Except FramingError Bytes := encode v.render

/-- The length that a frame's first bytes declare. -/
def declaredLength (head : Bytes) (limit : Nat) : Except FramingError Nat :=
  let declared := ofLittleEndian head
  if limit < declared then .error (.oversized declared limit) else .ok declared

/-- The object that a payload spells. -/
def object (payload : Bytes) : Except ProtocolError Json.Members :=
  match Json.parse payload with
  | .error e => .error (.invalidJson e)
  | .ok (.obj ms) => .ok ms
  | .ok v => .error (.notAnObject v.kind)

/-- Splits the payload of the first frame from what follows the frame. -/
def split (bytes : Bytes) (limit : Nat) : Except FramingError (Bytes × Bytes) :=
  let (head, rest) := bytes.splitAt headLength
  if head.length < headLength then .error (.truncated .head headLength head.length)
  else do
    let declared ← declaredLength head limit
    let (payload, rest) := rest.splitAt declared
    if payload.length < declared then .error (.truncated .payload declared payload.length)
    else return (payload, rest)

/-- The object of the first frame, and the number of bytes of that frame. -/
def decode (bytes : Bytes) (limit : Nat) : Except DecodeError (Json.Members × Nat) :=
  match split bytes limit with
  | .error e => .error (.framing e)
  | .ok (payload, _) =>
    match object payload with
    | .error e => .error (.protocol e)
    | .ok ms => .ok (ms, headLength + payload.length)

/-- A decoded frame has its head. -/
theorem headLength_le_of_decode {bytes : Bytes} {limit : Nat} {ms : Json.Members} {n : Nat}
    (h : decode bytes limit = .ok (ms, n)) : headLength ≤ n := by
  unfold decode at h
  repeat' split at h <;> try cases h
  exact Nat.le_add_right ..

/-- What decoding frame after frame gives: the objects with their frames' sizes, and the error
that ended it, if one did. -/
structure Stream where
  frames : List (Json.Members × Nat)
  error? : Option DecodeError
  deriving Inhabited

/-- The number of bytes decoded. -/
def Stream.cursor (s : Stream) : Nat := s.frames.foldl (fun n f => n + f.2) 0

/-- Decodes frame after frame while bytes are left. -/
def decodeAll (bytes : Bytes) (limit : Nat) : Stream :=
  if bytes = [] then ⟨[], none⟩
  else match _h : decode bytes limit with
    | .error e => ⟨[], some e⟩
    | .ok (ms, n) =>
      let s := decodeAll (bytes.drop n) limit
      { s with frames := (ms, n) :: s.frames }
termination_by bytes.length
decreasing_by
  have := headLength_le_of_decode _h
  have := List.length_pos_iff.2 ‹bytes ≠ []›
  simp only [List.length_drop, headLength] at *
  omega

end Frame

end RemoteDesk
