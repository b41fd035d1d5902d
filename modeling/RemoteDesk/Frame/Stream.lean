import RemoteDesk.Frame.Basic

/-!
Frames on byte streams that deliver what they hold in pieces, and on sinks with little room. A
stream may end or break off anywhere.
-/
namespace RemoteDesk

/-- What one read of a stream meets. -/
inductive Chunk where
  /-- Bytes; none mean the end of the stream. -/
  | data (bytes : Bytes)
  /-- The transport fails. -/
  | broken (reason : String)
  deriving Inhabited

/-- A stream, as what its reads will meet; behind the last chunk it has ended. -/
abbrev Source := List Chunk

/-- A frame that could not be read or written. -/
inductive StreamError where
  | framing (e : FramingError)
  | transport (reason : String)
  deriving DecidableEq, Repr, Inhabited

def StreamError.message : StreamError → String
  | .framing e => e.message
  | .transport reason => "transport error: " ++ reason

/-- Reads until there are `want` bytes or the stream ends: the bytes, and the stream behind them. -/
def Source.fill : Nat → Source → Except StreamError Bytes × Source
  | 0, s => (.ok [], s)
  | _ + 1, [] => (.ok [], [])
  | _ + 1, .broken reason :: s => (.error (.transport reason), s)
  | _ + 1, .data [] :: s => (.ok [], s)
  | want + 1, .data (b :: bs) :: s =>
    if bs.length ≤ want then
      let (more, s) := fill (want - bs.length) s
      (more.map (b :: bs ++ ·), s)
    else (.ok (b :: bs.take want), .data (bs.drop want) :: s)

/-- Reads the payload of the next frame. A stream that ends before it gives none. A length that is
not admitted is the last thing read. -/
def Source.readFrame (limit : Nat) (s : Source) : Except StreamError (Option Bytes) × Source :=
  match s.fill headLength with
  | (.error e, s) => (.error e, s)
  | (.ok head, s) =>
    if head.isEmpty then (.ok none, s)
    else if head.length < headLength then
      (.error (.framing (.truncated .head headLength head.length)), s)
    else match Frame.declaredLength head limit with
      | .error e => (.error (.framing e), s)
      | .ok declared =>
        match s.fill declared with
        | (.error e, s) => (.error e, s)
        | (.ok payload, s) =>
          if payload.length < declared then
            (.error (.framing (.truncated .payload declared payload.length)), s)
          else (.ok (some payload), s)

/-- How many bytes a stream still holds. -/
def Source.size : Source → Nat
  | [] => 0
  | .broken _ :: s => size s
  | .data bs :: s => bs.length + size s

/-- The payloads of frame after frame, and the error that ended the reading, if one did. At most
`count` frames are read. -/
def Source.readFrames (limit : Nat) : Nat → Source → List Bytes × Option StreamError
  | 0, _ => ([], none)
  | count + 1, s =>
    match s.readFrame limit with
    | (.error e, _) => ([], some e)
    | (.ok none, _) => ([], none)
    | (.ok (some payload), s) =>
      let (payloads, e?) := readFrames limit count s
      (payload :: payloads, e?)

/-- The payloads of all frames of a stream. Each takes at least its head. -/
def Source.frames (limit : Nat) (s : Source) : List Bytes × Option StreamError :=
  s.readFrames limit (s.size + 1)

/-- What has been written, and how many bytes more there is room for. -/
structure Sink where
  taken : Bytes
  room : Nat
  /-- What a write that does not fit is told. -/
  whenFull : String
  deriving Inhabited

/-- Writes bytes; of those that do not fit, as many as do. -/
def Sink.write (bytes : Bytes) (s : Sink) : Except StreamError Unit × Sink :=
  let taken := s.taken ++ bytes.take s.room
  if bytes.length ≤ s.room then (.ok (), { s with taken, room := s.room - bytes.length })
  else (.error (.transport s.whenFull), { s with taken, room := 0 })

/-- Writes the frame of a JSON value. -/
def Sink.writeFrame (v : Json) (s : Sink) : Except StreamError Unit × Sink :=
  match Frame.ofJson v with
  | .error e => (.error (.framing e), s)
  | .ok bytes => s.write bytes

end RemoteDesk
