import RemoteDesk.Password.Block

/-!
Argon2: a hash of passwords that takes memory. The memory is filled in passes; each block comes
out of the one before it and of one that is picked by earlier contents, by the position alone, or
by one in the first half of the first pass and the other afterwards.
-/
namespace RemoteDesk.Argon2

/-- How blocks are picked. -/
inductive Variant where
  /-- By earlier contents. -/
  | d
  /-- By the position. -/
  | i
  /-- By the position at first, then by earlier contents. -/
  | id
  deriving DecidableEq, Repr, Inhabited

namespace Variant

def name : Variant → String
  | .d => "argon2d"
  | .i => "argon2i"
  | .id => "argon2id"

def ofName? (name : String) : Option Variant := [d, i, id].find? fun v => v.name == name

def number : Variant → Nat
  | .d => 0
  | .i => 1
  | .id => 2

end Variant

/-- The older version writes over what a pass left, the newer one adds to it. -/
inductive Version where
  | older
  | newer
  deriving DecidableEq, Repr, Inhabited

namespace Version

def number : Version → Nat
  | .older => 16
  | .newer => 19

def ofNumber? (n : Nat) : Option Version := [older, newer].find? fun v => v.number == n

end Version

/-- What a hash costs: kibibytes of memory, passes, and lanes; and how long it is, if that is
said. -/
structure Params where
  memory : Nat
  passes : Nat
  lanes : Nat
  length? : Option Nat
  deriving DecidableEq, Repr, Inhabited

inductive ParamsError where
  | memoryTooSmall
  | timeTooSmall
  | tooFewLanes
  | tooManyLanes
  | outputTooShort
  deriving DecidableEq, Repr, Inhabited

def ParamsError.message : ParamsError → String
  | .memoryTooSmall => "memory cost is too small"
  | .timeTooSmall => "time cost is too small"
  | .tooFewLanes => "not enough threads"
  | .tooManyLanes => "too many threads"
  | .outputTooShort => "output is too short"

namespace Params

def standard : Params := ⟨19456, 2, 1, none⟩

/-- The cost, if it is within the limits. -/
def check (p : Params) : Except ParamsError Params :=
  if p.memory < 8 ∨ p.memory < 8 * p.lanes then .error .memoryTooSmall
  else if p.passes < 1 then .error .timeTooSmall
  else if p.lanes < 1 then .error .tooFewLanes
  else if 16777215 < p.lanes then .error .tooManyLanes
  else if p.length?.any (· < 4) then .error .outputTooShort
  else .ok p

/-- Bytes of a hash whose length is not said. -/
def length (p : Params) : Nat := p.length?.getD 32

/-- Blocks in a quarter of a lane. -/
def segment (p : Params) : Nat := p.memory / (4 * p.lanes)

/-- Blocks in a lane. -/
def lane (p : Params) : Nat := 4 * p.segment

/-- Blocks in all. -/
def blocks (p : Params) : Nat := p.lanes * p.lane

end Params

/-- What is hashed, and how. -/
structure Input where
  variant : Variant
  version : Version
  params : Params
  password : Bytes
  salt : Bytes
  /-- Data that the hash depends on and that is not secret. -/
  associated : Bytes

/-- A number in four bytes, the lowest first. -/
def number4 (n : Nat) : Bytes := littleEndian 4 n

/-- A byte string behind its length. -/
def counted (bs : Bytes) : Bytes := number4 bs.length ++ bs

/-- The 64 bytes that the memory grows out of. -/
def seed (x : Input) : Bytes :=
  Blake2.hash 64 <|
    number4 x.params.lanes ++ number4 x.params.length ++ number4 x.params.memory ++
    number4 x.params.passes ++ number4 x.version.number ++ number4 x.variant.number ++
    counted x.password ++ counted x.salt ++ counted [] ++ counted x.associated

/-- The halves of hashes of hashes, `count` of them, and what is hashed last. -/
def chain : Nat → Bytes → Bytes × Bytes
  | 0, v => ([], v)
  | count + 1, v =>
    let (more, last) := chain count (Blake2.hash 64 v)
    (v.take 32 ++ more, last)

/-- A hash of any length. -/
def longHash (length : Nat) (message : Bytes) : Bytes :=
  let message := number4 length ++ message
  if length ≤ 64 then Blake2.hash length message
  else
    let halves := (length + 31) / 32 - 2
    let (front, last) := chain (halves - 1) (Blake2.hash 64 message)
    front ++ last.take 32 ++ Blake2.hash (length - 32 * halves) last

/-- A place in the order of filling. -/
structure Position where
  pass : Nat
  /-- The quarter of the lane. -/
  slice : Nat
  lane : Nat
  deriving DecidableEq

/-- Whether blocks are picked by the position alone. -/
def byPosition (v : Variant) (place : Position) : Bool :=
  match v with
  | .d => false
  | .i => true
  | .id => place.pass = 0 && place.slice < 2

/-- The words that pick blocks in a segment, in blocks of their own. -/
def picks (x : Input) (place : Position) : Array Block :=
  ((List.range (x.params.segment / 128 + 1)).map fun k =>
    let z := Block.ofWords place.pass.toUInt64 place.lane.toUInt64 place.slice.toUInt64
      x.params.blocks.toUInt64 x.params.passes.toUInt64 x.variant.number.toUInt64
      (k + 1).toUInt64
    Block.zero.compress (Block.zero.compress z)).toArray

/-- The block that a word picks for a place in a segment: its lane and its place there. -/
def picked (p : Params) (place : Position) (index : Nat) (word : UInt64) : Nat × Nat :=
  let low := (word &&& 0xFFFFFFFF).toNat
  let high := (word >>> 32).toNat
  let lane := if place.pass = 0 ∧ place.slice = 0 then place.lane else high % p.lanes
  let before := if place.pass = 0 then place.slice * p.segment else p.lane - p.segment
  let area :=
    if lane = place.lane then before + index - 1
    else if index = 0 then before - 1
    else before
  let back := area * (low * low / 4294967296) / 4294967296
  let start := if place.pass = 0 ∨ place.slice = 3 then 0 else (place.slice + 1) * p.segment
  (lane, (start + (area - 1 - back)) % p.lane)

/-- Fills one block in. -/
def fillBlock (x : Input) (place : Position) (words : Array Block) (memory : Array Block)
    (index : Nat) : Array Block :=
  let p := x.params
  let column := place.slice * p.segment + index
  let here := place.lane * p.lane + column
  let before := memory.getD (place.lane * p.lane + (column + p.lane - 1) % p.lane) .zero
  let word :=
    if byPosition x.variant place then (words.getD (index / 128) .zero).get (index % 128)
    else before.r0.w0
  let (lane, column) := picked p place index word
  let block := before.compress (memory.getD (lane * p.lane + column) .zero)
  if place.pass = 0 ∨ x.version = .older then memory.setIfInBounds here block
  else
    let left := memory.getD here .zero
    memory.setIfInBounds here (block.xor left)

/-- Fills a quarter of a lane. The first two blocks of each lane are there from the start. -/
def fillSegment (x : Input) (memory : Array Block) (place : Position) : Array Block :=
  let first := if place.pass = 0 ∧ place.slice = 0 then 2 else 0
  let words := if byPosition x.variant place then picks x place else #[]
  (List.range' first (x.params.segment - first)).foldl (fillBlock x place words) memory

/-- All segments in the order in which they are filled. -/
def positions (p : Params) : List Position :=
  (List.range p.passes).flatMap fun pass =>
    (List.range 4).flatMap fun slice =>
      (List.range p.lanes).map fun lane => ⟨pass, slice, lane⟩

/-- The memory with the first two blocks of each lane. -/
def firstBlocks (x : Input) : Array Block :=
  let seed := seed x
  (List.range x.params.lanes).foldl (fun memory lane =>
    (List.range 2).foldl (fun memory column =>
      memory.setIfInBounds (lane * x.params.lane + column)
        (.ofBytes (longHash 1024 (seed ++ number4 column ++ number4 lane)))) memory)
    (Array.replicate x.params.blocks Block.zero)

/-- The hash, for a cost within the limits. -/
def hash (x : Input) : Bytes :=
  let p := x.params
  let memory := (positions p).foldl (fillSegment x) (firstBlocks x)
  let last := (List.range p.lanes).foldl (fun sum lane =>
    Block.xor sum (memory.getD (lane * p.lane + p.lane - 1) .zero)) Block.zero
  longHash p.length last.toBytes

end RemoteDesk.Argon2
