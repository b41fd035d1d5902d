import RemoteDesk.Bytes

/-!
The hash function BLAKE2b without a key: a state of eight words, changed by blocks of 128 bytes,
in twelve rounds of eight mixing steps each.
-/
namespace RemoteDesk.Blake2

/-- Words of the state to start from. -/
def start : Vector UInt64 8 :=
  #v[0x6A09E667F3BCC908, 0xBB67AE8584CAA73B, 0x3C6EF372FE94F82B, 0xA54FF53A5F1D36F1,
    0x510E527FADE682D1, 0x9B05688C2B3E6C1F, 0x1F83D9ABFB41BD6B, 0x5BE0CD19137E2179]

/-- The order in which a round takes the words of a block. -/
def order : Nat → Vector (Fin 16) 16
  | 0 => #v[0, 1, 2, 3, 4, 5, 6, 7, 8, 9, 10, 11, 12, 13, 14, 15]
  | 1 => #v[14, 10, 4, 8, 9, 15, 13, 6, 1, 12, 0, 2, 11, 7, 5, 3]
  | 2 => #v[11, 8, 12, 0, 5, 2, 15, 13, 10, 14, 3, 6, 7, 1, 9, 4]
  | 3 => #v[7, 9, 3, 1, 13, 12, 11, 14, 2, 6, 5, 10, 4, 0, 15, 8]
  | 4 => #v[9, 0, 5, 7, 2, 4, 10, 15, 14, 1, 11, 12, 6, 8, 3, 13]
  | 5 => #v[2, 12, 6, 10, 0, 11, 8, 3, 4, 13, 7, 5, 15, 14, 1, 9]
  | 6 => #v[12, 5, 1, 15, 14, 13, 4, 10, 0, 7, 6, 3, 9, 2, 8, 11]
  | 7 => #v[13, 11, 7, 14, 12, 1, 3, 9, 5, 0, 15, 4, 8, 6, 2, 10]
  | 8 => #v[6, 15, 14, 9, 11, 3, 0, 8, 12, 2, 13, 7, 1, 4, 10, 5]
  | _ => #v[10, 2, 8, 4, 7, 6, 1, 5, 15, 11, 9, 14, 3, 12, 13, 0]

def rotateRight (x n : UInt64) : UInt64 := x >>> n ||| x <<< (64 - n)

/-- Mixes two words of a block into four words of the state. -/
def mix (v : Vector UInt64 16) (i j k l : Fin 16) (x y : UInt64) : Vector UInt64 16 :=
  let a := v[i] + v[j] + x
  let d := rotateRight (v[l] ^^^ a) 32
  let c := v[k] + d
  let b := rotateRight (v[j] ^^^ c) 24
  let a := a + b + y
  let d := rotateRight (d ^^^ a) 16
  let c := c + d
  let b := rotateRight (b ^^^ c) 63
  (((v.set i a).set j b).set k c).set l d

/-- One round: the columns of the state, then its diagonals. -/
def round (m : Vector UInt64 16) (v : Vector UInt64 16) (r : Nat) : Vector UInt64 16 :=
  let s := order (r % 10)
  let v := mix v 0 4 8 12 m[s[0]] m[s[1]]
  let v := mix v 1 5 9 13 m[s[2]] m[s[3]]
  let v := mix v 2 6 10 14 m[s[4]] m[s[5]]
  let v := mix v 3 7 11 15 m[s[6]] m[s[7]]
  let v := mix v 0 5 10 15 m[s[8]] m[s[9]]
  let v := mix v 1 6 11 12 m[s[10]] m[s[11]]
  let v := mix v 2 7 8 13 m[s[12]] m[s[13]]
  mix v 3 4 9 14 m[s[14]] m[s[15]]

/-- The word that eight bytes spell, the lowest first. -/
def word (bs : Bytes) : UInt64 :=
  bs.foldr (fun b w => w <<< 8 ||| b.toUInt64) 0

/-- The bytes of a word, the lowest first. -/
def wordBytes (w : UInt64) : Bytes :=
  [w.toUInt8, (w >>> 8).toUInt8, (w >>> 16).toUInt8, (w >>> 24).toUInt8, (w >>> 32).toUInt8,
    (w >>> 40).toUInt8, (w >>> 48).toUInt8, (w >>> 56).toUInt8]

/-- The words of a block. -/
def blockWords (bs : Bytes) : Vector UInt64 16 :=
  Vector.ofFn fun i => word ((bs.drop (8 * i.val)).take 8)

/-- Changes the state by a block, after `length` bytes in all. -/
def compress (h : Vector UInt64 8) (block : Bytes) (length : Nat) (last : Bool) :
    Vector UInt64 8 :=
  let m := blockWords block
  let v : Vector UInt64 16 :=
    #v[h[0], h[1], h[2], h[3], h[4], h[5], h[6], h[7],
      start[0], start[1], start[2], start[3],
      start[4] ^^^ length.toUInt64, start[5],
      if last then ~~~start[6] else start[6], start[7]]
  let v := (List.range 12).foldl (round m) v
  Vector.ofFn fun i => h[i] ^^^ v[i.castLE (by decide : 8 ≤ 16)] ^^^ v[Fin.natAdd 8 i]

/-- A block filled up with zeros. -/
def padBlock (bs : Bytes) : Bytes := bs ++ List.replicate (128 - bs.length) 0

/-- Changes the state by all of a message, of which `done` bytes have been taken. -/
def absorb (h : Vector UInt64 8) (done : Nat) (bs : Bytes) : Vector UInt64 8 :=
  if 128 < bs.length then
    absorb (compress h (bs.take 128) (done + 128) false) (done + 128) (bs.drop 128)
  else compress h (padBlock bs) (done + bs.length) true
termination_by bs.length
decreasing_by
  simp only [List.length_drop]
  omega

/-- The hash of a message, `size` bytes of at most 64. -/
def hash (size : Nat) (message : Bytes) : Bytes :=
  let h := start.set 0 (start[0] ^^^ 0x01010000 ^^^ size.toUInt64)
  ((absorb h 0 message).toList.flatMap wordBytes).take size

end RemoteDesk.Blake2
