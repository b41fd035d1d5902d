import RemoteDesk.Bytes

/-!
A hash of 64 bytes. Its constants are the first 64 bits behind the point of square and cube roots
of the first primes.
-/
namespace RemoteDesk.Tls.Sha512

/-! ### Constants -/

def isPrime (n : Nat) : Bool := 2 ≤ n && (List.range n).all fun d => d < 2 || n % d ≠ 0

/-- The first eighty primes. -/
def primes : List Nat := (List.range 410).filter isPrime

/-- The largest number of at most `bits` binary digits whose power does not exceed `n`. -/
def root (power bits n : Nat) : Nat :=
  (List.range bits).reverse.foldl
    (fun r i => if (r + 1 <<< i).pow power ≤ n then r + 1 <<< i else r) 0

/-- The first 64 bits behind the point of a root. -/
def rootFraction (power n : Nat) : UInt64 := UInt64.ofNat (root power 72 (n <<< (64 * power)))

def rounds : List UInt64 := primes.map (rootFraction 3)

/-! ### Words -/

def rotate (x : UInt64) (n : UInt64) : UInt64 := (x >>> n) ||| (x <<< (64 - n))

def choose (x y z : UInt64) : UInt64 := (x &&& y) ^^^ (~~~x &&& z)

def majority (x y z : UInt64) : UInt64 := (x &&& y) ^^^ (x &&& z) ^^^ (y &&& z)

/-- The word of eight bytes, most significant first. -/
def word (bs : Bytes) : UInt64 := bs.foldl (fun w b => (w <<< 8) ||| b.toUInt64) 0

def wordBytes (w : UInt64) : Bytes := (littleEndian 8 w.toNat).reverse

/-! ### Blocks -/

structure State where
  a : UInt64
  b : UInt64
  c : UInt64
  d : UInt64
  e : UInt64
  f : UInt64
  g : UInt64
  h : UInt64

def start : State :=
  ⟨rootFraction 2 2, rootFraction 2 3, rootFraction 2 5, rootFraction 2 7, rootFraction 2 11,
    rootFraction 2 13, rootFraction 2 17, rootFraction 2 19⟩

/-- The words of a block, and those that follow from sixteen before them, last first. -/
def extend : Nat → List UInt64 → List UInt64
  | 0, ws => ws
  | n + 1, ws =>
    let at' := fun i => ws[i]?.getD 0
    let x := at' 14
    let y := at' 1
    let s := rotate x 1 ^^^ rotate x 8 ^^^ (x >>> 7)
    let t := rotate y 19 ^^^ rotate y 61 ^^^ (y >>> 6)
    extend n ((at' 15 + s + at' 6 + t) :: ws)

def round (s : State) (k w : UInt64) : State :=
  let t := s.h + (rotate s.e 14 ^^^ rotate s.e 18 ^^^ rotate s.e 41) + choose s.e s.f s.g + k + w
  let u := (rotate s.a 28 ^^^ rotate s.a 34 ^^^ rotate s.a 39) + majority s.a s.b s.c
  ⟨t + u, s.a, s.b, s.c, s.d + t, s.e, s.f, s.g⟩

def State.add (s t : State) : State :=
  ⟨s.a + t.a, s.b + t.b, s.c + t.c, s.d + t.d, s.e + t.e, s.f + t.f, s.g + t.g, s.h + t.h⟩

/-- The parts of a list with so many items each. -/
def parts (size : Nat) : Nat → List α → List (List α)
  | 0, _ => []
  | n + 1, xs => xs.take size :: parts size n (xs.drop size)

def block (s : State) (bs : Bytes) : State :=
  let words := extend 64 ((parts 8 16 bs).map word).reverse
  s.add ((rounds.zip words.reverse).foldl (fun t (k, w) => round t k w) s)

/-- The message, a one bit, zeros, and the length of the message in bits. -/
def padded (message : Bytes) : Bytes :=
  let zeros := (239 - message.length % 128) % 128
  message ++ 0x80 :: List.replicate zeros 0 ++ (littleEndian 16 (8 * message.length)).reverse

def hash (message : Bytes) : Bytes :=
  let bs := padded message
  let s := (parts 128 (bs.length / 128) bs).foldl block start
  [s.a, s.b, s.c, s.d, s.e, s.f, s.g, s.h].flatMap wordBytes

end RemoteDesk.Tls.Sha512
