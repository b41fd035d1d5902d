import RemoteDesk.Password.Blake2

/-!
The blocks of Argon2's memory: 1024 bytes as eight rows of sixteen words. Two blocks are
compressed into one by changing first the rows and then the columns of their sum.
-/
namespace RemoteDesk.Argon2

/-- Sixteen words. -/
structure Row where
  w0 : UInt64
  w1 : UInt64
  w2 : UInt64
  w3 : UInt64
  w4 : UInt64
  w5 : UInt64
  w6 : UInt64
  w7 : UInt64
  w8 : UInt64
  w9 : UInt64
  w10 : UInt64
  w11 : UInt64
  w12 : UInt64
  w13 : UInt64
  w14 : UInt64
  w15 : UInt64
  deriving DecidableEq, Inhabited

structure Block where
  r0 : Row
  r1 : Row
  r2 : Row
  r3 : Row
  r4 : Row
  r5 : Row
  r6 : Row
  r7 : Row
  deriving DecidableEq, Inhabited

namespace Row

def zero : Row := ⟨0, 0, 0, 0, 0, 0, 0, 0, 0, 0, 0, 0, 0, 0, 0, 0⟩

def ofList : List UInt64 → Row
  | [a, b, c, d, e, f, g, h, i, j, k, l, m, n, o, p] =>
    ⟨a, b, c, d, e, f, g, h, i, j, k, l, m, n, o, p⟩
  | _ => zero

def toList (r : Row) : List UInt64 :=
  [r.w0, r.w1, r.w2, r.w3, r.w4, r.w5, r.w6, r.w7,
    r.w8, r.w9, r.w10, r.w11, r.w12, r.w13, r.w14, r.w15]

/-- The word at a place; places count from zero. -/
def get (r : Row) : Nat → UInt64
  | 0 => r.w0
  | 1 => r.w1
  | 2 => r.w2
  | 3 => r.w3
  | 4 => r.w4
  | 5 => r.w5
  | 6 => r.w6
  | 7 => r.w7
  | 8 => r.w8
  | 9 => r.w9
  | 10 => r.w10
  | 11 => r.w11
  | 12 => r.w12
  | 13 => r.w13
  | 14 => r.w14
  | _ => r.w15

def xor (r s : Row) : Row :=
  ⟨r.w0 ^^^ s.w0, r.w1 ^^^ s.w1, r.w2 ^^^ s.w2, r.w3 ^^^ s.w3, r.w4 ^^^ s.w4, r.w5 ^^^ s.w5,
    r.w6 ^^^ s.w6, r.w7 ^^^ s.w7, r.w8 ^^^ s.w8, r.w9 ^^^ s.w9, r.w10 ^^^ s.w10,
    r.w11 ^^^ s.w11, r.w12 ^^^ s.w12, r.w13 ^^^ s.w13, r.w14 ^^^ s.w14, r.w15 ^^^ s.w15⟩

/-- A sum that also has the product of the lower halves in it, twice. -/
@[inline] def blend (x y : UInt64) : UInt64 :=
  x + y + 2 * (x &&& 0xFFFFFFFF) * (y &&& 0xFFFFFFFF)

@[inline] def rotate (x n : UInt64) : UInt64 := x >>> n ||| x <<< (64 - n)

/-- Four words. -/
structure Four where
  a : UInt64
  b : UInt64
  c : UInt64
  d : UInt64

/-- Mixes four words. -/
@[inline] def mix (a b c d : UInt64) : Four :=
  let a := blend a b
  let d := rotate (d ^^^ a) 32
  let c := blend c d
  let b := rotate (b ^^^ c) 24
  let a := blend a b
  let d := rotate (d ^^^ a) 16
  let c := blend c d
  let b := rotate (b ^^^ c) 63
  ⟨a, b, c, d⟩

/-- Mixes the columns of the words laid out four by four, then the diagonals. -/
def permute (r : Row) : Row :=
  let p := mix r.w0 r.w4 r.w8 r.w12
  let q := mix r.w1 r.w5 r.w9 r.w13
  let s := mix r.w2 r.w6 r.w10 r.w14
  let t := mix r.w3 r.w7 r.w11 r.w15
  let u := mix p.a q.b s.c t.d
  let v := mix q.a s.b t.c p.d
  let w := mix s.a t.b p.c q.d
  let x := mix t.a p.b q.c s.d
  ⟨u.a, v.a, w.a, x.a, x.b, u.b, v.b, w.b, w.c, x.c, u.c, v.c, v.d, w.d, x.d, u.d⟩

end Row

namespace Block

def zero : Block := ⟨.zero, .zero, .zero, .zero, .zero, .zero, .zero, .zero⟩

@[inline] def map (f : Row → Row) (b : Block) : Block :=
  ⟨f b.r0, f b.r1, f b.r2, f b.r3, f b.r4, f b.r5, f b.r6, f b.r7⟩

def xor (b c : Block) : Block :=
  ⟨b.r0.xor c.r0, b.r1.xor c.r1, b.r2.xor c.r2, b.r3.xor c.r3, b.r4.xor c.r4, b.r5.xor c.r5,
    b.r6.xor c.r6, b.r7.xor c.r7⟩

/-- The column of which `f` and `g` take the two words out of each row. -/
@[inline] def column (f g : Row → UInt64) (b : Block) : Row :=
  ⟨f b.r0, g b.r0, f b.r1, g b.r1, f b.r2, g b.r2, f b.r3, g b.r3, f b.r4, g b.r4, f b.r5,
    g b.r5, f b.r6, g b.r6, f b.r7, g b.r7⟩

/-- Rows for columns, where a column is two words wide. -/
def transpose (b : Block) : Block :=
  ⟨b.column (·.w0) (·.w1), b.column (·.w2) (·.w3), b.column (·.w4) (·.w5),
    b.column (·.w6) (·.w7), b.column (·.w8) (·.w9), b.column (·.w10) (·.w11),
    b.column (·.w12) (·.w13), b.column (·.w14) (·.w15)⟩

theorem transpose_transpose (b : Block) : b.transpose.transpose = b := rfl

/-- Compresses two blocks into one. -/
def compress (x y : Block) : Block :=
  let r := x.xor y
  r.xor (((r.map Row.permute).transpose.map Row.permute).transpose)

/-- The word at a place; places count from zero. -/
def get (b : Block) (i : Nat) : UInt64 :=
  let row := match i / 16 with
    | 0 => b.r0
    | 1 => b.r1
    | 2 => b.r2
    | 3 => b.r3
    | 4 => b.r4
    | 5 => b.r5
    | 6 => b.r6
    | _ => b.r7
  row.get (i % 16)

/-- The row at a place of a block's bytes. -/
def rowOf (bs : Bytes) (i : Nat) : Row :=
  .ofList ((List.range 16).map fun j => Blake2.word ((bs.drop (128 * i + 8 * j)).take 8))

def ofBytes (bs : Bytes) : Block :=
  ⟨rowOf bs 0, rowOf bs 1, rowOf bs 2, rowOf bs 3, rowOf bs 4, rowOf bs 5, rowOf bs 6, rowOf bs 7⟩

def toBytes (b : Block) : Bytes :=
  [b.r0, b.r1, b.r2, b.r3, b.r4, b.r5, b.r6, b.r7].flatMap fun r =>
    r.toList.flatMap Blake2.wordBytes

/-- A block that starts with these words and is zero from there on. -/
def ofWords (a b c d e f g : UInt64) : Block :=
  { zero with r0 := ⟨a, b, c, d, e, f, g, 0, 0, 0, 0, 0, 0, 0, 0, 0⟩ }

end Block

end RemoteDesk.Argon2
