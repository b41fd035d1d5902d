import RemoteDesk.Bytes
import RemoteDesk.Number.Modular

/-!
The points of an elliptic curve `y² = x³ - 3x + b` over a prime field. The neutral point has no
coordinates.
-/
namespace RemoteDesk.Tls

open Number

structure Curve where
  prime : Nat
  /-- How many multiples the base point has. -/
  order : Nat
  base : Nat × Nat
  /-- Bytes of a coordinate. -/
  width : Nat

namespace Curve

abbrev Point := Option (Nat × Nat)

/-- The third point on a line with a slope through a point, mirrored. -/
def along (c : Curve) (slope : Nat) (x y x' : Nat) : Point :=
  let p := c.prime
  let x'' := subMod p (slope * slope) (x + x')
  some (x'', subMod p (slope * subMod p x x'') y)

def double (c : Curve) : Point → Point
  | none => none
  | some (x, y) =>
    let p := c.prime
    if y = 0 then none
    else c.along (divMod p (subMod p (3 * x * x) 3) (2 * y)) x y x

def add (c : Curve) : Point → Point → Point
  | none, b => b
  | a, none => a
  | some (x, y), some (x', y') =>
    let p := c.prime
    if x = x' then if y = y' then c.double (some (x, y)) else none
    else c.along (divMod p (subMod p y' y) (subMod p x' x)) x y x'

/-- A multiple of the base point. -/
def multiple (c : Curve) (n : Nat) : Point :=
  (binary n).foldl (fun a bit => if bit then c.add (c.double a) (some c.base) else c.double a) none

/-- A number in so many bytes, most significant first. -/
def coordinate (c : Curve) (n : Nat) : Bytes := (littleEndian c.width n).reverse

/-- The form of a point in keys: a mark and both coordinates. -/
def encode (c : Curve) : Point → Bytes
  | none => [0]
  | some (x, y) => 4 :: (c.coordinate x ++ c.coordinate y)

/-- The curve with 256-bit coordinates. -/
def p256 : Curve where
  prime := 1 <<< 256 - 1 <<< 224 + 1 <<< 192 + 1 <<< 96 - 1
  order := 0xffffffff00000000ffffffffffffffffbce6faada7179e84f3b9cac2fc632551
  base := (0x6b17d1f2e12c4247f8bce6e563a440f277037d812deb33a0f4a13945d898c296,
    0x4fe342e2fe1a7f9b8ee7eb4a7c0f9e162bce33576b315ececbb6406837bf51f5)
  width := 32

/-- The curve with 384-bit coordinates. -/
def p384 : Curve where
  prime := 1 <<< 384 - 1 <<< 128 - 1 <<< 96 + 1 <<< 32 - 1
  order := 0xffffffffffffffffffffffffffffffffffffffffffffffffc7634d81f4372ddf581a0db248b0a77aecec196accc52973
  base := (0xaa87ca22be8b05378eb1c71ef320ad746e1d3b628ba79b9859f741e082542a385502f25dbf55296c3a545e3872760ab7,
    0x3617de4a96262c6f5d9e98bf9292dc29f8f41dbd289a147ce9da3113b5f0b8c00a60b1ce1d7e819d7a431d7c90ea0e5f)
  width := 48

end Curve

end RemoteDesk.Tls
