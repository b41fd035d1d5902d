import RemoteDesk.Number.Modular
import RemoteDesk.Tls.Sha512

/-!
The points of the curve `y² - x² = 1 + d x² y²` over the field of `2²⁵⁵ - 19` elements, and the
public keys that seeds stand for there.
-/
namespace RemoteDesk.Tls.Edwards

open Number

def prime : Nat := 1 <<< 255 - 19

def d : Nat := divMod prime (prime - 121665) 121666

structure Point where
  x : Nat
  y : Nat
  deriving DecidableEq, Repr

def neutral : Point := ⟨0, 1⟩

def base : Point :=
  ⟨0x216936d3cd6e53fec0a4e231fdd6dc5c692cc7609525a7b2c9562d608f25d51a, divMod prime 4 5⟩

def add (a b : Point) : Point :=
  let t := d * (a.x * b.x % prime) * (a.y * b.y % prime) % prime
  ⟨divMod prime (a.x * b.y + a.y * b.x) (1 + t),
    divMod prime (a.y * b.y + a.x * b.x) (subMod prime 1 t)⟩

/-- A multiple of the base point. -/
def multiple (n : Nat) : Point :=
  (binary n).foldl (fun a bit => if bit then add (add a a) base else add a a) neutral

/-- The second coordinate, with the parity of the first in the highest bit. -/
def encode (a : Point) : Bytes := littleEndian 32 (a.y + (a.x % 2) <<< 255)

/-- The public key of a seed: its hash, trimmed to a multiple of eight with a fixed highest bit,
times the base point. -/
def publicKey (seed : Bytes) : Bytes :=
  let n := ofLittleEndian ((Sha512.hash seed).take 32)
  encode (multiple (n % 1 <<< 254 / 8 * 8 + 1 <<< 254))

end RemoteDesk.Tls.Edwards
