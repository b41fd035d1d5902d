/-!
Arithmetic modulo a number, which for inverses has to be a prime.
-/
namespace RemoteDesk.Number

/-- The binary digits, most significant first. -/
def binary (n : Nat) : List Bool := ((List.range (n.log2 + 1)).map n.testBit).reverse

/-- How many binary digits a number has; zero has none. -/
def bitLength (n : Nat) : Nat := if n = 0 then 0 else n.log2 + 1

/-- `b ^ e` modulo `m`, by squaring. -/
def powMod (m b e : Nat) : Nat :=
  (binary e).foldl (fun x bit => let s := x * x % m; if bit then s * b % m else s) (1 % m)

/-- `a - b` modulo `m`. -/
def subMod (m a b : Nat) : Nat := (a + (m - b % m)) % m

/-- The inverse modulo a prime, by the order of its group. -/
def inverse (p a : Nat) : Nat := powMod p a (p - 2)

/-- `a / b` modulo a prime. -/
def divMod (p a b : Nat) : Nat := a * inverse p b % p

end RemoteDesk.Number
