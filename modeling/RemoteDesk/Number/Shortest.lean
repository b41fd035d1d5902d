/-!
Shortest decimal digits of a binary floating point number.

A finite number is `mantissa · 2 ^ exponent`. Every real between the midpoints to its two
neighbours reads back as that number; the midpoints themselves do so when the mantissa is even.
Of the decimals in that interval the one with the fewest digits is taken, of two equally short
ones the nearer, and of two equally near ones the even one.
-/
namespace RemoteDesk.Number

/-- A finite binary number without its sign. -/
structure Binary where
  mantissa : Nat
  exponent : Int
  /-- The gap below is half the gap above: the mantissa is the least of its binade. -/
  narrowBelow : Bool
  deriving Repr, DecidableEq

/-- A decimal `digits · 10 ^ exponent`. -/
structure Decimal where
  digits : Nat
  exponent : Int
  deriving Repr, DecidableEq

/-- Sign, exponent and fraction fields of a double; `none` for infinities and not-a-number. -/
def Binary.ofBits? (bits : UInt64) : Option Binary :=
  let fraction := (bits &&& 0xFFFFFFFFFFFFF).toNat
  let field := ((bits >>> 52) &&& 0x7FF).toNat
  if field = 0x7FF then none
  else if field = 0 then some ⟨fraction, -1074, false⟩
  else some ⟨1 <<< 52 + fraction, field - 1075, fraction == 0 && field > 1⟩

/-- `base ^ e` split into numerator and denominator. -/
def powerRatio (base : Nat) (e : Int) : Nat × Nat :=
  if e ≥ 0 then (base.pow e.toNat, 1) else (1, base.pow (-e).toNat)

/-- Four times the value and the two ends of the interval that rounds to it, over one
denominator: `(low, value, high, denominator)`. -/
def Binary.interval (b : Binary) : Nat × Nat × Nat × Nat :=
  let (n, d) := powerRatio 2 b.exponent
  let value := 4 * b.mantissa * n
  (value - (if b.narrowBelow then n else 2 * n), value, value + 2 * n, 4 * d)

/-- Number of digits before the decimal point; zero or negative counts the zeros after it. -/
def pointPosition (n d : Nat) : Int :=
  if d ≤ n then (Nat.toDigits 10 (n / d)).length
  else match (List.range 400).find? fun j => d ≤ n * Nat.pow 10 (j + 1) with
    | some j => -(j : Int)
    | none => -400

/-- The decimal with `count` digits that reads back, if one of the two neighbours on that grid
does. -/
def Binary.onGrid? (b : Binary) (count : Nat) : Option Decimal :=
  let (low, value, high, d) := b.interval
  let e := pointPosition value d - count
  let (tn, td) := powerRatio 10 e
  -- a candidate `c` stands for the real `c · tn / td`
  let inside := fun c : Nat =>
    let x := c * tn * d
    if b.mantissa % 2 = 0 then low * td ≤ x && x ≤ high * td
    else low * td < x && x < high * td
  let below := value * td / (d * tn)
  let above := below + 1
  match inside below, inside above with
  | false, false => none
  | true, false => some ⟨below, e⟩
  | false, true => some ⟨above, e⟩
  | true, true =>
    let gapBelow := value * td - below * tn * d
    let gapAbove := above * tn * d - value * td
    if gapBelow < gapAbove then some ⟨below, e⟩
    else if gapAbove < gapBelow then some ⟨above, e⟩
    else if below % 2 = 0 then some ⟨below, e⟩ else some ⟨above, e⟩

/-- Moves trailing zeros of the digits into the exponent. -/
def Decimal.trim : Nat → Decimal → Decimal
  | 0, d => d
  | fuel + 1, d =>
    if d.digits ≠ 0 ∧ d.digits % 10 = 0 then trim fuel ⟨d.digits / 10, d.exponent + 1⟩ else d

/-- The shortest decimal that reads back as the number; seventeen digits always do. -/
def Binary.shortest (b : Binary) : Decimal :=
  if b.mantissa = 0 then ⟨0, 0⟩
  else
    let found := (List.range 17).findSome? fun i => b.onGrid? (i + 1)
    (found.getD ⟨0, 0⟩).trim 20

end RemoteDesk.Number
