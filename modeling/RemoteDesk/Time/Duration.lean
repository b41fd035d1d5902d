/-!
Lengths of time: whole seconds in a 64-bit word, and a fraction in nanoseconds. Products that do
not fit stop at the longest length.
-/
namespace RemoteDesk

structure Duration where
  secs : UInt64
  nanos : UInt32
  nanos_lt : nanos.toNat < 1000000000
  deriving DecidableEq

namespace Duration

instance : Inhabited Duration := ⟨⟨0, 0, by decide⟩⟩

instance : Repr Duration := ⟨fun d _ => repr (d.secs, d.nanos)⟩

def zero : Duration := default

/-- The longest length. -/
def longest : Duration := ⟨18446744073709551615, 999999999, by decide⟩

/-- The length in nanoseconds. -/
def toNanos (d : Duration) : Nat := d.secs.toNat * 1000000000 + d.nanos.toNat

/-- The length of so many nanoseconds, if it is not too long. -/
def ofNanos (n : Nat) : Duration :=
  if n / 1000000000 < 18446744073709551616 then
    ⟨UInt64.ofNat (n / 1000000000), UInt32.ofNat (n % 1000000000), by
      rw [UInt32.toNat_ofNat']; omega⟩
  else longest

def ofMillis (ms : UInt64) : Duration := ofNanos (ms.toNat * 1000000)

def ofSecs (secs : UInt64) : Duration := ⟨secs, 0, by decide⟩

theorem toNanos_ofNanos {n : Nat} (h : n / 1000000000 < 18446744073709551616) :
    (ofNanos n).toNanos = n := by
  have hs : (UInt64.ofNat (n / 1000000000)).toNat = n / 1000000000 :=
    (UInt64.toNat_ofNat').trans (Nat.mod_eq_of_lt h)
  have hn : (UInt32.ofNat (n % 1000000000)).toNat = n % 1000000000 := by
    rw [UInt32.toNat_ofNat']; omega
  simp only [ofNanos, if_pos h, toNanos, hs, hn]
  omega

theorem toNanos_ofMillis (ms : UInt64) : (ofMillis ms).toNanos = ms.toNat * 1000000 := by
  have := ms.toNat_lt
  exact toNanos_ofNanos (by omega)

theorem toNanos_le_longest (d : Duration) : d.toNanos ≤ longest.toNanos := by
  have hs := d.secs.toNat_lt
  have hn := d.nanos_lt
  have : longest.toNanos = 18446744073709551615 * 1000000000 + 999999999 := by decide
  unfold toNanos at *
  omega

/-- The length `k` times over, or the longest one. -/
def saturatingMul (d : Duration) (k : UInt32) : Duration :=
  let fraction := d.nanos.toUInt64 * k.toUInt64
  let secs := d.secs.toNat * k.toNat + (fraction / 1000000000).toNat
  if secs < 18446744073709551616 then
    ⟨UInt64.ofNat secs, (fraction % 1000000000).toUInt32, by
      have : (fraction % 1000000000).toNat < 1000000000 := by
        rw [UInt64.toNat_mod]
        exact Nat.mod_lt _ (by decide)
      rw [UInt64.toNat_toUInt32]; omega⟩
  else longest

/-- The shorter of two lengths. -/
def min (a b : Duration) : Duration := if a.toNanos ≤ b.toNanos then a else b

theorem toNanos_min (a b : Duration) : (a.min b).toNanos = Min.min a.toNanos b.toNanos := by
  unfold min
  split <;> omega

/-! ### Text -/

/-- A number with a fraction whose trailing zeros are left out; `places` digits follow the
point at most. -/
def decimalText (whole fraction places : Nat) : String :=
  let digits := (Nat.toDigits 10 (Nat.pow 10 places + fraction)).drop 1
  match (digits.reverse.dropWhile (· == '0')).reverse with
  | [] => toString whole
  | kept => toString whole ++ "." ++ String.ofList kept

/-- The length in the largest unit that it fills. -/
def text (d : Duration) : String :=
  let nanos := d.nanos.toNat
  if d.secs ≠ 0 then decimalText d.secs.toNat nanos 9 ++ "s"
  else if 1000000 ≤ nanos then decimalText (nanos / 1000000) (nanos % 1000000) 6 ++ "ms"
  else if 1000 ≤ nanos then decimalText (nanos / 1000) (nanos % 1000) 3 ++ "µs"
  else toString nanos ++ "ns"

end Duration

end RemoteDesk
