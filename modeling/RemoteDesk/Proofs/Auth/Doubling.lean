import RemoteDesk.Auth.Backoff

/-!
How long delays are. A delay is the base, doubled with every failure that is not free, or the limit
if that is shorter; so more failures never make it shorter. No product gets too long on the way.
-/
namespace RemoteDesk

namespace Duration

theorem toNanos_longest : longest.toNanos = 18446744073709551615999999999 := by decide

/-- The fraction times any factor fits in a word. -/
theorem fraction_lt (d : Duration) (k : UInt32) :
    d.nanos.toNat * k.toNat < 18446744073709551616 := by
  have hproduct : d.nanos.toNat * k.toNat ≤ 1000000000 * 4294967296 :=
    Nat.mul_le_mul (Nat.le_of_lt d.nanos_lt) (Nat.le_of_lt k.toNat_lt)
  omega

theorem toNat_fraction (d : Duration) (k : UInt32) :
    (d.nanos.toUInt64 * k.toUInt64).toNat = d.nanos.toNat * k.toNat := by
  rw [UInt64.toNat_mul, UInt32.toNat_toUInt64, UInt32.toNat_toUInt64]
  exact Nat.mod_eq_of_lt (d.fraction_lt k)

/-- The exact product, or the longest length if that is shorter. -/
theorem toNanos_saturatingMul (d : Duration) (k : UInt32) :
    (d.saturatingMul k).toNanos = Min.min (d.toNanos * k.toNat) longest.toNanos := by
  have hfraction := d.toNat_fraction k
  have htotal : d.toNanos * k.toNat =
      d.secs.toNat * k.toNat * 1000000000 + d.nanos.toNat * k.toNat := by
    rw [toNanos, Nat.add_mul, Nat.mul_right_comm]
  have hsecs : (d.nanos.toUInt64 * k.toUInt64 / 1000000000).toNat =
      d.nanos.toNat * k.toNat / 1000000000 := by
    rw [UInt64.toNat_div, hfraction]
    rfl
  have hrest : (d.nanos.toUInt64 * k.toUInt64 % 1000000000).toUInt32.toNat =
      d.nanos.toNat * k.toNat % 1000000000 := by
    have hmod : (1000000000 : UInt64).toNat = 1000000000 := rfl
    rw [UInt64.toNat_toUInt32, UInt64.toNat_mod, hfraction, hmod]
    omega
  rw [toNanos_longest, htotal, saturatingMul, hsecs]
  split
  · rename_i hfits
    rw [toNanos, hrest, UInt64.toNat_ofNat', Nat.mod_eq_of_lt hfits]
    omega
  · rw [toNanos_longest]
    omega

end Duration

namespace Auth.Backoff

variable {b : Backoff} {m n : UInt32}

theorem delayFor_eq_none_iff : b.delayFor n = none ↔ n < b.freeAttempts := by
  simp [delayFor]

theorem delayFor_of_not_free (h : ¬ n < b.freeAttempts) : b.delayFor n =
    some ((b.base.saturatingMul (1 <<< UInt32.ofNat (b.doublings n))).min b.most) := if_neg h

theorem doublings_le (b : Backoff) (n : UInt32) : b.doublings n ≤ 31 := Nat.min_le_right _ _

theorem doublings_mono (h : m ≤ n) : b.doublings m ≤ b.doublings n := by
  have h : m.toNat ≤ n.toNat := UInt32.le_iff_toNat_le.mp h
  unfold doublings
  omega

theorem toNat_ofNat_of_le {k : Nat} (h : k ≤ 31) : (UInt32.ofNat k).toNat = k := by
  rw [UInt32.toNat_ofNat']
  omega

/-- Up to 31 doublings fit in a word. -/
theorem two_pow_lt {k : Nat} (h : k ≤ 31) : Nat.pow 2 k < 4294967296 :=
  Nat.lt_of_le_of_lt (Nat.pow_le_pow_right (by decide) h : Nat.pow 2 k ≤ Nat.pow 2 31) (by decide)

theorem toNat_doubled {k : Nat} (h : k ≤ 31) :
    ((1 : UInt32) <<< UInt32.ofNat k).toNat = Nat.pow 2 k := by
  rw [UInt32.toNat_shiftLeft, toNat_ofNat_of_le h, Nat.mod_eq_of_lt (by omega : k < 32),
    UInt32.toNat_one, Nat.one_shiftLeft]
  exact Nat.mod_eq_of_lt (two_pow_lt h)

/-- The delay is the base, doubled, or the limit if that is shorter. -/
theorem toNanos_of_delayFor {d : Duration} (h : b.delayFor n = some d) :
    d.toNanos = min (b.base.toNanos * Nat.pow 2 (b.doublings n)) b.most.toNanos := by
  have hfree : ¬ n < b.freeAttempts := by
    rw [← delayFor_eq_none_iff, h]
    exact Option.some_ne_none d
  rw [delayFor_of_not_free hfree] at h
  have hmost := b.most.toNanos_le_longest
  rw [← Option.some.inj h, Duration.toNanos_min, Duration.toNanos_saturatingMul,
    toNat_doubled (b.doublings_le n)]
  omega

/-- How long an attempt waits, in nanoseconds. -/
def waitFor (b : Backoff) (n : UInt32) : Nat := ((b.delayFor n).getD .zero).toNanos

/-- No attempt waits longer than the limit. -/
theorem waitFor_le_most (b : Backoff) (n : UInt32) : b.waitFor n ≤ b.most.toNanos := by
  unfold waitFor
  cases h : b.delayFor n with
  | none => exact Nat.zero_le _
  | some d =>
    rw [Option.getD_some, toNanos_of_delayFor h]
    exact Nat.min_le_right _ _

/-- More failures never make a delay shorter. -/
theorem waitFor_mono (h : m ≤ n) : b.waitFor m ≤ b.waitFor n := by
  unfold waitFor
  cases hm : b.delayFor m with
  | none => exact Nat.zero_le _
  | some d =>
    cases hn : b.delayFor n with
    | none =>
      -- What is free for the more failures is free for the fewer.
      have hfree := UInt32.lt_of_le_of_lt h (delayFor_eq_none_iff.mp hn)
      rw [delayFor_eq_none_iff.mpr hfree] at hm
      contradiction
    | some e =>
      have hpow : Nat.pow 2 (b.doublings m) ≤ Nat.pow 2 (b.doublings n) :=
        Nat.pow_le_pow_right (by decide) (doublings_mono h)
      have hbase := Nat.mul_le_mul_left b.base.toNanos hpow
      have hd := toNanos_of_delayFor hm
      have he := toNanos_of_delayFor hn
      simp only [Option.getD_some]
      omega

end Auth.Backoff

end RemoteDesk
