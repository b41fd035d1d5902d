import RemoteDesk.Proofs.Auth.Doubling

/-!
Delays are exact. A delay is worked out in words of 32 and 64 bits, and no word overflows on the
way: what is subtracted is never more than what there is, a one that is shifted stays in its word,
and the only product and the only sum that may be too large are those of the seconds, which are
seen to be. So a delay is what it would be in numbers without bounds, however long the base and the
limit, and however many the failures.
-/
namespace RemoteDesk

/-! ### Words that must not overflow -/

namespace Words

/-- The difference, unless it is negative. -/
def minus? (a b : UInt32) : Option UInt32 := if b ≤ a then some (a - b) else none

/-- The word shifted to the left, unless it is shifted too far or loses a bit. -/
def shifted? (a k : UInt32) : Option UInt32 :=
  if k < 32 ∧ a.toNat * Nat.pow 2 k.toNat < 4294967296 then some (a <<< k) else none

/-- The product, unless it is too large. -/
def times? (a b : UInt64) : Option UInt64 :=
  if a.toNat * b.toNat < 18446744073709551616 then some (a * b) else none

/-- The sum, unless it is too large. -/
def plus? (a b : UInt64) : Option UInt64 :=
  if a.toNat + b.toNat < 18446744073709551616 then some (a + b) else none

/-- The word as a shorter one, unless it is too large. -/
def narrowed? (a : UInt64) : Option UInt32 :=
  if a.toNat < 4294967296 then some a.toUInt32 else none

/-- A product and a sum that may both be too large, and the number that they stand for. -/
theorem times?_bind_plus? (a b c : UInt64) :
    (times? a b).bind (plus? · c) =
      if a.toNat * b.toNat + c.toNat < 18446744073709551616 then
        some (.ofNat (a.toNat * b.toNat + c.toNat))
      else none := by
  by_cases hproduct : a.toNat * b.toNat < 18446744073709551616
  · have hfits : (a * b).toNat = a.toNat * b.toNat := by
      rw [UInt64.toNat_mul]
      exact Nat.mod_eq_of_lt hproduct
    have hsum : a * b + c = .ofNat (a.toNat * b.toNat + c.toNat) := by
      rw [← UInt64.toNat_inj, UInt64.toNat_add, hfits, UInt64.toNat_ofNat']
    rw [times?, if_pos hproduct, Option.bind_some, plus?, hfits, hsum]
  · rw [times?, if_neg hproduct, Option.bind_none, if_neg (by omega)]

end Words

open Words

/-- The length so many times over, word by word, if no word overflows that must not. The seconds
may be too many, and the longest length is taken then. -/
def Duration.saturatingMul? (d : Duration) (k : UInt32) : Option Duration := do
  let fraction ← times? d.nanos.toUInt64 k.toUInt64
  let nanos ← narrowed? (fraction % 1000000000)
  match (times? d.secs k.toUInt64).bind (plus? · (fraction / 1000000000)) with
  | some secs => if h : nanos.toNat < 1000000000 then some ⟨secs, nanos, h⟩ else none
  | none => some longest

/-- No word overflows in a product. -/
theorem Duration.saturatingMul?_eq (d : Duration) (k : UInt32) :
    d.saturatingMul? k = some (d.saturatingMul k) := by
  have hproduct : d.nanos.toUInt64.toNat * k.toUInt64.toNat < 18446744073709551616 := by
    rw [UInt32.toNat_toUInt64, UInt32.toNat_toUInt64]
    exact d.fraction_lt k
  have hrest : (d.nanos.toUInt64 * k.toUInt64 % 1000000000).toNat < 1000000000 := by
    rw [UInt64.toNat_mod]
    exact Nat.mod_lt _ (by decide)
  have hnanos : (d.nanos.toUInt64 * k.toUInt64 % 1000000000).toUInt32.toNat < 1000000000 := by
    rw [UInt64.toNat_toUInt32]
    omega
  rw [saturatingMul?, times?, if_pos hproduct, Option.bind_eq_bind, Option.bind_some, narrowed?,
    if_pos (by omega), Option.bind_eq_bind, Option.bind_some, times?_bind_plus?,
    UInt32.toNat_toUInt64, saturatingMul]
  by_cases hfits : d.secs.toNat * k.toNat +
      (d.nanos.toUInt64 * k.toUInt64 / 1000000000).toNat < 18446744073709551616
  · simp only [if_pos hfits, dif_pos hnanos]
  · simp only [if_neg hfits]

namespace Auth.Backoff

/-- The delay after so many failures, word by word, if no word overflows that must not. -/
def delayFor? (b : Backoff) (failures : UInt32) : Option (Option Duration) :=
  if failures < b.freeAttempts then some none
  else do
    let beyond ← minus? failures b.freeAttempts
    let factor ← shifted? 1 (min beyond 31)
    let product ← b.base.saturatingMul? factor
    some (some (product.min b.most))

variable {b : Backoff} {n : UInt32}

/-- What is subtracted is no more than what there is. -/
theorem toNat_beyond (h : b.freeAttempts ≤ n) :
    (min (n - b.freeAttempts) 31).toNat = b.doublings n := by
  have hsub : (n - b.freeAttempts).toNat = n.toNat - b.freeAttempts.toNat :=
    UInt32.toNat_sub_of_le _ _ h
  have hmin : min (n - b.freeAttempts) 31 =
      if n - b.freeAttempts ≤ 31 then n - b.freeAttempts else 31 := rfl
  have hmost : (31 : UInt32).toNat = 31 := rfl
  rw [hmin, doublings]
  split <;> rename_i hle <;> rw [UInt32.le_iff_toNat_le, hsub, hmost] at hle
  · rw [hsub]
    omega
  · rw [hmost]
    omega

/-- A one that is shifted as far stays in its word. -/
theorem shifted?_doublings (b : Backoff) (n : UInt32) :
    shifted? 1 (UInt32.ofNat (b.doublings n)) = some (1 <<< UInt32.ofNat (b.doublings n)) := by
  have hle := b.doublings_le n
  refine if_pos ⟨?_, ?_⟩
  · have h32 : (32 : UInt32).toNat = 32 := rfl
    rw [UInt32.lt_iff_toNat_lt, toNat_ofNat_of_le hle, h32]
    omega
  · rw [toNat_ofNat_of_le hle, UInt32.toNat_one, Nat.one_mul]
    exact two_pow_lt hle

/-- No word overflows when a delay is worked out. -/
theorem delayFor?_eq (b : Backoff) (n : UInt32) : b.delayFor? n = some (b.delayFor n) := by
  by_cases hfree : n < b.freeAttempts
  · rw [delayFor?, if_pos hfree, delayFor_eq_none_iff.mpr hfree]
  · have hle : b.freeAttempts ≤ n := UInt32.not_lt.mp hfree
    have hbeyond : min (n - b.freeAttempts) 31 = UInt32.ofNat (b.doublings n) := by
      rw [← toNat_beyond hle, UInt32.ofNat_toNat]
    simp only [delayFor?, if_neg hfree, minus?, if_pos hle, hbeyond, shifted?_doublings,
      Duration.saturatingMul?_eq, delayFor_of_not_free hfree, Option.bind_eq_bind,
      Option.bind_some]

/-! ### How long delays are -/

/-- Every delay is the base, doubled up to 31 times, or the limit if that is shorter. -/
theorem exists_delayFor (h : b.freeAttempts ≤ n) :
    ∃ d, b.delayFor n = some d ∧
      d.toNanos = min b.most.toNanos (b.base.toNanos * Nat.pow 2 (b.doublings n)) := by
  have hsome := delayFor_of_not_free (UInt32.not_lt.mpr h)
  exact ⟨_, hsome, (toNanos_of_delayFor hsome).trans (Nat.min_comm _ _)⟩

/-- Nobody sees that there are no more than 31 doublings if the limit is reached by then. -/
theorem min_doubled_of_le (h : b.most.toNanos ≤ b.base.toNanos * Nat.pow 2 31) (k : Nat) :
    min b.most.toNanos (b.base.toNanos * Nat.pow 2 (min k 31)) =
      min b.most.toNanos (b.base.toNanos * Nat.pow 2 k) := by
  by_cases hk : k ≤ 31
  · rw [Nat.min_eq_left hk]
  · have hpow : Nat.pow 2 31 ≤ Nat.pow 2 k := Nat.pow_le_pow_right (by decide) (by omega)
    have hmore := Nat.mul_le_mul_left b.base.toNanos hpow
    have hreached := Nat.le_trans h hmore
    rw [Nat.min_eq_right (by omega : 31 ≤ k), Nat.min_eq_left h, Nat.min_eq_left hreached]

/-- What the delays of a policy come to, in numbers without bounds. -/
structure Exact (b : Backoff) : Prop where
  /-- No word overflows. -/
  inWords : ∀ n, b.delayFor? n = some (b.delayFor n)
  free : ∀ n, b.delayFor n = none ↔ n < b.freeAttempts
  doubled : ∀ n, b.freeAttempts ≤ n → ∃ d, b.delayFor n = some d ∧
    d.toNanos = min b.most.toNanos
      (b.base.toNanos * Nat.pow 2 (min (n.toNat - b.freeAttempts.toNat) 31))
  atMost : ∀ n d, b.delayFor n = some d → d.toNanos ≤ b.most.toNanos
  /-- More failures never spare a delay or make it shorter. -/
  monotone : ∀ m n d, m ≤ n → b.delayFor m = some d →
    ∃ e, b.delayFor n = some e ∧ d.toNanos ≤ e.toNanos
  /-- The doubling has no end to be seen if 31 times reach the limit. -/
  endless : b.most.toNanos ≤ b.base.toNanos * Nat.pow 2 31 → ∀ n, b.freeAttempts ≤ n →
    ∃ d, b.delayFor n = some d ∧
      d.toNanos = min b.most.toNanos (b.base.toNanos * Nat.pow 2 (n.toNat - b.freeAttempts.toNat))

/-- Whatever the free attempts, the base and the limit, all delays are exact: none for what is free,
and from then on the base, doubled with every failure, up to the limit. -/
theorem delays_exact (b : Backoff) : b.Exact where
  inWords := b.delayFor?_eq
  free := fun n => delayFor_eq_none_iff
  doubled := fun n hn => exists_delayFor hn
  atMost := fun n d hd => by
    rw [toNanos_of_delayFor hd]
    exact Nat.min_le_right _ _
  monotone := fun m n d hmn hd => by
    have hfree : ¬ m < b.freeAttempts := by
      rw [← delayFor_eq_none_iff, hd]
      exact Option.some_ne_none d
    have hn : b.freeAttempts ≤ n := UInt32.le_trans (UInt32.not_lt.mp hfree) hmn
    obtain ⟨e, he, -⟩ := exists_delayFor hn
    have hwait := b.waitFor_mono hmn
    rw [waitFor, waitFor, hd, he] at hwait
    exact ⟨e, he, hwait⟩
  endless := fun h n hn => by
    obtain ⟨d, hd, hnanos⟩ := exists_delayFor hn
    exact ⟨d, hd, hnanos.trans (min_doubled_of_le h _)⟩

/-- By default there is no end of the doubling to be seen. -/
theorem delays_exact_standard :
    standard.most.toNanos ≤ standard.base.toNanos * Nat.pow 2 31 ∧
    ∀ n, 5 ≤ n → ∃ d, standard.delayFor n = some d ∧
      d.toNanos = min standard.most.toNanos
        (standard.base.toNanos * Nat.pow 2 (n.toNat - 5)) :=
  have hreached : standard.most.toNanos ≤ standard.base.toNanos * Nat.pow 2 31 := by decide
  ⟨hreached, (delays_exact standard).endless hreached⟩

/-- Five attempts are free by default; then an attempt waits for a second, two, four, and so on, for
a minute at most. -/
example : [4, 5, 6, 7, 11, 4294967295].map Backoff.standard.delayFor =
    [none, some (.ofSecs 1), some (.ofSecs 2), some (.ofSecs 4), some (.ofSecs 60),
      some (.ofSecs 60)] := by decide

/-- A product that is too long for any length, under the longest limit. -/
example : (Backoff.mk 0 .longest .longest).delayFor 4294967295 = some .longest := by decide

end Auth.Backoff

end RemoteDesk
