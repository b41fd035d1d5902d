import RemoteDesk.Time.Calendar

/-!
Deadlines and the last point in time. The point so long after another is the one that the calendar
has there, or the last point in time if that comes earlier, so that a time comes before it if it
comes before both. The one exception starts in a leap second beyond the last point and ends in it.
-/
namespace RemoteDesk.Time

theorem lt_of_not_le {a b : Time} (h : ¬ b ≤ a) : a < b := Int.not_le.mp h

theorem le_trans {a b c : Time} (h : a ≤ b) (h' : b ≤ c) : a ≤ c := Int.le_trans h h'

def earlier (a b : Time) : Time := if a ≤ b then a else b

theorem toNat_emod_second_lt (n : Int) : (n % 1000000000).toNat < 2000000000 := by omega

/-- The point of the calendar so many nanoseconds after the start of 1970. -/
def atNanos (n : Int) : Time := ⟨n / 1000000000, (n % 1000000000).toNat, toNat_emod_second_lt n⟩

/-- The point so long after another, if times went on beyond the last one. -/
def plus (t : Time) (d : Duration) : Time :=
  let nanos := t.nanos + d.toNanos
  if !t.isLeap then atNanos (t.secs * 1000000000 + nanos)
  else if h : nanos < 2000000000 then ⟨t.secs, nanos, h⟩
  else atNanos ((t.secs - 1) * 1000000000 + nanos)

theorem ofNanos_eq (n : Int) : ofNanos n = (atNanos n).earlier last := by
  have hlast : last.nanos = 999999999 := rfl
  have hiff : atNanos n ≤ last ↔ ¬ last.secs < n / 1000000000 := by
    change (atNanos n).rank ≤ last.rank ↔ _
    simp only [rank, atNanos, hlast]
    omega
  unfold ofNanos earlier
  by_cases h : last.secs < n / 1000000000
  · rw [if_pos h, if_neg fun hle => hiff.mp hle h]
  · rw [if_neg h, if_pos (hiff.mpr h)]
    rfl

/-- A later point is found by its number, unless it lies in the same leap second. -/
theorem after_cases (t : Time) (d : Duration) :
    (∃ n, t.after d = ofNanos n ∧ t.plus d = atNanos n) ∨
    t.isLeap = true ∧ d.toNanos < 1000000000 ∧ t.plus d = t.after d ∧
      ∃ h, t.after d = ⟨t.secs, t.nanos + d.toNanos, h⟩ := by
  unfold after plus
  dsimp only
  split
  · exact .inl ⟨_, rfl, rfl⟩
  · rename_i hleap
    have hleap : t.isLeap = true := by simpa using hleap
    have hnanos : 1000000000 ≤ t.nanos := of_decide_eq_true hleap
    split
    · rename_i hlt
      exact .inr ⟨hleap, by omega, rfl, hlt, rfl⟩
    · exact .inl ⟨_, rfl, rfl⟩

variable {t : Time} {d : Duration}

/-- A deadline is the point that the calendar has there, or the last point in time. For less than a
second it takes a start that is not beyond the last point. -/
theorem after_eq (h : t ≤ last ∨ 1000000000 ≤ d.toNanos) :
    t.after d = (t.plus d).earlier last := by
  rcases t.after_cases d with ⟨n, hafter, hplus⟩ | ⟨hleap, hshort, hplus, hlt, hafter⟩
  · rw [hafter, hplus, ofNanos_eq]
  · have hlast : last.nanos = 999999999 := rfl
    have ht : t.rank ≤ last.rank := h.resolve_right (by omega)
    have hnanos : 1000000000 ≤ t.nanos := of_decide_eq_true hleap
    -- The leap second is over before the last second starts.
    have hle : t.after d ≤ last := by
      rw [hafter]
      change (Time.mk t.secs (t.nanos + d.toNanos) hlt).rank ≤ last.rank
      simp only [rank, hlast] at *
      omega
    rw [hplus, earlier, if_pos hle]

end RemoteDesk.Time
