import RemoteDesk.Time.Calendar

/-!
How much time lies between two points. Away from leap seconds it is the difference of the two, so
that it grows with the later one. Within a leap second it need not: the leap second counts until
midnight only.
-/
namespace RemoteDesk.Time

/-- Every second has a start. -/
theorem start_nanos_lt : 0 < 2000000000 := by decide

theorem nanos_lt_of_not_leap {t : Time} (h : t.isLeap = false) : t.nanos < 1000000000 := by
  have h : ¬ 1000000000 ≤ t.nanos := of_decide_eq_false h
  omega

theorem since_of_not_leap {t s : Time} (ht : t.isLeap = false) (hs : s.isLeap = false) :
    t.since s = (t.secs - s.secs) * 1000000000 + (t.nanos - s.nanos) := by
  simp [since, ht, hs]

theorem since_le_since {s t u : Time} (hs : s.isLeap = false) (ht : t.isLeap = false)
    (hu : u.isLeap = false) (h : t ≤ u) : t.since s ≤ u.since s := by
  have h : t.secs * 2000000000 + t.nanos ≤ u.secs * 2000000000 + u.nanos := h
  have hnt := nanos_lt_of_not_leap ht
  have hnu := nanos_lt_of_not_leap hu
  rw [since_of_not_leap ht hs, since_of_not_leap hu hs]
  omega

theorem isLeap_ofNanos (n : Int) : (ofNanos n).isLeap = false := by
  unfold ofNanos isLeap
  split
  · decide
  · simp only [decide_eq_false_iff_not]
    omega

/-- The point that a number of nanoseconds leads to, or the last one, is no further away. -/
theorem total_ofNanos_le (n : Int) : (ofNanos n).secs * 1000000000 + (ofNanos n).nanos ≤ n := by
  unfold ofNanos
  split
  · rename_i h
    have hlast : last.nanos = 999999999 := rfl
    rw [hlast]
    omega
  · simp only
    omega

/-- A point lies no further behind another than it was put. -/
theorem since_after_le (t : Time) (d : Duration) : (t.after d).since t ≤ d.toNanos := by
  unfold after
  dsimp only
  by_cases ht : t.isLeap = false
  · rw [if_pos (by simpa using ht), since_of_not_leap (isLeap_ofNanos _) ht]
    have := total_ofNanos_le (t.secs * 1000000000 + ↑(t.nanos + d.toNanos))
    omega
  · rw [if_neg (by simpa using ht)]
    split
    · unfold since
      simp only [Int.lt_irrefl, false_and, if_false]
      omega
    · have hleap := isLeap_ofNanos ((t.secs - 1) * 1000000000 + ↑(t.nanos + d.toNanos))
      have := total_ofNanos_le ((t.secs - 1) * 1000000000 + ↑(t.nanos + d.toNanos))
      unfold since
      dsimp only
      rw [hleap]
      split
      · omega
      · simp only [Bool.false_eq_true, and_false, if_false]
        omega

end RemoteDesk.Time
