import RemoteDesk.Proofs.Time.Limit
import RemoteDesk.Proofs.Time.Reading

/-!
Lifetimes in whole seconds, and deadlines as their texts tell them. The text of a deadline to the
second names a time that is not later, and less than a second earlier.
-/
namespace RemoteDesk.Time

theorem toNanos_ofSecs (n : UInt64) : (Duration.ofSecs n).toNanos = n.toNat * 1000000000 :=
  Nat.add_zero _

variable {t : Time}

/-- So many seconds after a time that is not within a leap second it is the same point of a later
second. -/
theorem plus_ofSecs (h : t.isLeap = false) (n : UInt64) :
    t.plus (.ofSecs n) = ⟨t.secs + n.toNat, t.nanos, t.nanos_lt⟩ := by
  have hlt := nanos_lt_of_not_leap h
  rw [plus, h, toNanos_ofSecs]
  simp only [Bool.not_false, if_true, atNanos, Time.mk.injEq]
  omega

/-- From outside of a leap second no deadline lies in one. -/
theorem after_ofSecs (h : t.isLeap = false) (n : UInt64) :
    t.after (.ofSecs n) = earlier ⟨t.secs + n.toNat, t.nanos, t.nanos_lt⟩ last := by
  rcases t.after_cases (.ofSecs n) with ⟨k, hafter, hplus⟩ | ⟨hleap, -⟩
  · rw [hafter, ofNanos_eq, ← hplus, plus_ofSecs h]
  · rw [h] at hleap
    contradiction

/-- No time after a point of a leap second it is still that point. -/
theorem after_ofSecs_zero (h : t.isLeap = true) : t.after (.ofSecs 0) = t := by
  have hlt : t.nanos + (Duration.ofSecs 0).toNanos < 2000000000 := t.nanos_lt
  unfold after
  rw [if_neg (by simp [h]), dif_pos hlt]
  rfl

/-! ### Text -/

theorem endsMinute_ofNanos (n : Int) : (ofNanos n).EndsMinute := by
  intro hleap
  rw [isLeap_ofNanos] at hleap
  contradiction

/-- A leap second is not left for another one. -/
theorem endsMinute_after {d : Duration} (h : t.EndsMinute ∨ 1000000000 ≤ d.toNanos) :
    (t.after d).EndsMinute := by
  rcases t.after_cases d with ⟨n, hafter, -⟩ | ⟨hleap, hshort, -, hlt, hafter⟩
  · rw [hafter]
    exact endsMinute_ofNanos n
  · have hend : t.EndsMinute := h.resolve_right (by omega)
    rw [hafter]
    exact fun _ => hend hleap

/-- The text of a deadline, read back. For less than a second it takes a start that is not within a
leap second amid a minute. -/
theorem parse_after {d : Duration} (h : t.EndsMinute ∨ 1000000000 ≤ d.toNanos) :
    ∃ read, parse (t.after d).secondsText = some read ∧ read ≤ t.after d ∧
      (t.after d).since read < 1000000000 :=
  ⟨_, parse_secondsText (endsMinute_after h), wholeSecond_le _, since_wholeSecond_lt _⟩

end RemoteDesk.Time
