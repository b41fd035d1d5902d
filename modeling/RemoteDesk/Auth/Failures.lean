import RemoteDesk.Net.Address
import RemoteDesk.Time.Calendar

/-!
The failures on record, by the address they came from. A streak that is older than the memory
counts no more. When a failure is recorded, stale streaks of all addresses are dropped.
-/
namespace RemoteDesk.Auth

/-- A streak of failures. -/
structure Streak where
  count : UInt32
  last : Time
  deriving DecidableEq, Inhabited

/-- How long a streak is remembered, in nanoseconds: a quarter of an hour. -/
def memory : Int := 900000000000

def Streak.isStale (s : Streak) (now : Time) : Bool := memory < now.since s.last

/-- The number after another; the greatest stays. -/
def countUp (n : UInt32) : UInt32 := if n = 4294967295 then n else n + 1

/-- At most one streak for each address. -/
abbrev Failures := List (Net.Address × Streak)

namespace Failures

/-- How many failures count against an address. -/
def prior (fs : Failures) (source : Net.Address) (now : Time) : UInt32 :=
  match fs.lookup source with
  | some s => if s.isStale now then 0 else s.count
  | none => 0

/-- The table without an address. -/
def clear (fs : Failures) (source : Net.Address) : Failures := fs.filter fun f => f.1 ≠ source

/-- The table without what is stale. -/
def prune (fs : Failures) (now : Time) : Failures := fs.filter fun f => !f.2.isStale now

/-- The table with one more failure of an address. -/
def record (fs : Failures) (source : Net.Address) (now : Time) : Failures :=
  (source, ⟨countUp (fs.prior source now), now⟩) :: (fs.prune now).clear source

theorem lookup_clear_self (fs : Failures) (source : Net.Address) :
    (fs.clear source).lookup source = none := by
  rw [List.lookup_eq_none_iff]
  intro f hf
  have h : f.1 ≠ source := of_decide_eq_true (List.mem_filter.1 hf).2
  exact bne_iff_ne.2 (Ne.symm h)

theorem prior_clear_self (fs : Failures) (source : Net.Address) (now : Time) :
    (fs.clear source).prior source now = 0 := by simp [prior, lookup_clear_self]

theorem lookup_record_self (fs : Failures) (source : Net.Address) (now : Time) :
    (fs.record source now).lookup source = some ⟨countUp (fs.prior source now), now⟩ :=
  List.lookup_cons_self

theorem not_isStale_self (count : UInt32) (now : Time) :
    (Streak.mk count now).isStale now = false := by
  simp [Streak.isStale, memory]

theorem prior_record_self (fs : Failures) (source : Net.Address) (now : Time) :
    (fs.record source now).prior source now = countUp (fs.prior source now) := by
  rw [prior, lookup_record_self]
  simp only [not_isStale_self]
  rfl

end Failures

end RemoteDesk.Auth
