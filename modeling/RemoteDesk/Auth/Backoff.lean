import RemoteDesk.Time.Duration

/-!
How long an attempt to log in waits, by the failures before it. Some are free; from then on the
delay doubles with each, up to a limit.
-/
namespace RemoteDesk.Auth

/-- A policy gives the delay for a number of failures, or none. -/
abbrev Policy := UInt32 → Option Duration

/-- Delays that double. -/
structure Backoff where
  freeAttempts : UInt32
  base : Duration
  most : Duration
  deriving DecidableEq, Inhabited

namespace Backoff

def standard : Backoff := ⟨5, .ofSecs 1, .ofSecs 60⟩

/-- How often the delay has doubled, which is at most 31 times. -/
def doublings (b : Backoff) (failures : UInt32) : Nat :=
  min (failures.toNat - b.freeAttempts.toNat) 31

/-- The delay after so many failures. -/
def delayFor (b : Backoff) : Policy := fun failures =>
  if failures < b.freeAttempts then none
  else some ((b.base.saturatingMul (1 <<< UInt32.ofNat (b.doublings failures))).min b.most)

end Backoff

end RemoteDesk.Auth
