import Mathlib.Algebra.GroupWithZero.Nat
import RemoteDesk.Session.Peer

/-!
What the script of a peer sends, and when. A byte is due after the pauses before it. Scripts here
end by closing; what has been played of one tells how long it has paused at least for every byte
that is still to come, and at most for every byte that is there.
-/
namespace RemoteDesk

namespace PeerStep

/-- The bytes that a step sends. -/
def sent : PeerStep → Bytes
  | .send bytes => bytes
  | _ => []

/-- How long a step waits. -/
def paused : PeerStep → Nat
  | .pause nanos => nanos
  | _ => 0

end PeerStep

namespace Script

/-- All bytes that a script sends. -/
def sent (script : List PeerStep) : Bytes := script.flatMap PeerStep.sent

/-- All pauses of a script together. -/
def paused (script : List PeerStep) : Nat := (script.map PeerStep.paused).sum

/-- The pauses before so many bytes have been sent; all pauses, if there are not so many. -/
def pausedBefore : Nat → List PeerStep → Nat
  | 0, _ => 0
  | _ + 1, [] => 0
  | n + 1, step :: script => step.paused + pausedBefore (n + 1 - step.sent.length) script

/-- A script that closes once, at its end. -/
inductive Closing : List PeerStep → Prop where
  | close : Closing [.close]
  | send (bytes : Bytes) {script : List PeerStep} : Closing script →
      Closing (.send bytes :: script)
  | pause (nanos : Nat) {script : List PeerStep} : Closing script →
      Closing (.pause nanos :: script)

@[simp] theorem sent_nil : sent [] = [] := rfl

@[simp] theorem sent_cons (step : PeerStep) (script : List PeerStep) :
    sent (step :: script) = step.sent ++ sent script := rfl

@[simp] theorem sent_append (done rest : List PeerStep) :
    sent (done ++ rest) = sent done ++ sent rest := by
  simp [sent]

@[simp] theorem paused_nil : paused [] = 0 := rfl

@[simp] theorem paused_cons (step : PeerStep) (script : List PeerStep) :
    paused (step :: script) = step.paused + paused script := rfl

@[simp] theorem paused_append (done rest : List PeerStep) :
    paused (done ++ rest) = paused done + paused rest := by
  simp [paused]

@[simp] theorem pausedBefore_zero (script : List PeerStep) : pausedBefore 0 script = 0 := by
  cases script <;> rfl

theorem pausedBefore_le (n : Nat) (script : List PeerStep) :
    pausedBefore n script ≤ paused script := by
  induction script generalizing n with
  | nil => cases n <;> exact Nat.le_refl 0
  | cons step script ih =>
    cases n with
    | zero => exact Nat.zero_le _
    | succ n => exact Nat.add_le_add_left (ih _) _

/-- Whoever has sent a byte has paused at least as long as the byte had to wait. -/
theorem pausedBefore_append_le {n : Nat} {done : List PeerStep} (rest : List PeerStep)
    (h : n ≤ (sent done).length) : pausedBefore n (done ++ rest) ≤ paused done := by
  induction done generalizing n with
  | nil =>
    obtain rfl : n = 0 := by simpa using h
    simp
  | cons step done ih =>
    cases n with
    | zero => exact Nat.zero_le _
    | succ n =>
      have hle : n + 1 - step.sent.length ≤ (sent done).length := by
        rw [sent_cons, List.length_append] at h
        omega
      exact Nat.add_le_add_left (ih hle) _

/-- A byte that is still to come has to wait for all pauses so far. -/
theorem paused_le_pausedBefore {n : Nat} {done : List PeerStep} (rest : List PeerStep)
    (h : (sent done).length < n) : paused done ≤ pausedBefore n (done ++ rest) := by
  induction done generalizing n with
  | nil => exact Nat.zero_le _
  | cons step done ih =>
    rw [sent_cons, List.length_append] at h
    obtain ⟨k, rfl⟩ : ∃ k, n = k + 1 := ⟨n - 1, by omega⟩
    exact Nat.add_le_add_left (ih (by omega)) _

theorem Closing.ne_nil {script : List PeerStep} (h : Closing script) : script ≠ [] := by
  cases h <;> nofun

end Script

end RemoteDesk
