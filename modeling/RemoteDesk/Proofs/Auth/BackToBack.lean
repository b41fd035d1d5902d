import Mathlib.Data.List.Range
import RemoteDesk.Proofs.Auth.Doubling
import RemoteDesk.Proofs.Auth.Table
import RemoteDesk.Config.Check

/-!
Wrong attempts back to back. Each comes as soon as the one before it is settled, finds the failures
so far, waits as long as they ask for, and goes on record. As long as no delay is longer than the
memory of failures, every attempt counts, and so no delay is shorter than one before it. A delay
that is longer wipes out the streak that it punishes.
-/
namespace RemoteDesk

/-- What attempts are judged by under some settings. -/
def Config.settings (c : Config) (accounts : Accounts) : Auth.Settings :=
  ⟨accounts, c.backoff.delayFor, c.tokenTtl⟩

namespace Auth

/-- An attempt that has been settled: how long it waited, until when, and how it ended. -/
structure Guess where
  waited : Option Duration
  settledAt : Time
  settlement : Settlement

/-- How long a guess took, in nanoseconds. -/
def Guess.cost (g : Guess) : Nat := (g.waited.getD .zero).toNanos

/-- Attempts, each as soon as the one before it is settled. -/
def backToBack (s : Settings) : List Attempt → Failures → Time → List Guess
  | [], _, _ => []
  | a :: attempts, fs, now =>
    let waited := Attempt.delay s fs a.source now
    let later := now.after (waited.getD .zero)
    let settlement := a.settle s fs later
    ⟨waited, later, settlement⟩ :: backToBack s attempts settlement.failures later

theorem length_backToBack (s : Settings) (attempts : List Attempt) (fs : Failures) (now : Time) :
    (backToBack s attempts fs now).length = attempts.length := by
  induction attempts generalizing fs now with
  | nil => rfl
  | cons a attempts ih => exact congrArg (· + 1) (ih _ _)

/-! ### Counting -/

/-- The number as a word; the greatest word stands for all that are greater. -/
def saturated (n : Nat) : UInt32 := UInt32.ofNat (min n 4294967295)

theorem toNat_saturated (n : Nat) : (saturated n).toNat = min n 4294967295 := by
  rw [saturated, UInt32.toNat_ofNat']
  omega

theorem countUp_saturated (n : Nat) : countUp (saturated n) = saturated (n + 1) := by
  rw [← UInt32.toNat_inj, Failures.toNat_countUp, toNat_saturated, toNat_saturated]
  omega

theorem saturated_mono {m n : Nat} (h : m ≤ n) : saturated m ≤ saturated n := by
  rw [UInt32.le_iff_toNat_le, toNat_saturated, toNat_saturated]
  omega

namespace Failures

/-- So many failures of a source count, the last of which was just now. -/
def Streaking (fs : Failures) (source : Net.Address) (now : Time) (n : Nat) : Prop :=
  fs.lookup source = if n = 0 then none else some ⟨saturated n, now⟩

variable {fs : Failures} {source : Net.Address} {now : Time} {n : Nat}

/-- The streak still counts after a delay that is no longer than the memory. -/
theorem Streaking.prior_after (h : fs.Streaking source now n) {d : Duration}
    (short : 0 < n → (d.toNanos : Int) ≤ memory) :
    fs.prior source (now.after d) = saturated n := by
  by_cases hn : n = 0
  · rw [prior_of_absent (h.trans (if_pos hn)), hn]
    rfl
  · have hfresh : ¬ (Streak.mk (saturated n) now).isStale (now.after d) = true := by
      have hsince := Time.since_after_le now d
      have hshort := short (by omega)
      simp only [Streak.isStale, decide_eq_true_eq]
      omega
    rw [prior_of_lookup (h.trans (if_neg hn)), if_neg hfresh]

theorem Streaking.prior_now (h : fs.Streaking source now n) : fs.prior source now = saturated n := by
  by_cases hn : n = 0
  · rw [prior_of_absent (h.trans (if_pos hn)), hn]
    rfl
  · rw [prior_of_lookup (h.trans (if_neg hn)), not_isStale_self]
    rfl

/-- One more failure after such a delay makes the streak longer. -/
theorem Streaking.record (h : fs.Streaking source now n) {d : Duration}
    (short : 0 < n → (d.toNanos : Int) ≤ memory) :
    (fs.record source (now.after d)).Streaking source (now.after d) (n + 1) := by
  rw [Streaking, if_neg (Nat.succ_ne_zero n), lookup_record_self, h.prior_after short,
    countUp_saturated]

end Failures

/-- A wrong attempt is on record, with the number of the streak that it belongs to. -/
theorem Attempt.settle_of_wrong {s : Settings} {a : Attempt} (fs : Failures) (now : Time)
    (h : s.accounts.verify a.credentials.username a.credentials.password = false) :
    (a.settle s fs now).failures = fs.record a.source now ∧
      (a.settle s fs now).event =
        .loginFailed a.credentials.username a.source (countUp (fs.prior a.source now)) := by
  rw [settle_of_none fs now (Accounts.verify_eq_false_iff.mp h), Failures.prior_record_self]
  exact ⟨rfl, rfl⟩

/-! ### Runs -/

/-- What a run makes of an attempt that so many failures come before: it is put off for these, and
told to be the next. -/
structure Guess.Counted (g : Guess) (s : Settings) (a : Attempt) (n : Nat) : Prop where
  waited : g.waited = s.policy (saturated n)
  event : g.settlement.event =
    .loginFailed a.credentials.username a.source (saturated (n + 1))

variable {s : Settings} {source : Net.Address}

/-- Behind some failures, every attempt of a run is counted. -/
theorem backToBack_counted (attempts : List Attempt) {fs : Failures} {now : Time} {n : Nat}
    (h : fs.Streaking source now n) (own : ∀ a ∈ attempts, a.source = source)
    (wrong : ∀ a ∈ attempts,
      s.accounts.verify a.credentials.username a.credentials.password = false)
    (short : ∀ k, 0 < k → k < n + attempts.length →
      ((s.policy (saturated k)).getD .zero).toNanos ≤ memory) (i : Nat) {a : Attempt} {g : Guess}
    (ha : attempts[i]? = some a) (hg : (backToBack s attempts fs now)[i]? = some g) :
    g.Counted s a (n + i) := by
  induction attempts generalizing fs now n i with
  | nil => contradiction
  | cons first attempts ih =>
    have hown := own first List.mem_cons_self
    have hwrong := wrong first List.mem_cons_self
    have hwaited : Attempt.delay s fs first.source now = s.policy (saturated n) := by
      rw [Attempt.delay, hown, h.prior_now]
    have hshort : 0 < n → ((s.policy (saturated n)).getD .zero).toNanos ≤ memory :=
      fun hn => short n hn (by simp)
    rw [backToBack, hwaited] at hg
    obtain ⟨hfailures, hevent⟩ := Attempt.settle_of_wrong fs
      (now.after ((s.policy (saturated n)).getD .zero)) hwrong
    cases i with
    | zero =>
      obtain rfl := Option.some.inj ha
      obtain rfl := Option.some.inj hg
      refine ⟨rfl, hevent.trans ?_⟩
      rw [hown, h.prior_after hshort, countUp_saturated]
    | succ i =>
      rw [hfailures, hown] at hg
      have hnext := ih (h.record hshort) (fun a ha => own a (List.mem_cons_of_mem _ ha))
        (fun a ha => wrong a (List.mem_cons_of_mem _ ha))
        (fun k hk hlt => short k hk (by rw [List.length_cons]; omega)) i ha hg
      rwa [Nat.add_right_comm, Nat.add_assoc] at hnext

/-- Waiting out a delay wins no free guesses back. In a run of wrong attempts from one source that
has no failure on record, each as soon as the one before it is settled, the attempts are told to be
the first, the second, the third, and so on, up to the greatest number there is; each waits for the
failures before it, and so no delay is shorter than an earlier one. All this as long as no failure
asks for a delay that is longer than the memory of failures. -/
theorem backToBack_counts (c : Config) (accounts : Accounts) (source : Net.Address)
    (attempts : List Attempt) (fs : Failures) (start : Time) (fresh : fs.lookup source = none)
    (own : ∀ a ∈ attempts, a.source = source)
    (wrong : ∀ a ∈ attempts,
      accounts.verify a.credentials.username a.credentials.password = false)
    (short : ∀ k, 0 < k → k < attempts.length → c.backoff.waitFor (saturated k) ≤ memory) :
    let guesses := backToBack (c.settings accounts) attempts fs start
    guesses.length = attempts.length ∧
    (∀ (i : Nat) (a : Attempt) (g : Guess), attempts[i]? = some a → guesses[i]? = some g →
      g.settlement.event = .loginFailed a.credentials.username source (saturated (i + 1)) ∧
      g.waited = c.backoff.delayFor (saturated i)) ∧
    (guesses.map (·.cost)).Pairwise (· ≤ ·) := by
  intro guesses
  have hlength : guesses.length = attempts.length := length_backToBack ..
  have hshort : ∀ k, 0 < k → k < 0 + attempts.length →
      (((c.settings accounts).policy (saturated k)).getD .zero).toNanos ≤ memory := by
    intro k hk hlt
    exact short k hk (by omega)
  have hcounted : ∀ (i : Nat) (a : Attempt) (g : Guess), attempts[i]? = some a → guesses[i]? = some g →
      g.Counted (c.settings accounts) a i := by
    intro i a g ha hg
    have hstart : fs.Streaking source start 0 := fresh
    have h := backToBack_counted attempts hstart own wrong hshort i ha hg
    rwa [Nat.zero_add] at h
  refine ⟨hlength, ?_, ?_⟩
  · intro i a g ha hg
    have h := hcounted i a g ha hg
    rw [← own a (List.mem_of_getElem? ha)]
    exact ⟨h.event, h.waited⟩
  · have hcosts : guesses.map (·.cost) =
        (List.range attempts.length).map fun i => c.backoff.waitFor (saturated i) := by
      apply List.ext_getElem?
      intro i
      rw [List.getElem?_map, List.getElem?_map]
      by_cases hi : i < attempts.length
      · have hg : guesses[i]? = some guesses[i] := List.getElem?_eq_getElem (by omega)
        have h := hcounted i attempts[i] guesses[i] (List.getElem?_eq_getElem hi) hg
        rw [hg, List.getElem?_range hi, Option.map_some, Option.map_some, Guess.cost, h.waited]
        rfl
      · have hg : guesses[i]? = none := List.getElem?_eq_none (by omega)
        have hr : (List.range attempts.length)[i]? = none :=
          List.getElem?_eq_none (by rw [List.length_range]; omega)
        rw [hg, hr]
        rfl
    rw [hcosts, List.pairwise_map]
    exact List.pairwise_lt_range.imp fun hlt =>
      Backoff.waitFor_mono (saturated_mono (Nat.le_of_lt hlt))

/-- Nobody may log in. -/
def noAccounts : Accounts := ⟨fun _ _ => none, fun _ => .ofList []⟩

/-- A guess at the password of some account. -/
def wildGuess : Attempt := ⟨.v4 192 0 2 10, ⟨"admin", "no"⟩, []⟩

/-- By default no delay is longer than a minute. -/
theorem backToBack_counts_default :
    let c : Config := {}
    let attempts := List.replicate 8 wildGuess
    c.check = .ok () ∧ (∀ a ∈ attempts, a.source = wildGuess.source) ∧
    (∀ a ∈ attempts,
      noAccounts.verify a.credentials.username a.credentials.password = false) ∧
    (∀ k, 0 < k → k < attempts.length → c.backoff.waitFor (saturated k) ≤ memory) ∧
    let guesses := backToBack (c.settings noAccounts) attempts [] default
    guesses.length = attempts.length ∧
    (∀ (i : Nat) (a : Attempt) (g : Guess), attempts[i]? = some a → guesses[i]? = some g →
      g.settlement.event =
        .loginFailed a.credentials.username wildGuess.source (saturated (i + 1)) ∧
      g.waited = c.backoff.delayFor (saturated i)) ∧
    (guesses.map (·.cost)).Pairwise (· ≤ ·) := by
  intro c attempts
  have own : ∀ a ∈ attempts, a.source = wildGuess.source := by
    intro a ha
    rw [List.eq_of_mem_replicate ha]
  have wrong : ∀ a ∈ attempts,
      noAccounts.verify a.credentials.username a.credentials.password = false := fun _ _ => rfl
  have short : ∀ k, 0 < k → k < attempts.length →
      c.backoff.waitFor (saturated k) ≤ memory := by
    intro k _ _
    have hmost : (c.backoff.most.toNanos : Int) ≤ memory := by decide
    have hwait := c.backoff.waitFor_le_most (saturated k)
    omega
  exact ⟨by decide +kernel, own, wrong, short,
    backToBack_counts c noAccounts wildGuess.source attempts [] default rfl own wrong short⟩

/-- Two guesses are free here, and the third is put off by 1000 seconds. -/
def sluggish : Config :=
  { login := { freeAttempts := 2, backoffBaseMs := 1000000, backoffMaxSecs := 1000 } }

/-- Nothing bounds the limit, and a delay of 1000 seconds is longer than the memory: the third guess
is told to be the first again, and the fourth is free. -/
theorem backToBack_forgets :
    sluggish.check = .ok () ∧
    (backToBack (sluggish.settings noAccounts) (List.replicate 4 wildGuess) [] default).map
        (fun g => (g.waited, g.settlement.event)) =
      [(none, .loginFailed "admin" wildGuess.source 1),
        (none, .loginFailed "admin" wildGuess.source 2),
        (some (.ofSecs 1000), .loginFailed "admin" wildGuess.source 1),
        (none, .loginFailed "admin" wildGuess.source 2)] := by
  decide +kernel

end Auth

end RemoteDesk
