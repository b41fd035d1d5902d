import RemoteDesk.Auth.Attempt
import RemoteDesk.Proofs.Time.Elapsed

/-!
The table of failures, address by address. Clearing an address and recording a failure of it are
seen at that address only, except that recording drops what is stale. A dropped streak counted for
nothing.
-/
namespace RemoteDesk.Auth

/-- An attempt that has been settled. -/
structure Outcome where
  time : Time
  source : Net.Address
  failed : Bool

/-- A streak that is stale stays so, away from leap seconds. -/
theorem Streak.isStale_later {s : Streak} {t later : Time} (hs : s.last.isLeap = false)
    (ht : t.isLeap = false) (hlater : later.isLeap = false) (hle : t ≤ later)
    (h : s.isStale t = true) : s.isStale later = true := by
  have hmono := Time.since_le_since hs ht hlater hle
  have hlt : memory < t.since s.last := of_decide_eq_true h
  exact decide_eq_true (Int.lt_of_lt_of_le hlt hmono)

namespace Failures

variable {fs : Failures} {source other : Net.Address}

/-- No address has two streaks. -/
def OnePerAddress (fs : Failures) : Prop := fs.Pairwise fun f g => f.1 ≠ g.1

instance (fs : Failures) : Decidable fs.OnePerAddress :=
  inferInstanceAs (Decidable (fs.Pairwise fun f g => f.1 ≠ g.1))

theorem onePerAddress_nil : OnePerAddress [] := List.Pairwise.nil

theorem OnePerAddress.clear (h : fs.OnePerAddress) (source : Net.Address) :
    (fs.clear source).OnePerAddress := List.Pairwise.filter _ h

theorem OnePerAddress.prune (h : fs.OnePerAddress) (now : Time) :
    (fs.prune now).OnePerAddress := List.Pairwise.filter _ h

theorem OnePerAddress.record (h : fs.OnePerAddress) (source : Net.Address) (now : Time) :
    (fs.record source now).OnePerAddress := by
  refine List.pairwise_cons.mpr ⟨?_, (h.prune now).clear source⟩
  intro f hf
  have hne : f.1 ≠ source := of_decide_eq_true (List.mem_filter.mp hf).2
  exact Ne.symm hne

theorem lookup_cons_of_ne (fs : Failures) (s : Streak) (h : other ≠ source) :
    List.lookup other ((source, s) :: fs) = fs.lookup other := by
  rw [List.lookup_cons, beq_eq_false_iff_ne.mpr h]

/-- A streak is found among the kept ones if it is found at all and kept. -/
theorem lookup_filter (h : fs.OnePerAddress) (keep : Net.Address × Streak → Bool)
    (source : Net.Address) :
    List.lookup source (fs.filter keep) = (fs.lookup source).filter fun s => keep (source, s) := by
  induction fs with
  | nil => rfl
  | cons f fs ih =>
    obtain ⟨address, s⟩ := f
    obtain ⟨hfirst, hrest⟩ := List.pairwise_cons.mp h
    have ih := ih hrest
    by_cases ha : source = address
    · subst ha
      rw [List.lookup_cons_self, List.filter_cons]
      by_cases hk : keep (source, s) = true
      · rw [if_pos hk, List.lookup_cons_self, Option.filter_some, if_pos hk]
      · -- Nothing behind the dropped streak has its address.
        have hnone : fs.lookup source = none := by
          rw [List.lookup_eq_none_iff]
          intro f hf
          exact bne_iff_ne.mpr (hfirst f hf)
        rw [if_neg hk, ih, hnone, Option.filter_some, if_neg hk]
        rfl
    · rw [lookup_cons_of_ne fs s ha, List.filter_cons, ← ih]
      by_cases hk : keep (address, s) = true
      · rw [if_pos hk, lookup_cons_of_ne _ s ha]
      · rw [if_neg hk]

theorem lookup_prune (h : fs.OnePerAddress) (source : Net.Address) (now : Time) :
    (fs.prune now).lookup source = (fs.lookup source).filter fun s => !s.isStale now :=
  lookup_filter h _ source

theorem lookup_clear_of_ne (h : fs.OnePerAddress) (hne : other ≠ source) :
    (fs.clear source).lookup other = fs.lookup other := by
  refine (lookup_filter h _ other).trans ?_
  cases fs.lookup other <;> simp [hne]

theorem lookup_record_of_ne (h : fs.OnePerAddress) (hne : other ≠ source) (now : Time) :
    (fs.record source now).lookup other =
      (fs.lookup other).filter fun s => !s.isStale now := by
  rw [record, lookup_cons_of_ne _ _ hne, lookup_clear_of_ne (h.prune now) hne, lookup_prune h]

theorem prior_of_lookup {s : Streak} (h : fs.lookup source = some s) (now : Time) :
    fs.prior source now = if s.isStale now then 0 else s.count := by
  rw [prior, h]

theorem prior_of_absent (h : fs.lookup source = none) (now : Time) :
    fs.prior source now = 0 := by
  rw [prior, h]

theorem prior_congr {gs : Failures} (h : fs.lookup source = gs.lookup source) (now : Time) :
    fs.prior source now = gs.prior source now := by
  rw [prior, prior, h]

/-- A streak that is dropped counts for nothing as long as it is stale. -/
theorem prior_prune {now later : Time} (h : fs.OnePerAddress)
    (hstale : ∀ s, fs.lookup source = some s → s.isStale now = true → s.isStale later = true) :
    (fs.prune now).prior source later = fs.prior source later := by
  have hl := lookup_prune h source now
  cases hs : fs.lookup source with
  | none =>
    rw [hs] at hl
    rw [prior_of_absent hs, prior_of_absent hl]
  | some s =>
    rw [hs, Option.filter_some] at hl
    by_cases hd : s.isStale now = true
    · have hgone : (fs.prune now).lookup source = none := by simpa [hd] using hl
      rw [prior_of_absent hgone, prior_of_lookup hs, if_pos (hstale s hs hd)]
    · have hkept : (fs.prune now).lookup source = some s := by simpa [hd] using hl
      rw [prior_of_lookup hkept, prior_of_lookup hs]

/-! ### Outcomes -/

/-- The table after another outcome. -/
def note (fs : Failures) (o : Outcome) : Failures :=
  if o.failed then fs.record o.source o.time else fs.clear o.source

theorem OnePerAddress.note (h : fs.OnePerAddress) (o : Outcome) : (fs.note o).OnePerAddress := by
  unfold Failures.note
  split
  · exact h.record o.source o.time
  · exact h.clear o.source

theorem lookup_note_self (fs : Failures) (o : Outcome) :
    (fs.note o).lookup o.source =
      if o.failed then some ⟨countUp (fs.prior o.source o.time), o.time⟩ else none := by
  unfold note
  split
  · exact lookup_record_self fs o.source o.time
  · exact lookup_clear_self fs o.source

theorem lookup_note_of_ne (h : fs.OnePerAddress) {o : Outcome} (hne : other ≠ o.source) :
    (fs.note o).lookup other =
      if o.failed then (fs.lookup other).filter fun s => !s.isStale o.time
      else fs.lookup other := by
  unfold note
  split
  · exact lookup_record_of_ne h hne o.time
  · exact lookup_clear_of_ne h hne

/-- What counts against an address after an outcome of its own depends on what counted at that
time. -/
theorem prior_note_congr {gs : Failures} {o : Outcome}
    (h : fs.prior o.source o.time = gs.prior o.source o.time) (later : Time) :
    (fs.note o).prior o.source later = (gs.note o).prior o.source later := by
  refine prior_congr ?_ later
  rw [lookup_note_self, lookup_note_self, h]

/-- An outcome does not change what counts against other addresses, as long as what is stale at its
time stays so. -/
theorem prior_note_later (h : fs.OnePerAddress) {o : Outcome} (hne : other ≠ o.source)
    {later : Time} (hstale : o.failed = true →
      ∀ s, fs.lookup other = some s → s.isStale o.time = true → s.isStale later = true) :
    (fs.note o).prior other later = fs.prior other later := by
  have hl := lookup_note_of_ne h hne
  by_cases hf : o.failed = true
  · rw [if_pos hf, ← lookup_prune h] at hl
    rw [prior_congr hl]
    exact prior_prune h (hstale hf)
  · rw [if_neg hf] at hl
    exact prior_congr hl later

theorem prior_note_of_ne (h : fs.OnePerAddress) {o : Outcome} (hne : other ≠ o.source) :
    (fs.note o).prior other o.time = fs.prior other o.time :=
  prior_note_later h hne fun _ _ _ hs => hs

/-- No streak ends within a leap second. -/
def Plain (fs : Failures) : Prop := ∀ source s, fs.lookup source = some s → s.last.isLeap = false

theorem plain_nil : Plain [] := by
  intro source s h
  contradiction

theorem Plain.note (h : fs.Plain) (hsingle : fs.OnePerAddress) {o : Outcome}
    (ho : o.failed = true → o.time.isLeap = false) : (fs.note o).Plain := by
  intro source s hs
  by_cases hso : source = o.source
  · subst hso
    rw [lookup_note_self, Option.ite_none_right_eq_some] at hs
    rw [← Option.some.inj hs.2]
    exact ho hs.1
  · rw [lookup_note_of_ne hsingle hso] at hs
    split at hs
    · exact h source s (Option.filter_eq_some_iff.mp hs).1
    · exact h source s hs

/-- The tables have the same streaks. -/
def Same (fs gs : Failures) : Prop := ∀ source : Net.Address, fs.lookup source = gs.lookup source

theorem Same.note {gs : Failures} (hsame : fs.Same gs) (hf : fs.OnePerAddress)
    (hg : gs.OnePerAddress) (o : Outcome) : (fs.note o).Same (gs.note o) := by
  intro source
  by_cases hs : source = o.source
  · subst hs
    rw [lookup_note_self, lookup_note_self, prior_congr (hsame o.source)]
  · rw [lookup_note_of_ne hf hs, lookup_note_of_ne hg hs, hsame source]

/-- A streak with a failure just now is found after other outcomes of that time. -/
theorem lookup_note_of_now {o : Outcome} (h : fs.OnePerAddress) (hne : other ≠ o.source)
    {s? : Option Streak} (hl : fs.lookup other = s?) (hnow : ∀ s, s? = some s → s.last = o.time) :
    (fs.note o).lookup other = s? := by
  rw [lookup_note_of_ne h hne, hl]
  cases s? with
  | none => simp
  | some s =>
    have hfresh : s.isStale o.time = false := by
      rw [← hnow s rfl]
      exact not_isStale_self s.count s.last
    simp [hfresh]

/-- Outcomes of one time at two addresses may come in either order. -/
theorem note_comm (h : fs.OnePerAddress) {o p : Outcome} (hne : o.source ≠ p.source)
    (htime : o.time = p.time) : ((fs.note o).note p).Same ((fs.note p).note o) := by
  have hself : ∀ {o p : Outcome}, o.source ≠ p.source → o.time = p.time →
      ((fs.note o).note p).lookup o.source = ((fs.note p).note o).lookup o.source := by
    intro o p hne htime
    rw [lookup_note_self (fs.note p), htime, prior_note_of_ne h hne, ← htime]
    refine lookup_note_of_now (h.note o) hne (lookup_note_self fs o) ?_
    intro s hs
    rw [Option.ite_none_right_eq_some] at hs
    rw [← Option.some.inj hs.2]
    exact htime
  intro source
  by_cases ho : source = o.source
  · subst ho
    exact hself hne htime
  · by_cases hp : source = p.source
    · subst hp
      exact (hself (Ne.symm hne) htime.symm).symm
    · rw [lookup_note_of_ne (h.note o) hp, lookup_note_of_ne h ho,
        lookup_note_of_ne (h.note p) ho, lookup_note_of_ne h hp, htime]
      cases o.failed <;> cases p.failed <;> rfl

theorem toNat_countUp (n : UInt32) : (countUp n).toNat = min (n.toNat + 1) 4294967295 := by
  have hn := n.toNat_lt
  unfold countUp
  by_cases h : n = 4294967295
  · subst h
    rfl
  · have hne : n.toNat ≠ 4294967295 := fun heq => h (UInt32.toNat_inj.mp heq)
    rw [if_neg h, UInt32.toNat_add, UInt32.toNat_one]
    omega

end Failures

/-- Settling an attempt notes its outcome. -/
theorem Attempt.settle_failures (s : Settings) (fs : Failures) (a : Attempt) (now : Time) :
    (a.settle s fs now).failures = fs.note ⟨now, a.source,
      !s.accounts.verify a.credentials.username a.credentials.password⟩ := by
  cases h : s.accounts.identify a.credentials.username a.credentials.password with
  | some who =>
    rw [settle_of_some fs now h, Accounts.verify, h]
    rfl
  | none =>
    rw [settle_of_none fs now h, Accounts.verify, h]
    rfl

end RemoteDesk.Auth
