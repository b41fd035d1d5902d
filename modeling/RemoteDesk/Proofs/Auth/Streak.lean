import Mathlib.Data.List.Chain
import Mathlib.Data.List.DropRight
import RemoteDesk.Proofs.Auth.Table

/-!
What the table of failures remembers of a history. It keeps one number and one time for each
source; the history has every outcome. The number is the length of the source's streak: its latest
failures since its last success, as far back as no two of them lie further apart than the memory.
The one exception are leap seconds, across which time does not run evenly.
-/
namespace RemoteDesk.Auth

/-! ### Streaks -/

/-- A failure that the next one finds still remembered. -/
def Near (earlier later : Time) : Prop := later.since earlier ≤ memory

instance (earlier later : Time) : Decidable (Near earlier later) :=
  inferInstanceAs (Decidable (later.since earlier ≤ memory))

/-- The longest end of a list of times in which each time is near to the one before it. -/
structure IsStreak (times streak : List Time) : Prop where
  suffix : streak <:+ times
  near : streak.IsChain Near
  longest : ∀ other, other <:+ times → other.IsChain Near → other.length ≤ streak.length

theorem isStreak_nil : IsStreak [] [] :=
  ⟨List.suffix_rfl, .nil, fun _ h _ => h.length_le⟩

theorem IsStreak.ne_nil {times streak : List Time} {t : Time} (h : IsStreak (times ++ [t]) streak) :
    streak ≠ [] := by
  have hone := h.longest [t] (List.suffix_append times [t]) (.singleton t)
  intro hnil
  simp [hnil] at hone

/-- A streak ends with the last time of all. -/
theorem IsStreak.getLast? {times streak : List Time} (h : IsStreak times streak) :
    streak.getLast? = times.getLast? := by
  induction times using List.reverseRecOn with
  | nil => rw [List.suffix_nil.mp h.suffix]
  | append_singleton times t =>
    rcases List.suffix_concat_iff.mp h.suffix with hnil | ⟨front, rfl, -⟩
    · exact absurd hnil h.ne_nil
    · simp

/-- A time near to the last one makes the streak longer by one. -/
theorem IsStreak.concat {times streak : List Time} {last t : Time} (h : IsStreak times streak)
    (hlast : times.getLast? = some last) (hnear : Near last t) :
    IsStreak (times ++ [t]) (streak ++ [t]) := by
  refine ⟨List.suffix_append_self_iff.mpr h.suffix, ?_, ?_⟩
  · refine List.isChain_append.mpr ⟨h.near, .singleton t, ?_⟩
    intro x hx y hy
    rw [h.getLast?, hlast] at hx
    obtain rfl := Option.some.inj hx
    obtain rfl := Option.some.inj hy
    exact hnear
  · intro other hsuffix hchain
    rcases List.suffix_concat_iff.mp hsuffix with rfl | ⟨front, rfl, hfront⟩
    · exact Nat.zero_le _
    · have hlen := h.longest front hfront hchain.left_of_append
      simp only [List.length_append]
      omega

/-- A time that is not near to one before it starts a new streak. -/
theorem isStreak_singleton {times : List Time} {t : Time}
    (hfar : ∀ last, times.getLast? = some last → ¬ Near last t) :
    IsStreak (times ++ [t]) [t] := by
  refine ⟨List.suffix_append times [t], .singleton t, ?_⟩
  intro other hsuffix hchain
  rcases List.suffix_concat_iff.mp hsuffix with rfl | ⟨front, rfl, hfront⟩
  · exact Nat.zero_le _
  · cases hl : front.getLast? with
    | none => simp [List.getLast?_eq_none_iff.mp hl]
    | some last =>
      -- Were there a time in front of the last, it would be near.
      obtain ⟨more, rfl⟩ := hfront
      have hlast : (more ++ front).getLast? = some last := by rw [List.getLast?_append, hl]; rfl
      have hnear : Near last t := (List.isChain_append.mp hchain).2.2 last hl t rfl
      exact absurd hnear (hfar last hlast)

theorem exists_isStreak (times : List Time) : ∃ streak, IsStreak times streak := by
  induction times using List.reverseRecOn with
  | nil => exact ⟨[], isStreak_nil⟩
  | append_singleton times t ih =>
    obtain ⟨streak, h⟩ := ih
    by_cases hnear : ∃ last, times.getLast? = some last ∧ Near last t
    · obtain ⟨last, hlast, hnear⟩ := hnear
      exact ⟨_, h.concat hlast hnear⟩
    · refine ⟨_, isStreak_singleton ?_⟩
      intro last hlast hn
      exact hnear ⟨last, hlast, hn⟩

/-! ### Histories -/

/-- When a source has failed since its last success. -/
def failuresSince (source : Net.Address) (history : List Outcome) : List Time :=
  ((history.filter (·.source = source)).rtakeWhile (·.failed)).map (·.time)

section

variable {history : List Outcome} {o : Outcome} {source : Net.Address}

theorem failuresSince_concat_of_ne (history : List Outcome) (h : o.source ≠ source) :
    failuresSince source (history ++ [o]) = failuresSince source history := by
  simp [failuresSince, List.filter_append, h]

theorem failuresSince_concat_of_failed (history : List Outcome) (h : o.failed = true) :
    failuresSince o.source (history ++ [o]) = failuresSince o.source history ++ [o.time] := by
  have hf : (history ++ [o]).filter (·.source = o.source) =
      history.filter (·.source = o.source) ++ [o] := by
    simp [List.filter_append]
  rw [failuresSince, hf, List.rtakeWhile_concat_pos _ _ _ h, List.map_append]
  rfl

theorem failuresSince_concat_of_succeeded (history : List Outcome) (h : o.failed = false) :
    failuresSince o.source (history ++ [o]) = [] := by
  have hf : (history ++ [o]).filter (·.source = o.source) =
      history.filter (·.source = o.source) ++ [o] := by
    simp [List.filter_append]
  rw [failuresSince, hf, List.rtakeWhile_concat_neg _ _ _ (by simp [h])]
  rfl

theorem mem_failuresSince {t : Time} (h : t ∈ failuresSince source history) :
    ∃ o ∈ history, o.failed = true ∧ o.time = t := by
  obtain ⟨o, ho, rfl⟩ := List.mem_map.mp h
  have hmem := (List.rtakeWhile_suffix _ _).mem ho
  exact ⟨o, (List.mem_filter.mp hmem).1, List.mem_rtakeWhile_imp ho, rfl⟩

end

/-- The table after a history. -/
def Failures.ofHistory (history : List Outcome) : Failures := history.foldl note []

/-! ### What the table remembers -/

/-- No failure lies within a leap second. -/
def Even (history : List Outcome) : Prop :=
  ∀ o ∈ history, o.failed = true → o.time.isLeap = false

/-- A time that is not before any outcome. -/
def NotBefore (history : List Outcome) (now : Time) : Prop := ∀ o ∈ history, o.time ≤ now

theorem NotBefore.init {history : List Outcome} {o : Outcome} {now : Time}
    (h : NotBefore (history ++ [o]) now) : NotBefore history now :=
  fun o' ho' => h o' (List.mem_append_left _ ho')

/-- The table has the streak of each source and its last failure. Sources that it does not have
count for nothing, now and later. -/
structure Remembers (history : List Outcome) (fs : Failures) : Prop where
  single : fs.OnePerAddress
  present : ∀ source s, fs.lookup source = some s →
    (failuresSince source history).getLast? = some s.last ∧
    ∃ streak, IsStreak (failuresSince source history) streak ∧
      s.count.toNat = min streak.length 4294967295
  absent : ∀ source, fs.lookup source = none → ∀ now : Time, now.isLeap = false →
    NotBefore history now → ∀ last, (failuresSince source history).getLast? = some last →
      ¬ Near last now

namespace Remembers

theorem nil : Remembers [] [] where
  single := Failures.onePerAddress_nil
  present := by
    intro source s h
    contradiction
  absent := by
    intro source _ now _ _ last h
    contradiction

variable {history : List Outcome} {fs : Failures} {source : Net.Address} {now : Time}

/-- The number for a source is the length of its streak, as long as the last failure is near. -/
theorem toNat_prior (h : Remembers history fs) (hnow : now.isLeap = false)
    (hlater : NotBefore history now) (source : Net.Address) :
    ∃ streak, IsStreak (failuresSince source history) streak ∧
      (fs.prior source now).toNat =
        if ∃ last, (failuresSince source history).getLast? = some last ∧ Near last now then
          min streak.length 4294967295
        else 0 := by
  cases hs : fs.lookup source with
  | none =>
    obtain ⟨streak, hstreak⟩ := exists_isStreak (failuresSince source history)
    refine ⟨streak, hstreak, ?_⟩
    have hfar := h.absent source hs now hnow hlater
    rw [Failures.prior_of_absent hs, if_neg]
    · rfl
    · rintro ⟨last, hlast, hnear⟩
      exact hfar last hlast hnear
  | some s =>
    obtain ⟨hlast, streak, hstreak, hcount⟩ := h.present source s hs
    refine ⟨streak, hstreak, ?_⟩
    rw [Failures.prior_of_lookup hs, hlast]
    by_cases hstale : s.isStale now = true
    · have hfar : ¬ Near s.last now := by
        have : memory < now.since s.last := of_decide_eq_true hstale
        exact Int.not_le.mpr this
      rw [if_pos hstale, if_neg]
      · rfl
      · rintro ⟨last, hl, hnear⟩
        obtain rfl := Option.some.inj hl
        exact hfar hnear
    · have hnear : Near s.last now := by
        have : ¬ memory < now.since s.last := fun hlt => hstale (decide_eq_true hlt)
        exact Int.not_lt.mp this
      rw [if_neg hstale, if_pos ⟨s.last, rfl, hnear⟩, hcount]

/-- A streak that is stale stays so. -/
theorem stale_later (h : Remembers history fs) (heven : Even history) {t later : Time}
    (ht : t.isLeap = false) (hlater : later.isLeap = false) (hle : t ≤ later) {s : Streak}
    (hs : fs.lookup source = some s) (hstale : s.isStale t = true) :
    s.isStale later = true := by
  obtain ⟨hlast, -⟩ := h.present source s hs
  obtain ⟨o, ho, hfailed, htime⟩ := mem_failuresSince (List.mem_of_getLast? hlast)
  have hleap : s.last.isLeap = false := htime ▸ heven o ho hfailed
  exact Streak.isStale_later hleap ht hlater hle hstale

/-- The streak of a source that fails once more, with the number that the table gives it. -/
theorem record_streak (h : Remembers history fs) (hnow : now.isLeap = false)
    (hlater : NotBefore history now) (source : Net.Address) :
    ∃ streak, IsStreak (failuresSince source history ++ [now]) streak ∧
      (countUp (fs.prior source now)).toNat = min streak.length 4294967295 := by
  obtain ⟨streak, hstreak, hprior⟩ := h.toNat_prior hnow hlater source
  rw [Failures.toNat_countUp, hprior]
  by_cases hnear : ∃ last, (failuresSince source history).getLast? = some last ∧ Near last now
  · rw [if_pos hnear]
    obtain ⟨last, hlast, hnear⟩ := hnear
    refine ⟨streak ++ [now], hstreak.concat hlast hnear, ?_⟩
    simp only [List.length_append, List.length_singleton]
    omega
  · rw [if_neg hnear]
    refine ⟨[now], isStreak_singleton ?_, rfl⟩
    intro last hlast hn
    exact hnear ⟨last, hlast, hn⟩

/-- A failure is remembered. -/
theorem record (h : Remembers history fs) {o : Outcome} (hfailed : o.failed = true)
    (heven : Even (history ++ [o])) (hlater : NotBefore history o.time) :
    Remembers (history ++ [o]) (fs.record o.source o.time) := by
  have hleap : o.time.isLeap = false := heven o (by simp) hfailed
  have hold : Even history := fun o' ho' => heven o' (List.mem_append_left _ ho')
  refine ⟨h.single.record o.source o.time, ?_, ?_⟩
  · intro source s hs
    by_cases ho : source = o.source
    · subst ho
      rw [Failures.lookup_record_self] at hs
      obtain rfl := Option.some.inj hs
      rw [failuresSince_concat_of_failed history hfailed]
      exact ⟨List.getLast?_concat, h.record_streak hleap hlater o.source⟩
    · rw [Failures.lookup_record_of_ne h.single ho] at hs
      rw [failuresSince_concat_of_ne history (Ne.symm ho)]
      exact h.present source s (Option.filter_eq_some_iff.mp hs).1
  · intro source hs now hnow hafter last hlast
    by_cases ho : source = o.source
    · subst ho
      rw [Failures.lookup_record_self] at hs
      contradiction
    · rw [Failures.lookup_record_of_ne h.single ho] at hs
      rw [failuresSince_concat_of_ne history (Ne.symm ho)] at hlast
      cases hl : fs.lookup source with
      | none => exact h.absent source hl now hnow hafter.init last hlast
      | some s =>
        -- The streak was dropped just now, since it had become stale.
        rw [hl, Option.filter_some] at hs
        have hstale : s.isStale o.time = true := by
          by_contra hkept
          simp [hkept] at hs
        have hle : o.time ≤ now := hafter o (by simp)
        have hlt : memory < now.since s.last :=
          of_decide_eq_true (h.stale_later hold hleap hnow hle hl hstale)
        obtain ⟨hl', -⟩ := h.present source s hl
        obtain rfl := Option.some.inj (hl'.symm.trans hlast)
        exact Int.not_le.mpr hlt

/-- A success is remembered. -/
theorem clear (h : Remembers history fs) {o : Outcome} (hfailed : o.failed = false) :
    Remembers (history ++ [o]) (fs.clear o.source) := by
  refine ⟨h.single.clear o.source, ?_, ?_⟩
  · intro source s hs
    by_cases ho : source = o.source
    · subst ho
      rw [Failures.lookup_clear_self] at hs
      contradiction
    · rw [Failures.lookup_clear_of_ne h.single ho] at hs
      rw [failuresSince_concat_of_ne history (Ne.symm ho)]
      exact h.present source s hs
  · intro source hs now hnow hafter last hlast
    by_cases ho : source = o.source
    · subst ho
      rw [failuresSince_concat_of_succeeded history hfailed] at hlast
      contradiction
    · rw [Failures.lookup_clear_of_ne h.single ho] at hs
      rw [failuresSince_concat_of_ne history (Ne.symm ho)] at hlast
      exact h.absent source hs now hnow hafter.init last hlast

/-- What holds of a table holds after one more outcome. -/
theorem note (h : Remembers history fs) {o : Outcome} (heven : Even (history ++ [o]))
    (hlater : NotBefore history o.time) : Remembers (history ++ [o]) (fs.note o) := by
  cases hfailed : o.failed with
  | true =>
    rw [Failures.note, if_pos hfailed]
    exact h.record hfailed heven hlater
  | false =>
    rw [Failures.note, if_neg (by simp [hfailed])]
    exact h.clear hfailed

/-- The table remembers every history whose times do not go back. -/
theorem ofHistory (history : List Outcome) (heven : Even history)
    (hordered : history.Pairwise fun a b => a.time ≤ b.time) :
    Remembers history (.ofHistory history) := by
  induction history using List.reverseRecOn with
  | nil => exact nil
  | append_singleton history o ih =>
    obtain ⟨hordered, -, hlater⟩ := List.pairwise_append.mp hordered
    have hold : Even history := fun o' ho' => heven o' (List.mem_append_left _ ho')
    have hnext := (ih hold hordered).note heven fun o' ho' => hlater o' ho' o (by simp)
    rwa [Failures.ofHistory, List.foldl_append]

end Remembers

/-- The table of failures implements the streaks of the history. Whatever outcomes have come from
whatever sources, the number for a source is the length of its streak, or the greatest number there
is; it is zero if the source has not failed since its last success, or if its last failure is too
long ago. A further failure counts itself. Dropping what is stale changes the number of no source.
All this where no failure, and not the time that is asked about, lies within a leap second. -/
theorem prior_ofHistory (history : List Outcome) (now : Time)
    (ordered : history.Pairwise fun a b => a.time ≤ b.time)
    (later : ∀ o ∈ history, o.time ≤ now)
    (even : ∀ o ∈ history, o.failed = true → o.time.isLeap = false)
    (plain : now.isLeap = false) (source : Net.Address) :
    let fs := Failures.ofHistory history
    let failures := failuresSince source history
    (∃ streak, IsStreak failures streak ∧ (fs.prior source now).toNat =
      if ∃ last, failures.getLast? = some last ∧ now.since last ≤ memory then
        min streak.length 4294967295
      else 0) ∧
    (∃ streak, IsStreak (failuresSince source (history ++ [⟨now, source, true⟩])) streak ∧
      ((fs.record source now).prior source now).toNat = min streak.length 4294967295) ∧
    ∀ t : Time, t ≤ now → t.isLeap = false →
      (fs.prune t).prior source now = fs.prior source now := by
  intro fs failures
  have h : Remembers history fs := .ofHistory history even ordered
  refine ⟨h.toNat_prior plain later source, ?_, ?_⟩
  · have hfailures : failuresSince source (history ++ [⟨now, source, true⟩]) = failures ++ [now] :=
      failuresSince_concat_of_failed (o := ⟨now, source, true⟩) history rfl
    rw [Failures.prior_record_self, hfailures]
    exact h.record_streak plain later source
  · intro t hle ht
    apply Failures.prior_prune h.single
    intro s hs hstale
    exact h.stale_later even ht plain hle hs hstale

/-- A whole second. -/
def second (n : Int) : Time := ⟨n, 0, Time.start_nanos_lt⟩

/-- Two sources; the first one pauses for longer than the memory after its second failure. -/
def twoStreaks : List Outcome :=
  [⟨second 0, .v4 192 0 2 1, true⟩, ⟨second 10, .v4 192 0 2 2, false⟩,
    ⟨second 900, .v4 192 0 2 1, true⟩, ⟨second 1500, .v4 192 0 2 2, true⟩,
    ⟨second 1801, .v4 192 0 2 1, true⟩, ⟨second 2701, .v4 192 0 2 1, true⟩]

/-- After exactly a quarter of an hour, the last two failures still count. -/
theorem prior_ofHistory_twoStreaks :
    let now := second 3601
    let source := Net.Address.v4 192 0 2 1
    let fs := Failures.ofHistory twoStreaks
    let failures := failuresSince source twoStreaks
    (twoStreaks.Pairwise fun a b => a.time ≤ b.time) ∧ (∀ o ∈ twoStreaks, o.time ≤ now) ∧
    (∀ o ∈ twoStreaks, o.failed = true → o.time.isLeap = false) ∧ now.isLeap = false ∧
    fs.prior source now = 2 ∧
    (∃ streak, IsStreak failures streak ∧ (fs.prior source now).toNat =
      if ∃ last, failures.getLast? = some last ∧ now.since last ≤ memory then
        min streak.length 4294967295
      else 0) ∧
    (∃ streak, IsStreak (failuresSince source (twoStreaks ++ [⟨now, source, true⟩])) streak ∧
      ((fs.record source now).prior source now).toNat = min streak.length 4294967295) ∧
    ∀ t : Time, t ≤ now → t.isLeap = false →
      (fs.prune t).prior source now = fs.prior source now := by
  intro now source fs failures
  have ordered : twoStreaks.Pairwise fun a b => a.time ≤ b.time := by decide
  have later : ∀ o ∈ twoStreaks, o.time ≤ now := by decide
  have even : ∀ o ∈ twoStreaks, o.failed = true → o.time.isLeap = false := by decide
  have plain : now.isLeap = false := by decide
  exact ⟨ordered, later, even, plain, by decide,
    prior_ofHistory twoStreaks now ordered later even plain source⟩

/-- A leap second counts until midnight only. A failure within it is forgotten at another failure
just before midnight, and just after midnight would still have been remembered. -/
theorem forgotten_across_leap_second :
    let leap : Time := ⟨1714607099, 1500000000, by decide⟩
    let before : Time := ⟨1714607999, 700000000, by decide⟩
    let now : Time := ⟨1714608000, 100000000, by decide⟩
    let source := Net.Address.v4 192 0 2 10
    let history : List Outcome := [⟨leap, source, true⟩, ⟨before, .v4 192 0 2 20, true⟩]
    (history.Pairwise fun a b => a.time ≤ b.time) ∧ (∀ o ∈ history, o.time ≤ now) ∧
    failuresSince source history = [leap] ∧ now.since leap ≤ memory ∧
    (Failures.ofHistory history).prior source now = 0 ∧
    (Failures.ofHistory [⟨leap, source, true⟩]).prior source now = 1 := by
  decide

end RemoteDesk.Auth
