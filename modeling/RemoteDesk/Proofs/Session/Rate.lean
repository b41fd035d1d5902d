import Mathlib.Data.List.Induction
import RemoteDesk.Proofs.Session.Answer

/-!
The rate of a session is an exact sliding window. The instants that a session keeps are those at
which it let commands through, as far as they can still matter, so that a command is refused
exactly if as many as are allowed came through within the window before it.
-/
namespace RemoteDesk

open Json Desktop

variable {σ : Type}

/-! ### Instants in a window -/

/-- The instants that a window reaches back to. -/
def within (window now : Nat) (instants : List Nat) : List Nat :=
  instants.filter fun t => now - t < window

theorem within_append (window now : Nat) (as bs : List Nat) :
    within window now (as ++ bs) = within window now as ++ within window now bs :=
  List.filter_append as bs

/-- Of instants in their order, those outside of the window are in front. -/
theorem dropWhile_eq_within (window now : Nat) {instants : List Nat}
    (ordered : instants.Pairwise (· ≤ ·)) :
    (instants.dropWhile fun t => window ≤ now - t) = within window now instants := by
  induction instants with
  | nil => rfl
  | cons t instants ih =>
    obtain ⟨hfirst, hrest⟩ := List.pairwise_cons.mp ordered
    by_cases ht : window ≤ now - t
    · rw [List.dropWhile_cons_of_pos (by simpa using ht), ih hrest]
      simp [within, ht]
    · rw [List.dropWhile_cons_of_neg (by simpa using ht)]
      refine (List.filter_eq_self.mpr ?_).symm
      intro s hs
      have hle : t ≤ s := by
        rcases List.mem_cons.mp hs with rfl | hs
        · exact Nat.le_refl s
        · exact hfirst s hs
      simp only [decide_eq_true_eq]
      omega

/-- What a window does not reach back to, a later one does not either. -/
theorem within_within (window : Nat) {now later : Nat} (h : now ≤ later) (instants : List Nat) :
    within window later (within window now instants) = within window later instants := by
  unfold within
  rw [List.filter_filter]
  refine List.filter_congr ?_
  intro t _
  simp only [Bool.and_eq_decide, decide_eq_decide, decide_eq_true_eq]
  omega

namespace Session

variable {s : Session}

theorem expire_recent (window : Duration) (now : Nat)
    (ordered : s.recentCommands.Pairwise (· ≤ ·)) :
    (s.expire window now).recentCommands = within window.toNanos now s.recentCommands :=
  dropWhile_eq_within _ _ ordered

end Session

namespace Dispatch

variable [Backend σ]

/-- Only the check of the rate has its code. -/
theorem code_rate_unique {check : Check} (h : check.code = "RateLimited") : check = .rate := by
  revert h
  cases check <;> decide

/-- A frame has the code of the rate exactly if it gets as far as that check and no further. -/
theorem code_rate_iff (service : Service) (m : Moment) (frame : Members) (session : Session)
    (server : Server σ) :
    (dispatch service m frame session server).response.errorCode? = some "RateLimited" ↔
      fault service m frame session server .envelope = none ∧
      fault service m frame session server .fresh = none ∧
      fault service m frame session server .rate ≠ none := by
  have hall : Check.all = [.envelope, .fresh, .rate] ++ Check.all.drop 3 := by decide
  rw [errorCode?_eq, hall, List.findSome?_append]
  generalize hfinds : fault service m frame session server = finds
  have hcode : ∀ check r, finds check = some r → r.code = check.code := by
    intro check r h
    rw [← hfinds] at h
    exact code_of_fault h
  cases he : finds .envelope with
  | some r => simp [he, hcode _ _ he, Check.code]
  | none =>
    cases hf : finds .fresh with
    | some r => simp [he, hf, hcode _ _ hf, Check.code]
    | none =>
      cases hr : finds .rate with
      | some r => simp [he, hf, hr, hcode _ _ hr, Check.code]
      | none =>
        -- What is found later has another code.
        simp only [List.findSome?_cons, List.findSome?_nil, he, hf, hr, Option.none_or, ne_eq,
          not_true_eq_false, and_false, iff_false]
        intro h
        obtain ⟨r, hfound, hcoded⟩ := Option.map_eq_some_iff.mp h
        obtain ⟨check, hmem, hcheck⟩ := List.exists_of_findSome?_eq_some hfound
        rw [hcode _ _ hcheck] at hcoded
        rw [code_rate_unique hcoded] at hmem
        exact absurd hmem (by decide)

end Dispatch

namespace Exchange

/-- When the frame came. -/
def instant (e : Exchange σ) : Nat := e.visit.moment.instant

/-- The frame is a command whose identifier is not remembered. -/
def fresh (e : Exchange σ) : Bool := e.command?.any fun c => !e.session.seenIds.contains c.id

variable [Backend σ]

/-- The frame is refused for the rate. -/
def limited (service : Service) (e : Exchange σ) : Bool :=
  (e.turn service).response.errorCode? == some "RateLimited"

/-- The frame is a new command and is not refused for the rate, whatever the answer is. -/
def admitted (service : Service) (e : Exchange σ) : Bool := e.fresh && !e.limited service

omit [Backend σ] in
theorem fresh_of_error {e : Exchange σ} {fault : ProtocolError} (h : e.visit.frame = .error fault) :
    e.fresh = false := by
  rw [fresh, command?, h]
  rfl

omit [Backend σ] in
theorem fresh_iff {e : Exchange σ} :
    e.fresh = true ↔ ∃ c, e.command? = some c ∧ c.id ∉ e.session.seenIds := by
  rw [fresh, Option.any_eq_true]
  simp only [Bool.not_eq_true', List.contains_eq_mem, decide_eq_false_iff_not]

/-- Whether the session has as many instants in its window as are allowed. -/
def crowded (service : Service) (e : Exchange σ) : Prop :=
  service.limits.maxCommands ≠ 0 ∧ service.limits.maxCommands.toNat ≤
    (e.session.expire service.limits.rateWindow e.instant).recentCommands.length

instance (service : Service) (e : Exchange σ) : Decidable (e.crowded service) :=
  inferInstanceAs (Decidable (_ ∧ _))

/-- New commands are refused for the rate exactly if the window is full, and nothing else is. -/
theorem limited_iff (service : Service) (e : Exchange σ) :
    e.limited service = true ↔ e.fresh = true ∧ e.crowded service := by
  cases hframe : e.visit.frame with
  | error fault =>
    rw [fresh_of_error hframe, limited, turn, hframe]
    simp [Dispatch.answer, Dispatch.rejectFrame, Dispatch.refuse, Dispatch.refusalResponse,
      Response.failure, Refusal.code]
  | ok frame =>
    rw [limited, turn_of_ok service hframe, beq_iff_eq, Dispatch.code_rate_iff, fresh_iff,
      command?_of_ok hframe, Dispatch.command?]
    have hrate : Dispatch.fault (service.withAccounts e.visit.accounts) e.visit.moment frame
        e.session e.server .rate = if e.crowded service then
          some (.rateLimited service.limits.maxCommands service.limits.rateWindow.secs)
        else none := rfl
    rw [hrate]
    cases hc : Command.ofObject frame with
    | error err => simp [Dispatch.fault, hc, Except.toOption]
    | ok c => simp [Dispatch.fault, hc, Dispatch.command?_of_ok hc, Except.toOption]

/-- The instants that the session keeps after a frame. -/
theorem turn_recent (service : Service) (e : Exchange σ) :
    (e.turn service).session.recentCommands =
      if e.fresh = true ∧ service.limits.maxCommands ≠ 0 then
        let recent := (e.session.expire service.limits.rateWindow e.instant).recentCommands
        if e.crowded service then recent else recent ++ [e.instant]
      else e.session.recentCommands := by
  obtain ⟨context?, hsession⟩ := e.turn_session service
  rw [hsession]
  show (e.received service).recentCommands = _
  by_cases hfresh : e.fresh = true
  · obtain ⟨c, hc, hin⟩ := fresh_iff.mp hfresh
    obtain ⟨frame, hframe, hreceived⟩ := received_of_command service hc
    rw [hreceived, Dispatch.received_of_new service.limits e.visit.moment hframe hin]
    dsimp only
    rw [Session.letThrough_session]
    by_cases hm : service.limits.maxCommands = 0 <;> simp [hm, hfresh, crowded, instant]
  · have hknown : ∀ c, e.command? = some c → c.id ∈ e.session.seenIds := by
      intro c hc
      apply Classical.byContradiction
      intro hin
      exact hfresh (fresh_iff.mpr ⟨c, hc, hin⟩)
    rw [received_of_known service hknown, if_neg fun h => hfresh h.1]
    rfl

end Exchange

/-! ### The window of a session -/

variable [Backend σ] {service : Service} {past : List (Exchange σ)} {e : Exchange σ}

/-- When commands were let through. -/
def admissions (service : Service) (past : List (Exchange σ)) : List Nat :=
  (past.filter (·.admitted service)).map (·.instant)

/-- The commands let through within the window before an instant. -/
def recentAdmissions (service : Service) (past : List (Exchange σ)) (now : Nat) : Nat :=
  past.countP fun old =>
    old.admitted service && decide (now - old.instant < service.limits.rateWindow.toNanos)

theorem length_within_admissions (service : Service) (past : List (Exchange σ)) (now : Nat) :
    (within service.limits.rateWindow.toNanos now (admissions service past)).length =
      recentAdmissions service past now := by
  have hfilter : (past.filter (·.admitted service)).filter
      (fun old => decide (now - old.instant < service.limits.rateWindow.toNanos)) =
      past.filter fun old =>
        old.admitted service && decide (now - old.instant < service.limits.rateWindow.toNanos) := by
    rw [List.filter_filter]
    exact List.filter_congr fun old _ => Bool.and_comm _ _
  rw [within, admissions, recentAdmissions, List.countP_eq_length_filter, ← hfilter,
    List.filter_map, List.length_map]
  rfl

theorem admissions_concat (service : Service) (past : List (Exchange σ)) (e : Exchange σ) :
    admissions service (past ++ [e]) =
      admissions service past ++ if e.admitted service then [e.instant] else [] := by
  rw [admissions, List.filter_append, List.map_append]
  by_cases h : e.admitted service = true <;> simp [admissions, h]

/-- A session keeps the instants that a window can still reach back to, and not more of them than
are allowed. -/
structure Metered (service : Service) (past : List (Exchange σ)) (session : Session) : Prop where
  sublist : session.recentCommands.Sublist (admissions service past)
  kept : ∀ now, (∀ old ∈ past, old.instant ≤ now) →
    within service.limits.rateWindow.toNanos now session.recentCommands =
      within service.limits.rateWindow.toNanos now (admissions service past)
  few : session.recentCommands.length ≤ service.limits.maxCommands.toNat

/-- Frames came in their order. -/
def InOrder (past : List (Exchange σ)) : Prop := (past.map (·.instant)).Pairwise (· ≤ ·)

omit [Backend σ] in
theorem InOrder.left {future : List (Exchange σ)} (h : InOrder (past ++ future)) :
    InOrder past := by
  rw [InOrder, List.map_append] at h
  exact (List.pairwise_append.mp h).1

omit [Backend σ] in
theorem InOrder.le_last (h : InOrder (past ++ [e])) : ∀ old ∈ past, old.instant ≤ e.instant := by
  intro old hold
  rw [InOrder, List.map_append] at h
  exact (List.pairwise_append.mp h).2.2 _ (List.mem_map_of_mem hold) _ (by simp)

theorem InOrder.admissions (h : InOrder past) : (admissions service past).Pairwise (· ≤ ·) :=
  List.Pairwise.sublist (List.filter_sublist.map _) h

namespace Metered

theorem new (service : Service) (peer : Net.Endpoint) :
    Metered service ([] : List (Exchange σ)) (.new peer) :=
  ⟨.slnil, fun _ _ => rfl, Nat.zero_le _⟩

/-- What the session takes for the window before a frame. -/
theorem expire_eq (h : Metered service past e.session) (ordered : InOrder (past ++ [e])) :
    (e.session.expire service.limits.rateWindow e.instant).recentCommands =
      within service.limits.rateWindow.toNanos e.instant (admissions service past) := by
  rw [Session.expire_recent _ _ (ordered.left.admissions.sublist h.sublist)]
  exact h.kept e.instant ordered.le_last

theorem crowded_iff (h : Metered service past e.session) (ordered : InOrder (past ++ [e])) :
    e.crowded service ↔ service.limits.maxCommands ≠ 0 ∧
      service.limits.maxCommands.toNat ≤ recentAdmissions service past e.instant := by
  rw [Exchange.crowded, h.expire_eq ordered, length_within_admissions]

/-- A frame that is not let through may at most make the session forget. -/
theorem unadmitted {s : Session} (h : Metered service past e.session)
    (hno : e.admitted service = false)
    (hsub : s.recentCommands.Sublist e.session.recentCommands)
    (hkept : ∀ now, e.instant ≤ now → within service.limits.rateWindow.toNanos now
      s.recentCommands =
        within service.limits.rateWindow.toNanos now e.session.recentCommands) :
    Metered service (past ++ [e]) s := by
  have hsame : admissions service (past ++ [e]) = admissions service past := by
    rw [admissions_concat, hno]
    simp
  refine ⟨?_, ?_, Nat.le_trans hsub.length_le h.few⟩
  · rw [hsame]
    exact hsub.trans h.sublist
  · intro now hnow
    rw [hsame, hkept now (hnow e (by simp))]
    exact h.kept now fun old hold => hnow old (List.mem_append_left _ hold)

/-- Every frame keeps the instants as they should be. -/
theorem step (hmost : service.limits.maxCommands ≠ 0) (h : Metered service past e.session)
    (ordered : InOrder (past ++ [e])) :
    Metered service (past ++ [e]) (e.turn service).session := by
  have hrecent := e.turn_recent service
  have hlimited := e.limited_iff service
  have hexpire := Session.expire_recent service.limits.rateWindow e.instant
    (ordered.left.admissions.sublist h.sublist)
  by_cases hfresh : e.fresh = true
  · rw [if_pos ⟨hfresh, hmost⟩] at hrecent
    by_cases hcrowd : e.crowded service
    · have hno : e.admitted service = false := by
        simp [Exchange.admitted, hlimited.mpr ⟨hfresh, hcrowd⟩]
      have hrecent := hrecent.trans ((if_pos hcrowd).trans hexpire)
      apply h.unadmitted hno
      · rw [hrecent]
        exact List.filter_sublist
      · intro now hnow
        rw [hrecent, within_within _ hnow]
    · have hyes : e.admitted service = true := by
        have hnot : e.limited service = false := by
          simpa using mt hlimited.mp fun hl => hcrowd hl.2
        simp [Exchange.admitted, hfresh, hnot]
      have hrecent := hrecent.trans (if_neg hcrowd)
      have hroom : (e.session.expire service.limits.rateWindow e.instant).recentCommands.length <
          service.limits.maxCommands.toNat :=
        Nat.not_le.mp fun hle => hcrowd ⟨hmost, hle⟩
      refine ⟨?_, ?_, ?_⟩
      · rw [hrecent, hexpire, admissions_concat, if_pos hyes]
        exact List.Sublist.append (List.filter_sublist.trans h.sublist) (.refl _)
      · intro now hnow
        have hold := h.kept now fun old hold => hnow old (List.mem_append_left _ hold)
        rw [hrecent, hexpire, admissions_concat, if_pos hyes, within_append, within_append,
          within_within _ (hnow e (by simp)), hold]
      · rw [hrecent, List.length_append, List.length_singleton]
        omega
  · have hno : e.admitted service = false := by simp [Exchange.admitted, hfresh]
    rw [if_neg fun hf => hfresh hf.1] at hrecent
    apply h.unadmitted hno
    · exact hrecent ▸ List.Sublist.refl _
    · intro now _
      rw [hrecent]

end Metered

/-! ### Runs -/

theorem exchanges_visits (service : Service) (visits : List (Visit σ)) (session : Session)
    (server : Server σ) : (exchanges service visits session server).map (·.visit) = visits := by
  induction visits generalizing session server with
  | nil => rfl
  | cons visit visits ih => exact congrArg (visit :: ·) (ih _ _)

/-- The frames of a run came in their order if the visits did. -/
theorem inOrder_exchanges (service : Service) {visits : List (Visit σ)}
    (ordered : (visits.map (·.moment.instant)).Pairwise (· ≤ ·)) (session : Session)
    (server : Server σ) : InOrder (exchanges service visits session server) := by
  rw [InOrder]
  rw [← exchanges_visits service visits session server, List.map_map] at ordered
  exact ordered

theorem metered_exchanges {peer : Net.Endpoint} {server : Server σ} {visits : List (Visit σ)}
    {future : List (Exchange σ)} (hmost : service.limits.maxCommands ≠ 0)
    (ordered : InOrder past)
    (h : exchanges service visits (.new peer) server = past ++ e :: future) :
    Metered service past e.session := by
  have hstep : ∀ (past : List (Exchange σ)) (e : Exchange σ),
      (InOrder past → Metered service past e.session) →
      InOrder (past ++ [e]) → Metered service (past ++ [e]) (e.turn service).session :=
    fun past e hold ordered => (hold ordered.left).step hmost ordered
  exact exchanges_invariant (P := fun past s => InOrder past → Metered service past s)
    hstep visits (fun _ => .new service peer) h ordered

theorem recentAdmissions_concat (service : Service) (past : List (Exchange σ)) (e : Exchange σ)
    (now : Nat) :
    recentAdmissions service (past ++ [e]) now = recentAdmissions service past now +
      if e.admitted service = true ∧ now - e.instant < service.limits.rateWindow.toNanos then 1
      else 0 := by
  rw [recentAdmissions, List.countP_append, List.countP_singleton]
  simp [recentAdmissions]

/-- The commands let through from an instant on, for the length of the window. -/
def admissionsFrom (service : Service) (start : Nat) (run : List (Exchange σ)) : Nat :=
  run.countP fun e => e.admitted service && decide (start ≤ e.instant) &&
    decide (e.instant < start + service.limits.rateWindow.toNanos)

/-- No interval as long as the window has more commands let through than are allowed: when the last
of them came, those before it were in its window. -/
theorem admissionsFrom_le {peer : Net.Endpoint} {server : Server σ} {visits : List (Visit σ)}
    (hmost : service.limits.maxCommands ≠ 0)
    (ordered : (visits.map (·.moment.instant)).Pairwise (· ≤ ·)) (start : Nat)
    (past future : List (Exchange σ))
    (h : exchanges service visits (.new peer) server = past ++ future) :
    admissionsFrom service start past ≤ service.limits.maxCommands.toNat := by
  have horder := inOrder_exchanges service ordered (.new peer) server
  induction past using List.reverseRecOn generalizing future with
  | nil => exact Nat.zero_le _
  | append_singleton past e ih =>
    rw [h] at horder
    rw [List.append_assoc, List.singleton_append] at h
    have hold := ih (e :: future) h
    by_cases he : e.admitted service = true ∧ start ≤ e.instant ∧
        e.instant < start + service.limits.rateWindow.toNanos
    · obtain ⟨hadmitted, hstart, hend⟩ := he
      have hcount : admissionsFrom service start past ≤
          recentAdmissions service past e.instant := by
        apply List.countP_mono_left
        intro old _ hin
        simp only [Bool.and_eq_true, decide_eq_true_eq] at hin ⊢
        refine ⟨hin.1.1, ?_⟩
        omega
      have hmetered := metered_exchanges hmost horder.left.left h
      have hroom : recentAdmissions service past e.instant <
          service.limits.maxCommands.toNat := by
        have hfresh : e.fresh = true := (Bool.and_eq_true_iff.mp hadmitted).1
        have hnot : e.limited service = false := by
          simpa using (Bool.and_eq_true_iff.mp hadmitted).2
        have hcrowd : ¬ e.crowded service := by
          intro hc
          rw [(e.limited_iff service).mpr ⟨hfresh, hc⟩] at hnot
          contradiction
        rw [hmetered.crowded_iff horder.left] at hcrowd
        exact Nat.not_le.mp fun hle => hcrowd ⟨hmost, hle⟩
      rw [admissionsFrom, List.countP_append, List.countP_singleton]
      rw [admissionsFrom] at hcount
      split <;> omega
    · rw [admissionsFrom, List.countP_append, List.countP_singleton]
      have hno : ¬ (e.admitted service && decide (start ≤ e.instant) &&
          decide (e.instant < start + service.limits.rateWindow.toNanos)) = true := by
        simpa [Bool.and_assoc] using he
      rw [if_neg hno]
      exact hold

/-- The rate limit is an exact sliding window. A new command is refused for the rate exactly if as
many commands as are allowed were let through within the window before it, and nothing else is
refused for it. So no interval as long as the window lets more commands through. A command that is
let through counts as long as the window reaches back to it, however it is answered; no other frame
counts. A session never stores more instants than commands are allowed. If no number is set, no
command is refused for the rate. -/
theorem rate_exact (service : Service) (peer : Net.Endpoint) (server : Server σ)
    (visits : List (Visit σ)) (ordered : (visits.map (·.moment.instant)).Pairwise (· ≤ ·))
    (past : List (Exchange σ)) (e : Exchange σ) (future : List (Exchange σ))
    (h : exchanges service visits (.new peer) server = past ++ e :: future) :
    let most := service.limits.maxCommands.toNat
    let window := service.limits.rateWindow.toNanos
    let stored := (e.turn service).session.recentCommands
    (most = 0 → e.limited service = false) ∧
    (0 < most →
      (e.limited service = true ↔
        e.fresh = true ∧ most ≤ recentAdmissions service past e.instant) ∧
      (∀ start, admissionsFrom service start (past ++ e :: future) ≤ most) ∧
      (∀ now, e.instant ≤ now →
        (within window now stored).length =
          (within window now e.session.recentCommands).length +
            if e.admitted service = true ∧ now - e.instant < window then 1 else 0) ∧
      stored.length ≤ most) := by
  intro most window stored
  have hzero : service.limits.maxCommands = 0 ↔ most = 0 := by
    rw [← UInt32.toNat_inj]
    rfl
  constructor
  · intro hmost
    have hnot : ¬ e.limited service = true := by
      rw [e.limited_iff service]
      rintro ⟨-, hne, -⟩
      exact hne (hzero.mpr hmost)
    simpa using hnot
  · intro hpos
    have hmost : service.limits.maxCommands ≠ 0 := fun hz => by
      have := hzero.mp hz
      omega
    have horder : InOrder (past ++ [e]) := by
      have hrun := inOrder_exchanges service ordered (.new peer) server
      rw [h, ← List.singleton_append, ← List.append_assoc] at hrun
      exact hrun.left
    have hmetered := metered_exchanges hmost horder.left h
    have hnext := hmetered.step hmost horder
    refine ⟨?_, ?_, ?_, hnext.few⟩
    · rw [e.limited_iff service, hmetered.crowded_iff horder]
      exact and_congr_right fun _ => and_iff_right hmost
    · intro start
      exact admissionsFrom_le hmost ordered start _ [] (by rw [List.append_nil]; exact h)
    · intro now hnow
      have hbefore : ∀ old ∈ past, old.instant ≤ now :=
        fun old hold => Nat.le_trans (horder.le_last old hold) hnow
      have hafter : ∀ old ∈ past ++ [e], old.instant ≤ now := by
        intro old hold
        rcases List.mem_append.mp hold with hold | hold
        · exact hbefore old hold
        · rw [List.mem_singleton.mp hold]
          exact hnow
      rw [hnext.kept now hafter, hmetered.kept now hbefore, length_within_admissions,
        length_within_admissions, recentAdmissions_concat]

/-- Two commands in a minute. -/
def sparing : Service := { hourly with limits := { Limits.standard with maxCommands := 2 } }

/-- A command after another. -/
def Exchange.next (visit : Visit Recording) (e : Exchange Recording) : Exchange Recording :=
  ⟨visit, (e.turn sparing).session, (e.turn sparing).server⟩

/-- The second command of a session, which is of no known kind. -/
def strange : Exchange Recording := firstLogin.next (commandAt 60 "2" "dance" [])

/-- A third command, less than a minute after the first. -/
def hasty : Exchange Recording := strange.next (commandAt 60 "3" "get_displays" [])

/-- The command of no known kind has counted as well. -/
theorem rate_exact_hasty :
    let visits := [firstLogin.visit, strange.visit, hasty.visit]
    let most := sparing.limits.maxCommands.toNat
    let window := sparing.limits.rateWindow.toNanos
    let stored := (hasty.turn sparing).session.recentCommands
    (visits.map (·.moment.instant)).Pairwise (· ≤ ·) ∧
    exchanges sparing visits (.new default) firstLogin.server =
      [firstLogin, strange] ++ hasty :: [] ∧
    0 < most ∧ hasty.limited sparing = true ∧ strange.admitted sparing = true ∧
    (most = 0 → hasty.limited sparing = false) ∧
    (0 < most →
      (hasty.limited sparing = true ↔ hasty.fresh = true ∧
        most ≤ recentAdmissions sparing [firstLogin, strange] hasty.instant) ∧
      (∀ start, admissionsFrom sparing start ([firstLogin, strange] ++ hasty :: []) ≤ most) ∧
      (∀ now, hasty.instant ≤ now →
        (within window now stored).length =
          (within window now hasty.session.recentCommands).length +
            if hasty.admitted sparing = true ∧ now - hasty.instant < window then 1 else 0) ∧
      stored.length ≤ most) := by
  intro visits most window stored
  have ordered : (visits.map (·.moment.instant)).Pairwise (· ≤ ·) := by decide
  have hrun : exchanges sparing visits (.new default) firstLogin.server =
      [firstLogin, strange] ++ hasty :: [] := rfl
  exact ⟨ordered, hrun, by decide, by decide +kernel, by decide +kernel,
    rate_exact sparing default firstLogin.server visits ordered [firstLogin, strange] hasty []
      hrun⟩

end RemoteDesk
