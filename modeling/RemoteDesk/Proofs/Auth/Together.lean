import RemoteDesk.Proofs.Auth.Gates

/-!
Attempts that start together all end, and as if they had been made one after the other.
-/
namespace RemoteDesk.Auth.Parallel

variable (s : Settings) (now : Time) (attempts : List Attempt) (fs : Failures)

/-! ### Every attempt ends -/

/-- How many steps an attempt has left at a stage, counting a wait. -/
def Stage.left : Stage → Nat
  | .arriving => 4
  | .entering => 3
  | .ripe => 1

/-- How many steps are left at most. -/
def State.left (st : State) : Nat :=
  (st.ready.map (·.2.left)).sum + 2 * st.sleeping.length + 3 * st.waiting.length

theorem left_finish (place : Nat) (a : Attempt) (st : State) :
    (finish s now attempts place a st).left = st.left := by
  rw [finish_eq]
  cases hnext : nextWaiting? attempts a.source st.waiting with
  | none => rfl
  | some next =>
    have hmem : next ∈ st.waiting := List.mem_of_find?_eq_some hnext
    have hlen := List.length_erase_of_mem hmem
    have hpos := List.length_pos_of_mem hmem
    simp only [State.left, State.handOver, State.leave, List.map_append, List.sum_append, hlen,
      List.map_singleton, List.sum_singleton, Stage.left]
    omega

theorem left_enter_le (place : Nat) (a : Attempt) (st : State) :
    (enter s now attempts place a st).left ≤ st.left + 2 := by
  unfold enter
  split
  · rw [left_finish]
    omega
  · split
    · rw [left_finish]
      omega
    · rename_i d _ _
      obtain ⟨front, back, hsplit, hinsert⟩ :=
        insertSleeper_split (st.elapsed + d.toNanos) place st.sleeping
      simp only [State.left, hinsert, List.length_append, List.length_singleton]
      rw [hsplit, List.length_append]
      omega

theorem left_wake_lt {st : State} (hready : st.ready = []) (hsleeping : st.sleeping ≠ []) :
    (wake st).left < st.left := by
  obtain ⟨w, sleeping, hw⟩ := List.exists_cons_of_ne_nil hsleeping
  obtain ⟨t, first⟩ := w
  have hup : (st.sleeping.takeWhile (·.1 = t)).length ≠ 0 := by simp [hw]
  have hsplit : (st.sleeping.takeWhile (·.1 = t)).length +
      (st.sleeping.dropWhile (·.1 = t)).length = st.sleeping.length := by
    rw [← List.length_append, List.takeWhile_append_dropWhile]
  unfold wake
  rw [hw]
  dsimp only
  rw [← hw]
  simp only [State.left, hready, List.map_map, Function.comp_def, Stage.left, List.map_const',
    List.sum_replicate_nat, List.map_nil, List.sum_nil]
  omega

/-- Every step brings the end nearer, unless nobody is ready or asleep. -/
theorem left_step_lt {st : State} (h : ¬ (st.ready = [] ∧ st.sleeping = [])) :
    (step s now attempts st).left < st.left := by
  unfold step
  cases hready : st.ready with
  | nil => exact left_wake_lt hready fun hsleeping => h ⟨hready, hsleeping⟩
  | cons turn ready =>
    obtain ⟨place, stage⟩ := turn
    have hleft : st.left = stage.left + State.left { st with ready } := by
      simp only [State.left, hready, List.map_cons, List.sum_cons]
      omega
    dsimp only
    rw [hleft]
    cases attempts[place]? with
    | none => cases stage <;> simp only [Stage.left] <;> omega
    | some a =>
      cases stage with
      | arriving =>
        dsimp only [runOne]
        split
        · simp only [State.left, Stage.left, List.length_append, List.length_singleton]
          omega
        · have henter := left_enter_le s now attempts place a
            { st with ready, taken := a.source :: st.taken }
          simp only [State.left, Stage.left] at henter ⊢
          omega
      | entering =>
        have henter := left_enter_le s now attempts place a { st with ready }
        simp only [runOne, Stage.left]
        omega
      | ripe =>
        simp only [runOne, Stage.left, left_finish]
        omega

theorem run_of_quiet {st : State} (hready : st.ready = []) (hsleeping : st.sleeping = [])
    (n : Nat) : run s now attempts n st = st := by
  have hstep : step s now attempts st = st := by simp [step, wake, hready, hsleeping]
  induction n with
  | zero => rfl
  | succ n ih => rw [run, hstep, ih]

/-- In the end nobody is ready and nobody is asleep. -/
theorem quiet_run (n : Nat) {st : State} (h : st.left ≤ n) :
    (run s now attempts n st).ready = [] ∧ (run s now attempts n st).sleeping = [] := by
  induction n generalizing st with
  | zero =>
    refine Classical.byContradiction fun hnot => ?_
    have hlt : (step s now attempts st).left < st.left := left_step_lt s now attempts hnot
    omega
  | succ n ih =>
    by_cases hquiet : st.ready = [] ∧ st.sleeping = []
    · rw [run_of_quiet s now attempts hquiet.1 hquiet.2]
      exact hquiet
    · have hlt := left_step_lt s now attempts hquiet
      exact ih (by omega)

theorem quiet_outcome :
    (outcome s now attempts fs).ready = [] ∧ (outcome s now attempts fs).sleeping = [] := by
  refine quiet_run s now attempts _ ?_
  simp only [State.left, start, List.map_map, Function.comp_def, Stage.left, List.map_const',
    List.sum_replicate_nat, List.length_range, List.length_nil]
  omega

section
variable {s now attempts fs}

theorem orderly_outcome (single : fs.OnePerAddress) :
    Orderly s now attempts fs [] [] (outcome s now attempts fs) :=
  Orderly.start.run single _

/-- In the end all attempts of a lane have ended, in order. -/
theorem Orderly.lane_done {st : State} (h : Orderly s now attempts fs [] [] st)
    (hready : st.ready = []) (hsleeping : st.sleeping = []) (source : Net.Address) :
    lane attempts source st.done = lane attempts source (List.range attempts.length) := by
  have hinside : st.inside = [] := by simp [State.inside, State.turning, hready, hsleeping]
  have harriving : st.arriving = [] := by simp [State.arriving, hready]
  have hfree : source ∉ st.taken := by
    have hgate := h.gates source
    rw [hinside] at hgate
    exact List.count_eq_zero.mp hgate.symm
  have hlanes := h.lanes source
  simpa only [hinside, harriving, lane_append, lane_nil, h.queues source hfree,
    List.append_nil] using hlanes

theorem Orderly.perm_done {st : State} (h : Orderly s now attempts fs [] [] st)
    (hready : st.ready = []) (hsleeping : st.sleeping = []) :
    st.done.Perm (List.range attempts.length) := by
  refine List.perm_iff_count.mpr fun place => ?_
  cases ha : attempts[place]? with
  | some a =>
    rw [← count_lane ha, h.lane_done hready hsleeping, count_lane ha]
  | none =>
    have hout : attempts.length ≤ place := List.getElem?_eq_none_iff.mp ha
    rw [List.count_eq_zero.mpr, List.count_eq_zero.mpr]
    · simpa using hout
    · intro hmem
      have := h.places place hmem
      omega

end

/-- Attempts that start together come out as if they were made one after the other. Each ends once,
with the result and the audit event that it would have in turn, and when the attempts of its source
up to itself have waited as long as each would wait in turn. How long that is depends on the
attempts of its source alone: failures before it count, a success forgets them. The table is the
same in the end. -/
theorem outcome_in_turn (single : fs.OnePerAddress) :
    let st := outcome s now attempts fs
    st.done.Perm (List.range attempts.length) ∧
    (∀ place a, attempts[place]? = some a →
      let met := tableAfter s now fs (attempts.take place)
      (∃ f, st.result? place = some f ∧
        f.result = (a.settle s met now).result ∧ f.event = (a.settle s met now).event ∧
        f.endedAt = waited s now attempts fs
          (lane attempts a.source (List.range (place + 1)))) ∧
      met.prior a.source now =
        counted s (fs.prior a.source now) (own a.source (attempts.take place))) ∧
    st.failures.OnePerAddress ∧ st.failures.Same (tableAfter s now fs attempts) := by
  intro st
  have h : Orderly s now attempts fs [] [] st := orderly_outcome single
  obtain ⟨hready, hsleeping⟩ : st.ready = [] ∧ st.sleeping = [] := quiet_outcome s now attempts fs
  have hlanes := h.lane_done hready hsleeping
  refine ⟨h.perm_done hready hsleeping, ?_, ?_, ?_⟩
  · intro place a ha met
    refine ⟨?_, prior_tableAfter single a.source _⟩
    have hdone : place ∈ st.done := by
      have hlane : place ∈ lane attempts a.source (List.range attempts.length) :=
        mem_lane.mpr ⟨List.mem_range.mpr (List.getElem?_eq_some_iff.mp ha).1, by simp [ha]⟩
      rw [← hlanes] at hlane
      exact (mem_lane.mp hlane).1
    have hsome : (st.result? place).isSome = true := by
      simpa [State.result?, State.done] using hdone
    obtain ⟨f, hf⟩ := Option.isSome_iff_exists.mp hsome
    obtain rfl : f.place = place := by simpa using List.find?_some hf
    have hproper := h.ended f (List.mem_of_find?_eq_some hf)
    obtain ⟨hresult, hevent⟩ := hproper.settled a ha
    exact ⟨f, hf, hresult, hevent, hproper.endedAt.trans (dueAt_eq ha)⟩
  · rw [h.table]
    exact onePerAddress_tableAfter single _
  · rw [h.table]
    refine tableAfter_same single fun source => ?_
    rw [← attemptsAt_lane, hlanes, attemptsAt_lane, attemptsAt_range, List.take_length]

/-- One password for all; the first failure is free. -/
def strict : Settings :=
  ⟨.selfNamed "secret", (Backoff.mk 1 (.ofSecs 1) (.ofSecs 60)).delayFor, .ofSecs 3600⟩

/-- An attempt from one of two sources. -/
def attemptFrom (host : UInt8) (password : String) : Attempt :=
  ⟨.v4 192 0 2 host, ⟨"ada", password⟩, []⟩

/-- Failures of two sources, one of them long ago. -/
def onRecord : Failures :=
  [(.v4 192 0 2 1, ⟨7, ⟨0, 0, Time.start_nanos_lt⟩⟩),
    (.v4 192 0 2 2, ⟨3, ⟨5000, 0, Time.start_nanos_lt⟩⟩)]

/-- Five attempts, one of them from another source, and one of them right. -/
def rush : List Attempt :=
  [attemptFrom 1 "a", attemptFrom 1 "b", attemptFrom 2 "c", attemptFrom 1 "secret",
    attemptFrom 1 "d"]

/-- The last attempt waits behind the delays of one second and of two; the success before it lets
it count as the first failure. -/
theorem outcome_in_turn_rush :
    let now : Time := ⟨5000, 0, by decide⟩
    let st := outcome strict now rush onRecord
    onRecord.OnePerAddress ∧ st.done.Perm [0, 1, 2, 3, 4] ∧
    (∃ f, st.result? 4 = some f ∧ f.endedAt = 3000000000 ∧
      f.event = .loginFailed "ada" (.v4 192 0 2 1) 1) ∧
    st.failures.Same (tableAfter strict now onRecord rush) := by
  intro now st
  have single : onRecord.OnePerAddress := by decide
  obtain ⟨hdone, hall, -, hsame⟩ := outcome_in_turn strict now rush onRecord single
  obtain ⟨⟨f, hf, -, hevent, hended⟩, -⟩ := hall 4 (attemptFrom 1 "d") rfl
  refine ⟨single, hdone, ⟨f, hf, hended.trans ?_, hevent.trans ?_⟩, hsame⟩
  · decide
  · decide

end RemoteDesk.Auth.Parallel
