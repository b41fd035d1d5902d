import RemoteDesk.Proofs.Auth.Lanes

/-!
Attempts that start together come out as if they were made in turn. At every moment the places of
a lane are, in order: those that have ended, the one that holds the gate, those that wait at the
gate, and those that have not come yet. An attempt that is let in meets therefore what it would
meet in turn, and it is let in at the moment when the one before it in its lane ends.
-/
namespace RemoteDesk.Auth.Parallel

namespace State

/-- The places of the attempts that have ended, in the order of their ends. -/
def done (st : State) : List Nat := (st.finished.map (·.place)).reverse

/-- The places of the attempts that have been let in and are ready. -/
def turning (st : State) : List Nat := (st.ready.filter (·.2 ≠ .arriving)).map (·.1)

/-- The places of the attempts that have been let in and have not ended. -/
def inside (st : State) : List Nat := st.turning ++ st.sleeping.map (·.2)

/-- The places of the attempts that have not come to their gates yet. -/
def arriving (st : State) : List Nat := (st.ready.filter (·.2 = .arriving)).map (·.1)

/-- An attempt ends, and still holds its gate. -/
def leave (s : Settings) (now : Time) (place : Nat) (a : Attempt) (st : State) : State :=
  let settled := a.settle s st.failures now
  { st with
    failures := settled.failures
    finished := ⟨place, st.elapsed, settled.result, settled.event⟩ :: st.finished }

/-- A gate is handed over to an attempt that waits at it. -/
def handOver (next : Nat) (st : State) : State :=
  { st with waiting := st.waiting.erase next, ready := st.ready ++ [(next, .entering)] }

/-- The gate of a source is opened. -/
def reopen (source : Net.Address) (st : State) : State :=
  { st with taken := st.taken.erase source }

theorem done_leave (s : Settings) (now : Time) (place : Nat) (a : Attempt) (st : State) :
    (st.leave s now place a).done = st.done ++ [place] := by
  simp [done, leave]

theorem inside_handOver (next : Nat) (st : State) :
    (st.handOver next).inside = st.turning ++ [next] ++ st.sleeping.map (·.2) := by
  simp [inside, turning, handOver]

theorem arriving_handOver (next : Nat) (st : State) :
    (st.handOver next).arriving = st.arriving := by
  simp [arriving, handOver]

/-- The first of those who are ready has come to its gate. -/
theorem of_arriving {st : State} {place : Nat} {ready : List (Nat × Stage)}
    (h : st.ready = (place, .arriving) :: ready) :
    st.inside = { st with ready }.inside ∧
      st.arriving = [place] ++ { st with ready }.arriving := by
  simp [inside, turning, arriving, h]

/-- The first of those who are ready has been let in before. -/
theorem of_turning {st : State} {place : Nat} {stage : Stage} {ready : List (Nat × Stage)}
    (h : st.ready = (place, stage) :: ready) (hstage : stage ≠ .arriving) :
    st.inside = [place] ++ { st with ready }.inside ∧
      st.arriving = { st with ready }.arriving := by
  simp [inside, turning, arriving, h, hstage]

/-- All of those who are ready have waited. -/
theorem of_ripe {st : State} {places : List Nat}
    (h : st.ready = places.map fun place => (place, .ripe)) :
    st.inside = places ++ st.sleeping.map (·.2) ∧ st.arriving = [] := by
  have hall : st.ready.filter (·.2 ≠ .arriving) = st.ready := by
    rw [h]
    exact List.filter_eq_self.mpr (by simp)
  have hnone : st.ready.filter (·.2 = .arriving) = [] := by
    rw [h]
    exact List.filter_eq_nil_iff.mpr (by simp)
  rw [inside, turning, arriving, hall, hnone, h, List.map_map]
  exact ⟨congrArg (· ++ _) (List.map_id places), rfl⟩

end State

variable (s : Settings) (now : Time) (attempts : List Attempt) (fs : Failures)

theorem finish_eq (place : Nat) (a : Attempt) (st : State) :
    finish s now attempts place a st =
      match nextWaiting? attempts a.source st.waiting with
      | some next => (st.leave s now place a).handOver next
      | none => (st.leave s now place a).reopen a.source := rfl

/-- An attempt ended when it had waited in turn, and as it would have ended in turn. -/
structure Finished.Proper (f : Finished) : Prop where
  endedAt : f.endedAt = dueAt s now attempts fs f.place
  settled : ∀ a, attempts[f.place]? = some a →
    f.result = (a.settle s (metAt s now attempts fs f.place) now).result ∧
      f.event = (a.settle s (metAt s now attempts fs f.place) now).event

/-- A turn comes when it should. -/
def OnTime (elapsed : Nat) : Nat × Stage → Prop
  | (_, .arriving) => True
  | (place, .entering) => startAt s now attempts fs place = elapsed
  | (place, .ripe) => dueAt s now attempts fs place = elapsed

/-- What holds of every state. While a turn runs, its attempt is `running`, and it is `holding` its
gate until it leaves it. -/
structure Orderly (running holding : List Nat) (st : State) : Prop where
  /-- Every lane is in order. -/
  lanes : ∀ source, lane attempts source
    (st.done ++ running ++ st.inside ++ st.waiting ++ st.arriving) =
      lane attempts source (List.range attempts.length)
  /-- A gate is taken if one of its lane has been let in, and there is at most one. -/
  gates : ∀ source,
    (lane attempts source (holding ++ st.inside)).length = st.taken.count source
  nodup : st.taken.Nodup
  /-- Nobody waits at an open gate. -/
  queues : ∀ source, source ∉ st.taken → lane attempts source st.waiting = []
  /-- The table is that of the order in which the attempts ended. -/
  table : st.failures = tableAfter s now fs (attemptsAt attempts st.done)
  places : ∀ place ∈ st.done, place < attempts.length
  turns : ∀ turn ∈ st.ready, OnTime s now attempts fs st.elapsed turn
  asleep : ∀ w ∈ st.sleeping, w.1 = dueAt s now attempts fs w.2
  /-- Whoever comes to a gate comes at the start. -/
  early : st.arriving ≠ [] → st.elapsed = 0 ∧ ∀ f ∈ st.finished, f.endedAt = 0
  ended : ∀ f ∈ st.finished, f.Proper s now attempts fs

section
variable {s now attempts fs} {st : State} {place : Nat} {a : Attempt}

/-- The next one at a gate is the first one of its lane there. -/
theorem nextWaiting?_eq_some {source : Net.Address} {waiting : List Nat} {next : Nat}
    (h : nextWaiting? attempts source waiting = some next) :
    ∃ b front back, attempts[next]? = some b ∧ b.source = source ∧
      waiting = front ++ [next] ++ back ∧ waiting.erase next = front ++ back ∧
      lane attempts source front = [] := by
  obtain ⟨hnext, front, back, rfl, hfront⟩ := List.find?_eq_some_iff_append.mp h
  have hnil : lane attempts source front = [] := by
    refine List.filter_eq_nil_iff.mpr fun place hplace hsource => ?_
    have := hfront place hplace
    simp [hsource] at this
  have hnot : next ∉ front := by
    intro hmem
    have := hfront next hmem
    simp [hnext] at this
  rw [Option.any_eq_true] at hnext
  obtain ⟨b, hb, hsource⟩ := hnext
  refine ⟨b, front, back, hb, of_decide_eq_true hsource, by simp, ?_, hnil⟩
  rw [List.erase_append_right _ hnot, List.erase_cons_head]

theorem nextWaiting?_eq_none {source : Net.Address} {waiting : List Nat} :
    nextWaiting? attempts source waiting = none ↔ lane attempts source waiting = [] := by
  rw [nextWaiting?, lane, List.find?_eq_none, List.filter_eq_nil_iff]

theorem insertSleeper_split (wake place : Nat) (sleeping : List (Nat × Nat)) :
    ∃ front back, sleeping = front ++ back ∧
      insertSleeper wake place sleeping = front ++ [(wake, place)] ++ back := by
  induction sleeping with
  | nil => exact ⟨[], [], rfl, rfl⟩
  | cons w sleeping ih =>
    unfold insertSleeper
    split
    · exact ⟨[], w :: sleeping, rfl, rfl⟩
    · obtain ⟨front, back, hsplit, hinsert⟩ := ih
      exact ⟨w :: front, back, by rw [hsplit]; rfl, by rw [hinsert]; rfl⟩

namespace Orderly

/-! ### The attempt whose turn it is -/

/-- Nobody else of its lane has been let in. -/
theorem alone {running : List Nat} (h : Orderly s now attempts fs running [place] st)
    (ha : attempts[place]? = some a) :
    a.source ∈ st.taken ∧ lane attempts a.source st.inside = [] := by
  have hgate := h.gates a.source
  have hcount := List.nodup_iff_count.mp h.nodup a.source
  rw [lane_append, lane_self ha, List.length_append, List.length_singleton] at hgate
  refine ⟨List.count_pos_iff.mp (by omega), List.length_eq_zero_iff.mp (by omega)⟩

/-- Those before it in its lane have ended. -/
theorem before {holding : List Nat} (h : Orderly s now attempts fs [place] holding st)
    (ha : attempts[place]? = some a) :
    lane attempts a.source (List.range place) = lane attempts a.source st.done := by
  have hlane := h.lanes a.source
  simp only [lane_append, lane_self ha, List.append_assoc] at hlane
  rw [← List.append_assoc] at hlane
  exact lane_range_of_split hlane.symm

/-- It meets what it would meet in turn. -/
theorem prior_eq {holding : List Nat} (single : fs.OnePerAddress)
    (h : Orderly s now attempts fs [place] holding st) (ha : attempts[place]? = some a) :
    st.failures.prior a.source now = (metAt s now attempts fs place).prior a.source now := by
  rw [h.table, prior_tableAfter single, prior_metAt single, h.before ha, attemptsAt_lane]

/-- It ends as it would in turn. -/
theorem leave (single : fs.OnePerAddress) (h : Orderly s now attempts fs [place] [place] st)
    (ha : attempts[place]? = some a) (hdue : dueAt s now attempts fs place = st.elapsed) :
    Orderly s now attempts fs [] [place] (st.leave s now place a) :=
  { h with
    lanes := by
      rw [State.done_leave, List.append_nil]
      exact h.lanes
    table := by
      rw [State.done_leave, attemptsAt_append, attemptsAt_singleton ha, tableAfter_append,
        ← h.table]
      rfl
    places := by
      rw [State.done_leave]
      refine List.forall_mem_append.mpr ⟨h.places, List.forall_mem_singleton.mpr ?_⟩
      exact (List.getElem?_eq_some_iff.mp ha).1
    early := by
      intro harriving
      obtain ⟨hzero, hended⟩ := h.early harriving
      exact ⟨hzero, List.forall_mem_cons.mpr ⟨hzero, hended⟩⟩
    ended := by
      refine List.forall_mem_cons.mpr ⟨⟨hdue.symm, ?_⟩, h.ended⟩
      intro a' ha'
      obtain rfl : a = a' := Option.some.inj (ha.symm.trans ha')
      exact Attempt.settle_congr (h.prior_eq single ha) }

/-- It opens its gate if nobody waits there. -/
theorem reopen (h : Orderly s now attempts fs [] [place] st) (ha : attempts[place]? = some a)
    (hnobody : lane attempts a.source st.waiting = []) :
    Orderly s now attempts fs [] [] (st.reopen a.source) :=
  { h with
    gates := by
      intro source
      change (lane attempts source st.inside).length = (st.taken.erase a.source).count source
      have hgate := h.gates source
      rw [lane_append, List.length_append] at hgate
      by_cases hs : source = a.source
      · subst hs
        rw [lane_self ha, List.length_singleton] at hgate
        rw [List.count_erase_self]
        omega
      · rw [lane_of_ne ha hs, List.length_nil, Nat.zero_add] at hgate
        rw [List.count_erase_of_ne hs]
        exact hgate
    nodup := h.nodup.erase a.source
    queues := by
      intro source hfree
      by_cases hs : source = a.source
      · rw [hs]
        exact hnobody
      · exact h.queues source fun hmem => hfree ((List.mem_erase_of_ne hs).mpr hmem) }

/-- The next one at its gate is the next one in its lane, so that this is its time to start. -/
theorem startAt_next (h : Orderly s now attempts fs [] [place] st) (ha : attempts[place]? = some a)
    (hlast : lane attempts a.source (List.range (place + 1)) = lane attempts a.source st.done)
    (hdue : dueAt s now attempts fs place = st.elapsed) {next : Nat}
    (hnext : nextWaiting? attempts a.source st.waiting = some next) :
    startAt s now attempts fs next = st.elapsed := by
  obtain ⟨b, front, back, hb, hsource, hwaiting, -, hfront⟩ := nextWaiting?_eq_some hnext
  have hself : lane attempts a.source [next] = [next] := by rw [← hsource, lane_self hb]
  have hlane := h.lanes a.source
  simp only [hwaiting, lane_append, (h.alone ha).2, hfront, hself, List.append_nil,
    ← List.append_assoc] at hlane
  rw [List.append_assoc] at hlane
  rw [Parallel.startAt_eq hb, hsource, lane_range_of_split hlane.symm, ← hlast, ← dueAt_eq ha, hdue]

/-- Between it and the next one there is nobody of its lane, and the next one is in no other. -/
theorem lane_handOver (h : Orderly s now attempts fs [] [place] st) (ha : attempts[place]? = some a)
    {next : Nat} (hnext : nextWaiting? attempts a.source st.waiting = some next)
    (source : Net.Address) :
    lane attempts source ((st.handOver next).inside ++ (st.handOver next).waiting) =
      lane attempts source (st.inside ++ st.waiting) := by
  obtain ⟨b, front, back, hb, hsource, hwaiting, herase, hfront⟩ := nextWaiting?_eq_some hnext
  have hwaiting' : (st.handOver next).waiting = front ++ back := herase
  have hempty := (h.alone ha).2
  rw [State.inside_handOver, State.inside, hwaiting, hwaiting']
  by_cases hs : source = a.source
  · subst hs
    rw [State.inside, lane_append, List.append_eq_nil_iff] at hempty
    simp only [lane_append, hempty.1, hempty.2, hfront, List.nil_append, List.append_assoc]
  · rw [← hsource] at hs
    simp only [lane_append, lane_of_ne hb hs, List.nil_append, List.append_assoc]

/-- It hands its gate over. -/
theorem handOver (h : Orderly s now attempts fs [] [place] st) (ha : attempts[place]? = some a)
    (hlast : lane attempts a.source (List.range (place + 1)) = lane attempts a.source st.done)
    (hdue : dueAt s now attempts fs place = st.elapsed) {next : Nat}
    (hnext : nextWaiting? attempts a.source st.waiting = some next) :
    Orderly s now attempts fs [] [] (st.handOver next) := by
  have hstart := h.startAt_next ha hlast hdue hnext
  have hline := h.lane_handOver ha hnext
  obtain ⟨b, front, back, hb, hsource, hwaiting, herase, -⟩ := nextWaiting?_eq_some hnext
  have hwaiting' : (st.handOver next).waiting = front ++ back := herase
  have hsame : ∀ source,
      (lane attempts source [next]).length = (lane attempts source [place]).length := by
    intro source
    by_cases hs : source = a.source
    · rw [hs, lane_self ha, ← hsource, lane_self hb]
      rfl
    · rw [lane_of_ne ha hs, lane_of_ne hb (hsource ▸ hs)]
  exact { h with
    lanes := by
      intro source
      have hlanes := h.lanes source
      rw [List.append_assoc (_ ++ _) st.inside, lane_append, lane_append _ (_ ++ _)] at hlanes
      rw [State.arriving_handOver, List.append_assoc (_ ++ _) (State.inside _), lane_append,
        lane_append _ (_ ++ _), hline source]
      exact hlanes
    gates := by
      intro source
      have hgate := h.gates source
      have hsame := hsame source
      rw [State.inside_handOver]
      change _ = st.taken.count source
      simp only [State.inside, lane_append, lane_nil, List.length_append, List.length_nil]
        at hgate ⊢
      omega
    queues := by
      intro source hfree
      have hnone := h.queues source hfree
      simp only [hwaiting, lane_append, List.append_eq_nil_iff] at hnone
      rw [hwaiting', lane_append, hnone.1.1, hnone.2]
      rfl
    turns := List.forall_mem_append.mpr ⟨h.turns, List.forall_mem_singleton.mpr hstart⟩
    early := by
      rw [State.arriving_handOver]
      exact h.early }

/-- It ends when it has waited. -/
theorem finish (single : fs.OnePerAddress) (h : Orderly s now attempts fs [place] [place] st)
    (ha : attempts[place]? = some a) (hdue : dueAt s now attempts fs place = st.elapsed) :
    Orderly s now attempts fs [] [] (finish s now attempts place a st) := by
  have hleft := h.leave single ha hdue
  rw [finish_eq]
  cases hnext : nextWaiting? attempts a.source st.waiting with
  | none => exact hleft.reopen ha (nextWaiting?_eq_none.mp hnext)
  | some next =>
    refine hleft.handOver ha ?_ hdue hnext
    rw [State.done_leave, List.range_succ, lane_append, lane_append, h.before ha]

/-- It goes to sleep until it has waited. -/
theorem doze (h : Orderly s now attempts fs [place] [place] st) (ha : attempts[place]? = some a)
    {wake : Nat} (hwake : wake = dueAt s now attempts fs place) :
    Orderly s now attempts fs [] []
      { st with sleeping := insertSleeper wake place st.sleeping } := by
  obtain ⟨front, back, hsplit, hinsert⟩ := insertSleeper_split wake place st.sleeping
  obtain ⟨-, hempty⟩ := h.alone ha
  have hline : ∀ source,
      lane attempts source (st.turning ++ (insertSleeper wake place st.sleeping).map (·.2)) =
        lane attempts source ([place] ++ st.inside) := by
    intro source
    rw [hinsert, State.inside, hsplit]
    by_cases hs : source = a.source
    · subst hs
      rw [State.inside, hsplit] at hempty
      simp only [List.map_append, lane_append, List.append_eq_nil_iff] at hempty
      simp only [List.map_append, lane_append, hempty, List.nil_append, List.append_nil,
        List.map_singleton]
    · simp only [List.map_append, lane_append, lane_of_ne ha hs, List.nil_append,
        List.map_singleton, List.append_assoc]
  exact { h with
    lanes := by
      intro source
      change lane attempts source (st.done ++ [] ++ (st.turning ++
        (insertSleeper wake place st.sleeping).map (·.2)) ++ st.waiting ++ st.arriving) = _
      rw [lane_append, lane_append, lane_append, hline source, ← h.lanes source]
      simp only [lane_append, List.append_nil, List.append_assoc]
    gates := by
      intro source
      have hgate := h.gates source
      rw [← hline source] at hgate
      exact hgate
    asleep := by
      obtain ⟨hfront, hback⟩ := List.forall_mem_append.mp (hsplit ▸ h.asleep)
      change ∀ w ∈ insertSleeper wake place st.sleeping, w.1 = dueAt s now attempts fs w.2
      rw [hinsert, List.forall_mem_append, List.forall_mem_append, List.forall_mem_singleton]
      exact ⟨⟨hfront, hwake⟩, hback⟩ }

/-- It is let in at its time, and ends or goes to sleep. -/
theorem enter (single : fs.OnePerAddress) (h : Orderly s now attempts fs [place] [place] st)
    (ha : attempts[place]? = some a) (hstart : startAt s now attempts fs place = st.elapsed) :
    Orderly s now attempts fs [] [] (enter s now attempts place a st) := by
  have hpause : pauseAt s now attempts fs place =
      ((Attempt.delay s st.failures a.source now).getD .zero).toNanos := by
    rw [pauseAt_eq ha, Attempt.pause, Attempt.delay_congr (h.prior_eq single ha)]
  have hdue : dueAt s now attempts fs place = st.elapsed +
      ((Attempt.delay s st.failures a.source now).getD .zero).toNanos := by
    rw [dueAt, hstart, hpause]
  unfold Parallel.enter
  cases hd : Attempt.delay s st.failures a.source now with
  | none =>
    rw [hd] at hdue
    exact h.finish single ha hdue
  | some d =>
    rw [hd, Option.getD_some] at hdue
    by_cases hzero : d.toNanos = 0
    · simp only [hzero, if_true]
      rw [hzero] at hdue
      exact h.finish single ha hdue
    · simp only [hzero, if_false]
      exact h.doze ha hdue.symm

/-! ### Steps -/

/-- The turns behind the first one come when they should. -/
theorem later {running holding : List Nat} (h : Orderly s now attempts fs running holding st)
    {turn : Nat × Stage} {ready : List (Nat × Stage)} (hready : st.ready = turn :: ready) :
    ∀ turn ∈ ready, OnTime s now attempts fs st.elapsed turn := by
  have hturns := h.turns
  rw [hready] at hturns
  exact (List.forall_mem_cons.mp hturns).2

/-- As long as somebody comes to a gate, no time has passed. -/
theorem atStart {running holding : List Nat} (h : Orderly s now attempts fs running holding st)
    {ready : List (Nat × Stage)} (hready : st.ready = (place, .arriving) :: ready) :
    st.elapsed = 0 ∧ ∀ f ∈ st.finished, f.endedAt = 0 := by
  refine h.early ?_
  rw [(State.of_arriving hready).2]
  exact List.cons_ne_nil _ _

/-- The turn of an attempt that has been let in. -/
theorem take (h : Orderly s now attempts fs [] [] st) {stage : Stage} {ready : List (Nat × Stage)}
    (hready : st.ready = (place, stage) :: ready) (hstage : stage ≠ .arriving) :
    Orderly s now attempts fs [place] [place] { st with ready } := by
  obtain ⟨hinside, harriving⟩ := State.of_turning hready hstage
  exact { h with
    lanes := by
      intro source
      rw [← h.lanes source, hinside, harriving]
      simp only [List.append_nil, List.append_assoc]
      rfl
    gates := by
      intro source
      have hgate := h.gates source
      rwa [hinside] at hgate
    turns := h.later hready
    early := by
      rw [← harriving]
      exact h.early }

/-- An attempt comes to a gate that is taken. -/
theorem queue (h : Orderly s now attempts fs [] [] st) {ready : List (Nat × Stage)}
    (hready : st.ready = (place, .arriving) :: ready) (ha : attempts[place]? = some a)
    (htaken : a.source ∈ st.taken) :
    Orderly s now attempts fs [] [] { st with ready, waiting := st.waiting ++ [place] } := by
  obtain ⟨hinside, harriving⟩ := State.of_arriving hready
  exact { h with
    lanes := by
      intro source
      rw [← h.lanes source, hinside, harriving]
      simp only [List.append_assoc]
      rfl
    gates := by
      intro source
      have hgate := h.gates source
      rwa [hinside] at hgate
    queues := by
      intro source hfree
      have hne : source ≠ a.source := fun heq => hfree (heq ▸ htaken)
      rw [lane_append, h.queues source hfree, lane_of_ne ha hne]
      rfl
    turns := h.later hready
    early := fun _ => h.atStart hready }

/-- An attempt comes to a gate that is open. -/
theorem letIn (h : Orderly s now attempts fs [] [] st) {ready : List (Nat × Stage)}
    (hready : st.ready = (place, .arriving) :: ready) (ha : attempts[place]? = some a)
    (hfree : a.source ∉ st.taken) :
    Orderly s now attempts fs [place] [place]
      { st with ready, taken := a.source :: st.taken } := by
  obtain ⟨hinside, harriving⟩ := State.of_arriving hready
  have hwaiting := h.queues a.source hfree
  have hempty : lane attempts a.source st.inside = [] := by
    have hgate := h.gates a.source
    rw [List.count_eq_zero.mpr hfree] at hgate
    exact List.length_eq_zero_iff.mp hgate
  exact { h with
    lanes := by
      intro source
      rw [← h.lanes source, harriving]
      change lane attempts source (_ ++ _ ++ State.inside { st with ready } ++ _ ++ _) = _
      rw [← hinside]
      by_cases hs : source = a.source
      · subst hs
        simp only [lane_append, hempty, hwaiting, List.append_nil, List.append_assoc]
        rfl
      · simp only [lane_append, lane_of_ne ha hs, List.append_nil, List.nil_append]
        rfl
    gates := by
      intro source
      change (lane attempts source ([place] ++ State.inside { st with ready })).length =
        (a.source :: st.taken).count source
      have hgate := h.gates source
      rw [List.nil_append] at hgate
      rw [← hinside, lane_append, List.length_append, hgate]
      by_cases hs : source = a.source
      · subst hs
        rw [lane_self ha, List.count_cons_self, List.length_singleton, Nat.add_comm]
      · rw [lane_of_ne ha hs, List.count_cons_of_ne (Ne.symm hs), List.length_nil, Nat.zero_add]
    nodup := List.nodup_cons.mpr ⟨hfree, h.nodup⟩
    queues := fun source hnot => h.queues source fun hmem => hnot (List.mem_cons_of_mem _ hmem)
    turns := h.later hready
    early := fun _ => h.atStart hready }

/-- Whoever comes to an open gate is the first of its lane, or those before it did not wait. -/
theorem startAt_eq_zero (h : Orderly s now attempts fs [place] [place] st)
    (ha : attempts[place]? = some a) (hended : ∀ f ∈ st.finished, f.endedAt = 0) :
    startAt s now attempts fs place = 0 := by
  rw [Parallel.startAt_eq ha, h.before ha, waited, List.sum_eq_zero_iff_forall_eq_nat]
  intro n hn
  obtain ⟨q, hq, rfl⟩ := List.mem_map.mp hn
  obtain ⟨f, hf, rfl⟩ : ∃ f ∈ st.finished, f.place = q := by
    simpa [State.done] using (mem_lane.mp hq).1
  have hdue := (h.ended f hf).endedAt
  rw [hended f hf, dueAt] at hdue
  omega

/-- Whoever is no attempt is passed over. -/
theorem skip (h : Orderly s now attempts fs [] [] st) {stage : Stage} {ready : List (Nat × Stage)}
    (hready : st.ready = (place, stage) :: ready) (hnone : attempts[place]? = none) :
    Orderly s now attempts fs [] [] { st with ready } := by
  have hsame : ∀ source,
      lane attempts source st.inside = lane attempts source (State.inside { st with ready }) ∧
      lane attempts source st.arriving =
        lane attempts source (State.arriving { st with ready }) := by
    intro source
    by_cases hstage : stage = .arriving
    · subst hstage
      rw [(State.of_arriving hready).1, (State.of_arriving hready).2, lane_append,
        lane_of_absent hnone]
      exact ⟨rfl, rfl⟩
    · rw [(State.of_turning hready hstage).1, (State.of_turning hready hstage).2, lane_append,
        lane_of_absent hnone]
      exact ⟨rfl, rfl⟩
  exact { h with
    lanes := by
      intro source
      rw [← h.lanes source]
      simp only [lane_append, (hsame source).1, (hsame source).2]
      rfl
    gates := by
      intro source
      rw [← h.gates source]
      exact congrArg List.length (hsame source).1.symm
    turns := h.later hready
    early := by
      intro hsome
      by_cases hstage : stage = .arriving
      · subst hstage
        exact h.atStart hready
      · rw [← (State.of_turning hready hstage).2] at hsome
        exact h.early hsome }

/-- Those who wake have waited. -/
theorem wake (h : Orderly s now attempts fs [] [] st) (hready : st.ready = []) :
    Orderly s now attempts fs [] [] (wake st) := by
  unfold Parallel.wake
  cases hsleeping : st.sleeping with
  | nil => exact h
  | cons w sleeping =>
    obtain ⟨t, first⟩ := w
    dsimp only
    rw [← hsleeping]
    let up := st.sleeping.takeWhile (·.1 = t)
    let down := st.sleeping.dropWhile (·.1 = t)
    let woken : State :=
      { st with elapsed := t, ready := up.map fun w => (w.2, .ripe), sleeping := down }
    have hsplit : up ++ down = st.sleeping := List.takeWhile_append_dropWhile
    obtain ⟨hwoken, harriving⟩ : woken.inside = up.map (·.2) ++ down.map (·.2) ∧
        woken.arriving = [] := State.of_ripe (by rw [List.map_map]; rfl)
    have hinside : woken.inside = st.inside := by
      rw [hwoken, ← List.map_append, hsplit, State.inside, State.turning, hready]
      rfl
    have hnone : st.arriving = [] := by
      rw [State.arriving, hready]
      rfl
    have hasleep : ∀ w ∈ up ++ down, w.1 = dueAt s now attempts fs w.2 := by
      rw [hsplit]
      exact h.asleep
    have hnow : Orderly s now attempts fs [] [] woken := { h with
      lanes := by
        intro source
        rw [← h.lanes source, hinside, harriving, hnone]
        rfl
      gates := by
        rw [hinside]
        exact h.gates
      turns := by
        intro turn hturn
        obtain ⟨w, hw, rfl⟩ := List.mem_map.mp hturn
        have htime : w.1 = t :=
          of_decide_eq_true (List.all_eq_true.mp List.all_takeWhile w hw)
        have hdue := hasleep w (List.mem_append_left _ hw)
        exact hdue.symm.trans htime
      asleep := fun w hw => hasleep w (List.mem_append_right _ hw)
      early := fun hsome => absurd harriving hsome }
    exact hnow

/-- Every step keeps the order. -/
theorem step (single : fs.OnePerAddress) (h : Orderly s now attempts fs [] [] st) :
    Orderly s now attempts fs [] [] (step s now attempts st) := by
  unfold Parallel.step
  cases hready : st.ready with
  | nil => exact h.wake hready
  | cons turn ready =>
    obtain ⟨place, stage⟩ := turn
    have hturn : OnTime s now attempts fs st.elapsed (place, stage) :=
      h.turns _ (by rw [hready]; exact List.mem_cons_self)
    dsimp only
    cases ha : attempts[place]? with
    | none => exact h.skip hready ha
    | some a =>
      cases stage with
      | arriving =>
        dsimp only [runOne]
        by_cases htaken : a.source ∈ st.taken
        · rw [if_pos (List.contains_iff_mem.mpr htaken)]
          exact h.queue hready ha htaken
        · rw [if_neg (by simpa using htaken)]
          have hin := h.letIn hready ha htaken
          obtain ⟨hzero, hended⟩ := h.atStart hready
          exact hin.enter single ha ((hin.startAt_eq_zero ha hended).trans hzero.symm)
      | entering => exact (h.take hready (by decide)).enter single ha hturn
      | ripe => exact (h.take hready (by decide)).finish single ha hturn

theorem run (single : fs.OnePerAddress) (n : Nat) {st : State}
    (h : Orderly s now attempts fs [] [] st) :
    Orderly s now attempts fs [] [] (run s now attempts n st) := by
  induction n generalizing st with
  | zero => exact h
  | succ n ih => exact ih (h.step single)

theorem start : Orderly s now attempts fs [] [] (start attempts fs) := by
  have hinside : (Parallel.start attempts fs).inside = [] := by
    simp [Parallel.start, State.inside, State.turning, List.filter_map, Function.comp_def]
  have harriving : (Parallel.start attempts fs).arriving = List.range attempts.length := by
    simp [Parallel.start, State.arriving, List.filter_map, Function.comp_def]
  exact {
    lanes := by
      intro source
      rw [hinside, harriving]
      rfl
    gates := by
      rw [hinside]
      exact fun _ => rfl
    nodup := List.nodup_nil
    queues := fun _ _ => rfl
    table := rfl
    places := fun _ h => absurd h List.not_mem_nil
    turns := by
      intro turn hturn
      obtain ⟨place, -, rfl⟩ := List.mem_map.mp hturn
      trivial
    asleep := fun _ h => absurd h List.not_mem_nil
    early := fun _ => ⟨rfl, fun _ h => absurd h List.not_mem_nil⟩
    ended := fun _ h => absurd h List.not_mem_nil }

end Orderly

end

end RemoteDesk.Auth.Parallel
