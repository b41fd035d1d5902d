import RemoteDesk.Proofs.Desktop.Serial

/-!
What the log and the list of calls of a shared desktop look like at any time. The log has the
beginning and the end of every call that has ended, pair by pair, and behind them the beginning of
the call that is inside, if there is one. The list has each of these calls once, and the calls of
each client in the order in which the client asked for them; what is missing in it can only be the
call that the client waits for.
-/
namespace RemoteDesk.Desktop.Crowd

variable {ι : Type} [DecidableEq ι] {actions : List (Action ι)} {w w' : Crowd ι} {i : ι}

/-! ### Every call can be brought to its end -/

/-- How many steps there are to the end of a call that has the lock. -/
def rest : Stage → Nat
  | .idle | .waiting _ => 0
  | .admitted _ => 6
  | .numbered _ _ => 5
  | .entered _ _ => 4
  | .noted _ _ => 3
  | .answered _ _ _ => 2
  | .exited _ _ => 1

theorem eq_idle_of_rest {stage : Stage} (hrest : rest stage = 0)
    (hwaiting : ∀ c, stage ≠ .waiting c) : stage = .idle := by
  cases stage with
  | idle => rfl
  | waiting c => exact absurd rfl (hwaiting c)
  | _ => contradiction

/-- A call with the lock can take its next step, which brings it nearer to its end. -/
theorem goOn_of_rest {n : Nat} (h : rest (w.stage i) = n + 1) :
    ∃ w' stage, w.goOn i = some w' ∧ w'.stage = Function.update w.stage i stage ∧
      rest stage = n ∧ ∀ c, stage ≠ .waiting c := by
  rw [Crowd.goOn]
  cases hstage : w.stage i <;> rw [hstage] at h <;> first
    | contradiction
    | (obtain rfl := Nat.succ.inj h; exact ⟨_, _, rfl, rfl, rfl, fun c hc => by contradiction⟩)

/-- A call with the lock can be brought to its end. -/
theorem run_rest {n : Nat} (hwaiting : ∀ c, w.stage i ≠ .waiting c) (h : rest (w.stage i) = n) :
    ∃ w', Schedule.run step (List.replicate n (.goOn i)) w = some w' ∧
      w'.stage = Function.update w.stage i .idle := by
  induction n generalizing w with
  | zero =>
    refine ⟨w, rfl, ?_⟩
    rw [← eq_idle_of_rest h hwaiting, Function.update_eq_self]
  | succ n ih =>
    obtain ⟨next, stage, hgoOn, hnext, hrest, hstage⟩ := goOn_of_rest h
    have hself : next.stage i = stage := by rw [hnext, Function.update_self]
    obtain ⟨w', hrun, hw'⟩ := ih (w := next) (hself.symm ▸ hstage) (hself.symm ▸ hrest)
    refine ⟨w', ?_, ?_⟩
    · rw [List.replicate_succ, Schedule.run_cons, step, hgoOn, Option.bind_some, hrun]
    · rw [hw', hnext, Function.update_idem]

/-- Steps in which nobody asks for anything, nobody goes away and the switch is let alone. -/
def OnlyGoing (more : List (Action ι)) : Prop := ∀ a ∈ more, ∃ j, a = .goOn j

omit [DecidableEq ι] in
theorem onlyGoing_replicate (n : Nat) (i : ι) : OnlyGoing (List.replicate n (.goOn i)) :=
  fun _ ha => ⟨i, List.eq_of_mem_replicate ha⟩

omit [DecidableEq ι] in
theorem OnlyGoing.append {more most : List (Action ι)} (h : OnlyGoing more) (h' : OnlyGoing most) :
    OnlyGoing (more ++ most) :=
  List.forall_mem_append.mpr ⟨h, h'⟩

namespace Serial

theorem run {more : List (Action ι)} (h : Serial actions w)
    (hrun : Schedule.run Crowd.step more w = some w') : Serial (actions ++ more) w' :=
  Schedule.run_invariant (P := fun more w => Serial (actions ++ more) w)
    ((List.append_nil actions).symm ▸ h)
    (fun more a _ _ hserial hstep => List.append_assoc actions more [a] ▸ hserial.step hstep) hrun

/-- Whoever has the lock can be made to give it back, while all others stay where they are. -/
theorem run_unlock (h : Serial actions w) : ∃ more w', OnlyGoing more ∧
    Schedule.run Crowd.step more w = some w' ∧ w'.lock = none ∧
    ∀ j, (w.stage j).isHolding = false → w'.stage j = w.stage j := by
  cases hlock : w.lock with
  | none => exact ⟨[], w, by rintro a ⟨⟩, rfl, hlock, fun _ _ => rfl⟩
  | some i =>
    have hold : (w.stage i).isHolding = true := (h.holder i).mpr hlock
    have hwaiting : ∀ c, w.stage i ≠ .waiting c := by
      intro c hc
      rw [hc] at hold
      contradiction
    obtain ⟨w', hrun, hstage⟩ := run_rest hwaiting rfl
    have hothers : ∀ j, j ≠ i → w'.stage j = w.stage j :=
      fun j hj => by rw [hstage, Function.update_of_ne hj]
    refine ⟨_, w', onlyGoing_replicate _ i, hrun, ?_, fun j hj => hothers j ?_⟩
    · refine Option.eq_none_iff_forall_ne_some.mpr fun j hj => ?_
      have hholding := ((h.run hrun).holder j).mpr hj
      by_cases hji : j = i
      · rw [hji, hstage, Function.update_self] at hholding
        contradiction
      · rw [hothers j hji] at hholding
        exact h.not_isHolding_of_ne hlock hji hholding
    · rintro rfl
      rw [hold] at hj
      contradiction

/-- What a client has asked for can be brought to its end. -/
theorem run_outstanding (h : Serial actions w) (i : ι) : ∃ more w', OnlyGoing more ∧
    Schedule.run Crowd.step more w = some w' ∧ (w'.stage i).outstanding = [] := by
  by_cases hwaiting : ∃ c, w.stage i = .waiting c
  · obtain ⟨c, hc⟩ := hwaiting
    obtain ⟨more, w', hmore, hrun, hfree, hothers⟩ := h.run_unlock
    have hstage : w'.stage i = .waiting c := by rw [hothers i (by rw [hc]; rfl), hc]
    have hturn := run_turn hfree hstage (h.run hrun).unlocked
    refine ⟨more ++ List.replicate 7 (.goOn i), _, hmore.append (onlyGoing_replicate 7 i),
      (Schedule.run_append_of_eq hrun).trans hturn, ?_⟩
    change (Function.update w'.stage i .idle i).outstanding = []
    rw [Function.update_self]
    rfl
  · obtain ⟨w', hrun, hstage⟩ := run_rest (fun c hc => hwaiting ⟨c, hc⟩) rfl
    refine ⟨_, w', onlyGoing_replicate _ i, hrun, ?_⟩
    rw [hstage, Function.update_self]
    rfl

/-! ### The log and the list -/

/-- Only the one with the lock can be inside. -/
theorem inside (h : Serial actions w) :
    (∀ i, (w.stage i).isInside = false) ∧ (holding w.lock w.stage).isInside = false ∨
      (∃! i, (w.stage i).isInside = true) ∧ (holding w.lock w.stage).isInside = true := by
  have hlock : ∀ {i}, (w.stage i).isInside = true → w.lock = some i :=
    fun hinside => (h.holder _).mp (Stage.isHolding_of_isInside hinside)
  cases hsome : (holding w.lock w.stage).isInside with
  | false =>
    refine .inl ⟨fun i => Bool.eq_false_iff.mpr fun hinside => ?_, rfl⟩
    rw [hlock hinside] at hsome
    exact Bool.false_ne_true (hsome.symm.trans hinside)
  | true =>
    obtain ⟨i, hi⟩ : ∃ i, w.lock = some i := by
      refine Option.ne_none_iff_exists'.mp fun hnone => ?_
      rw [hnone] at hsome
      contradiction
    rw [hi] at hsome
    refine .inr ⟨⟨i, hsome, fun j hj => ?_⟩, rfl⟩
    exact Option.some.inj ((hlock hj).symm.trans hi)

theorem calls (h : Serial actions w) : w.desktop.backend.calls = w.recorded.map Prod.snd := by
  rw [h.fits.calls, recorded, List.map_append, endedCalls, List.map_map]
  refine congrArg _ ?_
  cases w.lock with
  | none => rfl
  | some i => exact (map_snd_notedBy i (w.stage i)).symm

/-- What is written down of a client has ended, or is what the client has the lock for. -/
theorem own_recorded (h : Serial actions w) (i : ι) :
    own i w.recorded = own i w.endedCalls ++ (w.stage i).noted?.toList := by
  have hnone : w.lock ≠ some i → (w.stage i).noted?.toList = [] := fun hlock => by
    rw [Stage.noted?_of_not_isHolding fun hholding => hlock ((h.holder i).mp hholding)]
    rfl
  rw [recorded, own_append]
  refine congrArg _ ?_
  split
  · rename_i j hlock
    by_cases hij : j = i
    · rw [hij, own_notedBy_self]
    · rw [own_notedBy_of_ne hij, hnone fun hsome => hij (Option.some.inj (hlock.symm.trans hsome))]
  · rename_i hlock
    rw [hnone fun hsome => Option.some_ne_none i (hsome.symm.trans hlock)]
    rfl

theorem asked_eq (h : Serial actions w) (i : ι) :
    asked i actions = own i w.recorded ++ (w.stage i).unnoted?.toList := by
  rw [h.own_recorded i, h.order i, Stage.outstanding, List.append_assoc]

end Serial

/-- What can be read off a desktop at which clients have been from the start. -/
structure InTurn (displays : List Display) (windows : List Window) (actions : List (Action ι))
    (w : Crowd ι) : Prop where
  /-- The log has the beginnings and ends of the calls that have ended, and the beginning of the
  one that is inside. -/
  log : (∀ i, (w.stage i).isInside = false) ∧ w.desktop.backend.log = marks w.ended.length ∨
    (∃! i, (w.stage i).isInside = true) ∧
      w.desktop.backend.log = marks w.ended.length ++ [.enter (place w.ended.length)]
  quiet : (∀ i, (w.stage i).isInside = false) →
    Boundary.serialized w.desktop.backend.log = true ∧
      Boundary.completed w.desktop.backend.log = w.ended.length
  /-- The list has the calls that have ended, however they did, and the one that is inside. -/
  calls : w.desktop.backend.calls = w.recorded.map Prod.snd
  order : ∀ i, asked i actions = own i w.recorded ++ (w.stage i).unnoted?.toList
  /-- No call is sent away. -/
  unlocked : w.desktop.poisoned = false
  /-- No call is lost, whoever has gone away. -/
  progress : ∀ i, ∃ more w', OnlyGoing more ∧
    Schedule.run step (actions ++ more) (start displays windows) = some w' ∧
    own i w'.endedCalls = asked i actions

/-- Calls on a shared desktop do not overlap, and none is lost. -/
theorem inTurn_of_run {displays : List Display} {windows : List Window}
    (h : Schedule.run step actions (start displays windows) = some w) :
    InTurn displays windows actions w := by
  have hserial := Serial.of_run h
  have hlog := hserial.fits.log
  rw [List.length_map] at hlog
  refine ⟨?_, fun hquiet => ?_, hserial.calls, hserial.asked_eq, hserial.unlocked, fun i => ?_⟩
  · refine hserial.inside.imp (fun ⟨hnobody, hout⟩ => ⟨hnobody, ?_⟩) fun ⟨hone, hin⟩ => ⟨hone, ?_⟩
    · rw [hlog, hout]
      exact List.append_nil _
    · rw [hlog, hin]
      rfl
  · obtain ⟨-, hout⟩ | ⟨⟨i, hi, -⟩, -⟩ := hserial.inside
    · rw [hlog, hout]
      change Boundary.serialized (marks _ ++ []) = true ∧ Boundary.completed (marks _ ++ []) = _
      rw [List.append_nil]
      exact ⟨Boundary.serialized_marks _, Boundary.completed_marks _⟩
    · rw [hquiet i] at hi
      contradiction
  · obtain ⟨more, w', hmore, hrun, hnothing⟩ := hserial.run_outstanding i
    have horder := (hserial.run hrun).order i
    rw [asked_append, asked_goOn hmore, List.append_nil, hnothing, List.append_nil] at horder
    exact ⟨more, w', hmore, (Schedule.run_append_of_eq h).trans hrun, horder.symm⟩

/-- Two clients, of which one goes away when its call is inside and fails, while the other waits. -/
def parting : List (Action Bool) :=
  [.ask true .displays, .ask false (.keyPress "a"), .goOn true, .throwSwitch true, .goOn true,
    .goOn true, .leave true, .goOn true, .goOn true, .throwSwitch false, .goOn true, .goOn true,
    .goOn false, .goOn false, .goOn false]

theorem inTurn_parting : ∃ w, Schedule.run step parting (start [] []) = some w ∧
    w.desktop.backend.log = [.enter 1, .exit 1, .enter 2] ∧
    w.desktop.backend.calls = [.displays] ∧ InTurn [] [] parting w :=
  ⟨_, rfl, rfl, rfl, inTurn_of_run rfl⟩

end RemoteDesk.Desktop.Crowd
