import RemoteDesk.Proofs.Desktop.Crowd
import RemoteDesk.Proofs.Desktop.Steady

/-!
Calls on a shared desktop never overlap, and none is lost. Whoever has the lock is the only one
who changes the desktop, so what the desktop holds is told by the calls that have ended and by how
far the one with the lock has come. The calls of each client come in the order in which the client
asked for them, and a call that waits can always be brought to its end.
-/
namespace RemoteDesk.Desktop

/-! ### Marks -/

/-- The number of the call that comes behind so many others. -/
def place (n : Nat) : UInt64 := UInt64.ofNat (n + 1)

/-- The marks that so many calls leave that do not overlap. -/
def marks (n : Nat) : List Boundary :=
  (List.range n).flatMap fun k => [.enter (place k), .exit (place k)]

theorem marks_succ (n : Nat) : marks (n + 1) = marks n ++ [.enter (place n), .exit (place n)] := by
  rw [marks, List.range_succ, List.flatMap_append, List.flatMap_singleton]
  rfl

namespace Boundary

theorem serialized_pairs (ks : List Nat) :
    serialized (ks.flatMap fun k => [.enter (place k), .exit (place k)]) = true := by
  induction ks with
  | nil => rfl
  | cons k ks ih => simpa [serialized] using ih

theorem serialized_marks (n : Nat) : serialized (marks n) = true :=
  serialized_pairs (List.range n)

theorem completed_marks (n : Nat) : completed (marks n) = n := by
  induction n with
  | zero => rfl
  | succ n ih =>
    rw [marks_succ, completed, List.countP_append, ← completed, ih]
    rfl

end Boundary

/-! ### What the desktop holds -/

/-- What is in a recording desktop: so many numbers drawn, these marks, and these calls. -/
structure Recording.Holds (drawn : Nat) (log : List Boundary) (calls : List Call)
    (r : Recording) : Prop where
  ids : r.ids.issued = UInt64.ofNat drawn
  log : r.log = log
  calls : r.calls = calls

namespace Recording.Holds

variable {drawn : Nat} {log : List Boundary} {calls : List Call} {r : Recording}

theorem new (displays : List Display) (windows : List Window) :
    (Recording.new displays windows).Holds 0 (marks 0) [] := ⟨rfl, rfl, rfl⟩

theorem number (h : r.Holds drawn log calls) :
    r.number.1 = place drawn ∧ r.number.2.Holds (drawn + 1) log calls := by
  have hnext : r.ids.issued + 1 = UInt64.ofNat (drawn + 1) := by rw [h.ids, UInt64.ofNat_add]; rfl
  exact ⟨hnext, hnext, h.log, h.calls⟩

theorem mark (h : r.Holds drawn log calls) (b : Boundary) :
    (r.mark b).Holds drawn (log ++ [b]) calls := ⟨h.ids, congrArg (· ++ [b]) h.log, h.calls⟩

theorem note (h : r.Holds drawn log calls) (c : Call) :
    (r.note c).Holds drawn log (calls ++ [c]) := ⟨h.ids, h.log, congrArg (· ++ [c]) h.calls⟩

theorem switched (h : r.Holds drawn log calls) (fail : Bool) :
    { r with shouldFail := fail }.Holds drawn log calls := ⟨h.ids, h.log, h.calls⟩

end Recording.Holds

namespace Stage

/-- What the desktop holds behind the calls that have ended when the one with the lock has come to
a stage. -/
def Fits (ended : List Call) (r : Recording) : Stage → Prop
  | .idle | .waiting _ | .admitted _ => r.Holds ended.length (marks ended.length) ended
  | .numbered _ id =>
    id = place ended.length ∧ r.Holds (ended.length + 1) (marks ended.length) ended
  | .entered _ id =>
    id = place ended.length ∧
      r.Holds (ended.length + 1) (marks ended.length ++ [.enter id]) ended
  | .noted c id =>
    id = place ended.length ∧
      r.Holds (ended.length + 1) (marks ended.length ++ [.enter id]) (ended ++ [c])
  | .answered c id o =>
    id = place ended.length ∧ o.isCrashed = false ∧
      r.Holds (ended.length + 1) (marks ended.length ++ [.enter id]) (ended ++ [c])
  | .exited _ o => o.isCrashed = false ∧ r.Holds ended.length (marks ended.length) ended

variable {ended : List Call} {r : Recording} {stage : Stage}

theorem Fits.switched (h : stage.Fits ended r) (fail : Bool) :
    stage.Fits ended { r with shouldFail := fail } := by
  cases stage with
  | idle | waiting | admitted => exact Recording.Holds.switched h fail
  | numbered | entered | noted => exact ⟨h.1, h.2.switched fail⟩
  | answered => exact ⟨h.1, h.2.1, h.2.2.switched fail⟩
  | exited => exact ⟨h.1, h.2.switched fail⟩

/-- The log tells whether the call is inside. -/
theorem Fits.log (h : stage.Fits ended r) : r.log = marks ended.length ++
    if stage.isInside then [.enter (place ended.length)] else [] := by
  cases stage with
  | idle | waiting | admitted => rw [Recording.Holds.log h]; exact (List.append_nil _).symm
  | numbered | exited => rw [h.2.log]; exact (List.append_nil _).symm
  | entered | noted => rw [h.2.log, h.1]; rfl
  | answered => rw [h.2.2.log, h.1]; rfl

/-- The list of calls has the call in it as soon as it has been written down. -/
theorem Fits.calls (h : stage.Fits ended r) : r.calls = ended ++ stage.noted?.toList := by
  cases stage with
  | idle | waiting | admitted => rw [Recording.Holds.calls h]; exact (List.append_nil _).symm
  | numbered | entered | exited => rw [h.2.calls]; exact (List.append_nil _).symm
  | noted => rw [h.2.calls]; rfl
  | answered => rw [h.2.2.calls]; rfl

/-- A call without which the client could ask for another one. -/
def outstanding (stage : Stage) : List Call := stage.noted?.toList ++ stage.unnoted?.toList

theorem isHolding_of_isInside (h : stage.isInside = true) : stage.isHolding = true := by
  cases stage <;> first | rfl | contradiction

theorem noted?_of_not_isHolding (h : ¬ stage.isHolding = true) : stage.noted? = none := by
  cases stage <;> first | rfl | exact absurd rfl h

end Stage

namespace Crowd

variable {ι : Type} [DecidableEq ι]

/-! ### Who asked for what -/

/-- The call that is asked for by a client in a step. -/
def Action.asks (i : ι) : Action ι → List Call
  | .ask j c => if j = i then [c] else []
  | _ => []

/-- The calls that a client asked for, in their order. -/
def asked (i : ι) (actions : List (Action ι)) : List Call := actions.flatMap (Action.asks i)

/-- The calls of a client among those of all. -/
def own (i : ι) (calls : List (ι × Call)) : List Call :=
  (calls.filter fun c => c.1 = i).map Prod.snd

theorem asked_append (i : ι) (actions more : List (Action ι)) :
    asked i (actions ++ more) = asked i actions ++ asked i more := List.flatMap_append

theorem asked_concat (i : ι) (actions : List (Action ι)) (a : Action ι) :
    asked i (actions ++ [a]) = asked i actions ++ a.asks i := by
  rw [asked_append]
  exact congrArg _ (List.append_nil _)

/-- Steps in which nobody asks for anything. -/
theorem asked_goOn {i : ι} {more : List (Action ι)} (h : ∀ a ∈ more, ∃ j, a = .goOn j) :
    asked i more = [] := by
  refine List.flatMap_eq_nil_iff.mpr fun a ha => ?_
  obtain ⟨j, rfl⟩ := h a ha
  rfl

theorem own_append (i : ι) (calls more : List (ι × Call)) :
    own i (calls ++ more) = own i calls ++ own i more := by
  rw [own, List.filter_append, List.map_append]
  rfl

theorem own_self (i : ι) (c : Call) : own i [(i, c)] = [c] := by simp [own]

theorem own_of_ne {i j : ι} (h : j ≠ i) (c : Call) : own i [(j, c)] = [] := by simp [own, h]

variable {actions : List (Action ι)} {w w' : Crowd ι} {i : ι}

/-- The calls that have ended, with their clients. -/
def endedCalls (w : Crowd ι) : List (ι × Call) := w.ended.map fun e => (e.client, e.call)

/-- The call of a client that has been written down and has not ended. -/
def notedBy (i : ι) (stage : Stage) : List (ι × Call) := stage.noted?.toList.map fun c => (i, c)

omit [DecidableEq ι] in
theorem map_snd_notedBy (i : ι) (stage : Stage) :
    (notedBy i stage).map Prod.snd = stage.noted?.toList := by
  cases stage <;> rfl

theorem own_notedBy_self (i : ι) (stage : Stage) :
    own i (notedBy i stage) = stage.noted?.toList := by
  cases stage <;> first | rfl | exact own_self i _

theorem own_notedBy_of_ne {i j : ι} (h : j ≠ i) (stage : Stage) : own i (notedBy j stage) = [] := by
  cases stage <;> first | rfl | exact own_of_ne h _

/-- The calls that have been written down, with their clients. -/
def recorded (w : Crowd ι) : List (ι × Call) :=
  w.endedCalls ++ match w.lock with
    | some i => notedBy i (w.stage i)
    | none => []

/-- The stage of whoever has the lock. -/
def holding (lock : Option ι) (stage : ι → Stage) : Stage := lock.elim .idle stage

theorem holding_update_of_ne {lock : Option ι} {stage : ι → Stage} (h : lock ≠ some i)
    (st : Stage) : holding lock (Function.update stage i st) = holding lock stage := by
  cases lock with
  | none => rfl
  | some j => exact Function.update_of_ne (fun hij => h (congrArg some hij)) _ _

/-! ### The invariant -/

/-- What holds of every state that is reached. -/
structure Serial (actions : List (Action ι)) (w : Crowd ι) : Prop where
  unlocked : w.desktop.poisoned = false
  holder : ∀ i, (w.stage i).isHolding = true ↔ w.lock = some i
  fits : (holding w.lock w.stage).Fits (w.ended.map (·.call)) w.desktop.backend
  /-- A client has asked for what has ended and for what is outstanding. -/
  order : ∀ i, asked i actions = own i w.endedCalls ++ (w.stage i).outstanding

namespace Serial

theorem start (displays : List Display) (windows : List Window) :
    Serial [] (Crowd.start displays windows : Crowd ι) where
  unlocked := rfl
  holder := fun i => ⟨fun h => by contradiction, fun h => by contradiction⟩
  fits := Recording.Holds.new displays windows
  order := fun _ => rfl

/-- Whoever does not have the lock is not in the way. -/
theorem aside (h : Serial actions w) {s : Stage} (hold : (w.stage i).isHolding = false)
    (hnew : s.isHolding = false) :
    (∀ j, (Function.update w.stage i s j).isHolding = true ↔ w.lock = some j) ∧
      holding w.lock (Function.update w.stage i s) = holding w.lock w.stage := by
  have hlock : w.lock ≠ some i := by
    rw [ne_eq, ← h.holder i, hold]
    decide
  refine ⟨fun j => ?_, holding_update_of_ne hlock s⟩
  by_cases hj : j = i
  · subst hj
    rw [Function.update_self, hnew]
    exact ⟨fun hfalse => by contradiction, fun hsome => absurd hsome hlock⟩
  · rw [Function.update_of_ne hj]
    exact h.holder j

theorem ask (h : Serial actions w) {c : Call} (hidle : w.stage i = .idle) :
    Serial (actions ++ [.ask i c]) { w with stage := Function.update w.stage i (.waiting c) } := by
  obtain ⟨hholder, hholding⟩ := h.aside (s := .waiting c) (by rw [hidle]; rfl) rfl
  refine ⟨h.unlocked, hholder, hholding.symm ▸ h.fits, fun j => ?_⟩
  have horder := h.order j
  change _ = own j w.endedCalls ++ (Function.update w.stage i (.waiting c) j).outstanding
  rw [asked_concat]
  by_cases hj : j = i
  · subst hj
    rw [hidle] at horder
    rw [horder, Function.update_self, List.append_assoc]
    simp [Action.asks, Stage.outstanding, Stage.noted?, Stage.unnoted?]
  · rw [horder, Function.update_of_ne hj, Action.asks, if_neg (Ne.symm hj), List.append_nil]

/-- A step by which no client's calls become other ones. -/
theorem order_of_same (h : Serial actions w) {a : Action ι} (ha : ∀ j, a.asks j = [])
    (hended : w'.endedCalls = w.endedCalls)
    (hstage : ∀ j, (w'.stage j).outstanding = (w.stage j).outstanding) (j : ι) :
    asked j (actions ++ [a]) = own j w'.endedCalls ++ (w'.stage j).outstanding := by
  rw [asked_concat, ha, List.append_nil, h.order j, hended, hstage]

theorem leave (h : Serial actions w) :
    Serial (actions ++ [.leave i]) { w with gone := Function.update w.gone i true } :=
  ⟨h.unlocked, h.holder, h.fits, h.order_of_same (fun _ => rfl) rfl fun _ => rfl⟩

theorem throwSwitch (h : Serial actions w) (fail : Bool) :
    Serial (actions ++ [.throwSwitch fail]) { w with desktop.backend.shouldFail := fail } :=
  ⟨h.unlocked, h.holder, h.fits.switched fail,
    h.order_of_same (fun _ => rfl) rfl fun _ => rfl⟩

/-- Moving a client between stages with the same calls leaves all calls the same. -/
theorem outstanding_update {st : Stage} (hst : st.outstanding = (w.stage i).outstanding) (j : ι) :
    (Function.update w.stage i st j).outstanding = (w.stage j).outstanding := by
  by_cases hj : j = i
  · rw [hj, Function.update_self, hst]
  · rw [Function.update_of_ne hj]

/-- A call gets the lock. -/
theorem letIn (h : Serial actions w) {c : Call} (hfree : w.lock = none)
    (hstage : w.stage i = .waiting c) : Serial (actions ++ [.goOn i]) (w.letIn i c) := by
  have hfits := h.fits
  rw [hfree] at hfits
  rw [Crowd.letIn, if_neg (by rw [h.unlocked]; decide)]
  refine ⟨h.unlocked, fun j => ?_, ?_, ?_⟩
  · change (Function.update w.stage i (.admitted c) j).isHolding = true ↔ some i = some j
    by_cases hj : j = i
    · rw [hj, Function.update_self]
      exact ⟨fun _ => rfl, fun _ => rfl⟩
    · rw [Function.update_of_ne hj, h.holder j, hfree]
      exact ⟨fun hfalse => by contradiction, fun hij => absurd (Option.some.inj hij).symm hj⟩
  · change (Function.update w.stage i (.admitted c) i).Fits _ _
    rw [Function.update_self]
    exact hfits
  · exact h.order_of_same (fun _ => rfl) rfl (outstanding_update (by rw [hstage]; rfl))

section
variable (h : Serial actions w) (hlock : w.lock = some i)
include h hlock

theorem fits_holder : (w.stage i).Fits (w.ended.map (·.call)) w.desktop.backend := by
  have hfits := h.fits
  rwa [hlock] at hfits

theorem not_isHolding_of_ne {j : ι} (hj : j ≠ i) : ¬ (w.stage j).isHolding = true := by
  rw [h.holder j, hlock]
  exact fun hij => hj (Option.some.inj hij).symm

/-- The lock stays where it is as long as its holder goes on. -/
theorem holder_update {st : Stage} (hst : st.isHolding = true) (j : ι) :
    (Function.update w.stage i st j).isHolding = true ↔ w.lock = some j := by
  by_cases hj : j = i
  · rw [hj, Function.update_self, hst, hlock]
    exact ⟨fun _ => rfl, fun _ => rfl⟩
  · rw [Function.update_of_ne hj]
    exact h.holder j

/-- The call with the lock comes to its next stage. -/
theorem moved {st : Stage} {r : Recording} (hst : st.isHolding = true)
    (hout : st.outstanding = (w.stage i).outstanding)
    (hfits : st.Fits (w.ended.map (·.call)) r) :
    Serial (actions ++ [.goOn i]) (w.moved i st r) := by
  refine ⟨h.unlocked, h.holder_update hlock hst, ?_, ?_⟩
  · change (holding w.lock (Function.update w.stage i st)).Fits _ _
    rw [hlock]
    change (Function.update w.stage i st i).Fits _ _
    rw [Function.update_self]
    exact hfits
  · exact h.order_of_same (fun _ => rfl) rfl (outstanding_update hout)

/-- The call with the lock marks its end. -/
theorem exit {c : Call} {id : UInt64} {o : Outcome c.Reply}
    (hstage : w.stage i = .answered c id o) :
    Serial (actions ++ [.goOn i]) { w.moved i (.exited c o) (w.desktop.backend.mark (.exit id)) with
      ended := w.ended ++ [⟨i, c, o.told⟩] } := by
  have hfits := h.fits_holder hlock
  rw [hstage] at hfits
  obtain ⟨rfl, hsafe, hholds⟩ := hfits
  refine ⟨h.unlocked, h.holder_update hlock rfl, ?_, fun j => ?_⟩
  · change (holding w.lock (Function.update w.stage i (.exited c o))).Fits _ _
    rw [hlock]
    change (Function.update w.stage i (.exited c o) i).Fits _ _
    rw [Function.update_self]
    have hmarked := hholds.mark (.exit (place (w.ended.map (·.call)).length))
    rw [List.append_assoc] at hmarked
    refine ⟨hsafe, ?_⟩
    rw [List.map_append, List.length_append, List.map_singleton, List.length_singleton, marks_succ]
    exact hmarked
  · have horder := h.order j
    change _ =
      own j ((w.ended ++ [_]).map _) ++ (Function.update w.stage i (.exited c o) j).outstanding
    rw [asked_concat, List.map_append, List.map_singleton, own_append]
    by_cases hj : j = i
    · subst hj
      rw [hstage] at horder
      rw [own_self, Function.update_self, horder]
      simp [Action.asks, endedCalls, Stage.outstanding, Stage.noted?, Stage.unnoted?]
    · rw [own_of_ne (Ne.symm hj), Function.update_of_ne hj, horder]
      simp [Action.asks, endedCalls]

/-- The lock is given back. -/
theorem release {c : Call} {o : Outcome c.Reply} (hstage : w.stage i = .exited c o) :
    Serial (actions ++ [.goOn i]) { w with
      desktop := ⟨w.desktop.backend, o.isCrashed⟩
      lock := none
      stage := Function.update w.stage i .idle } := by
  have hfits := h.fits_holder hlock
  rw [hstage] at hfits
  refine ⟨hfits.1, fun j => ?_, hfits.2, ?_⟩
  · change (Function.update w.stage i .idle j).isHolding = true ↔ none = some j
    refine ⟨fun hholding => ?_, fun hfalse => by contradiction⟩
    by_cases hj : j = i
    · rw [hj, Function.update_self] at hholding
      contradiction
    · rw [Function.update_of_ne hj] at hholding
      exact absurd hholding (h.not_isHolding_of_ne hlock hj)
  · exact h.order_of_same (fun _ => rfl) rfl (outstanding_update (by rw [hstage]; rfl))

end

/-- The next step of a call. -/
theorem goOn (h : Serial actions w) (hstep : w.goOn i = some w') :
    Serial (actions ++ [.goOn i]) w' := by
  have hholder := (h.holder i).mp
  have hfits : (w.stage i).isHolding = true →
      (w.stage i).Fits (w.ended.map (·.call)) w.desktop.backend :=
    fun hold => h.fits_holder (hholder hold)
  rw [Crowd.goOn] at hstep
  cases hstage : w.stage i with
  | idle => simp [hstage] at hstep
  | waiting c =>
    simp only [hstage] at hstep
    split at hstep
    · rename_i hfree
      obtain rfl := Option.some.inj hstep
      exact h.letIn (Option.isNone_iff_eq_none.mp hfree) hstage
    · contradiction
  | admitted c =>
    simp only [hstage] at hstep hholder hfits
    obtain rfl := Option.some.inj hstep
    obtain ⟨hid, hdrawn⟩ := Recording.Holds.number (hfits rfl)
    exact h.moved (hholder rfl) rfl (by rw [hstage]; rfl) ⟨hid, hdrawn⟩
  | numbered c id =>
    simp only [hstage] at hstep hholder hfits
    obtain rfl := Option.some.inj hstep
    obtain ⟨hid, hholds⟩ := hfits rfl
    exact h.moved (hholder rfl) rfl (by rw [hstage]; rfl) ⟨hid, hholds.mark _⟩
  | entered c id =>
    simp only [hstage] at hstep hholder hfits
    obtain rfl := Option.some.inj hstep
    obtain ⟨hid, hholds⟩ := hfits rfl
    exact h.moved (hholder rfl) rfl (by rw [hstage]; rfl) ⟨hid, hholds.note c⟩
  | noted c id =>
    simp only [hstage] at hstep hholder hfits
    obtain rfl := Option.some.inj hstep
    obtain ⟨hid, hholds⟩ := hfits rfl
    have hsafe := Recording.answer_ne_crashed c w.desktop.backend
    exact h.moved (hholder rfl) rfl (by rw [hstage]; rfl)
      ⟨hid, Outcome.isCrashed_eq_false hsafe, hholds⟩
  | answered c id o =>
    simp only [hstage] at hstep hholder
    obtain rfl := Option.some.inj hstep
    exact h.exit (hholder rfl) hstage
  | exited c o =>
    simp only [hstage] at hstep hholder
    obtain rfl := Option.some.inj hstep
    exact h.release (hholder rfl) hstage

theorem step {a : Action ι} (h : Serial actions w) (hstep : Crowd.step a w = some w') :
    Serial (actions ++ [a]) w' := by
  cases a with
  | ask i c =>
    rw [Crowd.step] at hstep
    split at hstep
    · rename_i hidle
      obtain rfl := Option.some.inj hstep
      exact h.ask hidle
    · contradiction
  | goOn i => exact h.goOn hstep
  | leave i =>
    obtain rfl := Option.some.inj hstep
    exact h.leave
  | throwSwitch fail =>
    obtain rfl := Option.some.inj hstep
    exact h.throwSwitch fail

theorem of_run {displays : List Display} {windows : List Window}
    (h : Schedule.run Crowd.step actions (Crowd.start displays windows) = some w) :
    Serial actions w :=
  Schedule.run_invariant (start displays windows) (fun _ _ _ _ hserial => hserial.step) h

end Serial

end Crowd

end RemoteDesk.Desktop
