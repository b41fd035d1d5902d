import Mathlib.Data.List.Nodup
import RemoteDesk.Desktop.Recording

/-!
What the log of a recording desktop tells about overlaps. Calls that run at the same time leave
their marks in any order, apart from the beginning of a call, which comes before its end. Whether
each beginning is followed at once by its end is looked up pair by pair; that finds every overlap,
however deep the calls are nested and however many are open.
-/
namespace RemoteDesk.Desktop.Boundary

/-- Every call in the log begins once and ends once, and begins before it ends. -/
structure Paired (log : List Boundary) : Prop where
  once : log.Nodup
  ends : ∀ a, .enter a ∈ log → .exit a ∈ log
  begins : ∀ a, .exit a ∈ log → [.enter a, .exit a].Sublist log

/-- A call begins between the beginning and the end of another one. -/
def Overlapping (log : List Boundary) : Prop :=
  ∃ a b, a ≠ b ∧ [.enter a, .enter b, .exit a].Sublist log

variable {log : List Boundary} {a b : UInt64}

/-! ### Marks at the front -/

theorem exit_mem_of_sublist {x : Boundary} (h : [x, .exit a].Sublist log) : .exit a ∈ log :=
  h.subset (List.mem_cons_of_mem x List.mem_cons_self)

/-- What begins with a beginning does not start at an end. -/
theorem sublist_behind_exit {marks : List Boundary}
    (h : (.enter a :: marks).Sublist (.exit b :: log)) : (.enter a :: marks).Sublist log := by
  cases h with
  | cons _ h => exact h

theorem sublist_behind_enter {marks : List Boundary} (hne : a ≠ b)
    (h : (.enter a :: marks).Sublist (.enter b :: log)) : (.enter a :: marks).Sublist log := by
  cases h with
  | cons _ h => exact h
  | cons_cons _ _ => exact absurd rfl hne

/-- No log begins with the end of a call. -/
theorem Paired.not_exit (h : Paired (.exit a :: log)) : False := by
  have hlater := sublist_behind_exit (h.begins a List.mem_cons_self)
  exact (List.nodup_cons.mp h.once).1 (exit_mem_of_sublist hlater)

/-- The end that comes right behind the first beginning belongs to it. -/
theorem Paired.eq_of_exit (h : Paired (.enter a :: .exit b :: log)) : a = b := by
  by_contra hne
  have hbegins := h.begins b (List.mem_cons_of_mem _ List.mem_cons_self)
  have hlater := sublist_behind_exit (sublist_behind_enter (Ne.symm hne) hbegins)
  have honce := (List.nodup_cons.mp h.once).2
  exact (List.nodup_cons.mp honce).1 (exit_mem_of_sublist hlater)

/-- Behind a call that is over, the log is as good as before. -/
theorem Paired.rest (h : Paired (.enter a :: .exit a :: log)) : Paired log := by
  have honce := (List.nodup_cons.mp h.once).2
  have hnot : .exit a ∉ log := (List.nodup_cons.mp honce).1
  refine ⟨(List.nodup_cons.mp honce).2, fun c hc => ?_, fun c hc => ?_⟩
  · have hne : c ≠ a := by
      rintro rfl
      exact (List.nodup_cons.mp h.once).1 (List.mem_cons_of_mem _ hc)
    have hmem := h.ends c (List.mem_cons_of_mem _ (List.mem_cons_of_mem _ hc))
    simpa [hne] using hmem
  · have hne : c ≠ a := by
      rintro rfl
      exact hnot hc
    have hbegins := h.begins c (List.mem_cons_of_mem _ (List.mem_cons_of_mem _ hc))
    exact sublist_behind_exit (sublist_behind_enter hne hbegins)

/-! ### Overlaps -/

theorem Overlapping.behind (h : Overlapping log) (x y : Boundary) : Overlapping (x :: y :: log) := by
  obtain ⟨a, b, hne, hsub⟩ := h
  exact ⟨a, b, hne, (hsub.cons y).cons x⟩

/-- A call that ends at once overlaps with none. -/
theorem Overlapping.of_behind (hnot : .exit a ∉ log)
    (h : Overlapping (.enter a :: .exit a :: log)) : Overlapping log := by
  obtain ⟨c, d, hne, hsub⟩ := h
  refine ⟨c, d, hne, ?_⟩
  by_cases hc : c = a
  · subst hc
    have hinner : [.enter d, .exit c].Sublist (.exit c :: log) := List.cons_sublist_cons.mp hsub
    exact absurd (exit_mem_of_sublist (sublist_behind_exit hinner)) hnot
  · exact sublist_behind_exit (sublist_behind_enter hc hsub)

/-- Two beginnings in a row are an overlap, since the first call has not ended. -/
theorem Paired.overlapping (h : Paired (.enter a :: .enter b :: log)) :
    Overlapping (.enter a :: .enter b :: log) := by
  have hne : a ≠ b := by
    rintro rfl
    exact (List.nodup_cons.mp h.once).1 List.mem_cons_self
  have hmem : .exit a ∈ log := by simpa using h.ends a List.mem_cons_self
  exact ⟨a, b, hne, ((List.singleton_sublist.mpr hmem).cons_cons _).cons_cons _⟩

/-- The pairs are followed two marks at a time, as they are looked up. -/
theorem Paired.serialized_iff (h : Paired log) : serialized log = true ↔ ¬ Overlapping log := by
  induction log using serialized.induct with
  | case1 =>
    refine ⟨fun _ hover => ?_, fun _ => rfl⟩
    obtain ⟨a, b, -, hsub⟩ := hover
    exact List.not_mem_nil (hsub.subset List.mem_cons_self)
  | case2 a b log ih =>
    obtain rfl := h.eq_of_exit
    have hnot : .exit a ∉ log := (List.nodup_cons.mp (List.nodup_cons.mp h.once).2).1
    have hstep : serialized (.enter a :: .exit a :: log) = serialized log := by simp [serialized]
    rw [hstep, ih h.rest]
    exact not_congr ⟨fun hover => hover.behind _ _, fun hover => hover.of_behind hnot⟩
  | case3 log hnil hpair =>
    have hover : Overlapping log := by
      match log with
      | [] => exact absurd rfl hnil
      | .exit a :: log => exact h.not_exit.elim
      | [.enter a] => exact absurd (h.ends a List.mem_cons_self) (by simp)
      | .enter a :: .exit b :: log => exact (hpair a b log rfl).elim
      | .enter a :: .enter b :: log => exact h.overlapping
    have hserialized : serialized log = false := by rw [serialized.eq_3 log hnil hpair]
    simp [hserialized, hover]

/-! ### How many calls -/

/-- The call that a mark begins. -/
def entered? : Boundary → Option UInt64
  | .enter a => some a
  | .exit _ => none

/-- The call that a mark ends. -/
def exited? : Boundary → Option UInt64
  | .enter _ => none
  | .exit a => some a

theorem mem_entered : a ∈ log.filterMap entered? ↔ .enter a ∈ log := by
  rw [List.mem_filterMap]
  constructor
  · rintro ⟨x, hx, heq⟩
    cases x with
    | enter b => exact Option.some.inj heq ▸ hx
    | exit b => contradiction
  · exact fun h => ⟨.enter a, h, rfl⟩

theorem mem_exited : a ∈ log.filterMap exited? ↔ .exit a ∈ log := by
  rw [List.mem_filterMap]
  constructor
  · rintro ⟨x, hx, heq⟩
    cases x with
    | enter b => contradiction
    | exit b => exact Option.some.inj heq ▸ hx
  · exact fun h => ⟨.exit a, h, rfl⟩

theorem length_eq (log : List Boundary) :
    log.length = (log.filterMap entered?).length + (log.filterMap exited?).length := by
  induction log with
  | nil => rfl
  | cons x log ih =>
    cases x <;> simp [List.filterMap_cons, entered?, exited?, ih] <;> omega

theorem completed_eq (log : List Boundary) :
    completed log = (log.filterMap exited?).length := by
  induction log with
  | nil => rfl
  | cons x log ih =>
    rw [completed] at ih ⊢
    cases x <;> simp [List.filterMap_cons, List.countP_cons, exited?, isExit, ih]

/-- The calls that have begun are those that have ended. -/
theorem Paired.perm (h : Paired log) :
    (log.filterMap entered?).Perm (log.filterMap exited?) := by
  have hentered : (log.filterMap entered?).Nodup := h.once.filterMap fun x y c hx hy => by
    cases x <;> cases y <;> simp_all [entered?]
  have hexited : (log.filterMap exited?).Nodup := h.once.filterMap fun x y c hx hy => by
    cases x <;> cases y <;> simp_all [exited?]
  refine (List.perm_ext_iff_of_nodup hentered hexited).mpr fun a => ?_
  rw [mem_entered, mem_exited]
  exact ⟨h.ends a, fun hexit => (h.begins a hexit).subset List.mem_cons_self⟩

/-- In a log in which every call begins once and later ends once, the pairs match if and only if no
call begins while another one is open, whatever the order of the marks is otherwise; and half of
the marks are ends. -/
theorem serialized_exact (h : Paired log) :
    (serialized log = true ↔ ¬ Overlapping log) ∧ 2 * completed log = log.length := by
  refine ⟨h.serialized_iff, ?_⟩
  have hlength := h.perm.length_eq
  rw [completed_eq, length_eq log]
  omega

/-- Three calls, the second and third of which are nested. -/
theorem serialized_exact_nested :
    let log := [.enter 1, .exit 1, .enter 2, .enter 3, .exit 3, .exit 2]
    Paired log ∧ serialized log = false ∧ Overlapping log ∧ 2 * completed log = log.length := by
  intro log
  have hpaired : Paired log := by
    refine ⟨by decide, fun a ha => ?_, fun a ha => ?_⟩
    · simp [log] at ha
      rcases ha with rfl | rfl | rfl <;> decide
    · simp [log] at ha
      rcases ha with rfl | rfl | rfl <;> decide
  have hfalse : serialized log = false := by decide
  obtain ⟨hiff, hcount⟩ := serialized_exact hpaired
  refine ⟨hpaired, hfalse, ?_, hcount⟩
  by_contra hnone
  exact Bool.noConfusion (hfalse.symm.trans (hiff.mpr hnone))

end RemoteDesk.Desktop.Boundary
