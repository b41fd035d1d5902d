import RemoteDesk.Proofs.Command.Arguments
import RemoteDesk.Proofs.Desktop.Snapshots
import RemoteDesk.Proofs.Json.Members

/-!
Records in objects. Of the values that do not fit, the one under the least key is complained about;
a record whose fields are all read has none. Members under other names make no difference.
-/
namespace RemoteDesk

open Json

variable {ν α : Type}

/-! ### Complaints -/

/-- What is wrong with a member, if anything: its value does not fit the field of its name. -/
def complaint? (fields : List (Field ν Unit)) (m : String × ν) : Option Mismatch :=
  match fields.find? fun f => f.name == m.1 with
  | none => none
  | some f => match f.read m.2 with
    | .ok _ => none
    | .error e => some e

theorem complaint?_of_read {fields : List (Field ν Unit)} {m : String × ν} {f : Field ν Unit}
    (hf : fields.find? (fun f => f.name == m.1) = some f) (hread : f.read m.2 = .ok ()) :
    complaint? fields m = none := by
  simp only [complaint?, hf, hread]

/-- Where no field has the name, there is nothing to complain about. -/
theorem exists_of_complaint? {fields : List (Field ν Unit)} {m : String × ν}
    (h : complaint? fields m ≠ none) : ∃ f ∈ fields, f.name = m.1 := by
  cases hf : fields.find? fun f => f.name == m.1 with
  | none =>
    simp only [complaint?, hf] at h
    contradiction
  | some f => exact ⟨f, List.mem_of_find?_eq_some hf, by simpa using List.find?_some hf⟩

/-- The first complaint decides. -/
theorem checkFields_eq (fields : List (Field ν Unit)) (members : List (String × ν)) :
    checkFields fields members =
      match members.findSome? (complaint? fields) with
      | some e => .error e
      | none => .ok () := by
  induction members with
  | nil => rfl
  | cons m members ih =>
    rw [checkFields, List.findSome?_cons, complaint?]
    cases fields.find? fun f => f.name == m.1 with
    | none => exact ih
    | some f =>
      dsimp only
      cases f.read m.2 with
      | ok _ => exact ih
      | error e => rfl

theorem checkFields_eq_ok_iff {fields : List (Field ν Unit)} {members : List (String × ν)} :
    checkFields fields members = .ok () ↔ ∀ m ∈ members, complaint? fields m = none := by
  rw [checkFields_eq, ← List.findSome?_eq_none_iff]
  cases members.findSome? (complaint? fields) with
  | none => exact ⟨fun _ => rfl, fun _ => rfl⟩
  | some e => exact ⟨fun h => by contradiction, fun h => by contradiction⟩

theorem checkFields_eq_error_iff {fields : List (Field ν Unit)} {members : List (String × ν)}
    {e : Mismatch} : checkFields fields members = .error e ↔
      members.findSome? (complaint? fields) = some e := by
  rw [checkFields_eq]
  cases members.findSome? (complaint? fields) with
  | none => exact ⟨fun h => by contradiction, fun h => by contradiction⟩
  | some e' => exact ⟨fun h => by rw [Except.error.inj h], fun h => by rw [Option.some.inj h]⟩

/-! ### Fields and their tests -/

namespace Field

theorem of_test (f : Field ν α) (members : List (String × ν)) :
    f.test.of members = (f.of members).map fun _ => () := by
  unfold Field.of
  cases hv : members.lookup f.name with
  | some v => simp only [test, hv]
  | none => cases ha : f.absent <;> simp only [test, hv, ha] <;> rfl

theorem test_of {f : Field ν α} {members : List (String × ν)} {a : α} (h : f.of members = .ok a) :
    f.test.of members = .ok () := by
  rw [of_test, h]
  rfl

end Field

/-- Nothing is wrong with values under different names if every field is read. -/
theorem checkFields_eq_ok {fields : List (Field ν Unit)} {members : List (String × ν)}
    (hn : (members.map (·.1)).Nodup) (h : ∀ f ∈ fields, f.of members = .ok ()) :
    checkFields fields members = .ok () := by
  refine checkFields_eq_ok_iff.mpr fun m hm => ?_
  cases hf : fields.find? fun f => f.name == m.1 with
  | none => simp only [complaint?, hf]
  | some f =>
    have hname : f.name = m.1 := by simpa using List.find?_some hf
    have hv : members.lookup f.name = some m.2 := by
      rw [hname]
      exact lookup_of_mem hn hm
    have hread := h f (List.mem_of_find?_eq_some hf)
    rw [Field.of_present hv] at hread
    exact complaint?_of_read hf hread

/-! ### Forms of values -/

namespace Json

/-- There is a value of some form under a name. -/
def Members.Has (ms : Members) (name : String) (form : Json → Prop) : Prop :=
  ∃ v, ms.get? name = some v ∧ form v

def IsText (v : Json) : Prop := ∃ s, v = .str s

theorem asMembers_eq_ok {v : Json} {ms : Members} (h : asMembers v = .ok ms) : v = .obj ms := by
  cases v with
  | obj ms' => rw [Except.ok.inj h]
  | _ => contradiction

/-- A text may be null, which stands for none. -/
theorem asOption_text_eq_ok {v : Json} {s? : Option String}
    (h : asOption asString v = .ok s?) : v = .null ∧ s? = none ∨ ∃ s, v = .str s ∧ s? = some s := by
  cases v with
  | null => exact .inl ⟨rfl, (Except.ok.inj h).symm⟩
  | str s => exact .inr ⟨s, rfl, (Except.ok.inj h).symm⟩
  | _ => contradiction

end Json

/-! ### Objects in key order -/

namespace Json.Members

variable {fields : List (Field Json Unit)} {ms ns : Members} {e : Mismatch}

/-- A complaint about the value under a key, and none about a value under a lesser one. -/
def FirstComplaint (fields : List (Field Json Unit)) (ms : Members) (e : Mismatch) : Prop :=
  ∃ name v, ms.get? name = some v ∧ complaint? fields (name, v) = some e ∧
    ∀ name' v', ms.get? name' = some v' → complaint? fields (name', v') ≠ none → name ≤ name'

theorem Ordered.firstComplaint (ho : ms.Ordered)
    (h : ms.findSome? (complaint? fields) = some e) : FirstComplaint fields ms e := by
  obtain ⟨before, m, after, rfl, hm, hbefore⟩ := List.findSome?_eq_some_iff.mp h
  have hfound := get?_of_mem ho.nodup (List.mem_append_right before (List.mem_cons_self (a := m)))
  refine ⟨m.1, m.2, hfound, hm, fun name' v' hv' hcomplaint => ?_⟩
  rcases List.mem_append.mp (mem_of_get? hv') with hin | hin
  · exact absurd (hbefore _ hin) hcomplaint
  · rcases List.mem_cons.mp hin with heq | hin
    · exact heq ▸ String.le_refl name'
    · have hafter := List.pairwise_cons.mp (List.pairwise_append.mp ho).2.1
      exact String.not_lt.mp fun hlt => String.lt_irrefl m.1
        (String.lt_trans (hafter.1 _ hin) hlt)

theorem FirstComplaint.unique {e' : Mismatch} (h : FirstComplaint fields ms e)
    (h' : FirstComplaint fields ms e') : e = e' := by
  obtain ⟨name, v, hv, hm, hfirst⟩ := h
  obtain ⟨name', v', hv', hm', hfirst'⟩ := h'
  have hle := hfirst name' v' hv' (by rw [hm']; nofun)
  have hle' := hfirst' name v hv (by rw [hm]; nofun)
  obtain rfl := String.le_antisymm hle hle'
  obtain rfl := Option.some.inj (hv.symm.trans hv')
  exact Option.some.inj (hm.symm.trans hm')

/-- The complaint is about the least key whose value does not fit. -/
theorem Ordered.checkFields_eq_error_iff (ho : ms.Ordered) :
    checkFields fields ms = .error e ↔ FirstComplaint fields ms e := by
  rw [RemoteDesk.checkFields_eq_error_iff]
  refine ⟨ho.firstComplaint, fun h => ?_⟩
  cases hfound : ms.findSome? (complaint? fields) with
  | some e' => rw [(ho.firstComplaint hfound).unique h]
  | none =>
    obtain ⟨name, v, hv, hm, -⟩ := h
    rw [List.findSome?_eq_none_iff.mp hfound _ (mem_of_get? hv)] at hm
    contradiction

/-- Only the values under the names of fields count. -/
theorem FirstComplaint.congr (same : ∀ f ∈ fields, ns.get? f.name = ms.get? f.name)
    (h : FirstComplaint fields ms e) : FirstComplaint fields ns e := by
  have hsame : ∀ name v, complaint? fields (name, v) ≠ none → ns.get? name = ms.get? name := by
    intro name v hm
    obtain ⟨f, hf, rfl⟩ := exists_of_complaint? hm
    exact same f hf
  obtain ⟨name, v, hv, hm, hfirst⟩ := h
  refine ⟨name, v, ?_, hm, fun name' v' hv' hm' => hfirst name' v' ?_ hm'⟩
  · rw [hsame name v (by rw [hm]; nofun), hv]
  · rw [← hsame name' v' hm', hv']

theorem Ordered.checkFields_congr (ho : ms.Ordered) (hn : ns.Ordered)
    (same : ∀ name ∈ fields.map (·.name), ns.get? name = ms.get? name) :
    checkFields fields ns = checkFields fields ms := by
  have hforth : ∀ f ∈ fields, ns.get? f.name = ms.get? f.name := fun f hf =>
    same f.name (List.mem_map_of_mem hf)
  have hback : ∀ f ∈ fields, ms.get? f.name = ns.get? f.name := fun f hf => (hforth f hf).symm
  cases hm : checkFields fields ms with
  | error e =>
    exact hn.checkFields_eq_error_iff.mpr ((ho.checkFields_eq_error_iff.mp hm).congr hforth)
  | ok _ =>
    cases hns : checkFields fields ns with
    | ok _ => rfl
    | error e =>
      have hfirst := (hn.checkFields_eq_error_iff.mp hns).congr hback
      rw [ho.checkFields_eq_error_iff.mpr hfirst] at hm
      contradiction

/-- Nothing is wrong with an object of which every field is read. -/
theorem Ordered.checkFields_eq_ok (ho : ms.Ordered)
    (h : ∀ f ∈ fields, f.of ms = .ok ()) : checkFields fields ms = .ok () :=
  RemoteDesk.checkFields_eq_ok ho.nodup h

end Json.Members

/-! ### Fields -/

namespace Field

variable {f : Field Json α} {name : String} {read : Json → Except Mismatch α} {a absent : α}
  {ms ns : Members}

theorem of_congr (f : Field Json α) (h : ns.get? f.name = ms.get? f.name) :
    f.of ns = f.of ms := by
  have hlookup : ns.lookup f.name = ms.lookup f.name := h
  rw [Field.of, Field.of, hlookup]

theorem needed_eq_ok_iff :
    (needed name read).of ms = .ok a ↔ ∃ v, ms.get? name = some v ∧ read v = .ok a := by
  refine ⟨needed_eq_ok, ?_⟩
  rintro ⟨v, hv, hread⟩
  rw [of_present (f := needed name read) hv]
  exact hread

theorem withDefault_eq_ok_iff :
    (withDefault name read absent).of ms = .ok a ↔
      (∃ v, ms.get? name = some v ∧ read v = .ok a) ∨ ms.get? name = none ∧ a = absent := by
  cases hv : ms.get? name with
  | some v =>
    rw [of_present (f := withDefault name read absent) hv]
    simp [withDefault]
  | none =>
    rw [of_absent (f := withDefault name read absent) hv rfl]
    simp [eq_comm]

/-- A value that may be left out is read back where it is written only if it is set. -/
theorem option_eq_ok {a? : Option α} {write : α → Json}
    (hread : ∀ a, asOption read (write a) = .ok (some a)) (h : ms.get? name = a?.map write) :
    (withDefault name (asOption read) none).of ms = .ok a? := by
  refine withDefault_eq_ok_iff.mpr ?_
  cases a? with
  | none => exact .inr ⟨h, rfl⟩
  | some a => exact .inl ⟨write a, h, hread a⟩

theorem text_eq_ok_iff {s : String} :
    (needed name asString).of ms = .ok s ↔ ms.get? name = some (.str s) :=
  ⟨text_eq_ok, fun h => needed_eq_ok_iff.mpr ⟨_, h, rfl⟩⟩

theorem int32_eq_ok_iff {n : Int32} :
    (needed name Data.int32).of ms = .ok n ↔ ms.get? name = some (.int n.toInt) :=
  ⟨int32_eq_ok, fun h => needed_eq_ok_iff.mpr ⟨_, h, int32_int n⟩⟩

end Field

end RemoteDesk
