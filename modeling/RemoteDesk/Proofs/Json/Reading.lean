import RemoteDesk.Proofs.Command.Reading
import RemoteDesk.Proofs.Json.Members

/-!
What readers give. Whatever the text is, a value that was read off it keeps to the form of values:
integers within 64 bits, members in key order, and no more levels than the reader allows. Without
floats it is therefore one that reads back from its own compact text.
-/
namespace RemoteDesk.Json

/-- Values in which no number is a float. -/
inductive Floatless : Json → Prop where
  | null : Floatless .null
  | bool (b : Bool) : Floatless (.bool b)
  | int (n : Int) : Floatless (.num (.int n))
  | str (s : String) : Floatless (.str s)
  | arr (items : List Json) (floatless : ∀ v ∈ items, Floatless v) : Floatless (.arr items)
  | obj (members : Members) (floatless : ∀ m ∈ members, Floatless m.2) : Floatless (.obj members)

/-- A reader that succeeds has one value to give. -/
theorem value_eq {α : Type} {a b : α} {r s : Bytes}
    (h : (.ok (a, r) : Except Halt (α × Bytes)) = .ok (b, s)) : a = b :=
  (Prod.mk.inj (Except.ok.inj h)).1

/-! ### Numbers -/

theorem digit?_le {b : UInt8} {d : Nat} (h : digit? b = some d) : d ≤ 9 := by
  obtain ⟨hb, hd⟩ := Option.ite_none_right_eq_some.mp h
  have hmost := UInt8.le_iff_toNat_le.mp hb.2
  have h39 : (0x39 : UInt8).toNat = 57 := rfl
  have hd := Option.some.inj hd
  omega

/-- Digits are taken only while their number stays below the bound. -/
theorem readDigits_lt {bound n count : Nat} (bs : Bytes) (h : n < bound) :
    (readDigits bound n count bs).1 < bound := by
  induction bs generalizing n count with
  | nil => exact h
  | cons b bs ih =>
    rw [readDigits]
    split
    · split
      · rename_i hlt
        exact ih hlt
      · exact h
    · exact h

section
variable {negative : Bool} {n significand : Nat} {e : Int} {bs r : Bytes} {x : Number.Value}

/-- A value that is a float. -/
def IsFloat (x : Number.Value) : Prop := ∃ f, x = .float f

theorem isFloat_of_readParts (h : readParts negative significand e bs = .ok (x, r)) :
    IsFloat x := by
  unfold readParts at h
  split at h
  · exact ⟨_, (value_eq h).symm⟩
  · contradiction

theorem isFloat_of_ite {c : Prop} [Decidable c] {fault : Fault} {f : Float} {bs' : Bytes}
    (h : (if c then haltAt fault bs else .ok (.float f, bs')) = .ok (x, r)) : IsFloat x := by
  split at h
  · contradiction
  · exact ⟨f, (value_eq h).symm⟩

theorem isFloat_of_readExponent (h : readExponent negative significand e bs = .ok (x, r)) :
    IsFloat x := by
  unfold readExponent at h
  dsimp only at h
  split at h
  · contradiction
  · split at h
    · contradiction
    · split at h
      · exact isFloat_of_ite h
      · exact isFloat_of_readParts h

theorem isFloat_of_readScaled (h : readScaled negative significand e bs = .ok (x, r)) :
    IsFloat x := by
  unfold readScaled at h
  split at h
  · exact isFloat_of_readExponent h
  · exact isFloat_of_readExponent h
  · exact isFloat_of_readParts h

theorem isFloat_of_readFraction (h : readFraction negative significand e bs = .ok (x, r)) :
    IsFloat x := by
  unfold readFraction at h
  dsimp only at h
  split at h
  · exact isFloat_of_readScaled h
  · split at h
    · split at h <;> contradiction
    · exact isFloat_of_readScaled h

/-- The numbers that are read: floats, and integers within 64 bits. -/
def InRange : Number.Value → Prop
  | .int n => -9223372036854775808 ≤ n ∧ n ≤ 18446744073709551615
  | .float _ => True

theorem IsFloat.inRange (h : IsFloat x) : InRange x := by
  obtain ⟨f, rfl⟩ := h
  trivial

theorem inRange_of_readAfterInteger (hn : n < 1 <<< 64)
    (h : readAfterInteger negative n bs = .ok (x, r)) : InRange x := by
  unfold readAfterInteger at h
  split at h
  · exact (isFloat_of_readFraction h).inRange
  · exact (isFloat_of_readExponent h).inRange
  · exact (isFloat_of_readExponent h).inRange
  · split at h
    · rw [← value_eq h]
      simp only [InRange]
      omega
    · split at h
      · rw [← value_eq h]
        trivial
      · rw [← value_eq h]
        simp only [InRange]
        omega

theorem inRange_of_readNumber (h : readNumber negative bs = .ok (x, r)) : InRange x := by
  unfold readNumber at h
  split at h
  · contradiction
  · split at h
    · contradiction
    · split at h
      · contradiction
      · exact inRange_of_readAfterInteger (by decide) h
    · rename_i d _ hd
      have hsmall : d < 1 <<< 64 := by
        have := digit?_le hd
        omega
      dsimp only at h
      split at h
      · split at h
        · exact (isFloat_of_readFraction h).inRange
        · exact (isFloat_of_readScaled h).inRange
      · exact inRange_of_readAfterInteger (readDigits_lt _ hsmall) h

end

/-! ### Items and members -/

section
variable {item : Reader Json} {P : Json → Prop}

/-- Whatever holds of every value that a reader gives holds of all items that it reads. -/
theorem forall_of_readItems (hitem : ∀ bs v r, item bs = .ok (v, r) → P v) {limit : Nat}
    {done items : List Json} {bs r : Bytes} (h : readItems item limit done bs = .ok (items, r))
    (hdone : ∀ v ∈ done, P v) : ∀ v ∈ items, P v := by
  induction limit generalizing done bs with
  | zero => contradiction
  | succ limit ih =>
    unfold readItems at h
    split at h
    · contradiction
    · rw [← value_eq h]
      exact fun v hv => hdone v (List.mem_reverse.mp hv)
    · split at h
      · contradiction
      · contradiction
      · obtain ⟨⟨v, r⟩, hv, h⟩ := bind_eq_ok h
        exact ih h (List.forall_mem_cons.mpr ⟨hitem _ v r hv, hdone⟩)
    · contradiction

theorem forall_of_readArray (hitem : ∀ bs v r, item bs = .ok (v, r) → P v) {limit : Nat}
    {items : List Json} {bs r : Bytes} (h : readArray item limit bs = .ok (items, r)) :
    ∀ v ∈ items, P v := by
  unfold readArray at h
  split at h
  · contradiction
  · rw [← value_eq h]
    exact fun v hv => absurd hv List.not_mem_nil
  · obtain ⟨⟨v, r⟩, hv, h⟩ := bind_eq_ok h
    exact forall_of_readItems hitem h (List.forall_mem_singleton.mpr (hitem _ v r hv))

theorem of_readMember (hitem : ∀ bs v r, item bs = .ok (v, r) → P v) {m : String × Json}
    {bs r : Bytes} (h : readMember item bs = .ok (m, r)) : P m.2 := by
  obtain ⟨⟨k, r₁⟩, -, h⟩ := bind_eq_ok h
  obtain ⟨r₂, -, h⟩ := bind_eq_ok h
  obtain ⟨⟨v, r₃⟩, hv, h⟩ := bind_eq_ok h
  rw [← value_eq h]
  exact hitem _ v r₃ hv

theorem forall_of_readMembers (hitem : ∀ bs v r, item bs = .ok (v, r) → P v) {limit : Nat}
    {done members : Members} {bs r : Bytes}
    (h : readMembers item limit done bs = .ok (members, r)) (hdone : ∀ m ∈ done, P m.2) :
    ∀ m ∈ members, P m.2 := by
  induction limit generalizing done bs with
  | zero => contradiction
  | succ limit ih =>
    unfold readMembers at h
    split at h
    · contradiction
    · rw [← value_eq h]
      exact hdone
    · split at h
      · contradiction
      · obtain ⟨⟨m, r⟩, hm, h⟩ := bind_eq_ok h
        exact ih h (List.forall_mem_cons.mpr ⟨of_readMember hitem hm, hdone⟩)
      · contradiction
      · contradiction
    · contradiction

/-- The members of an object are in key order, whatever their order in the text is. -/
theorem forall_of_readObject (hitem : ∀ bs v r, item bs = .ok (v, r) → P v) {limit : Nat}
    {members : Members} {bs r : Bytes} (h : readObject item limit bs = .ok (members, r)) :
    members.Ordered ∧ ∀ m ∈ members, P m.2 := by
  unfold readObject at h
  split at h
  · contradiction
  · rw [← value_eq h]
    exact ⟨.nil, fun m hm => absurd hm List.not_mem_nil⟩
  · obtain ⟨⟨m, r₁⟩, hm, h⟩ := bind_eq_ok h
    obtain ⟨⟨ms, r₂⟩, hms, h⟩ := bind_eq_ok h
    rw [← value_eq h]
    have hall := forall_of_readMembers hitem hms
      (List.forall_mem_singleton.mpr (of_readMember hitem hm))
    exact ⟨Members.ordered_ofReversed ms, fun m hm => hall m (Members.mem_of_mem_ofReversed hm)⟩
  · contradiction

end

/-! ### Values -/

/-- Integers are within 64 bits, and no other number is plain. -/
theorem plain_num {depth : Nat} {x : Number.Value} (hf : (Json.num x).Floatless) (h : InRange x) :
    Plain depth (.num x) := by
  cases hf with
  | int n => exact .int depth n h.1 h.2

/-- A value without floats that was read is plain. By induction on the levels: the items are read
by the reader of the level below. -/
theorem plain_of_readValue {limit depth : Nat} {bs r : Bytes} {v : Json}
    (h : readValue limit depth bs = .ok (v, r)) (hf : v.Floatless) : Plain depth v := by
  induction depth using Nat.strongRecOn generalizing bs r v with
  | ind depth ih =>
    unfold readValue at h
    split at h
    · contradiction
    · obtain ⟨r, -, h⟩ := bind_eq_ok h
      rw [← value_eq h]
      exact .null depth
    · obtain ⟨r, -, h⟩ := bind_eq_ok h
      rw [← value_eq h]
      exact .bool depth true
    · obtain ⟨r, -, h⟩ := bind_eq_ok h
      rw [← value_eq h]
      exact .bool depth false
    · obtain ⟨⟨s, r⟩, -, h⟩ := bind_eq_ok h
      rw [← value_eq h]
      exact .str depth s
    · cases depth with
      | zero => contradiction
      | succ depth =>
        obtain ⟨⟨items, r⟩, hitems, h⟩ := bind_eq_ok h
        obtain rfl := value_eq h
        cases hf with
        | arr _ hfloatless =>
          have hall := forall_of_readArray (P := fun v => v.Floatless → Plain depth v)
            (fun _ _ _ => ih depth (Nat.lt_succ_self depth)) hitems
          exact .arr depth items fun v hv => hall v hv (hfloatless v hv)
    · cases depth with
      | zero => contradiction
      | succ depth =>
        obtain ⟨⟨members, r⟩, hmembers, h⟩ := bind_eq_ok h
        obtain rfl := value_eq h
        cases hf with
        | obj _ hfloatless =>
          obtain ⟨hordered, hall⟩ := forall_of_readObject
            (P := fun v => v.Floatless → Plain depth v)
            (fun _ _ _ => ih depth (Nat.lt_succ_self depth)) hmembers
          exact .obj depth members hordered fun m hm => hall m hm (hfloatless m hm)
    · obtain ⟨⟨n, r⟩, hn, h⟩ := bind_eq_ok h
      obtain rfl := value_eq h
      exact plain_num hf (inRange_of_readNumber hn)
    · split at h
      · obtain ⟨⟨n, r⟩, hn, h⟩ := bind_eq_ok h
        obtain rfl := value_eq h
        exact plain_num hf (inRange_of_readNumber hn)
      · contradiction

/-- What a text spells was read off it. -/
theorem exists_of_readAll {α : Type} {reader : Reader α} {text : Bytes} {a : α}
    (h : readAll reader text = .ok a) : ∃ r, reader text = .ok (a, r) := by
  unfold readAll at h
  dsimp only at h
  split at h
  · rename_i v hv
    obtain ⟨⟨v, r⟩, hread, hv⟩ := bind_eq_ok hv
    obtain ⟨_, -, hv⟩ := bind_eq_ok hv
    have hva : v = a := (Except.ok.inj hv).trans (Except.ok.inj h)
    exact ⟨r, by rw [hread, hva]⟩
  · contradiction

end RemoteDesk.Json
