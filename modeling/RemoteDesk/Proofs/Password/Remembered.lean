import RemoteDesk.Password.Hash
import RemoteDesk.Proofs.Password.Records
import Mathlib.Tactic.SplitIfs

/-!
The record of a password, as text, is of that password. What is read back has the salt, the hash
and the cost that were written, so the same input is hashed again; the length of a hash that was
not said is now that of the hash, and both make for the same hash.
-/
namespace RemoteDesk

/-! ### Lengths of hashes -/

theorem Blake2.length_hash {size : Nat} (h : size ≤ 64) (message : Bytes) :
    (hash size message).length = size := by
  have hwords : ∀ ws : List UInt64, (ws.flatMap wordBytes).length = 8 * ws.length := fun ws => by
    induction ws with
    | nil => rfl
    | cons w ws ih =>
      rw [List.flatMap_cons, List.length_append, ih, List.length_cons]
      simp only [wordBytes, List.length_cons, List.length_nil]
      omega
  simp only [hash, List.length_take, hwords, Vector.length_toList]
  omega

theorem Argon2.length_hash {x : Input} (h : x.params.length ≤ 64) :
    (hash x).length = x.params.length := by
  simp only [hash, longHash, if_pos h, Blake2.length_hash h]

/-- To say how long a hash is makes no difference where that is how long it would be. -/
theorem Argon2.hash_sayLength (x : Input) :
    hash { x with params := { x.params with length? := some x.params.length } } = hash x := rfl

/-! ### Cost and salt -/

/-- The limits of a cost. -/
theorem Argon2.Params.check_eq_ok_iff {p : Params} :
    p.check = .ok p ↔ 8 ≤ p.memory ∧ 8 * p.lanes ≤ p.memory ∧ 1 ≤ p.passes ∧ 1 ≤ p.lanes ∧
      p.lanes ≤ 16777215 ∧ p.length?.any (· < 4) = false := by
  unfold check
  split_ifs with hmemory hpasses hlanes hmost hlength
  · simp only [false_iff]
    omega
  · simp only [false_iff]
    omega
  · simp only [false_iff]
    omega
  · simp only [false_iff]
    omega
  · simp [hlength]
  · rw [Bool.not_eq_true] at hlength
    exact iff_of_true rfl ⟨by omega, by omega, by omega, by omega, by omega, hlength⟩

namespace Password

open Argon2

/-- A cost within the limits, whose numbers a record can hold, and a salt that is neither too short
to be used nor too long to be written. -/
structure Usable (params : Params) (salt : Bytes) : Prop where
  checked : params.check = .ok params
  memory : params.memory < 4294967296
  passes : params.passes < 4294967296
  saltLeast : leastSalt ≤ salt.length
  saltMost : salt.length ≤ 48

variable {params : Params} {salt : Bytes} {password : String} {p : Phc}

theorem Usable.lanes (h : Usable params salt) : params.lanes < 4294967296 := by
  have := Params.check_eq_ok_iff.mp h.checked
  omega

theorem Usable.checked_sayLength (h : Usable params salt) {n : Nat} (hn : 4 ≤ n) :
    ({ params with length? := some n } : Params).check = .ok { params with length? := some n } := by
  obtain ⟨hmemory, hroom, hpasses, hlanes, hmost, -⟩ := Params.check_eq_ok_iff.mp h.checked
  exact Params.check_eq_ok_iff.mpr
    ⟨hmemory, hroom, hpasses, hlanes, hmost, by simpa using hn⟩

/-- The parameters that say a cost. -/
def costs (params : Params) : List (String × String) :=
  [("m", toString params.memory), ("t", toString params.passes), ("p", toString params.lanes)]

theorem Usable.mem_costs (h : Usable params salt) {q : String × String} (hq : q ∈ costs params) :
    q.1 ∈ ["m", "t", "p"] ∧ ∃ n < 4294967296, q.2 = toString n := by
  simp only [costs, List.mem_cons, List.not_mem_nil, or_false] at hq
  rcases hq with rfl | rfl | rfl
  · exact ⟨by simp, _, h.memory, rfl⟩
  · exact ⟨by simp, _, h.passes, rfl⟩
  · exact ⟨by simp, _, h.lanes, rfl⟩

theorem Usable.legible (h : Usable params salt) : ∀ q ∈ costs params, Phc.Legible q := by
  intro q hq
  obtain ⟨hname, n, hn, htext⟩ := h.mem_costs hq
  have hnames : ∀ name ∈ ["m", "t", "p"], Phc.readName name = .ok name := by decide
  exact ⟨hnames q.1 hname, htext ▸ Phc.readValue_toString hn⟩

theorem Usable.room (h : Usable params salt) :
    (Phc.writtenAll (costs params)).utf8ByteSize ≤ 127 := by
  have hm := Phc.utf8ByteSize_toString h.memory
  have ht := Phc.utf8ByteSize_toString h.passes
  have hp := Phc.utf8ByteSize_toString h.lanes
  simp only [Phc.writtenAll, costs, List.map_cons, List.map_nil, Phc.written,
    String.intercalate_cons_cons, String.intercalate_singleton, String.utf8ByteSize_append]
  have hsigns : ∀ sign ∈ ["m", "t", "p", "=", ","], sign.utf8ByteSize = 1 := by decide
  simp only [List.forall_mem_cons] at hsigns
  omega

theorem Usable.fit (h : Usable params salt) (hleast : Phc.leastHash ≤ params.length)
    (hmost : params.length ≤ Phc.mostHash) :
    Phc.Fit Variant.id.name Version.newer.number (costs params)
      (Base64.encodeShort Base64.standard salt)
      (hash ⟨.id, .newer, params, utf8 password, salt, []⟩) where
  algorithm := by decide
  version := by decide
  some_param := by simp [costs]
  legible := h.legible
  room := h.room
  salt := Phc.readSalt_encodeShort (Nat.le_trans (by decide) h.saltLeast) h.saltMost
  least := by
    rw [length_hash hmost]
    exact hleast
  most := by
    rw [length_hash hmost]
    exact hmost

/-! ### Records -/

theorem record_eq_ok (h : record params salt password = .ok p) :
    Phc.leastHash ≤ params.length ∧ params.length ≤ Phc.mostHash ∧
      p = ⟨Variant.id.name, some Version.newer.number, costs params,
        some (Base64.encodeShort Base64.standard salt),
        some (hash ⟨.id, .newer, params, utf8 password, salt, []⟩)⟩ := by
  unfold record at h
  split at h
  · contradiction
  · split at h
    · contradiction
    · exact ⟨by omega, by omega, (Except.ok.inj h).symm⟩

/-- The text of a password's record reads back as the record. -/
theorem Usable.parse_record (hu : Usable params salt) (h : record params salt password = .ok p) :
    Phc.parse p.render = .ok p := by
  obtain ⟨hleast, hmost, rfl⟩ := record_eq_ok h
  exact (hu.fit hleast hmost).parse_render

theorem Usable.checkRecord_render (hu : Usable params salt)
    (h : record params salt password = .ok p) : checkRecord p.render = .ok () := by
  have hparse := hu.parse_record h
  obtain ⟨-, -, rfl⟩ := record_eq_ok h
  have hname : Variant.id.name.startsWith "argon2" = true := by
    rw [String.startsWith_string_iff]
    exact ⟨"id".toList, rfl⟩
  simp only [checkRecord, hparse, hname]
  rfl

/-- What a password's record says about the cost. -/
theorem Usable.recorded_eq (hu : Usable params salt) (h : record params salt password = .ok p) :
    recorded p = some ⟨{ params with length? := some params.length }, []⟩ := by
  obtain ⟨hleast, hmost, rfl⟩ := record_eq_ok h
  have hlength := length_hash (x := ⟨.id, .newer, params, utf8 password, salt, []⟩) hmost
  simp only [recorded, costs, Option.map_some, hlength, List.foldlM_cons, Recorded.set,
    Phc.decimal_toString hu.memory, Phc.decimal_toString hu.passes, Phc.decimal_toString hu.lanes]
  rfl

/-- A password's record leads back to what was hashed. -/
theorem Usable.input?_eq (hu : Usable params salt) (h : record params salt password = .ok p) :
    input? p (utf8 password) = some ⟨.id, .newer, { params with length? := some params.length },
      utf8 password, salt, []⟩ := by
  have hrecorded := hu.recorded_eq h
  obtain ⟨hleast, hmost, rfl⟩ := record_eq_ok h
  have hvariant : Variant.ofName? Variant.id.name = some .id := by decide
  have hversion : Version.ofNumber? Version.newer.number = some .newer := by decide
  have hcheck := hu.checked_sayLength (n := params.length) (Nat.le_trans (by decide) hleast)
  have hsalt : Phc.readBytes 64 (Base64.encodeShort Base64.standard salt) = .ok salt :=
    Phc.readBytes_encodeShort (Nat.le_trans hu.saltMost (by decide))
  simp only [input?, hvariant, hversion, hrecorded, Option.bind_eq_bind, Option.bind_some, hcheck,
    hsalt, Except.toOption]
  exact if_neg (Nat.not_lt.mpr hu.saltLeast)

/-- A record is of the password that it was made of, also when it has been a text in between. -/
theorem Usable.verify_render (hu : Usable params salt) (h : record params salt password = .ok p) :
    verify password p.render = true := by
  have hinput := hu.input?_eq h
  have hparse := hu.parse_record h
  obtain ⟨-, -, rfl⟩ := record_eq_ok h
  simp only [verify, hparse, isRecordOf, hinput]
  exact beq_iff_eq.mpr (hash_sayLength ⟨.id, .newer, params, utf8 password, salt, []⟩)

/-- The standard cost can be used with any salt of the length that salts are made with. -/
theorem usable_standard (h : salt.length = saltBytes) : Usable Params.standard salt where
  checked := rfl
  memory := by decide
  passes := by decide
  saltLeast := by
    rw [h]
    decide
  saltMost := by
    rw [h]
    decide

/-- At the standard cost every password has a record. -/
theorem record_standard (salt : Bytes) (password : String) :
    ∃ p, record Params.standard salt password = .ok p := ⟨_, rfl⟩

end Password

end RemoteDesk
