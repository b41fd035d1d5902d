import RemoteDesk.Proofs.Frame.RoundTrip

/-!
The frames at the front of a byte string. Bytes come apart into whole frames that are admitted, and
a rest that begins with none: it is too short for its frame, or declares too long a payload.
-/
namespace RemoteDesk

theorem ofLittleEndian_lt (bs : Bytes) : ofLittleEndian bs < Nat.pow 256 bs.length := by
  induction bs with
  | nil => decide
  | cons b bs ih =>
    have hb : b.toNat < 256 := b.toNat_lt
    show b.toNat + 256 * ofLittleEndian bs < Nat.pow 256 bs.length * 256
    omega

theorem littleEndian_ofLittleEndian (bs : Bytes) :
    littleEndian bs.length (ofLittleEndian bs) = bs := by
  induction bs with
  | nil => rfl
  | cons b bs ih =>
    have hb : b.toNat < 256 := b.toNat_lt
    have hmod : (b.toNat + 256 * ofLittleEndian bs) % 256 = b.toNat := by omega
    have hdiv : (b.toNat + 256 * ofLittleEndian bs) / 256 = ofLittleEndian bs := by omega
    simp only [List.length_cons, ofLittleEndian, littleEndian, hmod, hdiv, ih,
      UInt8.ofNat_toNat]

namespace Frame

/-- How the front of some bytes comes apart: there is no whole head, or the head declares too
much, or the payload is not whole, or there is a frame. -/
theorem split_cases (bytes : Bytes) (limit : Nat) :
    (bytes.length < headLength ∧
      split bytes limit = .error (.truncated .head headLength bytes.length)) ∨
    ∃ head body, bytes = head ++ body ∧ head.length = headLength ∧
      ((limit < ofLittleEndian head ∧
          split bytes limit = .error (.oversized (ofLittleEndian head) limit)) ∨
        (ofLittleEndian head ≤ limit ∧ body.length < ofLittleEndian head ∧
          split bytes limit =
            .error (.truncated .payload (ofLittleEndian head) body.length)) ∨
        (ofLittleEndian head ≤ limit ∧ ∃ payload rest, body = payload ++ rest ∧
          payload.length = ofLittleEndian head ∧ split bytes limit = .ok (payload, rest))) := by
  have hsplit : bytes.splitAt headLength = (bytes.take headLength, bytes.drop headLength) :=
    List.splitAt_eq ..
  have htake : (bytes.take headLength).length = min headLength bytes.length := List.length_take
  by_cases hshort : bytes.length < headLength
  · refine .inl ⟨hshort, ?_⟩
    have hlen : (bytes.take headLength).length = bytes.length := by omega
    simp only [split, hsplit, hlen, if_pos hshort]
  have hlen : (bytes.take headLength).length = headLength := by omega
  refine .inr ⟨bytes.take headLength, bytes.drop headLength, (List.take_append_drop ..).symm, hlen,
    ?_⟩
  generalize bytes.take headLength = head at hsplit hlen ⊢
  generalize bytes.drop headLength = body at hsplit ⊢
  by_cases hover : limit < ofLittleEndian head
  · refine .inl ⟨hover, ?_⟩
    simp only [split, hsplit, hlen, Nat.lt_irrefl, if_false, declaredLength, if_pos hover, bind,
      Except.bind]
  have hbody : body.splitAt (ofLittleEndian head) =
      (body.take (ofLittleEndian head), body.drop (ofLittleEndian head)) := List.splitAt_eq ..
  have hdeclared : split bytes limit =
      if (body.take (ofLittleEndian head)).length < ofLittleEndian head then
        .error (.truncated .payload (ofLittleEndian head)
          (body.take (ofLittleEndian head)).length)
      else .ok (body.take (ofLittleEndian head), body.drop (ofLittleEndian head)) := by
    simp only [split, hsplit, hlen, Nat.lt_irrefl, if_false, declaredLength, if_neg hover, bind,
      Except.bind, hbody, pure, Except.pure]
  have hpayload : (body.take (ofLittleEndian head)).length =
      min (ofLittleEndian head) body.length := List.length_take
  by_cases hpart : body.length < ofLittleEndian head
  · have hall : (body.take (ofLittleEndian head)).length = body.length := by omega
    rw [hall, if_pos hpart] at hdeclared
    exact .inr (.inl ⟨Nat.not_lt.mp hover, hpart, hdeclared⟩)
  · rw [if_neg (by omega)] at hdeclared
    exact .inr (.inr ⟨Nat.not_lt.mp hover, _, _, (List.take_append_drop ..).symm, by omega,
      hdeclared⟩)

/-- A head is the length of the payload that it declares. -/
theorem around_eq {head payload : Bytes} (hlen : head.length = headLength)
    (hp : payload.length = ofLittleEndian head) : around payload = head ++ payload := by
  rw [around, hp, ← hlen, littleEndian_ofLittleEndian]

theorem ofLittleEndian_le {head : Bytes} (hlen : head.length = headLength) :
    ofLittleEndian head ≤ maxDeclared := by
  have hlt := ofLittleEndian_lt head
  rw [hlen] at hlt
  exact Nat.le_of_lt_succ hlt

/-- A frame comes off the front only if it stands there and is admitted. -/
theorem split_eq_ok {bytes payload rest : Bytes} {limit : Nat}
    (h : split bytes limit = .ok (payload, rest)) :
    bytes = around payload ++ rest ∧ payload.length ≤ min limit maxDeclared := by
  rcases split_cases bytes limit with
    ⟨-, he⟩ | ⟨head, body, hbytes, hlen,
      ⟨-, he⟩ | ⟨-, -, he⟩ | ⟨hle, payload', rest', hbody, hp, hok⟩⟩
  · rw [he] at h
    contradiction
  · rw [he] at h
    contradiction
  · rw [he] at h
    contradiction
  · rw [hok] at h
    obtain ⟨rfl, rfl⟩ := Prod.mk.inj (Except.ok.inj h)
    refine ⟨?_, Nat.le_min.mpr ⟨by omega, hp ▸ ofLittleEndian_le hlen⟩⟩
    rw [hbytes, hbody, around_eq hlen hp, List.append_assoc]

/-- The payloads of the frames at the front, and what is left behind them. -/
def payloads (limit : Nat) (bytes : Bytes) : List Bytes × Bytes :=
  match _h : split bytes limit with
  | .error _ => ([], bytes)
  | .ok (payload, rest) => (payload :: (payloads limit rest).1, (payloads limit rest).2)
termination_by bytes.length
decreasing_by
  all_goals
    rw [(split_eq_ok _h).1, List.length_append, length_around, headLength]
    omega

theorem payloads_of_ok {bytes payload rest : Bytes} {limit : Nat}
    (h : split bytes limit = .ok (payload, rest)) :
    payloads limit bytes = (payload :: (payloads limit rest).1, (payloads limit rest).2) := by
  rw [payloads]
  split
  · rename_i he
    rw [he] at h
    contradiction
  · rename_i he
    rw [he] at h
    obtain ⟨rfl, rfl⟩ := Prod.mk.inj (Except.ok.inj h)
    rfl

theorem payloads_of_error {bytes : Bytes} {limit : Nat} {e : FramingError}
    (h : split bytes limit = .error e) : payloads limit bytes = ([], bytes) := by
  rw [payloads]
  split
  · rfl
  · rename_i he
    rw [he] at h
    contradiction

/-- Bytes come apart into frames that are admitted and a rest that begins with none. -/
theorem payloads_spec (limit : Nat) (bytes : Bytes) :
    bytes = (payloads limit bytes).1.flatMap around ++ (payloads limit bytes).2 ∧
      (∀ payload ∈ (payloads limit bytes).1, payload.length ≤ min limit maxDeclared) ∧
      ∃ e, split (payloads limit bytes).2 limit = .error e := by
  induction bytes using payloads.induct limit with
  | case1 bytes e h =>
    rw [payloads_of_error h]
    exact ⟨rfl, nofun, e, h⟩
  | case2 bytes payload rest h ih =>
    obtain ⟨hbytes, hlen⟩ := split_eq_ok h
    obtain ⟨hrest, hall, hstop⟩ := ih
    rw [payloads_of_ok h]
    refine ⟨?_, ?_, hstop⟩
    · rw [List.flatMap_cons, List.append_assoc, ← hrest]
      exact hbytes
    · intro p hp
      rcases List.mem_cons.mp hp with rfl | hp
      · exact hlen
      · exact hall p hp

end Frame

end RemoteDesk
