import RemoteDesk.Proofs.Frame.Payloads
import RemoteDesk.Proofs.Json.Reading

/-!
Decoding bytes that are still coming in. As long as the first frame is not whole, the decoder tells
how much of it is there; once it tells anything else, no bytes behind the frame change that. A loop
that decodes at a cursor comes to its end whatever the bytes are, since every frame that it decodes
has a head and the two braces of an object.
-/
namespace RemoteDesk

/-- The bytes end before the frame does. -/
def DecodeError.IsTruncated (e : DecodeError) : Prop :=
  ∃ part expected received, e = .framing (.truncated part expected received)

/-! ### Short payloads -/

/-- An object that is read has a brace to begin with and another one behind it. -/
theorem Json.two_le_of_readValue {limit depth : Nat} {bs r : Bytes} {ms : Members}
    (h : readValue limit depth bs = .ok (.obj ms, r)) : 2 ≤ bs.length := by
  have hle : (skipBlank bs).length ≤ bs.length := (List.dropWhile_sublist _).length_le
  unfold readValue at h
  split at h
  · contradiction
  · obtain ⟨_, -, h⟩ := bind_eq_ok h
    exact absurd (value_eq h) (by simp)
  · obtain ⟨_, -, h⟩ := bind_eq_ok h
    exact absurd (value_eq h) (by simp)
  · obtain ⟨_, -, h⟩ := bind_eq_ok h
    exact absurd (value_eq h) (by simp)
  · obtain ⟨_, -, h⟩ := bind_eq_ok h
    exact absurd (value_eq h) (by simp)
  · cases depth with
    | zero => contradiction
    | succ depth =>
      obtain ⟨_, -, h⟩ := bind_eq_ok h
      exact absurd (value_eq h) (by simp)
  · rename_i body hbody
    cases depth with
    | zero => contradiction
    | succ depth =>
      obtain ⟨⟨members, r⟩, hread, -⟩ := bind_eq_ok h
      cases body with
      | nil => contradiction
      | cons b body =>
        rw [hbody, List.length_cons, List.length_cons] at hle
        omega
  · obtain ⟨_, -, h⟩ := bind_eq_ok h
    exact absurd (value_eq h) (by simp)
  · split at h
    · obtain ⟨_, -, h⟩ := bind_eq_ok h
      exact absurd (value_eq h) (by simp)
    · contradiction

namespace Frame

theorem two_le_of_object {payload : Bytes} {ms : Json.Members}
    (h : object payload = .ok ms) : 2 ≤ payload.length := by
  unfold object at h
  split at h
  · contradiction
  · rename_i hparse
    obtain ⟨r, hread⟩ := Json.exists_of_readAll hparse
    exact Json.two_le_of_readValue hread
  · contradiction

/-! ### The first frame -/

section First

variable {limit n : Nat} {bytes head body : Bytes} {ms : Json.Members}

theorem decode_of_short (h : bytes.length < headLength) :
    decode bytes limit = .error (.framing (.truncated .head headLength bytes.length)) := by
  rcases split_cases bytes limit with ⟨-, hs⟩ | ⟨head, body, rfl, hlen, -⟩
  · rw [decode, hs]
  · rw [List.length_append] at h
    omega

/-- What a payload that is whole decodes to. -/
def ofPayload (payload : Bytes) : Except DecodeError (Json.Members × Nat) :=
  match object payload with
  | .error e => .error (.protocol e)
  | .ok ms => .ok (ms, headLength + payload.length)

/-- Behind a whole head it matters only what it declares and how much of that is there. -/
theorem decode_of_head (hlen : head.length = headLength) :
    decode (head ++ body) limit =
      if limit < ofLittleEndian head then
        .error (.framing (.oversized (ofLittleEndian head) limit))
      else if body.length < ofLittleEndian head then
        .error (.framing (.truncated .payload (ofLittleEndian head) body.length))
      else ofPayload (body.take (ofLittleEndian head)) := by
  have hshort : headLength ≤ (head ++ body).length := by
    rw [List.length_append]
    omega
  rcases split_cases (head ++ body) limit with ⟨hs, -⟩ | ⟨head', body', heq, hlen', hcase⟩
  · omega
  obtain ⟨rfl, rfl⟩ := List.append_inj heq (hlen.trans hlen'.symm)
  rcases hcase with ⟨hover, hs⟩ | ⟨hle, hpart, hs⟩ | ⟨hle, payload, rest, rfl, hp, hs⟩
  · rw [decode, hs, if_pos hover]
  · rw [decode, hs, if_neg (Nat.not_lt.mpr hle), if_pos hpart]
  · have hwhole : ¬ (payload ++ rest).length < ofLittleEndian head := by
      rw [List.length_append]
      omega
    rw [decode, hs, if_neg (Nat.not_lt.mpr hle), if_neg hwhole, List.take_left' hp]
    rfl

theorem exists_head (h : headLength ≤ bytes.length) :
    ∃ head body, bytes = head ++ body ∧ head.length = headLength :=
  ⟨bytes.take headLength, bytes.drop headLength, (List.take_append_drop ..).symm,
    List.length_take_of_le h⟩

/-- What is decided is decided by the bytes up to there. -/
theorem decode_append (h : ∀ e, decode bytes limit = .error e → ¬ e.IsTruncated) (more : Bytes) :
    decode (bytes ++ more) limit = decode bytes limit := by
  by_cases hshort : bytes.length < headLength
  · exact absurd ⟨_, _, _, rfl⟩ (h _ (decode_of_short hshort))
  obtain ⟨head, body, rfl, hlen⟩ := exists_head (Nat.not_lt.mp hshort)
  rw [List.append_assoc, decode_of_head hlen, decode_of_head hlen]
  by_cases hover : limit < ofLittleEndian head
  · rw [if_pos hover, if_pos hover]
  by_cases hpart : body.length < ofLittleEndian head
  · have hd : decode (head ++ body) limit = _ := decode_of_head hlen
    rw [if_neg hover, if_pos hpart] at hd
    exact absurd ⟨_, _, _, rfl⟩ (h _ hd)
  · have hmore : ¬ (body ++ more).length < ofLittleEndian head := by
      rw [List.length_append]
      omega
    rw [if_neg hover, if_neg hover, if_neg hpart, if_neg hmore,
      List.take_append_of_le_length (Nat.not_lt.mp hpart)]

/-- A frame that decodes is a head and the payload that it declares. -/
theorem exists_frame (h : decode bytes limit = .ok (ms, n)) :
    ∃ head payload rest, bytes = head ++ (payload ++ rest) ∧ head.length = headLength ∧
      payload.length = ofLittleEndian head ∧ ofLittleEndian head ≤ limit ∧
      object payload = .ok ms ∧ n = headLength + payload.length := by
  by_cases hshort : bytes.length < headLength
  · rw [decode_of_short hshort] at h
    contradiction
  obtain ⟨head, body, rfl, hlen⟩ := exists_head (Nat.not_lt.mp hshort)
  rw [decode_of_head hlen] at h
  split at h
  · contradiction
  split at h
  · contradiction
  rename_i hover hpart
  unfold ofPayload at h
  split at h
  · contradiction
  · rename_i hobject
    obtain ⟨rfl, rfl⟩ := Prod.mk.inj (Except.ok.inj h)
    exact ⟨head, body.take _, body.drop _, by rw [List.take_append_drop], hlen,
      List.length_take_of_le (Nat.not_lt.mp hpart), Nat.not_lt.mp hover, hobject, rfl⟩

/-- What is missing of a frame of some size when only so many of its bytes have been received. -/
def missing (size received : Nat) : FramingError :=
  if received < headLength then .truncated .head headLength received
  else .truncated .payload (size - headLength) (received - headLength)

/-- A frame takes six bytes or more, and none behind them. -/
theorem decode_bounds (h : decode bytes limit = .ok (ms, n)) : 6 ≤ n ∧ n ≤ bytes.length := by
  obtain ⟨head, payload, rest, rfl, hlen, -, -, hobject, rfl⟩ := exists_frame h
  have htwo := two_le_of_object hobject
  simp only [List.length_append]
  simp only [headLength] at hlen ⊢
  omega

/-- The bytes of a frame decode without those behind them. -/
theorem decode_take (h : decode bytes limit = .ok (ms, n)) :
    decode (bytes.take n) limit = .ok (ms, n) := by
  obtain ⟨head, payload, rest, rfl, hlen, hp, hle, hobject, rfl⟩ := exists_frame h
  have htake : (head ++ (payload ++ rest)).take (headLength + payload.length) =
      head ++ payload := by
    rw [← List.append_assoc]
    exact List.take_left' (by rw [List.length_append, hlen])
  rw [htake, decode_of_head hlen, if_neg (Nat.not_lt.mpr hle), if_neg (by omega),
    List.take_of_length_le (Nat.le_of_eq hp), ofPayload, hobject]

/-- Fewer bytes than the frame has are told apart by what is missing. -/
theorem decode_of_prefix (h : decode bytes limit = .ok (ms, n)) {part : Bytes}
    (hbegins : part <+: bytes) (hshort : part.length < n) :
    decode part limit = .error (.framing (missing n part.length)) := by
  by_cases hhead : part.length < headLength
  · rw [decode_of_short hhead, missing, if_pos hhead]
  obtain ⟨head, payload, rest, rfl, hlen, hp, hle, hobject, rfl⟩ := exists_frame h
  obtain ⟨head', body, rfl, hlen'⟩ := exists_head (Nat.not_lt.mp hhead)
  obtain ⟨unread, hunread⟩ := hbegins
  rw [List.append_assoc] at hunread
  obtain ⟨rfl, -⟩ := List.append_inj hunread (hlen'.trans hlen.symm)
  rw [List.length_append] at hshort hhead
  rw [decode_of_head hlen, if_neg (Nat.not_lt.mpr hle), if_pos (by omega), missing,
    List.length_append, if_neg hhead, hlen, Nat.add_sub_cancel_left, Nat.add_sub_cancel_left, hp]

end First

/-! ### The loop -/

theorem decodeAll_of_error {bytes : Bytes} {limit : Nat} {e : DecodeError} (hne : bytes ≠ [])
    (h : decode bytes limit = .error e) : decodeAll bytes limit = ⟨[], some e⟩ := by
  rw [decodeAll, if_neg hne]
  split
  · rename_i he
    rw [he] at h
    rw [Except.error.inj h]
  · rename_i he
    rw [he] at h
    contradiction

/-- A loop that decodes frame after frame: the number of bytes behind it, the frames with their
sizes, and the error that it met. -/
structure Loop where
  cursor : Nat
  frames : List (Json.Members × Nat)
  error? : Option DecodeError

namespace Loop

def start : Loop := ⟨0, [], none⟩

/-- One turn of the loop, unless it has come to its end. -/
def turn (bytes : Bytes) (limit : Nat) (l : Loop) : Option Loop :=
  if l.error?.isSome ∨ bytes.length ≤ l.cursor then none
  else match decode (bytes.drop l.cursor) limit with
    | .error e => some { l with error? := some e }
    | .ok (ms, n) => some ⟨l.cursor + n, l.frames ++ [(ms, n)], none⟩

/-- The loop after at most so many turns. -/
def run (bytes : Bytes) (limit : Nat) : Nat → Loop → Loop
  | 0, l => l
  | count + 1, l =>
    match l.turn bytes limit with
    | none => l
    | some l => run bytes limit count l

/-- What the loop has still to decode, as decoding frame after frame finds it. -/
def ahead (bytes : Bytes) (limit : Nat) (l : Loop) : Stream :=
  match l.error? with
  | some e => ⟨[], some e⟩
  | none => decodeAll (bytes.drop l.cursor) limit

/-- What holds of the loop at every turn. -/
structure Sound (bytes : Bytes) (limit : Nat) (l : Loop) : Prop where
  cursor : l.cursor = (l.frames.map (·.2)).sum
  within : l.cursor ≤ bytes.length
  few : 6 * l.frames.length ≤ l.cursor
  /-- What it has decoded comes before what is ahead of it. -/
  all : decodeAll bytes limit =
    ⟨l.frames ++ (l.ahead bytes limit).frames, (l.ahead bytes limit).error?⟩

variable {bytes : Bytes} {limit : Nat} {l m : Loop}

theorem sound_start : Sound bytes limit start where
  cursor := rfl
  within := Nat.zero_le _
  few := Nat.le_refl _
  all := rfl

theorem turn_cases (h : l.turn bytes limit = some m) :
    l.error? = none ∧ bytes.drop l.cursor ≠ [] ∧
      ((∃ e, decode (bytes.drop l.cursor) limit = .error e ∧
          m = ⟨l.cursor, l.frames, some e⟩) ∨
        ∃ ms n, decode (bytes.drop l.cursor) limit = .ok (ms, n) ∧
          m = ⟨l.cursor + n, l.frames ++ [(ms, n)], none⟩) := by
  unfold turn at h
  split at h
  · contradiction
  rename_i hgo
  obtain ⟨herror, hleft⟩ := not_or.mp hgo
  refine ⟨by simpa using herror, by simpa using hleft, ?_⟩
  split at h
  · exact .inl ⟨_, ‹_›, (Option.some.inj h).symm⟩
  · exact .inr ⟨_, _, ‹_›, (Option.some.inj h).symm⟩

/-- A turn takes from what is ahead what it adds to the frames. -/
theorem ahead_of_turn (h : l.turn bytes limit = some m) : ∃ new, m.frames = l.frames ++ new ∧
    l.ahead bytes limit = ⟨new ++ (m.ahead bytes limit).frames, (m.ahead bytes limit).error?⟩ := by
  obtain ⟨herror, hne, hcase⟩ := turn_cases h
  have hahead : l.ahead bytes limit = decodeAll (bytes.drop l.cursor) limit := by
    rw [ahead, herror]
  rcases hcase with ⟨e, hd, rfl⟩ | ⟨ms, n, hd, rfl⟩
  · refine ⟨[], (List.append_nil _).symm, ?_⟩
    rw [hahead, decodeAll_of_error hne hd]
    rfl
  · refine ⟨[(ms, n)], rfl, ?_⟩
    rw [hahead, decodeAll_of_decode hne hd, List.drop_drop]
    rfl

theorem Sound.turn (s : Sound bytes limit l) (h : l.turn bytes limit = some m) :
    Sound bytes limit m := by
  have hall : decodeAll bytes limit =
      ⟨m.frames ++ (m.ahead bytes limit).frames, (m.ahead bytes limit).error?⟩ := by
    obtain ⟨new, hframes, hahead⟩ := ahead_of_turn h
    rw [s.all, hahead, hframes, List.append_assoc]
  obtain ⟨-, -, ⟨e, -, rfl⟩ | ⟨ms, n, hd, rfl⟩⟩ := turn_cases h
  · exact ⟨s.cursor, s.within, s.few, hall⟩
  · obtain ⟨hsix, hwithin⟩ := decode_bounds hd
    have hfew := s.few
    rw [List.length_drop] at hwithin
    refine ⟨?_, ?_, ?_, hall⟩
    · simp [s.cursor]
    · show l.cursor + n ≤ bytes.length
      omega
    · rw [List.length_append, List.length_singleton]
      show 6 * (l.frames.length + 1) ≤ l.cursor + n
      omega

theorem run_of_end (h : l.turn bytes limit = none) (count : Nat) : run bytes limit count l = l := by
  cases count with
  | zero => rfl
  | succ count => rw [run, h]

theorem run_of_turn (h : l.turn bytes limit = some m) (count : Nat) :
    run bytes limit (count + 1) l = run bytes limit count m := by
  rw [run, h]

theorem Sound.run (s : Sound bytes limit l) (count : Nat) :
    Sound bytes limit (run bytes limit count l) := by
  induction count generalizing l with
  | zero => exact s
  | succ count ih =>
    cases h : l.turn bytes limit with
    | none =>
      rw [run_of_end h]
      exact s
    | some m =>
      rw [run_of_turn h]
      exact ih (s.turn h)

/-- Every turn takes six bytes, or is the last one. -/
theorem Sound.ends (s : Sound bytes limit l) {count : Nat}
    (h : bytes.length < 6 * (l.frames.length + count)) :
    (Loop.run bytes limit count l).turn bytes limit = none := by
  induction count generalizing l with
  | zero =>
    have hfew := s.few
    have hwithin := s.within
    omega
  | succ count ih =>
    cases hturn : l.turn bytes limit with
    | none => rw [run_of_end hturn, hturn]
    | some m =>
      rw [run_of_turn hturn]
      obtain ⟨-, -, ⟨e, -, rfl⟩ | ⟨ms, n, -, rfl⟩⟩ := turn_cases hturn
      · have hend : Loop.turn bytes limit ⟨l.cursor, l.frames, some e⟩ = none :=
          if_pos (Or.inl rfl)
        rw [run_of_end hend, hend]
      · refine ih (s.turn hturn) ?_
        rw [List.length_append, List.length_singleton]
        omega

/-- At its end the loop has nothing ahead. -/
theorem ahead_of_end (h : l.turn bytes limit = none) : l.ahead bytes limit = ⟨[], l.error?⟩ := by
  cases herror : l.error? with
  | some e => rw [ahead, herror]
  | none =>
    unfold Loop.turn at h
    split at h
    · rename_i hend
      have hleft : bytes.length ≤ l.cursor := hend.resolve_left (by simp [herror])
      rw [ahead, herror]
      dsimp only
      rw [List.drop_eq_nil_of_le hleft, decodeAll_nil]
    · split at h <;> contradiction

theorem Sound.decodeAll_eq (s : Sound bytes limit l) (h : l.turn bytes limit = none) :
    decodeAll bytes limit = ⟨l.frames, l.error?⟩ := by
  rw [s.all, ahead_of_end h, List.append_nil]

end Loop

/-- Bytes can be decoded as they come in. Whatever is told but that they are too few stays so
whatever follows. A frame has six bytes or more; they decode without those behind them, and of any
fewer it is told exactly what is missing. So a loop that decodes at a cursor never leaves the bytes
and is always as far as its frames are long; it ends after at most a sixth of the bytes in frames,
with all that there is to decode. -/
theorem decode_incremental (bytes : Bytes) (limit : Nat) :
    ((∀ e, decode bytes limit = .error e → ¬ e.IsTruncated) →
      ∀ more, decode (bytes ++ more) limit = decode bytes limit) ∧
    (∀ ms n, decode bytes limit = .ok (ms, n) →
      6 ≤ n ∧ n ≤ bytes.length ∧ decode (bytes.take n) limit = .ok (ms, n) ∧
      ∀ part, part <+: bytes → part.length < n →
        decode part limit = .error (.framing (missing n part.length))) ∧
    ∀ count, let l := Loop.run bytes limit count .start
      l.cursor = (l.frames.map (·.2)).sum ∧ l.cursor ≤ bytes.length ∧
      l.frames.length ≤ bytes.length / 6 ∧
      (bytes.length / 6 < count → l.turn bytes limit = none ∧
        decodeAll bytes limit = ⟨l.frames, l.error?⟩ ∧
        (decodeAll bytes limit).cursor = l.cursor) := by
  refine ⟨decode_append, fun ms n h => ?_, fun count => ?_⟩
  · obtain ⟨hsix, hwithin⟩ := decode_bounds h
    exact ⟨hsix, hwithin, decode_take h, fun part hbegins => decode_of_prefix h hbegins⟩
  · intro l
    have s : Loop.Sound bytes limit l := Loop.sound_start.run count
    have hwithin := s.within
    have hfew := s.few
    refine ⟨s.cursor, hwithin, by omega, fun hcount => ?_⟩
    have hend : l.turn bytes limit = none := by
      refine Loop.sound_start.ends ?_
      show bytes.length < 6 * (0 + count)
      omega
    have hall := s.decodeAll_eq hend
    refine ⟨hend, hall, ?_⟩
    rw [hall, Stream.cursor, foldl_add_snd, Nat.zero_add, s.cursor]

/-- Two frames, and a third one without its last byte. -/
def twoAndMore : Bytes := [2, 0, 0, 0, 123, 125, 2, 0, 0, 0, 123, 125, 2, 0, 0, 0, 123]

theorem decode_incremental_twoAndMore :
    decode twoAndMore 2 = .ok ([], 6) ∧
    decode (twoAndMore ++ [125]) 2 = decode twoAndMore 2 ∧
    decode [2, 0, 0] 2 = .error (.framing (.truncated .head 4 3)) ∧
    decode [2, 0, 0, 0, 123] 2 = .error (.framing (.truncated .payload 2 1)) ∧
    decodeAll twoAndMore 2 =
      ⟨[([], 6), ([], 6)], some (.framing (.truncated .payload 2 1))⟩ := by
  have hd : decode twoAndMore 2 = .ok ([], 6) := rfl
  obtain ⟨hmore, hframe, hloop⟩ := decode_incremental twoAndMore 2
  obtain ⟨-, -, -, hpart⟩ := hframe [] 6 hd
  have hdecided : ∀ e, decode twoAndMore 2 = .error e → ¬ e.IsTruncated := by
    rw [hd]
    nofun
  refine ⟨hd, hmore hdecided [125], hpart _ ⟨_, rfl⟩ (by decide), hpart _ ⟨_, rfl⟩ (by decide), ?_⟩
  exact ((hloop 3).2.2.2 (by decide)).2.1

end Frame

end RemoteDesk
