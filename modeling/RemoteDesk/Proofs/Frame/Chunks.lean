import RemoteDesk.Frame.Stream
import RemoteDesk.Proofs.Frame.Payloads

/-!
Frames do not depend on how their bytes arrive. A stream may deliver its bytes in pieces of any
size, cut inside a head, inside a payload or across frames; what each read of a frame gives, and
where it leaves the stream, is settled by the bytes alone. A decoder that has all bytes at once
finds the same payloads and the same errors.
-/
namespace RemoteDesk

open Json

namespace Source

/-- The stream that delivers these bytes piece by piece. -/
def ofChunks (chunks : List Bytes) : Source := chunks.map .data

/-- A read gets as many of the bytes as it wants and there are, and leaves the others. -/
theorem fill_ofChunks (want : Nat) (chunks : List Bytes) (full : ∀ c ∈ chunks, c ≠ []) :
    ∃ rest, (∀ c ∈ rest, c ≠ []) ∧ rest.flatten = chunks.flatten.drop want ∧
      (ofChunks chunks).fill want = (.ok (chunks.flatten.take want), ofChunks rest) := by
  induction chunks generalizing want with
  | nil => cases want <;> exact ⟨[], nofun, by simp, by simp [ofChunks, fill]⟩
  | cons c chunks ih =>
    obtain ⟨hc, hrest⟩ := List.forall_mem_cons.mp full
    cases want with
    | zero => exact ⟨c :: chunks, full, rfl, rfl⟩
    | succ want =>
      obtain ⟨b, bs, rfl⟩ := List.exists_cons_of_ne_nil hc
      by_cases hle : bs.length ≤ want
      · obtain ⟨rest, hfull, hflat, hfill⟩ := ih (want - bs.length) hrest
        refine ⟨rest, hfull, ?_, ?_⟩
        · rw [hflat]
          simp [List.drop_append, List.drop_eq_nil_of_le hle]
        · show fill (want + 1) (.data (b :: bs) :: ofChunks chunks) = _
          rw [fill, if_pos hle, hfill]
          simp [List.take_append, List.take_of_length_le hle, Except.map]
      · refine ⟨bs.drop want :: chunks, ?_, ?_, ?_⟩
        · refine List.forall_mem_cons.mpr ⟨?_, hrest⟩
          simpa using hle
        · have hle : want - bs.length = 0 := by omega
          simp [List.drop_append, hle]
        · show fill (want + 1) (.data (b :: bs) :: ofChunks chunks) = _
          have hle' : want - bs.length = 0 := by omega
          rw [fill, if_neg hle]
          simp [List.take_append, hle', ofChunks]

end Source

namespace Frame

/-- What is at the front of some bytes that end, and the bytes behind it: nothing, a frame, or what
is wrong with it. Of a payload that is not admitted no byte is taken. -/
def front (limit : Nat) (bytes : Bytes) : Except FramingError (Option Bytes) × Bytes :=
  if bytes = [] then (.ok none, [])
  else if bytes.length < headLength then
    (.error (.truncated .head headLength bytes.length), [])
  else
    let declared := ofLittleEndian (bytes.take headLength)
    let body := bytes.drop headLength
    if limit < declared then (.error (.oversized declared limit), body)
    else if body.length < declared then (.error (.truncated .payload declared body.length), [])
    else (.ok (some (body.take declared)), body.drop declared)

section Front

variable {limit : Nat} {bytes : Bytes}

theorem front_of_short (hne : bytes ≠ []) (hshort : bytes.length < headLength) :
    front limit bytes = (.error (.truncated .head headLength bytes.length), []) := by
  rw [front, if_neg hne, if_pos hshort]

/-- Behind a whole head, it is the payload that counts. -/
theorem front_of_head (h : headLength ≤ bytes.length) :
    front limit bytes =
      let declared := ofLittleEndian (bytes.take headLength)
      let body := bytes.drop headLength
      if limit < declared then (.error (.oversized declared limit), body)
      else if body.length < declared then
        (.error (.truncated .payload declared body.length), [])
      else (.ok (some (body.take declared)), body.drop declared) := by
  have hne : bytes ≠ [] := by
    rintro rfl
    exact absurd h (by decide)
  rw [front, if_neg hne, if_neg (Nat.not_lt.mpr h)]

/-- A decoder of bytes that are all there finds the same payload, or the same error. -/
theorem decode_eq_front (limit : Nat) (hne : bytes ≠ []) :
    (∃ e, (front limit bytes).1 = .error e ∧ decode bytes limit = .error (.framing e)) ∨
    ∃ payload, (front limit bytes).1 = .ok (some payload) ∧
      (front limit bytes).2 = bytes.drop (headLength + payload.length) ∧
      decode bytes limit = match object payload with
        | .error e => .error (.protocol e)
        | .ok ms => .ok (ms, headLength + payload.length) := by
  rcases split_cases bytes limit with
    ⟨hshort, hs⟩ | ⟨head, body, rfl, hlen, hcase⟩
  · refine .inl ⟨_, congrArg Prod.fst (front_of_short hne hshort), ?_⟩
    rw [decode, hs]
  have hhead : headLength ≤ (head ++ body).length := by
    rw [List.length_append]
    omega
  have hfront : front limit (head ++ body) = _ := front_of_head hhead
  rw [List.take_left' hlen, List.drop_left' hlen] at hfront
  dsimp only at hfront
  rcases hcase with ⟨hover, hs⟩ | ⟨hle, hpart, hs⟩ | ⟨hle, payload, rest, rfl, hp, hs⟩
  · rw [if_pos hover] at hfront
    refine .inl ⟨_, congrArg Prod.fst hfront, ?_⟩
    rw [decode, hs]
  · rw [if_neg (Nat.not_lt.mpr hle), if_pos hpart] at hfront
    refine .inl ⟨_, congrArg Prod.fst hfront, ?_⟩
    rw [decode, hs]
  · have hwhole : ¬ (payload ++ rest).length < ofLittleEndian head := by
      rw [List.length_append]
      omega
    rw [if_neg (Nat.not_lt.mpr hle), if_neg hwhole, List.take_left' hp, List.drop_left' hp]
      at hfront
    refine .inr ⟨payload, congrArg Prod.fst hfront, ?_, ?_⟩
    · rw [hfront, ← hlen, ← List.append_assoc, ← List.length_append, List.drop_left' rfl]
    · cases hobject : object payload <;> simp only [decode, hs, hobject]

end Front

/-- What so many looks at the front of some bytes find, one behind the other, and what is left. -/
def fronts (limit : Nat) : Nat → Bytes → List (Except FramingError (Option Bytes)) × Bytes
  | 0, bytes => ([], bytes)
  | count + 1, bytes =>
    let (found, bytes) := front limit bytes
    let (more, bytes) := fronts limit count bytes
    (found :: more, bytes)

theorem fronts_succ (limit count : Nat) (bytes : Bytes) :
    fronts limit (count + 1) bytes =
      ((front limit bytes).1 :: (fronts limit count (front limit bytes).2).1,
        (fronts limit count (front limit bytes).2).2) := rfl

end Frame

namespace Source

/-- What so many reads of frames give, one after the other, and the stream behind them. -/
def reads (limit : Nat) : Nat → Source → List (Except StreamError (Option Bytes)) × Source
  | 0, s => ([], s)
  | count + 1, s =>
    let (found, s) := s.readFrame limit
    let (more, s) := reads limit count s
    (found :: more, s)

section Head

variable {limit : Nat} {head : Bytes} {s behind : Source}

theorem readFrame_of_nil (h : s.fill headLength = (.ok [], behind)) :
    s.readFrame limit = (.ok none, behind) := by
  rw [readFrame, h]
  rfl

theorem readFrame_of_short (h : s.fill headLength = (.ok head, behind)) (hne : head ≠ [])
    (hshort : head.length < headLength) :
    s.readFrame limit =
      (.error (.framing (.truncated .head headLength head.length)), behind) := by
  have hsome : ¬ head.isEmpty = true := by simpa using hne
  rw [readFrame, h]
  dsimp only
  rw [if_neg hsome, if_pos hshort]

/-- Behind a whole head, the length that it declares decides. -/
theorem readFrame_of_head (limit : Nat) (h : s.fill headLength = (.ok head, behind))
    (hlen : head.length = headLength) :
    s.readFrame limit =
      if limit < ofLittleEndian head then
        (.error (.framing (.oversized (ofLittleEndian head) limit)), behind)
      else match behind.fill (ofLittleEndian head) with
        | (.error e, rest) => (.error e, rest)
        | (.ok payload, rest) =>
          if payload.length < ofLittleEndian head then
            (.error (.framing (.truncated .payload (ofLittleEndian head) payload.length)), rest)
          else (.ok (some payload), rest) := by
  have hsome : ¬ head.isEmpty = true := by
    rw [List.isEmpty_iff_length_eq_zero, hlen]
    decide
  have hwhole : ¬ head.length < headLength := by omega
  rw [readFrame, h]
  dsimp only
  rw [if_neg hsome, if_neg hwhole, Frame.declaredLength]
  by_cases hover : limit < ofLittleEndian head
  · simp only [if_pos hover]
  · rcases hfill : behind.fill (ofLittleEndian head) with ⟨e | payload, rest⟩ <;>
      simp only [if_neg hover, hfill]

end Head

/-- A read of a frame gives what is at the front of the bytes, and leaves what is behind it. -/
theorem readFrame_ofChunks (limit : Nat) (chunks : List Bytes) (full : ∀ c ∈ chunks, c ≠ []) :
    ∃ rest, (∀ c ∈ rest, c ≠ []) ∧ rest.flatten = (Frame.front limit chunks.flatten).2 ∧
      (ofChunks chunks).readFrame limit =
        ((Frame.front limit chunks.flatten).1.mapError .framing, ofChunks rest) := by
  obtain ⟨behind, hbehind, hbody, hhead⟩ := fill_ofChunks headLength chunks full
  generalize chunks.flatten = bytes at hbody hhead ⊢
  by_cases hnil : bytes = []
  · subst hnil
    exact ⟨behind, hbehind, hbody, readFrame_of_nil hhead⟩
  by_cases hshort : bytes.length < headLength
  · have hall : bytes.take headLength = bytes := List.take_of_length_le (Nat.le_of_lt hshort)
    rw [hall] at hhead
    rw [List.drop_eq_nil_of_le (Nat.le_of_lt hshort)] at hbody
    rw [Frame.front_of_short hnil hshort]
    exact ⟨behind, hbehind, hbody, readFrame_of_short hhead hnil hshort⟩
  have hlen : (bytes.take headLength).length = headLength :=
    List.length_take_of_le (Nat.not_lt.mp hshort)
  rw [Frame.front_of_head (Nat.not_lt.mp hshort), ← hbody]
  generalize bytes.take headLength = head at hhead hlen ⊢
  have hread := readFrame_of_head limit hhead hlen
  dsimp only
  by_cases hover : limit < ofLittleEndian head
  · rw [if_pos hover] at hread ⊢
    exact ⟨behind, hbehind, rfl, hread⟩
  obtain ⟨rest, hrest, hleft, hpayload⟩ :=
    fill_ofChunks (ofLittleEndian head) behind hbehind
  rw [if_neg hover, hpayload] at hread
  dsimp only at hread
  rw [if_neg hover]
  by_cases hcut : behind.flatten.length < ofLittleEndian head
  · have hall : behind.flatten.take (ofLittleEndian head) = behind.flatten :=
      List.take_of_length_le (Nat.le_of_lt hcut)
    rw [hall, if_pos hcut] at hread
    rw [List.drop_eq_nil_of_le (Nat.le_of_lt hcut)] at hleft
    rw [if_pos hcut]
    exact ⟨rest, hrest, hleft, hread⟩
  · rw [List.length_take_of_le (Nat.not_lt.mp hcut), if_neg (Nat.lt_irrefl _)] at hread
    rw [if_neg hcut]
    exact ⟨rest, hrest, hleft, hread⟩

theorem reads_succ {limit : Nat} {s rest : Source} {found : Except StreamError (Option Bytes)}
    (h : s.readFrame limit = (found, rest)) (count : Nat) :
    s.reads limit (count + 1) =
      (found :: (rest.reads limit count).1, (rest.reads limit count).2) := by
  rw [reads, h]

/-- Read after read gives what is at the front of the bytes that are left. -/
theorem reads_eq_fronts (limit count : Nat) (chunks : List Bytes)
    (full : ∀ c ∈ chunks, c ≠ []) :
    ∃ rest, (∀ c ∈ rest, c ≠ []) ∧ rest.flatten = (Frame.fronts limit count chunks.flatten).2 ∧
      (ofChunks chunks).reads limit count =
        ((Frame.fronts limit count chunks.flatten).1.map (·.mapError .framing),
          ofChunks rest) := by
  induction count generalizing chunks with
  | zero => exact ⟨chunks, full, rfl, rfl⟩
  | succ count ih =>
    obtain ⟨next, hnext, hleft, hread⟩ := readFrame_ofChunks limit chunks full
    obtain ⟨rest, hrest, hafter, hmore⟩ := ih next hnext
    rw [reads_succ hread, hmore, Frame.fronts_succ, ← hleft]
    exact ⟨rest, hrest, hafter, rfl⟩

/-- Frames do not depend on how their bytes arrive. However some bytes are cut into pieces, reading
frame after frame, also behind errors, gives at each step what is at the front of the bytes that
are left, and leaves exactly the bytes behind that. What is at the front of any bytes is also what
decoding them at once finds: the same error, or the same payload and its length with that of the
head. -/
theorem reads_ofChunks (limit count : Nat) (chunks : List Bytes) (full : ∀ c ∈ chunks, c ≠ []) :
    (∃ rest, (∀ c ∈ rest, c ≠ []) ∧ rest.flatten = (Frame.fronts limit count chunks.flatten).2 ∧
      (ofChunks chunks).reads limit count =
        ((Frame.fronts limit count chunks.flatten).1.map (·.mapError .framing),
          ofChunks rest)) ∧
    ∀ bytes, bytes ≠ [] →
      (∃ e, (Frame.front limit bytes).1 = .error e ∧
        Frame.decode bytes limit = .error (.framing e)) ∨
      ∃ payload, (Frame.front limit bytes).1 = .ok (some payload) ∧
        (Frame.front limit bytes).2 = bytes.drop (headLength + payload.length) ∧
        Frame.decode bytes limit = match Frame.object payload with
          | .error e => .error (.protocol e)
          | .ok ms => .ok (ms, headLength + payload.length) :=
  ⟨reads_eq_fronts limit count chunks full, fun _ hne => Frame.decode_eq_front limit hne⟩

/-- A frame cut inside its head and inside its payload, an empty payload, a payload that is not
admitted, and one byte. -/
def torn : List Bytes := [[2, 0], [0, 0, 123], [125, 0, 0, 0], [0, 3, 0], [0, 0, 7]]

/-- The last read begins right behind the head that declares too much. -/
theorem reads_ofChunks_torn :
    let chunks := torn
    (∀ c ∈ chunks, c ≠ []) ∧
    ((ofChunks chunks).reads 2 4).1 = [.ok (some [123, 125]), .ok (some []),
      .error (.framing (.oversized 3 2)), .error (.framing (.truncated .head 4 1))] ∧
    (∃ rest, (∀ c ∈ rest, c ≠ []) ∧ rest.flatten = (Frame.fronts 2 4 chunks.flatten).2 ∧
      (ofChunks chunks).reads 2 4 =
        ((Frame.fronts 2 4 chunks.flatten).1.map (·.mapError .framing), ofChunks rest)) ∧
    ∀ bytes, bytes ≠ [] →
      (∃ e, (Frame.front 2 bytes).1 = .error e ∧
        Frame.decode bytes 2 = .error (.framing e)) ∨
      ∃ payload, (Frame.front 2 bytes).1 = .ok (some payload) ∧
        (Frame.front 2 bytes).2 = bytes.drop (headLength + payload.length) ∧
        Frame.decode bytes 2 = match Frame.object payload with
          | .error e => .error (.protocol e)
          | .ok ms => .ok (ms, headLength + payload.length) := by
  have full : ∀ c ∈ torn, c ≠ [] := by decide
  exact ⟨full, rfl, reads_ofChunks 2 4 torn full⟩

end Source

end RemoteDesk
