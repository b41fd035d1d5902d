import Mathlib.Algebra.GroupWithZero.Nat
import RemoteDesk.Frame.Basic
import RemoteDesk.Proofs.Json.RoundTrip

/-!
Frames in a row. A frame in front of other bytes comes apart again into its payload and those
bytes, so that a stream of frames decodes frame by frame: the objects that were encoded come back
in their order, and the cursor ends where the bytes do.
-/
namespace RemoteDesk.Frame

open Json

/-- The bytes of a frame. -/
def around (payload : Bytes) : Bytes := littleEndian headLength payload.length ++ payload

@[simp] theorem length_around (payload : Bytes) :
    (around payload).length = headLength + payload.length := by
  simp [around]

theorem around_ne_nil (payload : Bytes) : around payload ≠ [] := by
  intro h
  have := congrArg List.length h
  simp [headLength] at this

theorem ofLittleEndian_head {payload : Bytes} (h : payload.length ≤ maxDeclared) :
    ofLittleEndian (littleEndian headLength payload.length) = payload.length :=
  ofLittleEndian_littleEndian _ _ (Nat.lt_of_le_of_lt h (by decide))

/-- A frame that is admitted comes off the front of the bytes, and nothing else does. -/
theorem split_around {payload : Bytes} {limit : Nat} (hm : payload.length ≤ maxDeclared)
    (hl : payload.length ≤ limit) (rest : Bytes) :
    split (around payload ++ rest) limit = .ok (payload, rest) := by
  have hlen : (littleEndian headLength payload.length).length = headLength :=
    length_littleEndian _ _
  have hhead : (around payload ++ rest).splitAt headLength =
      (littleEndian headLength payload.length, payload ++ rest) := by
    rw [List.splitAt_eq, around, List.append_assoc, List.take_left' hlen, List.drop_left' hlen]
  have hbody : (payload ++ rest).splitAt payload.length = (payload, rest) := by
    rw [List.splitAt_eq, List.take_left' rfl, List.drop_left' rfl]
  have hdeclared : declaredLength (littleEndian headLength payload.length) limit =
      .ok payload.length := by
    rw [declaredLength, ofLittleEndian_head hm]
    exact if_neg (Nat.not_lt.mpr hl)
  simp only [split, hhead, hlen, Nat.lt_irrefl, if_false, hdeclared, bind, Except.bind, hbody,
    pure, Except.pure]

/-- A frame decodes to the object that its payload spells and its own length, whatever follows. -/
theorem decode_around {payload : Bytes} {object : Members} {limit : Nat}
    (ho : Frame.object payload = .ok object) (hm : payload.length ≤ maxDeclared)
    (hl : payload.length ≤ limit) (rest : Bytes) :
    decode (around payload ++ rest) limit = .ok (object, (around payload).length) := by
  rw [decode, split_around hm hl]
  simp only [ho, length_around]

theorem object_render {object : Members} (hp : Plain maxDepth (.obj object)) :
    Frame.object (Json.obj object).render = .ok object := by
  rw [Frame.object, parse_render hp]

/-- One frame more at the front. -/
theorem decodeAll_of_decode {bytes : Bytes} {limit n : Nat} {object : Members}
    (hne : bytes ≠ []) (h : decode bytes limit = .ok (object, n)) :
    decodeAll bytes limit =
      { decodeAll (bytes.drop n) limit with
        frames := (object, n) :: (decodeAll (bytes.drop n) limit).frames } := by
  rw [decodeAll, if_neg hne]
  split
  · rename_i he
    rw [he] at h
    contradiction
  · rename_i ms k he
    rw [he] at h
    obtain ⟨rfl, rfl⟩ := Prod.mk.inj (Except.ok.inj h)
    rfl

theorem decodeAll_nil (limit : Nat) : decodeAll [] limit = ⟨[], none⟩ := by
  rw [decodeAll, if_pos rfl]

theorem decodeAll_flatMap (limit : Nat) (objects : List Members)
    (hp : ∀ o ∈ objects, Plain maxDepth (.obj o))
    (hl : ∀ o ∈ objects, (Json.obj o).render.length ≤ min limit maxDeclared) :
    decodeAll (objects.flatMap fun o => around (Json.obj o).render) limit =
      ⟨objects.map fun o => (o, (around (Json.obj o).render).length), none⟩ := by
  induction objects with
  | nil => exact decodeAll_nil limit
  | cons o objects ih =>
    have ho := Nat.le_min.mp (hl o List.mem_cons_self)
    have hd := decode_around (object_render (hp o List.mem_cons_self)) ho.2 ho.1
      (objects.flatMap fun o => around (Json.obj o).render)
    have hne : around (Json.obj o).render ++ (objects.flatMap fun o => around (Json.obj o).render)
        ≠ [] := List.append_ne_nil_of_left_ne_nil (around_ne_nil _) _
    rw [List.flatMap_cons, decodeAll_of_decode hne hd, List.drop_left' rfl,
      ih (fun o h => hp o (List.mem_cons_of_mem _ h)) (fun o h => hl o (List.mem_cons_of_mem _ h))]
    rfl

theorem foldl_add_snd (frames : List (Members × Nat)) (n : Nat) :
    frames.foldl (fun n f => n + f.2) n = n + (frames.map (·.2)).sum := by
  induction frames generalizing n with
  | nil => rfl
  | cons f frames ih =>
    rw [List.foldl_cons, ih, List.map_cons, List.sum_cons]
    omega

/-- Decoding undoes encoding over whole streams: objects without floats, each with a text within
the limits, all have frames; from the frames in a row exactly these objects are decoded, each with
the length of its own frame, without an error and up to the last byte. -/
theorem decodeAll_ofJson (limit : Nat) (objects : List Members)
    (hp : ∀ o ∈ objects, Plain maxDepth (.obj o))
    (hl : ∀ o ∈ objects, (Json.obj o).render.length ≤ min limit maxDeclared) :
    ∃ frames : List Bytes,
      objects.map (fun o => ofJson (.obj o)) = frames.map .ok ∧
      decodeAll frames.flatten limit = ⟨objects.zip (frames.map List.length), none⟩ ∧
      (decodeAll frames.flatten limit).cursor = frames.flatten.length := by
  refine ⟨objects.map fun o => around (Json.obj o).render, ?_, ?_, ?_⟩
  · rw [List.map_map]
    apply List.map_congr_left
    intro o ho
    exact encode_eq_ok (Nat.le_min.mp (hl o ho)).2
  · rw [← List.flatMap_def, decodeAll_flatMap limit objects hp hl, List.map_map]
    conv => rhs; rw [← List.map_id objects, List.map_map, List.zip_map']
    rfl
  · rw [← List.flatMap_def, decodeAll_flatMap limit objects hp hl, Stream.cursor, foldl_add_snd]
    simp [List.length_flatMap, Function.comp_def]

/-- An object with an empty key, a key that needs every kind of escape, and both ends of the
integers. -/
def awkward : Members :=
  [("", .null), ("é\"\n\x01", .arr [.num (.int (-9223372036854775808)),
    .num (.int 18446744073709551615), .obj []])]

theorem plain_awkward : Plain maxDepth (.obj awkward) := by
  refine .obj _ _ (by unfold Members.Ordered; decide) ?_
  intro m hm
  rcases List.mem_cons.mp hm with rfl | hm
  · exact .null _
  · obtain rfl := List.mem_singleton.mp hm
    refine .arr _ _ ?_
    intro v hv
    rcases List.mem_cons.mp hv with rfl | hv
    · exact .int _ _ (by decide) (by decide)
    rcases List.mem_cons.mp hv with rfl | hv
    · exact .int _ _ (by decide) (by decide)
    · obtain rfl := List.mem_singleton.mp hv
      exact .obj _ _ .nil nofun

/-- The bound is the length of the awkward object itself. -/
theorem decodeAll_ofJson_awkward :
    (∀ o ∈ [awkward, []], Plain maxDepth (.obj o)) ∧
    (∀ o ∈ [awkward, []], (Json.obj o).render.length ≤ min 71 maxDeclared) ∧
    ∃ frames : List Bytes,
      [awkward, []].map (fun o => ofJson (.obj o)) = frames.map .ok ∧
      decodeAll frames.flatten 71 = ⟨[awkward, []].zip (frames.map List.length), none⟩ ∧
      (decodeAll frames.flatten 71).cursor = frames.flatten.length := by
  have hp : ∀ o ∈ [awkward, []], Plain maxDepth (.obj o) := by
    intro o ho
    rcases List.mem_cons.mp ho with rfl | ho
    · exact plain_awkward
    · obtain rfl := List.mem_singleton.mp ho
      exact .obj _ _ .nil nofun
  have hl : ∀ o ∈ [awkward, []], (Json.obj o).render.length ≤ min 71 maxDeclared := by decide
  exact ⟨hp, hl, decodeAll_ofJson 71 [awkward, []] hp hl⟩

end RemoteDesk.Frame
