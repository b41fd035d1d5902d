import RemoteDesk.Proofs.Frame.Incremental
import RemoteDesk.Proofs.Json.Lengths

/-!
Frames that are written again. However a payload spells its object, the object's own frame is the
shortest way to say it: no longer than the payload, read under every limit that let the payload
through, and written the same from what is read.
-/
namespace RemoteDesk.Frame

open Json

/-- The payload spells its object. -/
theorem parse_of_object {text : Bytes} {object : Members} (h : Frame.object text = .ok object) :
    Json.parse text = .ok (.obj object) := by
  unfold Frame.object at h
  split at h
  · contradiction
  · rename_i ms hparse
    rw [hparse, Except.ok.inj h]
  · contradiction

/-- What is read from a payload without floats can be written and read again. -/
theorem plain_of_object {text : Bytes} {object : Members} (h : Frame.object text = .ok object)
    (hf : (Json.obj object).Floatless) : Plain maxDepth (.obj object) := by
  obtain ⟨r, hread⟩ := exists_of_readAll (parse_of_object h)
  exact plain_of_readValue hread hf

theorem around_of_encode {payload frame : Bytes} (h : encode payload = .ok frame) :
    frame = around payload ∧ payload.length ≤ maxDeclared := by
  unfold encode at h
  split at h
  · exact ⟨(Except.ok.inj h).symm, ‹_›⟩
  · contradiction

/-- Only a frame within the limit is read. -/
theorem length_le_of_decode {payload : Bytes} {limit n : Nat} {object : Members}
    (hm : payload.length ≤ maxDeclared) (h : decode (around payload) limit = .ok (object, n)) :
    payload.length ≤ limit := by
  rw [around, decode_of_head (length_littleEndian _ _), ofLittleEndian_head hm] at h
  split at h
  · contradiction
  · exact Nat.not_lt.mp ‹_›

/-- An object without floats that was read from a payload, written as a frame again. It has a frame
whenever the payload's own length could be declared. That frame's payload is no longer, spells the
object, and under every limit that the first payload kept to the frame gives the object back,
whatever follows it. What any decoding of the frame gives is written as the same frame. -/
theorem ofJson_object {text : Bytes} {object : Members} (h : Frame.object text = .ok object)
    (hf : (Json.obj object).Floatless) :
    (text.length ≤ maxDeclared → ∃ frame, ofJson (.obj object) = .ok frame) ∧
    ∀ frame, ofJson (.obj object) = .ok frame →
      (∃ payload, frame = around payload ∧ payload.length ≤ text.length ∧
        Frame.object payload = .ok object) ∧
      (∀ limit, text.length ≤ limit → ∀ rest,
        decode (frame ++ rest) limit = .ok (object, frame.length)) ∧
      ∀ limit again n, decode frame limit = .ok (again, n) → ofJson (.obj again) = .ok frame := by
  have hshort : (Json.obj object).render.length ≤ text.length :=
    length_render_le_of_parse (parse_of_object h) hf
  have hobject := object_render (plain_of_object h hf)
  refine ⟨fun htext => ⟨_, encode_eq_ok (Nat.le_trans hshort htext)⟩, fun frame hframe => ?_⟩
  obtain ⟨rfl, hdeclared⟩ := around_of_encode hframe
  refine ⟨⟨_, rfl, hshort, hobject⟩, fun limit hl rest => ?_, fun limit again n hagain => ?_⟩
  · exact decode_around hobject hdeclared (Nat.le_trans hshort hl) rest
  · have hdecoded := decode_around hobject hdeclared (length_le_of_decode hdeclared hagain) []
    rw [List.append_nil, hagain] at hdecoded
    obtain ⟨rfl, -⟩ := Prod.mk.inj (Except.ok.inj hdecoded)
    exact hframe

/-- Blanks, escapes of each kind, a member that a later one stands in for, and members out of
order. -/
def roundabout : Bytes :=
  utf8 " \x7b\"b\" :[1.5],\"\\u0061\\/\":\"\\ud83d\\ude00\\u000a\\u001F\" , \"b\":-12\x7d\n"

/-- The object that is left. -/
def direct : Members := [("a/", .str "😀\n\x1f"), ("b", .num (.int (-12)))]

theorem floatless_direct : (Json.obj direct).Floatless := by
  refine .obj _ fun m hm => ?_
  rcases List.mem_cons.mp hm with rfl | hm
  · exact .str _
  · obtain rfl := List.mem_singleton.mp hm
    exact .int _

theorem ofJson_object_roundabout :
    Frame.object roundabout = .ok direct ∧ (Json.obj direct).Floatless ∧
    (roundabout.length ≤ maxDeclared → ∃ frame, ofJson (.obj direct) = .ok frame) ∧
    ∀ frame, ofJson (.obj direct) = .ok frame →
      (∃ payload, frame = around payload ∧ payload.length ≤ roundabout.length ∧
        Frame.object payload = .ok direct) ∧
      (∀ limit, roundabout.length ≤ limit → ∀ rest,
        decode (frame ++ rest) limit = .ok (direct, frame.length)) ∧
      ∀ limit again n, decode frame limit = .ok (again, n) → ofJson (.obj again) = .ok frame := by
  have hobject : Frame.object roundabout = .ok direct := by rfl
  exact ⟨hobject, floatless_direct, ofJson_object hobject floatless_direct⟩

end RemoteDesk.Frame
