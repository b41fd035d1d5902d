import RemoteDesk.Response
import RemoteDesk.Proofs.Frame.RoundTrip
import RemoteDesk.Proofs.Json.Fields
import RemoteDesk.Proofs.Json.Slots

/-!
Responses on the wire. A response is written as the members that are set, and is read back from
them as itself, whether through a frame and the object in it or straight from its text. Whatever
text a response was read from, the text that it is written as spells the same response.
-/
namespace RemoteDesk.Response

open Json

variable {r : Response}

/-! ### Written members -/

/-- What is written under each name. -/
def table (r : Response) : List (String × Option Json) :=
  [("command_id", r.commandId?.map .str), ("status", some (.str r.status.name)),
    ("data", r.data?.map .obj), ("error", r.error?.map .str),
    ("error_code", r.errorCode?.map .str), ("timestamp", some (.str r.timestamp))]

theorem members_eq (r : Response) : r.members = Members.ofTable r.table := by
  obtain ⟨_ | commandId, status, _ | data, _ | error, _ | errorCode, timestamp⟩ := r <;> rfl

theorem nodup_table (r : Response) : (r.table.map (·.1)).Nodup := by
  have hdistinct :
      ["command_id", "status", "data", "error", "error_code", "timestamp"].Nodup := by decide
  exact hdistinct

theorem nodup_members (r : Response) : (r.members.map (·.1)).Nodup := by
  rw [members_eq]
  exact (Members.names_ofTable r.table).nodup r.nodup_table

theorem mem_members {name : String} {v : Json} (h : (r.table.lookup name).join = some v) :
    (name, v) ∈ r.members := by
  rw [members_eq]
  exact Members.mem_of_get? ((Members.get?_ofTable r.nodup_table name).trans h)

/-- The object that a response is written as. -/
def written (r : Response) : Members := .ofList r.members

theorem get?_written (r : Response) (name : String) :
    r.written.get? name = (r.table.lookup name).join := by
  rw [written, members_eq, Members.get?_ofList_ofTable r.nodup_table]

/-! ### Read from the object -/

/-- A response is read back from the object that it is written as. -/
theorem ofJson_written (r : Response) : ofJson (.obj r.written) = .ok r := by
  have htext : ∀ s, asOption asString (.str s) = .ok (some s) := fun _ => rfl
  have hcommandId : (Field.withDefault "command_id" (asOption asString) none).of r.written =
      .ok r.commandId? := Field.option_eq_ok htext (r.get?_written _)
  have hstatus : (Field.needed "status" (asChoice Status.choices)).of r.written =
      .ok r.status := by
    refine Field.needed_eq_ok_iff.mpr ⟨_, r.get?_written _, ?_⟩
    cases r.status <;> rfl
  have hdata : (Field.withDefault "data" (asOption asMembers) none).of r.written =
      .ok r.data? := Field.option_eq_ok (fun _ => rfl) (r.get?_written _)
  have herror : (Field.withDefault "error" (asOption asString) none).of r.written =
      .ok r.error? := Field.option_eq_ok htext (r.get?_written _)
  have herrorCode : (Field.withDefault "error_code" (asOption asString) none).of r.written =
      .ok r.errorCode? := Field.option_eq_ok htext (r.get?_written _)
  have htimestamp : (Field.withDefault "timestamp" asString "").of r.written =
      .ok r.timestamp :=
    Field.withDefault_eq_ok_iff.mpr (.inl ⟨_, r.get?_written _, rfl⟩)
  have hordered : r.written.Ordered := Members.ordered_ofList r.members
  unfold ofJson
  refine (record_obj (hordered.checkFields_eq_ok ?_)).trans ?_
  · simp [Field.test_of hcommandId, Field.test_of hstatus, Field.test_of hdata,
      Field.test_of herror, Field.test_of herrorCode, Field.test_of htimestamp]
  · simp only [hcommandId, hstatus, hdata, herror, herrorCode, htimestamp]
    rfl

/-! ### Read from the text -/

/-- The fields of a response in text, with readers for what lies `depth` levels deep at most. -/
def slots (limit depth : Nat) : List (Slot Response) :=
  let text := readText "a string"
  [.free "command_id" (readOption text) fun commandId? r => { r with commandId? },
    .of "status" (readChoice Status.choices depth) fun status r => { r with status },
    .free "data" (readOption (readMap limit depth)) fun data? r => { r with data? },
    .free "error" (readOption text) fun error? r => { r with error? },
    .free "error_code" (readOption text) fun errorCode? r => { r with errorCode? },
    .free "timestamp" text fun timestamp r => { r with timestamp }]

/-- What the fields are filled in from. -/
def blank : Response := ⟨none, .success, none, none, none, ""⟩

theorem read_eq (limit : Nat) : read limit = readRecord "Response" (slots limit) blank := rfl

/-- A member that is written only if its value is set fills its field in with that value. -/
theorem fills_optional {α : Type} {all : List (Slot Response)} {name : String} {value : Response}
    {reader : Reader α} {a? : Option α} (write : α → Json) (fill : Option α → Response → Response)
    (field : all.find? (fun s => s.name == name) = some (.free name (readOption reader) fill))
    (reads : ∀ a, a? = some a → ∀ r, Ends r →
      readOption reader ((write a).render ++ r) = .ok (some a, r))
    (unset : fill none value = value) :
    Fills all (optional name (a?.map write)) value (fill a? value) := by
  cases a? with
  | none =>
    rw [unset]
    exact .nil value
  | some a => exact .single fill field rfl (reads a rfl)

/-- The members of a response fill it in, field after field in the order of the fields. -/
theorem fills_members {limit depth : Nat} (r : Response)
    (hdata : ∀ data, r.data? = some data → Plain depth (.obj data))
    (hl : r.render.length ≤ limit) : Fills (slots limit depth) r.members blank r := by
  have hread : ∀ data, r.data? = some data → ∀ bs, Ends bs →
      readOption (readMap limit depth) ((Json.obj data).render ++ bs) = .ok (some data, bs) := by
    intro data hd bs hbs
    have hmem : ("data", Json.obj data) ∈ r.members := by
      refine mem_members ?_
      rw [table, hd]
      rfl
    have hread := readMap_render (hdata data hd) (Nat.le_trans (length_member_le hmem) hl) hbs
    rw [Json.render, List.cons_append] at hread ⊢
    exact readOption_cons (by decide) (by decide) hread
  have htext : ∀ {s? : Option String} (s : String), s? = some s → ∀ bs, Ends bs →
      readOption (readText "a string") ((Json.str s).render ++ bs) = .ok (some s, bs) :=
    fun s _ bs _ => readOption_text _ s bs
  have hcommandId : Fills (slots limit depth) (optional "command_id" (r.commandId?.map .str))
      blank ⟨r.commandId?, .success, none, none, none, ""⟩ :=
    fills_optional .str (fun commandId? r => { r with commandId? }) rfl htext rfl
  have hstatus : Fills (slots limit depth) [("status", .str r.status.name)]
      ⟨r.commandId?, .success, none, none, none, ""⟩
      ⟨r.commandId?, r.status, none, none, none, ""⟩ := by
    have hname : Status.choices.lookup r.status.name = some r.status := by cases r.status <;> rfl
    exact .single (fun status (r : Response) => { r with status }) rfl rfl
      fun bs _ => readChoice_render hname depth bs
  have hdata : Fills (slots limit depth) (optional "data" (r.data?.map .obj))
      ⟨r.commandId?, r.status, none, none, none, ""⟩
      ⟨r.commandId?, r.status, r.data?, none, none, ""⟩ :=
    fills_optional .obj (fun data? r => { r with data? }) rfl hread rfl
  have herror : Fills (slots limit depth) (optional "error" (r.error?.map .str))
      ⟨r.commandId?, r.status, r.data?, none, none, ""⟩
      ⟨r.commandId?, r.status, r.data?, r.error?, none, ""⟩ :=
    fills_optional .str (fun error? r => { r with error? }) rfl htext rfl
  have herrorCode : Fills (slots limit depth) (optional "error_code" (r.errorCode?.map .str))
      ⟨r.commandId?, r.status, r.data?, r.error?, none, ""⟩
      ⟨r.commandId?, r.status, r.data?, r.error?, r.errorCode?, ""⟩ :=
    fills_optional .str (fun errorCode? r => { r with errorCode? }) rfl htext rfl
  have htimestamp : Fills (slots limit depth) [("timestamp", .str r.timestamp)]
      ⟨r.commandId?, r.status, r.data?, r.error?, r.errorCode?, ""⟩ r :=
    .single (fun timestamp (r : Response) => { r with timestamp }) rfl rfl
      fun bs _ => readText_render _ r.timestamp bs
  exact (((hcommandId.append (hstatus.append hdata)).append herror).append herrorCode).append
    htimestamp

/-- The text of a response with plain data spells that response. -/
theorem parse_render (r : Response) (h : ∀ data, r.data? = some data → Plain 126 (.obj data)) :
    parse r.render = .ok r := by
  have hneeded : ∀ s ∈ slots r.render.length 126, s.needed → s.name ∈ r.members.map (·.1) := by
    intro s hs hn
    simp only [slots, List.mem_cons, List.not_mem_nil, or_false] at hs
    rcases hs with rfl | rfl | rfl | rfl | rfl | rfl
    case inr.inl => exact List.mem_map_of_mem (mem_members (v := .str r.status.name) rfl)
    -- all but the status may be left out
    all_goals contradiction
  refine readAll_eq_ok ?_
  rw [read_eq]
  exact (fills_members r h (Nat.le_refl _)).readRecord r.nodup_members hneeded "Response" []

/-- The data of a response that was read is plain unless there are floats in it. -/
theorem plain_data {text : Bytes} (h : parse text = .ok r) :
    ∀ data, r.data? = some data → (Json.obj data).Floatless → Plain 126 (.obj data) := by
  have hkeeps : ∀ s ∈ slots text.length 126, s.Keeps fun r => ∀ data, r.data? = some data →
      (Json.obj data).Floatless → Plain 126 (.obj data) := by
    intro s hs
    simp only [slots, List.mem_cons, List.not_mem_nil, or_false] at hs
    rcases hs with rfl | rfl | rfl | rfl | rfl | rfl
    case inr.inl => exact Slot.keeps_of fun _ _ _ _ _ hp => hp
    case inr.inr.inl =>
      -- the data that was read replaces whatever data there was before
      refine Slot.keeps_free fun bs data? rest hread value hp data hd => ?_
      obtain rfl : data? = some data := hd
      exact of_readOption (P := fun ms => (Json.obj ms).Floatless → Plain 126 (.obj ms))
        (fun _ _ _ h => plain_of_readMap h) hread
    all_goals exact Slot.keeps_free fun _ _ _ _ _ hp => hp
  obtain ⟨rest, hread⟩ := exists_of_readAll h
  rw [read_eq] at hread
  exact readRecord_keeps hkeeps hread nofun

/-! ### There and back -/

/-- The responses that are sent: of a command that was carried out, or of one that was not. -/
inductive Built : Response → Prop where
  | success (commandId? : Option String) (data : Members) (timestamp : String) :
      Built (success commandId? data timestamp)
  | failure (commandId? : Option String) (code message timestamp : String) :
      Built (failure commandId? code message timestamp)

/-- The keys of an object that a response is written as. -/
structure Keyed (r : Response) (ms : Members) : Prop where
  commandId : (ms.get? "command_id").isSome = r.commandId?.isSome
  /-- Either the data or the error is there, and not both. -/
  one : (ms.get? "data").isSome = !(ms.get? "error").isSome
  errorCode : (ms.get? "error_code").isSome = (ms.get? "error").isSome

theorem Built.keyed (h : r.Built) : r.Keyed r.written := by
  refine ⟨?_, ?_, ?_⟩
  · rw [get?_written]
    exact Option.isSome_map
  · rw [get?_written, get?_written]
    cases h <;> rfl
  · rw [get?_written, get?_written]
    cases h <;> rfl

/-- With plain data, every member of a response is plain. -/
theorem plain_members (h : ∀ data, r.data? = some data → Plain 126 (.obj data)) :
    ∀ m ∈ r.members, Plain 126 m.2 := by
  intro m hm
  rw [members_eq] at hm
  obtain ⟨e, he, hm⟩ := List.mem_filterMap.mp hm
  obtain ⟨v, hv, rfl⟩ := Option.map_eq_some_iff.mp hm
  simp only [table, List.mem_cons, List.not_mem_nil, or_false] at he
  rcases he with rfl | rfl | rfl | rfl | rfl | rfl
  case inr.inr.inl =>
    obtain ⟨data, hd, rfl⟩ := Option.map_eq_some_iff.mp hv
    exact h data hd
  case inr.inl | inr.inr.inr.inr.inr =>
    rw [← Option.some.inj hv]
    exact .str 126 _
  all_goals
    obtain ⟨s, -, rfl⟩ := Option.map_eq_some_iff.mp hv
    exact .str 126 s

/-- The payload of a response spells the object that it is written as. -/
theorem object_render (h : ∀ data, r.data? = some data → Plain 126 (.obj data)) :
    Frame.object r.render = .ok r.written := by
  rw [Frame.object, render, parse_object (plain_members h)]
  rfl

/-- Responses survive the wire. A response that is built with plain data, at most 126 levels deep,
and fits a frame comes back from its frame, whatever follows it and whichever limit admits it, as
the object with the keys that are set, and from that object as itself; and what was read as a
response from any text, in either form and with whatever other members, is spelled by the text it
is written as. -/
theorem survives_wire (r : Response) :
    (r.Built → (∀ data, r.data? = some data → Plain 126 (.obj data)) →
      r.render.length ≤ maxDeclared →
      ∃ frame ms, r.frame = .ok frame ∧
        (∀ limit rest, r.render.length ≤ limit →
          Frame.decode (frame ++ rest) limit = .ok (ms, frame.length)) ∧
        ofJson (.obj ms) = .ok r ∧ r.Keyed ms) ∧
    (∀ text, parse text = .ok r →
      (∀ data, r.data? = some data → (Json.obj data).Floatless) → parse r.render = .ok r) := by
  refine ⟨fun hbuilt hplain hfits => ?_, fun text htext hfloatless => ?_⟩
  · refine ⟨Frame.around r.render, r.written, Frame.encode_eq_ok hfits, fun limit rest hl => ?_,
      ofJson_written r, hbuilt.keyed⟩
    exact Frame.decode_around (object_render hplain) hfits hl rest
  · exact r.parse_render fun data hd => plain_data htext data hd (hfloatless data hd)

/-- A response with an id and a number, and a text that lists its values in place of naming them,
with nulls for those that are left out. -/
def listed : Response := success (some "7") [("n", .int 1)] "t"

def listing : Bytes := utf8 "[\"7\",\x7b\"success\":null\x7d,\x7b\"n\":1\x7d,null,null,\"t\"]"

theorem survives_wire_listed :
    listed.Built ∧ (∀ data, listed.data? = some data → Plain 126 (.obj data)) ∧
    listed.render.length ≤ maxDeclared ∧ parse listing = .ok listed ∧
    (∀ data, listed.data? = some data → (Json.obj data).Floatless) ∧
    (∃ frame ms, listed.frame = .ok frame ∧
      (∀ limit rest, listed.render.length ≤ limit →
        Frame.decode (frame ++ rest) limit = .ok (ms, frame.length)) ∧
      ofJson (.obj ms) = .ok listed ∧ listed.Keyed ms) ∧
    parse listed.render = .ok listed := by
  have hbuilt : listed.Built := .success (some "7") [("n", .int 1)] "t"
  have hplain : ∀ data, listed.data? = some data → Plain 126 (.obj data) := by
    intro data hd
    obtain rfl := Option.some.inj hd
    refine .obj 125 _ (List.pairwise_singleton _ _) fun m hm => ?_
    obtain rfl := List.mem_singleton.mp hm
    exact .int 125 1 (by decide) (by decide)
  have hfloatless : ∀ data, listed.data? = some data → (Json.obj data).Floatless := by
    intro data hd
    obtain rfl := Option.some.inj hd
    refine .obj _ fun m hm => ?_
    obtain rfl := List.mem_singleton.mp hm
    exact .int 1
  have hfits : listed.render.length ≤ maxDeclared := by decide
  have hparse : parse listing = .ok listed := by rfl
  obtain ⟨hwire, htext⟩ := survives_wire listed
  exact ⟨hbuilt, hplain, hfits, hparse, hfloatless, hwire hbuilt hplain hfits,
    htext listing hparse hfloatless⟩

end RemoteDesk.Response
