import RemoteDesk.Proofs.Json.Fields

/-!
The envelopes of commands. Five members count; two have to be there, one may also be null, and of
those that do not fit the first in key order is complained about. A command that was written is
read back as it was.
-/
namespace RemoteDesk.Command

open Json

/-! ### Envelopes -/

/-- The members that count. -/
def names : List String := ["id", "type", "payload", "timestamp", "auth_token"]

/-- The form that a value has to have under a name. -/
def Fits (name : String) (v : Json) : Prop :=
  match name with
  | "id" | "type" | "timestamp" => IsText v
  | "payload" => ∃ ms, v = .obj ms
  | "auth_token" => v = .null ∨ IsText v
  | _ => True

/-- How that form is named. -/
def wanted (name : String) : String := if name = "payload" then "a map" else "a string"

/-- The objects that are envelopes. -/
structure IsEnvelope (ms : Members) : Prop where
  id : ms.Has "id" IsText
  kindName : ms.Has "type" IsText
  payload : ms.get? "payload" = none ∨ ms.Has "payload" fun v => ∃ ps, v = .obj ps
  timestamp : ms.get? "timestamp" = none ∨ ms.Has "timestamp" IsText
  token : ms.get? "auth_token" = none ∨ ms.Has "auth_token" fun v => v = .null ∨ IsText v

/-- A command has exactly the values of an object, and the defaults of those that are absent. -/
structure StandsIn (ms : Members) (c : Command) : Prop where
  id : ms.get? "id" = some (.str c.id)
  kindName : ms.get? "type" = some (.str c.kindName)
  payload : ms.get? "payload" = some (.obj c.payload) ∨
    ms.get? "payload" = none ∧ c.payload = []
  timestamp : ms.get? "timestamp" = some (.str c.timestamp) ∨
    ms.get? "timestamp" = none ∧ c.timestamp = ""
  token : (∃ t, ms.get? "auth_token" = some (.str t) ∧ c.token? = some t) ∨
    (ms.get? "auth_token" = none ∨ ms.get? "auth_token" = some .null) ∧ c.token? = none

/-- What is said about an object that is no envelope: what the first value in key order that does
not fit is, and only if all fit, what is missing. -/
inductive Reported (ms : Members) : Mismatch → Prop where
  | unfit (name : String) (v : Json) (hv : ms.get? name = some v) (unfit : ¬ Fits name v)
      (first : ∀ name' v', ms.get? name' = some v' → ¬ Fits name' v' → name ≤ name') :
      Reported ms (.wrongType v.seen (wanted name))
  | missingId (fit : ∀ name v, ms.get? name = some v → Fits name v)
      (absent : ms.get? "id" = none) : Reported ms (.missingField "id")
  | missingKind (fit : ∀ name v, ms.get? name = some v → Fits name v)
      (present : ms.Has "id" IsText) (absent : ms.get? "type" = none) :
      Reported ms (.missingField "type")

/-! ### Reading -/

variable {ms ns : Members} {c : Command}

theorem ofObject_eq_ok_iff : ofObject ms = .ok c ↔ ofMembers ms = .ok c := by
  refine ⟨ofObject_eq_ok, fun h => ?_⟩
  rw [ofObject, h]

theorem ofMembers_of_fields (ho : ms.Ordered) (hid : idField.of ms = .ok c.id)
    (hkind : kindField.of ms = .ok c.kindName) (hpayload : payloadField.of ms = .ok c.payload)
    (htimestamp : timestampField.of ms = .ok c.timestamp)
    (htoken : tokenField.of ms = .ok c.token?) : ofMembers ms = .ok c := by
  have hcheck : checkFields fields ms = .ok () := by
    apply ho.checkFields_eq_ok
    simp [fields, Field.test_of hid, Field.test_of hkind, Field.test_of hpayload,
      Field.test_of htimestamp, Field.test_of htoken]
  rw [ofMembers, hcheck, hid, hkind, hpayload, htimestamp, htoken]
  rfl

/-- An object is read as the one command that stands in it. -/
theorem ofObject_eq_ok_iff_standsIn (ho : ms.Ordered) : ofObject ms = .ok c ↔ c.StandsIn ms := by
  rw [ofObject_eq_ok_iff]
  constructor
  · intro h
    obtain ⟨hid, hkind, hpayload, htimestamp, htoken⟩ := ofMembers_eq_ok h
    refine ⟨Field.text_eq_ok hid, Field.text_eq_ok hkind, ?_, ?_, ?_⟩
    · refine (Field.withDefault_eq_ok_iff.mp hpayload).imp_left ?_
      rintro ⟨v, hv, hread⟩
      rw [hv, asMembers_eq_ok hread]
    · refine (Field.withDefault_eq_ok_iff.mp htimestamp).imp_left ?_
      rintro ⟨v, hv, hread⟩
      rw [hv, asString_eq_ok hread]
    · rcases Field.withDefault_eq_ok_iff.mp htoken with ⟨v, hv, hread⟩ | ⟨hnone, ht⟩
      · rcases asOption_text_eq_ok hread with ⟨rfl, ht⟩ | ⟨t, rfl, ht⟩
        · exact .inr ⟨.inr hv, ht⟩
        · exact .inl ⟨t, hv, ht⟩
      · exact .inr ⟨.inl hnone, ht⟩
  · intro h
    refine ofMembers_of_fields ho (Field.text_eq_ok_iff.mpr h.id)
      (Field.text_eq_ok_iff.mpr h.kindName) (Field.withDefault_eq_ok_iff.mpr ?_)
      (Field.withDefault_eq_ok_iff.mpr ?_) (Field.withDefault_eq_ok_iff.mpr ?_)
    · exact h.payload.imp_left fun hv => ⟨_, hv, rfl⟩
    · exact h.timestamp.imp_left fun hv => ⟨_, hv, rfl⟩
    · rcases h.token with ⟨t, hv, ht⟩ | ⟨hnone | hnull, ht⟩
      · exact .inl ⟨_, hv, by rw [ht]; rfl⟩
      · exact .inr ⟨hnone, ht⟩
      · exact .inl ⟨_, hnull, by rw [ht]; rfl⟩

theorem isEnvelope_iff : IsEnvelope ms ↔ ∃ c : Command, c.StandsIn ms := by
  constructor
  · rintro ⟨⟨_, hid, id, rfl⟩, ⟨_, hkind, kindName, rfl⟩, hpayload, htimestamp, htoken⟩
    have hp : ∃ payload, ms.get? "payload" = some (.obj payload) ∨
        ms.get? "payload" = none ∧ payload = [] := by
      rcases hpayload with hnone | ⟨_, hv, payload, rfl⟩
      · exact ⟨[], .inr ⟨hnone, rfl⟩⟩
      · exact ⟨payload, .inl hv⟩
    have ht : ∃ timestamp, ms.get? "timestamp" = some (.str timestamp) ∨
        ms.get? "timestamp" = none ∧ timestamp = "" := by
      rcases htimestamp with hnone | ⟨_, hv, timestamp, rfl⟩
      · exact ⟨"", .inr ⟨hnone, rfl⟩⟩
      · exact ⟨timestamp, .inl hv⟩
    obtain ⟨payload, hp⟩ := hp
    obtain ⟨timestamp, ht⟩ := ht
    rcases htoken with hnone | ⟨_, hv, rfl | ⟨token, rfl⟩⟩
    · exact ⟨⟨id, kindName, payload, timestamp, none⟩, hid, hkind, hp, ht, .inr ⟨.inl hnone, rfl⟩⟩
    · exact ⟨⟨id, kindName, payload, timestamp, none⟩, hid, hkind, hp, ht, .inr ⟨.inr hv, rfl⟩⟩
    · exact ⟨⟨id, kindName, payload, timestamp, some token⟩, hid, hkind, hp, ht,
        .inl ⟨token, hv, rfl⟩⟩
  · rintro ⟨c, hid, hkind, hpayload, htimestamp, htoken⟩
    refine ⟨⟨_, hid, _, rfl⟩, ⟨_, hkind, _, rfl⟩, ?_, ?_, ?_⟩
    · exact hpayload.elim (fun hv => .inr ⟨_, hv, _, rfl⟩) fun hnone => .inl hnone.1
    · exact htimestamp.elim (fun hv => .inr ⟨_, hv, _, rfl⟩) fun hnone => .inl hnone.1
    · rcases htoken with ⟨t, hv, -⟩ | ⟨hnone | hnull, -⟩
      · exact .inr ⟨_, hv, .inr ⟨t, rfl⟩⟩
      · exact .inl hnone
      · exact .inr ⟨_, hnull, .inl rfl⟩

/-! ### Complaints -/

/-- The fields complain about exactly the values that do not fit. -/
theorem complaint?_fields (name : String) (v : Json) :
    Fits name v ∧ complaint? fields (name, v) = none ∨
      ¬ Fits name v ∧ complaint? fields (name, v) = some (.wrongType v.seen (wanted name)) := by
  by_cases htext : name = "id" ∨ name = "type" ∨ name = "timestamp"
  · rcases htext with rfl | rfl | rfl
    all_goals
      cases v with
      | str s => exact .inl ⟨⟨s, rfl⟩, rfl⟩
      | _ => exact .inr ⟨nofun, rfl⟩
  by_cases hpayload : name = "payload"
  · subst hpayload
    cases v with
    | obj ms => exact .inl ⟨⟨ms, rfl⟩, rfl⟩
    | _ => exact .inr ⟨nofun, rfl⟩
  by_cases htoken : name = "auth_token"
  · subst htoken
    cases v with
    | null => exact .inl ⟨.inl rfl, rfl⟩
    | str s => exact .inl ⟨.inr ⟨s, rfl⟩, rfl⟩
    | _ => exact .inr ⟨nofun, rfl⟩
  -- no other name counts
  have hnone : fields.find? (fun f => f.name == name) = none := by
    simp only [not_or] at htext
    simp [fields, Field.test, idField, kindField, payloadField, timestampField, tokenField,
      Field.needed, Field.withDefault, Ne.symm htext.1, Ne.symm htext.2.1, Ne.symm htext.2.2,
      Ne.symm hpayload, Ne.symm htoken]
  refine .inl ⟨?_, by rw [complaint?, hnone]⟩
  unfold Fits
  split
  all_goals simp_all

theorem fits_iff {name : String} {v : Json} :
    Fits name v ↔ complaint? fields (name, v) = none := by
  rcases complaint?_fields name v with ⟨hfits, hnone⟩ | ⟨hunfit, hsome⟩
  · exact ⟨fun _ => hnone, fun _ => hfits⟩
  · rw [hsome]
    exact ⟨fun h => absurd h hunfit, fun h => by contradiction⟩

/-- A complaint of the fields is the one that is due. -/
theorem reported_of_firstComplaint {m : Mismatch} (h : ms.FirstComplaint fields m) :
    Reported ms m := by
  obtain ⟨name, v, hv, hm, hfirst⟩ := h
  rcases complaint?_fields name v with ⟨-, hnone⟩ | ⟨hunfit, hsome⟩
  · rw [hnone] at hm
    contradiction
  · rw [← Option.some.inj (hsome.symm.trans hm)]
    exact .unfit name v hv hunfit fun name' v' hv' h =>
      hfirst name' v' hv' (mt fits_iff.mpr h)

/-- If all values fit, only a missing name can be complained about. -/
theorem reported_of_checked (ho : ms.Ordered) (hcheck : checkFields fields ms = .ok ())
    {m : Mismatch} (h : ofMembers ms = .error m) : Reported ms m := by
  have hfit : ∀ name v, ms.get? name = some v → Fits name v := fun name v hv =>
    fits_iff.mpr (checkFields_eq_ok_iff.mp hcheck _ (Members.mem_of_get? hv))
  have htext : ∀ name, (∀ v, Fits name v → IsText v) → ms.get? name ≠ none →
      ms.Has name IsText := by
    intro name hname hpresent
    obtain ⟨v, hv⟩ := Option.ne_none_iff_exists'.mp hpresent
    exact ⟨v, hv, hname v (hfit name v hv)⟩
  by_cases hid : ms.get? "id" = none
  · have hof : idField.of ms = .error (.missingField "id") := Field.of_missing hid rfl
    rw [ofMembers, hcheck, hof] at h
    rw [← Except.error.inj h]
    exact .missingId hfit hid
  · have hidText := htext "id" (fun _ h => h) hid
    by_cases hkind : ms.get? "type" = none
    · obtain ⟨_, hv, id, rfl⟩ := hidText
      have hof : idField.of ms = .ok id := Field.text_eq_ok_iff.mpr hv
      have hof' : kindField.of ms = .error (.missingField "type") := Field.of_missing hkind rfl
      rw [ofMembers, hcheck, hof, hof'] at h
      rw [← Except.error.inj h]
      exact .missingKind hfit ⟨_, hv, id, rfl⟩ hkind
    · -- all five are in order, so the object is read
      have hother : ∀ name, ms.get? name = none ∨ ms.Has name (Fits name) := by
        intro name
        cases hv : ms.get? name with
        | none => exact .inl rfl
        | some v => exact .inr ⟨v, hv, hfit name v hv⟩
      obtain ⟨c, hc⟩ := isEnvelope_iff.mp ⟨hidText, htext "type" (fun _ h => h) hkind,
        hother "payload", hother "timestamp", hother "auth_token"⟩
      rw [ofObject_eq_ok_iff.mp ((ofObject_eq_ok_iff_standsIn ho).mpr hc)] at h
      contradiction

theorem reported_of_ofObject (ho : ms.Ordered) {e : ProtocolError} (h : ofObject ms = .error e) :
    ∃ m, e = .invalidCommand m ∧ Reported ms m := by
  unfold ofObject at h
  cases hm : ofMembers ms with
  | ok c =>
    rw [hm] at h
    contradiction
  | error m =>
    rw [hm] at h
    refine ⟨m, (Except.error.inj h).symm, ?_⟩
    cases hcheck : checkFields fields ms with
    | ok _ => exact reported_of_checked ho hcheck hm
    | error m' =>
      rw [ofMembers, hcheck] at hm
      rw [← Except.error.inj hm]
      exact reported_of_firstComplaint (ho.checkFields_eq_error_iff.mp hcheck)

theorem ofObject_congr (ho : ms.Ordered) (hn : ns.Ordered)
    (same : ∀ name ∈ names, ns.get? name = ms.get? name) : ofObject ns = ofObject ms := by
  have hcheck : checkFields fields ns = checkFields fields ms := ho.checkFields_congr hn same
  have hmembers : ofMembers ns = ofMembers ms := by
    rw [ofMembers, ofMembers, hcheck, idField.of_congr (same "id" (by decide)),
      kindField.of_congr (same "type" (by decide)),
      payloadField.of_congr (same "payload" (by decide)),
      timestampField.of_congr (same "timestamp" (by decide)),
      tokenField.of_congr (same "auth_token" (by decide))]
  rw [ofObject, ofObject, hmembers]

/-! ### Writing -/

/-- The members of a command, with the token's value if there is a token. -/
def table (c : Command) : List (String × Option Json) :=
  [("id", some (.str c.id)), ("type", some (.str c.kindName)), ("payload", some (.obj c.payload)),
    ("timestamp", some (.str c.timestamp)), ("auth_token", c.token?.map .str)]

theorem members_eq (c : Command) : c.members = Members.ofTable c.table := by
  obtain ⟨id, kindName, payload, timestamp, _ | token⟩ := c <;> rfl

/-- What a written command holds under each name. -/
theorem get?_ofList_members (c : Command) (name : String) :
    (Members.ofList c.members).get? name = (c.table.lookup name).join := by
  have hnames : (c.table.map (·.1)).Nodup := by
    have hdistinct : names.Nodup := by decide
    exact hdistinct
  rw [members_eq, Members.get?_ofList_ofTable hnames]

/-- A command stands in the object that it is written as. -/
theorem standsIn_ofList_members (c : Command) : c.StandsIn (Members.ofList c.members) := by
  refine ⟨?_, ?_, .inl ?_, .inl ?_, ?_⟩
  · rw [get?_ofList_members]
    rfl
  · rw [get?_ofList_members]
    rfl
  · rw [get?_ofList_members]
    rfl
  · rw [get?_ofList_members]
    rfl
  · rw [get?_ofList_members]
    have htoken : (c.table.lookup "auth_token").join = c.token?.map .str := rfl
    rw [htoken]
    cases c.token? with
    | none => exact .inr ⟨.inl rfl, rfl⟩
    | some token => exact .inl ⟨token, rfl, rfl⟩

/-- The grammar of envelopes, and their round trip. Whatever stands in an object, it is read exactly
if it is an envelope, and then as the one command that stands in it; members under other names make
no difference; every failure is that of a command, and reports what is due. And every command is
read back from the object that it is written as, which holds a token only if the command does. -/
theorem ofObject_exact (ms : Members) (ho : ms.Ordered) :
    ((∃ c, ofObject ms = .ok c) ↔ IsEnvelope ms) ∧
    (∀ c, ofObject ms = .ok c ↔ c.StandsIn ms) ∧
    (∀ ns : Members, ns.Ordered → (∀ name ∈ names, ns.get? name = ms.get? name) →
      ofObject ns = ofObject ms) ∧
    (∀ e, ofObject ms = .error e → ∃ m, e = .invalidCommand m ∧ Reported ms m) ∧
    (∀ c : Command, ofObject (Members.ofList c.members) = .ok c ∧
      ((Members.ofList c.members).get? "auth_token" = none ↔ c.token? = none)) := by
  have hiff : ∀ c, ofObject ms = .ok c ↔ c.StandsIn ms := fun c => ofObject_eq_ok_iff_standsIn ho
  refine ⟨?_, hiff, fun ns hn same => ofObject_congr ho hn same,
    fun e he => reported_of_ofObject ho he, fun c => ⟨?_, ?_⟩⟩
  · rw [isEnvelope_iff]
    exact exists_congr hiff
  · exact (ofObject_eq_ok_iff_standsIn (Members.ordered_ofList _)).mpr (standsIn_ofList_members c)
  · rw [get?_ofList_members]
    exact Option.map_eq_none_iff

/-- An envelope with a null token, spoilt by two values that do not fit and a missing kind. -/
def spoiltEnvelope : Members := [("auth_token", .null), ("id", .int 7), ("payload", .null)]

/-- Of all that is wrong, only the identifier is complained about. -/
theorem ofObject_exact_spoilt :
    spoiltEnvelope.Ordered ∧
    ofObject spoiltEnvelope = .error (.invalidCommand (.wrongType (.integer 7) "a string")) ∧
    ¬ IsEnvelope spoiltEnvelope ∧
    ofObject (spoiltEnvelope ++ [("version", .int 2)]) = ofObject spoiltEnvelope := by
  have ho : spoiltEnvelope.Ordered := by unfold Members.Ordered; decide
  have hn : Members.Ordered (spoiltEnvelope ++ [("version", .int 2)]) := by
    unfold Members.Ordered
    decide
  obtain ⟨haccept, -, hcongr, -, -⟩ := ofObject_exact spoiltEnvelope ho
  have herror : ofObject spoiltEnvelope =
      .error (.invalidCommand (.wrongType (.integer 7) "a string")) := rfl
  refine ⟨ho, herror, ?_, hcongr _ hn ?_⟩
  · rw [← haccept]
    rintro ⟨c, hc⟩
    rw [herror] at hc
    contradiction
  · intro name hname
    simp only [names, List.mem_cons, List.not_mem_nil, or_false] at hname
    rcases hname with rfl | rfl | rfl | rfl | rfl <;> rfl

end RemoteDesk.Command
