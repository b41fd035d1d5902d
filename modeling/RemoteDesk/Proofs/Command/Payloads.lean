import RemoteDesk.Proofs.Json.Fields

/-!
The payloads that are understood. Each kind of command reads a few members and asks each of them
for a text, a whole number within bounds or the name of a button. What it asks for is what it
accepts, no more and no less, and members that it does not read make no difference to it.
-/
namespace RemoteDesk

open Json Desktop

/-! ### What is asked of values -/

namespace Json

/-- A whole number within bounds. A float is none, not even a whole one. -/
def IsWhole (least most : Int) (v : Json) : Prop := ∃ n, v = .int n ∧ least ≤ n ∧ n ≤ most

/-- A coordinate, or a number of wheel steps. -/
abbrev IsCoordinate : Json → Prop := IsWhole (-2147483648) 2147483647

abbrev IsDisplayId : Json → Prop := IsWhole 0 4294967295

end Json

namespace Desktop.MouseButton

/-- How a button may be spelled. -/
def spellings : MouseButton → List String
  | .left => ["Left", "left", "LEFT"]
  | .right => ["Right", "right", "RIGHT"]
  | .middle => ["Middle", "middle", "MIDDLE"]

/-- A button's name, or the object that maps its name to null. -/
def SpelledBy (b : MouseButton) (v : Json) : Prop :=
  ∃ name ∈ b.spellings, v = .str name ∨ v = .obj [(name, .null)]

end Desktop.MouseButton

namespace Request

/-- The members of a payload that a kind of command reads. -/
def reads : CommandKind → List String
  | .authenticate => ["username", "password"]
  | .mouseClick => ["button", "x", "y"]
  | .mouseMove | .mouseScroll | .getWindowInfo => ["x", "y"]
  | .keyPress | .keyRelease => ["key"]
  | .typeText => ["text"]
  | .captureScreen => ["display_id"]
  | .getDisplays | .listWindows => []

/-- The payloads that are documented for a kind of command. -/
def Documented (ms : Members) : CommandKind → Prop
  | .authenticate => ms.Has "username" IsText ∧ ms.Has "password" IsText
  | .mouseClick => ms.Has "button" (fun v => ∃ b : MouseButton, b.SpelledBy v) ∧
    ms.Has "x" IsCoordinate ∧ ms.Has "y" IsCoordinate
  | .mouseMove | .mouseScroll | .getWindowInfo =>
    ms.Has "x" IsCoordinate ∧ ms.Has "y" IsCoordinate
  | .keyPress | .keyRelease => ms.Has "key" fun v => ∃ s, v = .str s ∧ s ≠ ""
  | .typeText => ms.Has "text" fun v => ∃ s, v = .str s ∧ s.length ≤ 1000
  | .captureScreen => ms.get? "display_id" = none ∨ ms.Has "display_id" IsDisplayId
  | .getDisplays | .listWindows => True

/-- A request has exactly the values that stand in a payload, and these are in order. -/
def Carries (ms : Members) : Request → Prop
  | .authenticate c => ms.get? "username" = some (.str c.username) ∧
    ms.get? "password" = some (.str c.password)
  | .desktop (.mouseClick b p) => ms.Has "button" b.SpelledBy ∧ p.StandsIn ms
  | .desktop (.keyPress key) | .desktop (.keyRelease key) =>
    ms.get? "key" = some (.str key) ∧ key ≠ ""
  | .desktop (.typeText text) => ms.get? "text" = some (.str text) ∧ text.length ≤ 1000
  | .desktop call => call.StandsIn ms

/-- The bounds of the numbers under a name. -/
def bounds (name : String) : Int × Int :=
  if name = "display_id" then (0, 4294967295) else (-2147483648, 2147483647)

/-- Null, floats and integers out of bounds, which stand for nothing under any name. -/
inductive Refused (name : String) : Json → Prop where
  | null : Refused name .null
  | float (x : Float) : Refused name (.num (.float x))
  | integer (n : Int) (out : n < (bounds name).1 ∨ (bounds name).2 < n) : Refused name (.int n)

end Request

/-! ### Values -/

namespace Json

theorem isCoordinate_iff {v : Json} : IsCoordinate v ↔ ∃ n : Int32, v = .int n.toInt := by
  constructor
  · rintro ⟨n, rfl, hleast, hmost⟩
    have hlt : n < 2 ^ 31 := Int.lt_of_le_of_lt hmost (by decide)
    exact ⟨Int32.ofInt n, by rw [Int32.toInt_ofInt_of_le hleast hlt]⟩
  · rintro ⟨n, rfl⟩
    exact ⟨n.toInt, rfl, n.le_toInt, n.toInt_le⟩

theorem isDisplayId_iff {v : Json} : IsDisplayId v ↔ ∃ n : UInt32, v = .nat n.toNat := by
  constructor
  · rintro ⟨n, rfl, hleast, hmost⟩
    have hlt : n.toNat < 2 ^ 32 := by omega
    refine ⟨UInt32.ofNat n.toNat, ?_⟩
    rw [UInt32.toNat_ofNat', Nat.mod_eq_of_lt hlt, nat, Int.toNat_of_nonneg hleast]
    rfl
  · rintro ⟨n, rfl⟩
    have hmost : (n.toNat : Int) ≤ 4294967295 := by
      have := n.toNat_lt
      omega
    exact ⟨n.toNat, rfl, Int.natCast_nonneg n.toNat, hmost⟩

/-- A choice is made by its name, in either form. -/
theorem asChoice_eq_ok_iff {α : Type} {choices : List (String × α)} {v : Json} {a : α} :
    asChoice choices v = .ok a ↔
      ∃ name, choices.lookup name = some a ∧ (v = .str name ∨ v = .obj [(name, .null)]) := by
  have hchosen : ∀ name a, chosen choices name = .ok a ↔ choices.lookup name = some a := by
    intro name a
    unfold chosen
    cases choices.lookup name with
    | none => exact ⟨fun h => by contradiction, fun h => by contradiction⟩
    | some a' => simp
  constructor
  · intro h
    unfold asChoice at h
    split at h
    · rename_i name
      exact ⟨name, (hchosen name a).mp h, .inl rfl⟩
    · rename_i name v
      obtain ⟨a', ha, h⟩ := bind_eq_ok h
      cases v with
      | null =>
        obtain rfl := Except.ok.inj h
        exact ⟨name, (hchosen name a').mp ha, .inr rfl⟩
      | _ => contradiction
    · contradiction
    · contradiction
  · rintro ⟨name, hname, rfl | rfl⟩
    · exact (hchosen name a).mpr hname
    · rw [asChoice, (hchosen name a).mpr hname]
      rfl

theorem asChoice_button {v : Json} {b : MouseButton} :
    asChoice MouseButton.choices v = .ok b ↔ b.SpelledBy v := by
  have hspelled : ∀ name, MouseButton.choices.lookup name = some b ↔ name ∈ b.spellings := by
    intro name
    constructor
    · intro h
      have hall : ∀ c ∈ MouseButton.choices, c.1 ∈ c.2.spellings := by decide
      obtain ⟨before, after, hc, -⟩ := List.lookup_eq_some_iff.mp h
      exact hall (name, b) (hc ▸ List.mem_append_right before List.mem_cons_self)
    · have hall : ∀ b : MouseButton, ∀ name ∈ b.spellings,
          MouseButton.choices.lookup name = some b := by
        intro b
        cases b <;> decide
      exact hall b name
  rw [asChoice_eq_ok_iff]
  exact exists_congr fun name => and_congr_left' (hspelled name)

end Json

/-! ### Readers -/

namespace Request

variable {ms ns : Members}

theorem readCredentials_of_carries (ho : ms.Ordered) {c : Credentials}
    (h : Carries ms (.authenticate c)) : readCredentials ms = .ok c := by
  have hu : usernameField.of ms = .ok c.username := Field.text_eq_ok_iff.mpr h.1
  have hp : passwordField.of ms = .ok c.password := Field.text_eq_ok_iff.mpr h.2
  have hcheck : checkFields [usernameField.test, passwordField.test] ms = .ok () := by
    apply ho.checkFields_eq_ok
    simp [Field.test_of hu, Field.test_of hp]
  rw [readCredentials, hcheck, hu, hp]
  rfl

theorem readPoint_of_standsIn (ho : ms.Ordered) {p : Point} (h : p.StandsIn ms) :
    readPoint ms = .ok p := by
  have hx : xField.of ms = .ok p.x := Field.int32_eq_ok_iff.mpr h.1
  have hy : yField.of ms = .ok p.y := Field.int32_eq_ok_iff.mpr h.2
  have hcheck : checkFields [xField.test, yField.test] ms = .ok () := by
    apply ho.checkFields_eq_ok
    simp [Field.test_of hx, Field.test_of hy]
  rw [readPoint, hcheck, hx, hy]
  rfl

theorem readClick_of_carries (ho : ms.Ordered) {b : MouseButton} {p : Point}
    (h : Carries ms (.desktop (.mouseClick b p))) : readClick ms = .ok (b, p) := by
  obtain ⟨⟨v, hv, hspelled⟩, hp⟩ := h
  have hb : buttonField.of ms = .ok b :=
    Field.needed_eq_ok_iff.mpr ⟨v, hv, asChoice_button.mpr hspelled⟩
  have hx : xField.of ms = .ok p.x := Field.int32_eq_ok_iff.mpr hp.1
  have hy : yField.of ms = .ok p.y := Field.int32_eq_ok_iff.mpr hp.2
  have hcheck : checkFields [buttonField.test, xField.test, yField.test] ms = .ok () := by
    apply ho.checkFields_eq_ok
    simp [Field.test_of hb, Field.test_of hx, Field.test_of hy]
  rw [readClick, hcheck, hb, hx, hy]
  rfl

theorem readKey_eq_ok_iff {key : String} :
    readKey ms = .ok key ↔ ms.get? "key" = some (.str key) ∧ key ≠ "" := by
  constructor
  · intro h
    refine ⟨readKey_eq_ok h, ?_⟩
    rintro rfl
    obtain ⟨key', hkey, h⟩ := bind_eq_ok h
    split at h
    · contradiction
    · rename_i hne
      exact hne (by rw [Except.ok.inj h]; rfl)
  · rintro ⟨hkey, hne⟩
    have hof : keyField.of ms = .ok key := Field.text_eq_ok_iff.mpr hkey
    rw [readKey, hof]
    exact if_neg (by simpa using hne)

theorem readTyped_eq_ok_iff {text : String} :
    readTyped ms = .ok text ↔ ms.get? "text" = some (.str text) ∧ text.length ≤ 1000 := by
  constructor
  · intro h
    refine ⟨readTyped_eq_ok h, ?_⟩
    obtain ⟨text', htext, h⟩ := bind_eq_ok h
    split at h
    · contradiction
    · rename_i hshort
      rw [← Except.ok.inj h]
      exact Nat.not_lt.mp hshort
  · rintro ⟨htext, hshort⟩
    have hof : textField.of ms = .ok text := Field.text_eq_ok_iff.mpr htext
    rw [readTyped, hof]
    exact if_neg (Nat.not_lt.mpr hshort)

theorem displayField_of_standsIn {id : UInt32} (h : Call.StandsIn ms (.captureScreen id)) :
    displayField.of ms = .ok id := by
  refine Field.withDefault_eq_ok_iff.mpr (h.imp (fun hv => ⟨_, hv, uint32_nat id⟩) ?_)
  exact fun ⟨hnone, hid⟩ => ⟨hnone, hid⟩

/-! ### Requests -/

theorem ofPayload_of_carries (ho : ms.Ordered) {r : Request} (h : r.Carries ms) :
    ofPayload r.kind ms = .ok r := by
  cases r with
  | authenticate c => simp only [kind, ofPayload, readCredentials_of_carries ho h]; rfl
  | desktop call =>
    cases call with
    | mouseMove p => simp only [kind, Call.kind, ofPayload, readPoint_of_standsIn ho h]; rfl
    | mouseClick b p => simp only [kind, Call.kind, ofPayload, readClick_of_carries ho h]; rfl
    | mouseScroll dx dy =>
      simp only [kind, Call.kind, ofPayload, readPoint_of_standsIn ho (p := ⟨dx, dy⟩) h]; rfl
    | keyPress key => simp only [kind, Call.kind, ofPayload, readKey_eq_ok_iff.mpr h]; rfl
    | keyRelease key => simp only [kind, Call.kind, ofPayload, readKey_eq_ok_iff.mpr h]; rfl
    | typeText text => simp only [kind, Call.kind, ofPayload, readTyped_eq_ok_iff.mpr h]; rfl
    | captureScreen id =>
      simp only [kind, Call.kind, ofPayload, displayField_of_standsIn h]; rfl
    | displays => rfl
    | windows => rfl
    | windowAt p => simp only [kind, Call.kind, ofPayload, readPoint_of_standsIn ho h]; rfl

theorem parse_eq_ok_iff {kind : CommandKind} {r : Request} :
    parse kind ms = .ok r ↔ ofPayload kind ms = .ok r := by
  unfold parse
  cases ofPayload kind ms with
  | ok r' => exact ⟨fun h => by rw [Except.ok.inj h], fun h => by rw [Except.ok.inj h]⟩
  | error fault => exact ⟨fun h => by contradiction, fun h => by contradiction⟩

theorem carries_of_parse {kind : CommandKind} {r : Request} (h : parse kind ms = .ok r) :
    r.Carries ms := by
  obtain rfl := kind_of_parse h
  have hpayload := parse_eq_ok_iff.mp h
  cases r with
  | authenticate c =>
    obtain ⟨c', hc, hr⟩ := map_eq_ok hpayload
    obtain ⟨_, -, hc⟩ := bind_eq_ok (formal_eq_ok hc)
    obtain ⟨username, hu, hc⟩ := bind_eq_ok hc
    obtain ⟨password, hp, hc⟩ := bind_eq_ok hc
    rw [← Except.ok.inj hc] at hr
    rw [← Request.authenticate.inj hr]
    exact ⟨Field.text_eq_ok hu, Field.text_eq_ok hp⟩
  | desktop call =>
    have hstands := standsIn_of_parse h
    cases call with
    | mouseClick b p =>
      obtain ⟨hp, v, hv, hb⟩ := hstands
      exact ⟨⟨v, hv, asChoice_button.mp hb⟩, hp⟩
    | keyPress key =>
      obtain ⟨key', hkey, hr⟩ := map_eq_ok hpayload
      rw [← Call.keyPress.inj (Request.desktop.inj hr)]
      exact readKey_eq_ok_iff.mp hkey
    | keyRelease key =>
      obtain ⟨key', hkey, hr⟩ := map_eq_ok hpayload
      rw [← Call.keyRelease.inj (Request.desktop.inj hr)]
      exact readKey_eq_ok_iff.mp hkey
    | typeText text =>
      obtain ⟨text', htext, hr⟩ := map_eq_ok hpayload
      rw [← Call.typeText.inj (Request.desktop.inj hr)]
      exact readTyped_eq_ok_iff.mp htext
    | _ => exact hstands

/-- A payload is understood as a request exactly if the request is of the kind and carries what
stands in the payload. -/
theorem parse_eq_ok_iff_carries (ho : ms.Ordered) {kind : CommandKind} {r : Request} :
    parse kind ms = .ok r ↔ r.kind = kind ∧ r.Carries ms := by
  refine ⟨fun h => ⟨kind_of_parse h, carries_of_parse h⟩, ?_⟩
  rintro ⟨rfl, h⟩
  exact parse_eq_ok_iff.mpr (ofPayload_of_carries ho h)

/-! ### What is documented -/

theorem has_point_iff :
    ms.Has "x" IsCoordinate ∧ ms.Has "y" IsCoordinate ↔ ∃ p : Point, p.StandsIn ms := by
  constructor
  · rintro ⟨⟨v, hv, hx⟩, w, hw, hy⟩
    obtain ⟨x, rfl⟩ := isCoordinate_iff.mp hx
    obtain ⟨y, rfl⟩ := isCoordinate_iff.mp hy
    exact ⟨⟨x, y⟩, hv, hw⟩
  · rintro ⟨p, hx, hy⟩
    exact ⟨⟨_, hx, isCoordinate_iff.mpr ⟨p.x, rfl⟩⟩, _, hy, isCoordinate_iff.mpr ⟨p.y, rfl⟩⟩

theorem exists_of_documented {kind : CommandKind} (h : Documented ms kind) :
    ∃ r : Request, r.kind = kind ∧ r.Carries ms := by
  cases kind with
  | authenticate =>
    obtain ⟨⟨v, hv, username, rfl⟩, w, hw, password, rfl⟩ := h
    exact ⟨.authenticate ⟨username, password⟩, rfl, hv, hw⟩
  | mouseMove =>
    obtain ⟨p, hp⟩ := has_point_iff.mp h
    exact ⟨.desktop (.mouseMove p), rfl, hp⟩
  | mouseClick =>
    obtain ⟨⟨v, hv, b, hb⟩, hpoint⟩ := h
    obtain ⟨p, hp⟩ := has_point_iff.mp hpoint
    exact ⟨.desktop (.mouseClick b p), rfl, ⟨v, hv, hb⟩, hp⟩
  | mouseScroll =>
    obtain ⟨p, hp⟩ := has_point_iff.mp h
    exact ⟨.desktop (.mouseScroll p.x p.y), rfl, hp⟩
  | keyPress =>
    obtain ⟨v, hv, key, rfl, hne⟩ := h
    exact ⟨.desktop (.keyPress key), rfl, hv, hne⟩
  | keyRelease =>
    obtain ⟨v, hv, key, rfl, hne⟩ := h
    exact ⟨.desktop (.keyRelease key), rfl, hv, hne⟩
  | typeText =>
    obtain ⟨v, hv, text, rfl, hshort⟩ := h
    exact ⟨.desktop (.typeText text), rfl, hv, hshort⟩
  | captureScreen =>
    rcases h with hnone | ⟨v, hv, hid⟩
    · exact ⟨.desktop (.captureScreen 0), rfl, .inr ⟨hnone, rfl⟩⟩
    · obtain ⟨id, rfl⟩ := isDisplayId_iff.mp hid
      exact ⟨.desktop (.captureScreen id), rfl, .inl hv⟩
  | getDisplays => exact ⟨.desktop .displays, rfl, trivial⟩
  | listWindows => exact ⟨.desktop .windows, rfl, trivial⟩
  | getWindowInfo =>
    obtain ⟨p, hp⟩ := has_point_iff.mp h
    exact ⟨.desktop (.windowAt p), rfl, hp⟩

theorem documented_of_carries {r : Request} (h : r.Carries ms) : Documented ms r.kind := by
  cases r with
  | authenticate c => exact ⟨⟨_, h.1, _, rfl⟩, _, h.2, _, rfl⟩
  | desktop call =>
    cases call with
    | mouseMove p => exact has_point_iff.mpr ⟨p, h⟩
    | mouseClick b p =>
      obtain ⟨⟨v, hv, hb⟩, hp⟩ := h
      exact ⟨⟨v, hv, b, hb⟩, has_point_iff.mpr ⟨p, hp⟩⟩
    | mouseScroll dx dy => exact has_point_iff.mpr ⟨⟨dx, dy⟩, h⟩
    | keyPress key => exact ⟨_, h.1, key, rfl, h.2⟩
    | keyRelease key => exact ⟨_, h.1, key, rfl, h.2⟩
    | typeText text => exact ⟨_, h.1, text, rfl, h.2⟩
    | captureScreen id =>
      exact h.elim (fun hv => .inr ⟨_, hv, isDisplayId_iff.mpr ⟨id, rfl⟩⟩) fun hnone => .inl hnone.1
    | displays => exact trivial
    | windows => exact trivial
    | windowAt p => exact has_point_iff.mpr ⟨p, h⟩

/-! ### What is refused -/

theorem not_refused_text {name text : String} : ¬ Refused name (.str text) := nofun

theorem not_refused_whole {name : String} {v : Json}
    (h : IsWhole (bounds name).1 (bounds name).2 v) : ¬ Refused name v := by
  obtain ⟨n, rfl, hleast, hmost⟩ := h
  intro hrefused
  cases hrefused with
  | integer _ out => omega

theorem not_refused_button {name : String} {b : MouseButton} {v : Json} (h : b.SpelledBy v) :
    ¬ Refused name v := by
  obtain ⟨spelling, -, rfl | rfl⟩ := h <;> nofun

/-- No documented payload has a value that is refused under a name that is read. -/
theorem not_refused_of_documented {kind : CommandKind} (h : Documented ms kind) {name : String}
    (hname : name ∈ reads kind) {v : Json} (hv : ms.get? name = some v) : ¬ Refused name v := by
  have hform : ∀ {form : Json → Prop}, ms.Has name form → form v := by
    rintro form ⟨w, hw, hform⟩
    rwa [Option.some.inj (hv.symm.trans hw)]
  have htext : ms.Has name IsText → ¬ Refused name v := by
    intro htext
    obtain ⟨s, rfl⟩ := hform htext
    exact not_refused_text
  have hpoint : ms.Has "x" IsCoordinate ∧ ms.Has "y" IsCoordinate → name ∈ ["x", "y"] →
      ¬ Refused name v := by
    rintro ⟨hx, hy⟩ hname
    simp only [List.mem_cons, List.not_mem_nil, or_false] at hname
    rcases hname with rfl | rfl
    · exact not_refused_whole (hform hx)
    · exact not_refused_whole (hform hy)
  cases kind with
  | authenticate =>
    simp only [reads, List.mem_cons, List.not_mem_nil, or_false] at hname
    rcases hname with rfl | rfl
    · exact htext h.1
    · exact htext h.2
  | mouseClick =>
    rcases List.mem_cons.mp hname with rfl | hname
    · obtain ⟨b, hb⟩ := hform h.1
      exact not_refused_button hb
    · exact hpoint h.2 hname
  | mouseMove | mouseScroll | getWindowInfo => exact hpoint h hname
  | keyPress | keyRelease =>
    obtain rfl := List.mem_singleton.mp hname
    obtain ⟨key, rfl, -⟩ := hform h
    exact not_refused_text
  | typeText =>
    obtain rfl := List.mem_singleton.mp hname
    obtain ⟨text, rfl, -⟩ := hform h
    exact not_refused_text
  | captureScreen =>
    obtain rfl := List.mem_singleton.mp hname
    rcases h with hnone | hid
    · rw [hnone] at hv
      contradiction
    · exact not_refused_whole (hform hid)
  | getDisplays | listWindows => contradiction

/-! ### What makes no difference -/

theorem readPoint_congr (ho : ms.Ordered) (hn : ns.Ordered)
    (same : ∀ name ∈ ["x", "y"], ns.get? name = ms.get? name) : readPoint ns = readPoint ms := by
  have hcheck : checkFields [xField.test, yField.test] ns =
      checkFields [xField.test, yField.test] ms := ho.checkFields_congr hn same
  rw [readPoint, readPoint, hcheck, xField.of_congr (same "x" (by decide)),
    yField.of_congr (same "y" (by decide))]

/-- Only the members that a kind of command reads decide what comes of a payload. -/
theorem parse_congr (ho : ms.Ordered) (hn : ns.Ordered) {kind : CommandKind}
    (same : ∀ name ∈ reads kind, ns.get? name = ms.get? name) : parse kind ns = parse kind ms := by
  have hpayload : ofPayload kind ns = ofPayload kind ms := by
    cases kind with
    | authenticate =>
      have hcheck : checkFields [usernameField.test, passwordField.test] ns =
          checkFields [usernameField.test, passwordField.test] ms := ho.checkFields_congr hn same
      rw [ofPayload, ofPayload, readCredentials, readCredentials, hcheck,
        usernameField.of_congr (same "username" (by decide)),
        passwordField.of_congr (same "password" (by decide))]
    | mouseClick =>
      have hcheck : checkFields [buttonField.test, xField.test, yField.test] ns =
          checkFields [buttonField.test, xField.test, yField.test] ms :=
        ho.checkFields_congr hn same
      rw [ofPayload, ofPayload, readClick, readClick, hcheck,
        buttonField.of_congr (same "button" (by decide)), xField.of_congr (same "x" (by decide)),
        yField.of_congr (same "y" (by decide))]
    | mouseMove | mouseScroll | getWindowInfo =>
      rw [ofPayload, ofPayload, readPoint_congr ho hn same]
    | keyPress | keyRelease =>
      rw [ofPayload, ofPayload, readKey, readKey, keyField.of_congr (same "key" (by decide))]
    | typeText =>
      rw [ofPayload, ofPayload, readTyped, readTyped, textField.of_congr (same "text" (by decide))]
    | captureScreen =>
      rw [ofPayload, ofPayload, displayField.of_congr (same "display_id" (by decide))]
    | getDisplays | listWindows => rfl
  rw [parse, parse, hpayload]

/-- Every failure is one of the payload, and names the kind of command. -/
theorem fault_of_parse {kind : CommandKind} {e : ProtocolError} (h : parse kind ms = .error e) :
    ∃ fault, e = .invalidPayload kind fault := by
  unfold parse at h
  split at h
  · contradiction
  · exact ⟨_, (Except.error.inj h).symm⟩

/-- Exactly the documented payloads are understood. Whatever stands in an object, it is understood
for a kind of command exactly if it is documented for that kind, and then as the one request of the
kind that carries its values; null, floats and integers out of bounds are refused wherever a value
is read; every failure names the kind; and members that the kind does not read make no difference. -/
theorem parse_exact (kind : CommandKind) (ms : Members) (ho : ms.Ordered) :
    ((∃ r, parse kind ms = .ok r) ↔ Documented ms kind) ∧
    (∀ r, parse kind ms = .ok r ↔ r.kind = kind ∧ r.Carries ms) ∧
    (∀ name ∈ reads kind, ∀ v, ms.get? name = some v → Refused name v →
      ∃ e, parse kind ms = .error e) ∧
    (∀ e, parse kind ms = .error e → ∃ fault, e = .invalidPayload kind fault ∧
      e.message = "invalid payload for " ++ kind.name ++ ": " ++ fault.message) ∧
    (∀ ns : Members, ns.Ordered → (∀ name ∈ reads kind, ns.get? name = ms.get? name) →
      parse kind ns = parse kind ms) := by
  have hiff : ∀ r, parse kind ms = .ok r ↔ r.kind = kind ∧ r.Carries ms :=
    fun r => parse_eq_ok_iff_carries ho
  have haccept : (∃ r, parse kind ms = .ok r) ↔ Documented ms kind := by
    constructor
    · rintro ⟨r, hr⟩
      obtain ⟨rfl, hcarries⟩ := (hiff r).mp hr
      exact documented_of_carries hcarries
    · intro h
      obtain ⟨r, hr⟩ := exists_of_documented h
      exact ⟨r, (hiff r).mpr hr⟩
  refine ⟨haccept, hiff, ?_, ?_, fun ns hn same => parse_congr ho hn same⟩
  · intro name hname v hv hrefused
    cases hparse : parse kind ms with
    | error e => exact ⟨e, rfl⟩
    | ok r => exact absurd hrefused (not_refused_of_documented (haccept.mp ⟨r, hparse⟩) hname hv)
  · intro e he
    obtain ⟨fault, rfl⟩ := fault_of_parse he
    exact ⟨fault, rfl, rfl⟩

/-- A click at the edge of the coordinates with a button in its long form, and a repeated kind. -/
def clickPayload : Members :=
  [("button", .obj [("LEFT", .null)]), ("type", .str "mouse_click"), ("x", .int (-2147483648)),
    ("y", .int 2147483647)]

/-- The click is understood, with or without the member that it does not need. -/
theorem parse_exact_click :
    clickPayload.Ordered ∧
    parse .mouseClick clickPayload =
      .ok (.desktop (.mouseClick .left ⟨-2147483648, 2147483647⟩)) ∧
    parse .mouseClick (clickPayload.eraseIdx 1) = parse .mouseClick clickPayload := by
  have ho : clickPayload.Ordered := by unfold Members.Ordered; decide
  have hn : Members.Ordered (clickPayload.eraseIdx 1) := by unfold Members.Ordered; decide
  obtain ⟨-, hiff, -, -, hcongr⟩ := parse_exact .mouseClick clickPayload ho
  refine ⟨ho, (hiff _).mpr ⟨rfl, ?_, rfl, rfl⟩, hcongr _ hn ?_⟩
  · exact ⟨_, rfl, "LEFT", by decide, .inr rfl⟩
  · intro name hname
    simp only [reads, List.mem_cons, List.not_mem_nil, or_false] at hname
    rcases hname with rfl | rfl | rfl <;> rfl

end Request

end RemoteDesk
