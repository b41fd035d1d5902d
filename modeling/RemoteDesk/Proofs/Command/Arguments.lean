import RemoteDesk.Proofs.Command.Reading

/-!
Where the arguments of a call come from. A call that was read from a payload has the numbers and
texts that stand there, and a button that one of its spellings stands for; nothing is rounded, cut
or exchanged.
-/
namespace RemoteDesk

open Json Desktop

/-! ### Numbers -/

namespace Json

theorem asInteger_eq_ok {t : IntegerType} {v : Json} {n : Int} (h : asInteger t v = .ok n) :
    v = .int n ∧ t.least ≤ n ∧ n ≤ t.most := by
  unfold asInteger at h
  split at h
  · obtain ⟨hrange, rfl⟩ := IntegerType.accept_eq_ok_iff.mp h
    exact ⟨rfl, hrange⟩
  · contradiction

theorem int32_eq_ok {v : Json} {n : Int32} (h : Data.int32 v = .ok n) : v = .int n.toInt := by
  obtain ⟨i, hi, rfl⟩ := map_eq_ok h
  obtain ⟨rfl, hleast, hmost⟩ := asInteger_eq_ok hi
  have hlt : i < 2 ^ 31 := Int.lt_of_le_of_lt hmost (by decide)
  rw [Int32.toInt_ofInt_of_le hleast hlt]

theorem uint32_eq_ok {v : Json} {n : UInt32} (h : Data.uint32 v = .ok n) : v = .nat n.toNat := by
  obtain ⟨i, hi, rfl⟩ := map_eq_ok h
  obtain ⟨rfl, hleast, hmost⟩ := asInteger_eq_ok hi
  have hlt : i.toNat < 2 ^ 32 := by
    have hmost : i ≤ 4294967295 := hmost
    omega
  rw [UInt32.toNat_ofNat', Nat.mod_eq_of_lt hlt, nat, Int.toNat_of_nonneg hleast]
  rfl

end Json

/-! ### Fields -/

theorem Field.needed_eq_ok {α : Type} {name : String} {read : Json → Except Mismatch α}
    {ms : Members} {a : α} (h : (Field.needed name read).of ms = .ok a) :
    ∃ v, ms.get? name = some v ∧ read v = .ok a := by
  cases hv : ms.lookup name with
  | none =>
    rw [Field.of_missing hv rfl] at h
    contradiction
  | some v =>
    rw [Field.of_present hv] at h
    exact ⟨v, hv, h⟩

theorem Field.int32_eq_ok {name : String} {ms : Members} {n : Int32}
    (h : (Field.needed name Data.int32).of ms = .ok n) : ms.get? name = some (.int n.toInt) := by
  obtain ⟨v, hv, hread⟩ := needed_eq_ok h
  rw [hv, Json.int32_eq_ok hread]

theorem Field.text_eq_ok {name : String} {ms : Members} {s : String}
    (h : (Field.needed name asString).of ms = .ok s) : ms.get? name = some (.str s) := by
  obtain ⟨v, hv, hread⟩ := needed_eq_ok h
  rw [hv, Command.asString_eq_ok hread]

namespace Desktop

/-- The members of a payload that are a point. -/
def Point.StandsIn (p : Point) (ms : Members) : Prop :=
  ms.get? "x" = some (.int p.x.toInt) ∧ ms.get? "y" = some (.int p.y.toInt)

/-- The arguments of a call are those in a payload. -/
def Call.StandsIn (ms : Members) : Call → Prop
  | .mouseMove p | .windowAt p => p.StandsIn ms
  | .mouseClick b p => p.StandsIn ms ∧
    ∃ v, ms.get? "button" = some v ∧ asChoice MouseButton.choices v = .ok b
  | .mouseScroll dx dy => (Point.mk dx dy).StandsIn ms
  | .keyPress key | .keyRelease key => ms.get? "key" = some (.str key)
  | .typeText text => ms.get? "text" = some (.str text)
  | .captureScreen id =>
    ms.get? "display_id" = some (.nat id.toNat) ∨ ms.get? "display_id" = none ∧ id = 0
  | .displays | .windows => True

end Desktop

namespace Request

variable {ms : Members}

theorem formal_eq_ok {α : Type} {e : Except Mismatch α} {a : α} (h : formal e = .ok a) :
    e = .ok a := by
  unfold formal at h
  split at h
  · rw [Except.ok.inj h]
  · contradiction

theorem readPoint_eq_ok {p : Point} (h : readPoint ms = .ok p) : p.StandsIn ms := by
  obtain ⟨_, -, h⟩ := bind_eq_ok h
  obtain ⟨x, hx, h⟩ := bind_eq_ok h
  obtain ⟨y, hy, h⟩ := bind_eq_ok h
  obtain rfl := Except.ok.inj h
  exact ⟨Field.int32_eq_ok hx, Field.int32_eq_ok hy⟩

theorem readClick_eq_ok {b : MouseButton} {p : Point} (h : readClick ms = .ok (b, p)) :
    Call.StandsIn ms (.mouseClick b p) := by
  obtain ⟨_, -, h⟩ := bind_eq_ok h
  obtain ⟨b', hb, h⟩ := bind_eq_ok h
  obtain ⟨x, hx, h⟩ := bind_eq_ok h
  obtain ⟨y, hy, h⟩ := bind_eq_ok h
  obtain ⟨rfl, rfl⟩ := Prod.mk.inj (Except.ok.inj h)
  exact ⟨⟨Field.int32_eq_ok hx, Field.int32_eq_ok hy⟩, Field.needed_eq_ok hb⟩

theorem readKey_eq_ok {key : String} (h : readKey ms = .ok key) :
    ms.get? "key" = some (.str key) := by
  obtain ⟨key', hkey, h⟩ := bind_eq_ok h
  split at h
  · contradiction
  · obtain rfl := Except.ok.inj h
    exact Field.text_eq_ok (formal_eq_ok hkey)

theorem readTyped_eq_ok {text : String} (h : readTyped ms = .ok text) :
    ms.get? "text" = some (.str text) := by
  obtain ⟨text', htext, h⟩ := bind_eq_ok h
  split at h
  · contradiction
  · obtain rfl := Except.ok.inj h
    exact Field.text_eq_ok (formal_eq_ok htext)

theorem displayField_eq_ok {id : UInt32} (h : displayField.of ms = .ok id) :
    Call.StandsIn ms (.captureScreen id) := by
  cases hv : ms.lookup "display_id" with
  | none =>
    rw [Field.of_absent (f := displayField) hv rfl] at h
    exact .inr ⟨hv, (Except.ok.inj h).symm⟩
  | some v =>
    rw [Field.of_present (f := displayField) hv] at h
    rw [uint32_eq_ok h] at hv
    exact .inl hv

/-- A call has its arguments from the payload. -/
theorem standsIn_of_parse {kind : CommandKind} {call : Call}
    (h : parse kind ms = .ok (.desktop call)) : call.StandsIn ms := by
  have hpayload : ofPayload kind ms = .ok (.desktop call) := by
    unfold parse at h
    split at h
    · rename_i hr
      rw [hr, Except.ok.inj h]
    · contradiction
  cases kind with
  | authenticate =>
    obtain ⟨c, -, hr⟩ := map_eq_ok hpayload
    contradiction
  | mouseMove =>
    obtain ⟨p, hp, hr⟩ := map_eq_ok hpayload
    rw [← Request.desktop.inj hr]
    exact readPoint_eq_ok (formal_eq_ok hp)
  | mouseClick =>
    obtain ⟨⟨b, p⟩, hp, hr⟩ := map_eq_ok hpayload
    rw [← Request.desktop.inj hr]
    exact readClick_eq_ok (formal_eq_ok hp)
  | mouseScroll =>
    obtain ⟨p, hp, hr⟩ := map_eq_ok hpayload
    rw [← Request.desktop.inj hr]
    exact readPoint_eq_ok (formal_eq_ok hp)
  | keyPress =>
    obtain ⟨key, hkey, hr⟩ := map_eq_ok hpayload
    rw [← Request.desktop.inj hr]
    exact readKey_eq_ok hkey
  | keyRelease =>
    obtain ⟨key, hkey, hr⟩ := map_eq_ok hpayload
    rw [← Request.desktop.inj hr]
    exact readKey_eq_ok hkey
  | typeText =>
    obtain ⟨text, htext, hr⟩ := map_eq_ok hpayload
    rw [← Request.desktop.inj hr]
    exact readTyped_eq_ok htext
  | captureScreen =>
    obtain ⟨id, hid, hr⟩ := map_eq_ok hpayload
    rw [← Request.desktop.inj hr]
    exact displayField_eq_ok (formal_eq_ok hid)
  | getDisplays =>
    rw [← Request.desktop.inj (Except.ok.inj hpayload)]
    exact trivial
  | listWindows =>
    rw [← Request.desktop.inj (Except.ok.inj hpayload)]
    exact trivial
  | getWindowInfo =>
    obtain ⟨p, hp, hr⟩ := map_eq_ok hpayload
    rw [← Request.desktop.inj hr]
    exact readPoint_eq_ok (formal_eq_ok hp)

end Request

end RemoteDesk
