import RemoteDesk.Command.Envelope
import RemoteDesk.Command.Request

/-!
What a command that was read says about the object it was read from, and a request about the kind
it was parsed for.
-/
namespace RemoteDesk

open Json Desktop

theorem bind_eq_ok {ε α β : Type} {x : Except ε α} {f : α → Except ε β} {b : β}
    (h : (x >>= f) = .ok b) : ∃ a, x = .ok a ∧ f a = .ok b := by
  cases x with
  | error e => contradiction
  | ok a => exact ⟨a, rfl, h⟩

theorem map_eq_ok {ε α β : Type} {x : Except ε α} {f : α → β} {b : β}
    (h : x.map f = .ok b) : ∃ a, x = .ok a ∧ f a = b := by
  cases x with
  | error e => contradiction
  | ok a => exact ⟨a, rfl, Except.ok.inj h⟩

namespace Command

/-- A command that was read has the values of its fields. -/
theorem ofMembers_eq_ok {ms : Members} {c : Command} (h : ofMembers ms = .ok c) :
    idField.of ms = .ok c.id ∧ kindField.of ms = .ok c.kindName ∧
      payloadField.of ms = .ok c.payload ∧ timestampField.of ms = .ok c.timestamp ∧
      tokenField.of ms = .ok c.token? := by
  obtain ⟨_, -, h⟩ := bind_eq_ok h
  obtain ⟨id, hid, h⟩ := bind_eq_ok h
  obtain ⟨kindName, hkind, h⟩ := bind_eq_ok h
  obtain ⟨payload, hpayload, h⟩ := bind_eq_ok h
  obtain ⟨timestamp, htimestamp, h⟩ := bind_eq_ok h
  obtain ⟨token?, htoken, h⟩ := bind_eq_ok h
  obtain rfl := Except.ok.inj h
  exact ⟨hid, hkind, hpayload, htimestamp, htoken⟩

theorem ofObject_eq_ok {ms : Members} {c : Command} (h : ofObject ms = .ok c) :
    ofMembers ms = .ok c := by
  unfold ofObject at h
  split at h
  · rename_i hm
    rw [hm, Except.ok.inj h]
  · contradiction

theorem asString_eq_ok {v : Json} {s : String} (h : asString v = .ok s) : v = .str s := by
  cases v with
  | str t => rw [Except.ok.inj h]
  | _ => contradiction

/-- The identifier of a command is found even where the rest is not looked at. -/
theorem peekId_of_ofObject {ms : Members} {c : Command} (h : ofObject ms = .ok c) :
    peekId ms = some c.id := by
  have hid := (ofMembers_eq_ok (ofObject_eq_ok h)).1
  unfold Field.of at hid
  cases hv : ms.lookup idField.name with
  | none => rw [hv] at hid; contradiction
  | some v =>
    rw [hv] at hid
    have hs : ms.get? "id" = some (.str c.id) := by
      rw [← asString_eq_ok (v := v) hid]
      exact hv
    rw [peekId, hs]

end Command

/-- No call proves who the client is. -/
theorem Desktop.Call.kind_ne_authenticate (call : Call) : call.kind ≠ .authenticate := by
  cases call <;> nofun

namespace Request

theorem kind_of_ofPayload {kind : CommandKind} {ms : Members} {r : Request}
    (h : ofPayload kind ms = .ok r) : r.kind = kind := by
  cases kind with
  | getDisplays => rw [← Except.ok.inj h]; rfl
  | listWindows => rw [← Except.ok.inj h]; rfl
  | _ =>
    obtain ⟨_, -, rfl⟩ := map_eq_ok h
    rfl

/-- A request is of the kind for which its payload was parsed. -/
theorem kind_of_parse {kind : CommandKind} {ms : Members} {r : Request}
    (h : parse kind ms = .ok r) : r.kind = kind := by
  unfold parse at h
  split at h
  · rename_i hr
    rw [← Except.ok.inj h]
    exact kind_of_ofPayload hr
  · contradiction

end Request

end RemoteDesk
