import RemoteDesk.Desktop.Headless

/-!
Calls to the desktop in memory. A call that the desktop allows succeeds, and each of its fields moves
on by itself; a call that it does not allow fails or crashes and changes nothing.
-/
namespace RemoteDesk.Desktop

/-- Whether the call succeeded. -/
def Outcome.isDone {α : Type} : Outcome α → Bool
  | .done _ => true
  | _ => false

/-! ### What calls leave behind -/

namespace Call

/-- The point that a call moves the cursor to. -/
def aim? : Call → Option Point
  | .mouseMove p => some p
  | .mouseClick _ p => some p
  | _ => none

def isClick : Call → Bool
  | .mouseClick .. => true
  | _ => false

/-- How far a call scrolls. -/
def scroll? : Call → Option (Int × Int)
  | .mouseScroll dx dy => some (dx.toInt, dy.toInt)
  | _ => none

/-- What a call types. -/
def types : Call → List Char
  | .typeText text => text.toList
  | _ => []

/-- Calls that only look. -/
def looks : Call → Bool
  | .captureScreen _ | .displays | .windows | .windowAt _ => true
  | _ => false

end Call

namespace Headless

/-! ### Runs -/

/-- The desktop after some calls. -/
def after (calls : List Call) (h : Headless) : Headless :=
  calls.foldl (fun h c => (Backend.perform c h).2) h

/-- Whether the call succeeds. -/
def Does (h : Headless) (c : Call) : Prop := (Backend.perform c h).1.isDone = true

instance (h : Headless) (c : Call) : Decidable (h.Does c) := inferInstanceAs (Decidable (_ = true))

/-- Those of the calls that succeed. -/
def deeds : List Call → Headless → List Call
  | [], _ => []
  | c :: calls, h => (if h.Does c then [c] else []) ++ deeds calls (Backend.perform c h).2

theorem after_concat (calls : List Call) (c : Call) (h : Headless) :
    h.after (calls ++ [c]) = (Backend.perform c (h.after calls)).2 :=
  List.foldl_append

theorem deeds_concat (calls : List Call) (c : Call) (h : Headless) :
    deeds (calls ++ [c]) h =
      deeds calls h ++ if (h.after calls).Does c then [c] else [] := by
  induction calls generalizing h with
  | nil => exact List.append_nil _
  | cons first calls ih =>
    rw [List.cons_append, deeds, ih, deeds, List.append_assoc]
    rfl

theorem length_deeds_le (calls : List Call) (h : Headless) :
    (deeds calls h).length ≤ calls.length := by
  induction calls generalizing h with
  | nil => exact Nat.le_refl _
  | cons c calls ih =>
    have := ih (Backend.perform c h).2
    rw [deeds, List.length_append, List.length_cons]
    split
    · rw [List.length_singleton]
      omega
    · rw [List.length_nil]
      omega

/-! ### One call -/

/-- Whether the desktop can do what a call asks for. -/
def Allows (h : Headless) : Call → Prop
  | .mouseMove p => ∃ d ∈ h.allDisplays, d.contains p = true
  | .mouseClick _ p => ∃ d ∈ h.allDisplays, d.contains p = true
  | .keyPress key => key ∈ h.pressedKeys ∨ h.pressedKeys.length < maxKeys
  | .captureScreen id =>
    ∃ d, h.allDisplays.find? (·.id == id) = some d ∧ pixmapSize d ≤ maxBuffer
  | _ => True

/-- What a call that succeeds makes of the desktop. -/
def next (h : Headless) : Call → Headless
  | .mouseMove p => { h with cursor := p }
  | .mouseClick _ p => { h with cursor := p, clicks := h.clicks + 1 }
  | .mouseScroll dx dy =>
    { h with scrolledX := addScroll h.scrolledX dx, scrolledY := addScroll h.scrolledY dy }
  | .keyPress key => { h with pressedKeys := insertKey key h.pressedKeys }
  | .keyRelease key => { h with pressedKeys := h.pressedKeys.erase key }
  | .typeText text => h.typeText text
  | _ => h

variable {h : Headless} {c : Call}

theorem moveCursor_of_mem {p : Point} (hp : ∃ d ∈ h.allDisplays, d.contains p = true) :
    h.moveCursor p = .ok { h with cursor := p } :=
  if_pos (List.any_eq_true.mpr hp)

theorem moveCursor_of_not_mem {p : Point} (hp : ¬ ∃ d ∈ h.allDisplays, d.contains p = true) :
    h.moveCursor p = .error (.platform (pointText p ++ " is outside every display")) :=
  if_neg fun hany => hp (List.any_eq_true.mp hany)

theorem capture_of_none {id : UInt32} (hd : h.allDisplays.find? (·.id == id) = none) :
    h.capture id = .failed (.invalidDisplay id) := by rw [capture, hd]

theorem capture_of_fits {id : UInt32} {d : Display}
    (hd : h.allDisplays.find? (·.id == id) = some d) (hfits : pixmapSize d ≤ maxBuffer) :
    h.capture id = .done ⟨id, "ppm", d.width, d.height, h.pixmap d⟩ := by
  rw [capture, hd]
  exact if_pos hfits

theorem capture_of_too_large {id : UInt32} {d : Display}
    (hd : h.allDisplays.find? (·.id == id) = some d) (hlarge : ¬ pixmapSize d ≤ maxBuffer) :
    h.capture id = .crashed := by
  rw [capture, hd]
  exact if_neg hlarge

theorem update_of_ok {h' : Headless} {result : Except Error Headless} (hr : result = .ok h') :
    h.update result = (.done (), h') := by rw [hr]; rfl

theorem update_of_error {e : Error} {result : Except Error Headless} (hr : result = .error e) :
    h.update result = (.failed e, h) := by rw [hr]; rfl

theorem perform_of_allows (ha : h.Allows c) :
    ∃ reply, Backend.perform c h = (.done reply, h.next c) := by
  cases c with
  | mouseMove p => exact ⟨(), update_of_ok (moveCursor_of_mem ha)⟩
  | mouseClick button p =>
    have hclick := congrArg (Except.map fun h => { h with clicks := h.clicks + 1 })
      (moveCursor_of_mem ha)
    exact ⟨(), update_of_ok hclick⟩
  | keyPress key =>
    have hroom : ¬ (!h.pressedKeys.contains key && maxKeys ≤ h.pressedKeys.length) = true := by
      simpa [Allows, Classical.or_iff_not_imp_left] using ha
    exact ⟨(), update_of_ok (if_neg hroom)⟩
  | captureScreen id =>
    obtain ⟨d, hd, hfits⟩ := ha
    exact ⟨_, congrArg (·, h) (capture_of_fits hd hfits)⟩
  | mouseScroll dx dy => exact ⟨(), rfl⟩
  | keyRelease key => exact ⟨(), rfl⟩
  | typeText text => exact ⟨(), rfl⟩
  | displays => exact ⟨_, rfl⟩
  | windows => exact ⟨_, rfl⟩
  | windowAt p => exact ⟨_, rfl⟩

theorem perform_of_not_allows (ha : ¬ h.Allows c) :
    ∃ outcome, outcome.isDone = false ∧ Backend.perform c h = (outcome, h) := by
  cases c with
  | mouseMove p => exact ⟨_, rfl, update_of_error (moveCursor_of_not_mem ha)⟩
  | mouseClick button p =>
    have hclick := congrArg (Except.map fun h => { h with clicks := h.clicks + 1 })
      (moveCursor_of_not_mem ha)
    exact ⟨_, rfl, update_of_error hclick⟩
  | keyPress key =>
    have hfull : (!h.pressedKeys.contains key && maxKeys ≤ h.pressedKeys.length) = true := by
      simpa [Allows] using ha
    exact ⟨_, rfl, update_of_error (if_pos hfull)⟩
  | captureScreen id =>
    cases hd : h.allDisplays.find? (·.id == id) with
    | none => exact ⟨_, rfl, congrArg (·, h) (capture_of_none hd)⟩
    | some d =>
      have hlarge : ¬ pixmapSize d ≤ maxBuffer := fun hfits => ha ⟨d, hd, hfits⟩
      exact ⟨_, rfl, congrArg (·, h) (capture_of_too_large hd hlarge)⟩
  | mouseScroll dx dy => exact absurd trivial ha
  | keyRelease key => exact absurd trivial ha
  | typeText text => exact absurd trivial ha
  | displays => exact absurd trivial ha
  | windows => exact absurd trivial ha
  | windowAt p => exact absurd trivial ha

/-- A call either is allowed and succeeds, or changes nothing. -/
theorem perform_cases (h : Headless) (c : Call) :
    (h.Does c ∧ h.Allows c ∧ (Backend.perform c h).2 = h.next c) ∨
    (¬ h.Does c ∧ ¬ h.Allows c ∧ (Backend.perform c h).2 = h) := by
  by_cases ha : h.Allows c
  · obtain ⟨reply, hdone⟩ := perform_of_allows ha
    exact .inl ⟨by rw [Does, hdone]; rfl, ha, by rw [hdone]⟩
  · obtain ⟨outcome, hnot, hsame⟩ := perform_of_not_allows ha
    exact .inr ⟨by rw [Does, hsame, hnot]; exact Bool.false_ne_true, ha, by rw [hsame]⟩

theorem does_iff (h : Headless) (c : Call) : h.Does c ↔ h.Allows c := by
  rcases perform_cases h c with ⟨hd, ha, _⟩ | ⟨hd, ha, _⟩
  · exact iff_of_true hd ha
  · exact iff_of_false hd ha

/-! ### What becomes of the fields -/

theorem toInt_addScroll (total : Int64) (d : Int32) :
    (addScroll total d).toInt =
      max (-9223372036854775808) (min (total.toInt + d.toInt) 9223372036854775807) := by
  rw [addScroll]
  exact Int64.toInt_ofInt_of_le (Int.le_max_left _ _) (by omega)

theorem toNat_addTyped (total : UInt64) (n : Nat) :
    (addTyped total n).toNat = min (total.toNat + n) 18446744073709551615 := by
  rw [addTyped, UInt64.toNat_ofNat']
  exact Nat.mod_eq_of_lt (by omega)

-- To compare the fields of both sides of the equation, the kernel would unfold the tail.
/-- Typing changes the tail and the count of what was typed only. -/
theorem next_typeText (h : Headless) (text : String) : ∃ tail count,
    h.next (.typeText text) = { h with typedText := tail, typedChars := count } :=
  ⟨_, _, rfl⟩

theorem cursor_next (h : Headless) (c : Call) : (h.next c).cursor = c.aim?.getD h.cursor := by
  cases c with
  | typeText text =>
    obtain ⟨tail, count, heq⟩ := next_typeText h text
    rw [heq]
    rfl
  | _ => rfl

theorem clicks_next (h : Headless) (c : Call) :
    (h.next c).clicks = if c.isClick then h.clicks + 1 else h.clicks := by
  cases c with
  | typeText text =>
    obtain ⟨tail, count, heq⟩ := next_typeText h text
    rw [heq]
    rfl
  | _ => rfl

/-- A call that does not type appends nothing to what was typed. -/
theorem typedChars_next (h : Headless) (c : Call) :
    (h.next c).typedChars.toNat = min (h.typedChars.toNat + c.types.length) 18446744073709551615 := by
  have hfits := h.typedChars.toNat_lt
  cases c with
  | typeText text => exact toNat_addTyped _ _
  | _ =>
    simp only [next, Call.types, List.length_nil]
    omega

theorem typedText_next {h : Headless} (hbound : h.typedText.length ≤ 4096) (c : Call) :
    (h.next c).typedText = lastOf 4096 (h.typedText ++ c.types) := by
  cases c with
  | typeText text => simp only [next, typeText, Call.types, textTail]
  | _ =>
    have hdrop : h.typedText.length - 4096 = 0 := by omega
    simp [next, Call.types, lastOf, hdrop]

theorem pressedKeys_next {h : Headless} {c : Call} (hpress : ∀ key, c ≠ .keyPress key)
    (hrelease : ∀ key, c ≠ .keyRelease key) : (h.next c).pressedKeys = h.pressedKeys := by
  cases c with
  | keyPress key => exact absurd rfl (hpress key)
  | keyRelease key => exact absurd rfl (hrelease key)
  | typeText text =>
    obtain ⟨tail, count, heq⟩ := next_typeText h text
    rw [heq]
  | _ => rfl

theorem allDisplays_next (h : Headless) (c : Call) : (h.next c).allDisplays = h.allDisplays := by
  cases c with
  | typeText text =>
    obtain ⟨tail, count, heq⟩ := next_typeText h text
    rw [heq]
  | _ => rfl

theorem allWindows_next (h : Headless) (c : Call) : (h.next c).allWindows = h.allWindows := by
  cases c with
  | typeText text =>
    obtain ⟨tail, count, heq⟩ := next_typeText h text
    rw [heq]
  | _ => rfl

theorem scrolled_next (h : Headless) (c : Call) :
    (c.scroll? = none ∧ (h.next c).scrolledX = h.scrolledX ∧ (h.next c).scrolledY = h.scrolledY) ∨
    ∃ dx dy : Int32, c.scroll? = some (dx.toInt, dy.toInt) ∧
      (h.next c).scrolledX = addScroll h.scrolledX dx ∧
      (h.next c).scrolledY = addScroll h.scrolledY dy := by
  cases c with
  | mouseScroll dx dy => exact .inr ⟨dx, dy, rfl, rfl, rfl⟩
  | typeText text =>
    obtain ⟨tail, count, heq⟩ := next_typeText h text
    rw [heq]
    exact .inl ⟨rfl, rfl, rfl⟩
  | _ => exact .inl ⟨rfl, rfl, rfl⟩

end Headless

end RemoteDesk.Desktop
