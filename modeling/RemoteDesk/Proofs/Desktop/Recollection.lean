import Mathlib.Data.List.Induction
import RemoteDesk.Proofs.Desktop.Calls
import RemoteDesk.Proofs.Desktop.Held

/-!
What the desktop in memory recalls. Its state is what the calls that succeeded make of its layout:
the last point aimed at, the number of clicks, the end of all that was typed, the keys held down,
and how far was scrolled. A call that fails, or that only looks, leaves no trace.
-/
namespace RemoteDesk.Desktop

/-- The corner of the first primary display, or else of the first display, or else the origin. -/
def home (displays : List Display) : Point :=
  match displays.filter (·.isPrimary) ++ displays with
  | d :: _ => ⟨d.x, d.y⟩
  | [] => ⟨0, 0⟩

/-- All that was typed. -/
def typed (calls : List Call) : List Char := calls.flatMap Call.types

/-- The sum with every partial sum kept within 64 bits. -/
def saturatingSum (ds : List Int) : Int :=
  ds.foldl (fun total d => max (-9223372036854775808) (min (total + d) 9223372036854775807)) 0

/-- The front-most window at a point. -/
def IsFrontmost (windows : List Window) (p : Point) (w : Window) : Prop :=
  w.contains p = true ∧
    ∃ before after, windows = before ++ w :: after ∧ ∀ v ∈ before, v.contains p = false

namespace Headless

/-! ### What is recalled -/

/-- What the desktop's state owes to the calls that succeeded. -/
structure Recalls (displays : List Display) (windows : List Window) (past : List Call)
    (h : Headless) : Prop where
  allDisplays : h.allDisplays = displays
  allWindows : h.allWindows = windows
  /-- The cursor is where the last move or click put it. -/
  cursor : h.cursor = ((past.filterMap Call.aim?).getLast?).getD (home displays)
  clicks : h.clicks.toNat = past.countP Call.isClick
  /-- The end of all that was typed is kept, up to 4096 characters. -/
  tail : h.typedText <:+ typed past
  tailLength : h.typedText.length = min 4096 (typed past).length
  typedChars : h.typedChars.toNat = min (typed past).length 18446744073709551615
  /-- Each held key is there once, and no other. -/
  held : ∀ key, key ∈ h.pressedKeys ↔ Held key past
  inOrder : h.pressedKeys.Pairwise (· < ·)
  bounded : h.pressedKeys.length ≤ 32
  scrolledX : h.scrolledX.toInt = saturatingSum ((past.filterMap Call.scroll?).map (·.1))
  scrolledY : h.scrolledY.toInt = saturatingSum ((past.filterMap Call.scroll?).map (·.2))

theorem cursor_new (displays : List Display) (windows : List Window) :
    (new displays windows).cursor = home displays := by
  unfold new home
  rw [← List.head?_filter]
  cases displays.filter (·.isPrimary) with
  | nil => cases displays <;> rfl
  | cons d ds => rfl

theorem recalls_new (displays : List Display) (windows : List Window) :
    Recalls displays windows [] (new displays windows) where
  allDisplays := rfl
  allWindows := rfl
  cursor := cursor_new displays windows
  clicks := rfl
  tail := List.suffix_refl _
  tailLength := rfl
  typedChars := rfl
  held _ := iff_of_false List.not_mem_nil not_held_nil
  inOrder := List.Pairwise.nil
  bounded := Nat.zero_le _
  scrolledX := rfl
  scrolledY := rfl

/-! ### One more call -/

theorem saturatingSum_concat (ds : List Int) (d : Int) : saturatingSum (ds ++ [d]) =
    max (-9223372036854775808) (min (saturatingSum ds + d) 9223372036854775807) :=
  List.foldl_append

theorem typed_concat (past : List Call) (c : Call) : typed (past ++ [c]) = typed past ++ c.types := by
  simp [typed]

namespace Recalls

variable {displays : List Display} {windows : List Window} {past : List Call} {h : Headless}

theorem cursor_step (r : Recalls displays windows past h) (c : Call) : (h.next c).cursor =
    (((past ++ [c]).filterMap Call.aim?).getLast?).getD (home displays) := by
  rw [cursor_next, List.filterMap_append, List.getLast?_append, r.cursor]
  cases hc : c.aim? with
  | none => simp [hc]
  | some p => simp [hc]

theorem clicks_step (r : Recalls displays windows past h) (c : Call)
    (few : past.length + 1 < Nat.pow 2 64) :
    (h.next c).clicks.toNat = (past ++ [c]).countP Call.isClick := by
  have hpast : past.countP Call.isClick ≤ past.length := List.countP_le_length
  have hfits : (h.clicks + 1).toNat = h.clicks.toNat + 1 := by
    rw [UInt64.toNat_add, r.clicks]
    exact Nat.mod_eq_of_lt (Nat.lt_of_le_of_lt (Nat.succ_le_succ hpast) few)
  rw [clicks_next, List.countP_append, ← r.clicks]
  cases hc : c.isClick with
  | true => simp [hc, hfits]
  | false => simp [hc]

/-- The end of the kept end and of what a call types is the end of all that was typed. -/
theorem typedText_step (r : Recalls displays windows past h) (c : Call) :
    (h.next c).typedText <:+ typed (past ++ [c]) ∧
      (h.next c).typedText.length = min 4096 (typed (past ++ [c])).length := by
  have hlength := r.tailLength
  obtain ⟨dropped, htail⟩ := r.tail
  rw [typedText_next (by omega), typed_concat]
  constructor
  · have hall : h.typedText ++ c.types <:+ typed past ++ c.types :=
      ⟨dropped, by rw [← htail, List.append_assoc]⟩
    exact (List.drop_suffix _ _).trans hall
  · rw [lastOf, List.length_drop, List.length_append, List.length_append]
    omega

theorem typedChars_step (r : Recalls displays windows past h) (c : Call) :
    (h.next c).typedChars.toNat = min (typed (past ++ [c])).length 18446744073709551615 := by
  rw [typedChars_next, r.typedChars, typed_concat, List.length_append]
  omega

theorem held_step (r : Recalls displays windows past h) (c : Call) (key : String) :
    key ∈ (h.next c).pressedKeys ↔ Held key (past ++ [c]) := by
  have hother : (∀ k, c ≠ .keyPress k) → (∀ k, c ≠ .keyRelease k) →
      (key ∈ (h.next c).pressedKeys ↔ Held key (past ++ [c])) := by
    intro hpress hrelease
    rw [pressedKeys_next hpress hrelease, held_concat (hpress key), r.held]
    exact (and_iff_right (hrelease key)).symm
  cases c with
  | keyPress k =>
    show key ∈ insertKey k h.pressedKeys ↔ _
    rw [mem_insertKey]
    by_cases hk : key = k
    · rw [hk]
      exact iff_of_true (.inl rfl) held_concat_press
    · rw [held_concat (by simpa using Ne.symm hk), r.held]
      simp [hk]
  | keyRelease k =>
    show key ∈ h.pressedKeys.erase k ↔ _
    rw [(nodup_of_pairwise r.inOrder).mem_erase_iff, held_concat (by simp), r.held]
    simp [eq_comm]
  | _ => exact hother (by simp) (by simp)

/-- The keys stay in order, and there is room for them. -/
theorem pressedKeys_step (r : Recalls displays windows past h) {c : Call} (ha : h.Allows c) :
    (h.next c).pressedKeys.Pairwise (· < ·) ∧ (h.next c).pressedKeys.length ≤ 32 := by
  cases c with
  | keyPress key =>
    refine ⟨pairwise_insertKey r.inOrder, ?_⟩
    show (insertKey key h.pressedKeys).length ≤ 32
    rcases ha with hmem | hroom
    · rw [insertKey_of_mem r.inOrder hmem]
      exact r.bounded
    · exact Nat.le_trans length_insertKey_le hroom
  | keyRelease key =>
    have hsub : (h.pressedKeys.erase key).Sublist h.pressedKeys := List.erase_sublist
    exact ⟨r.inOrder.sublist hsub, Nat.le_trans hsub.length_le r.bounded⟩
  | _ =>
    rw [pressedKeys_next (by simp) (by simp)]
    exact ⟨r.inOrder, r.bounded⟩

theorem scrolled_step (r : Recalls displays windows past h) (c : Call) :
    (h.next c).scrolledX.toInt =
      saturatingSum (((past ++ [c]).filterMap Call.scroll?).map (·.1)) ∧
    (h.next c).scrolledY.toInt =
      saturatingSum (((past ++ [c]).filterMap Call.scroll?).map (·.2)) := by
  rw [List.filterMap_append, List.map_append, List.map_append]
  rcases scrolled_next h c with ⟨hc, hx, hy⟩ | ⟨dx, dy, hc, hx, hy⟩
  · rw [hx, hy, r.scrolledX, r.scrolledY]
    simp [hc]
  · have hsingle : [c].filterMap Call.scroll? = [(dx.toInt, dy.toInt)] := by simp [hc]
    rw [hx, hy, hsingle, toInt_addScroll, toInt_addScroll, r.scrolledX, r.scrolledY]
    exact ⟨(saturatingSum_concat _ _).symm, (saturatingSum_concat _ _).symm⟩

/-- A call that is allowed is recalled. -/
theorem step (r : Recalls displays windows past h) {c : Call} (ha : h.Allows c)
    (few : past.length + 1 < Nat.pow 2 64) :
    Recalls displays windows (past ++ [c]) (h.next c) where
  allDisplays := (allDisplays_next h c).trans r.allDisplays
  allWindows := (allWindows_next h c).trans r.allWindows
  cursor := r.cursor_step c
  clicks := r.clicks_step c few
  tail := (r.typedText_step c).1
  tailLength := (r.typedText_step c).2
  typedChars := r.typedChars_step c
  held := r.held_step c
  inOrder := (r.pressedKeys_step ha).1
  bounded := (r.pressedKeys_step ha).2
  scrolledX := (r.scrolled_step c).1
  scrolledY := (r.scrolled_step c).2

end Recalls

/-- After fewer calls than a word counts, the desktop recalls those that succeeded. -/
theorem recalls_after (displays : List Display) (windows : List Window) (calls : List Call)
    (few : calls.length < Nat.pow 2 64) :
    let start := new displays windows
    Recalls displays windows (deeds calls start) (start.after calls) := by
  intro start
  induction calls using List.reverseRecOn with
  | nil => exact recalls_new displays windows
  | append_singleton calls c ih =>
    rw [List.length_append, List.length_singleton] at few
    have r := ih (Nat.lt_of_succ_lt few)
    have hlength := length_deeds_le calls start
    rw [after_concat, deeds_concat]
    rcases perform_cases (start.after calls) c with ⟨hd, ha, hnext⟩ | ⟨hd, _, hnext⟩
    · rw [if_pos hd, hnext]
      exact r.step ha (Nat.lt_of_le_of_lt (Nat.succ_le_succ hlength) few)
    · rw [if_neg hd, hnext, List.append_nil]
      exact r

/-! ### The next call -/

/-- How the desktop answers the next call, whatever that is. -/
structure Responds (displays : List Display) (windows : List Window) (past : List Call)
    (h : Headless) : Prop where
  move_iff : ∀ p, h.Does (.mouseMove p) ↔ ∃ d ∈ displays, d.contains p = true
  click_iff : ∀ button p, h.Does (.mouseClick button p) ↔ ∃ d ∈ displays, d.contains p = true
  scroll : ∀ dx dy, h.Does (.mouseScroll dx dy)
  press_iff : ∀ key, ¬ h.Does (.keyPress key) ↔ ¬ Held key past ∧ h.pressedKeys.length = 32
  release : ∀ key, h.Does (.keyRelease key)
  type : ∀ text, h.Does (.typeText text)
  /-- What fails changes nothing. -/
  failed : ∀ c, ¬ h.Does c → (Backend.perform c h).2 = h
  looks : ∀ c, c.looks = true → (Backend.perform c h).2 = h
  showsDisplays : (Backend.perform .displays h).1 = .done displays
  showsWindows : (Backend.perform .windows h).1 = .done windows
  /-- The front-most window at a point, if any holds it. -/
  showsWindowAt : ∀ p, ∃ found : Option Window,
    (Backend.perform (.windowAt p) h).1 = .done found ∧
    (∀ w, found = some w ↔ IsFrontmost windows p w) ∧
    (found = none ↔ ∀ w ∈ windows, w.contains p = false)

theorem next_of_looks (h : Headless) {c : Call} (hc : c.looks = true) : h.next c = h := by
  cases c with
  | captureScreen id | displays | windows | windowAt p => rfl
  | _ => exact absurd hc Bool.false_ne_true

theorem find?_frontmost (windows : List Window) (p : Point) (w : Window) :
    windows.find? (·.contains p) = some w ↔ IsFrontmost windows p w := by
  rw [List.find?_eq_some_iff_append]
  simp only [Bool.not_eq_true', IsFrontmost]

/-- The desktop is full exactly when it allows no key that is not held. -/
theorem Recalls.press_iff {displays : List Display} {windows : List Window} {past : List Call}
    {h : Headless} (r : Recalls displays windows past h) (key : String) :
    ¬ h.Does (.keyPress key) ↔ ¬ Held key past ∧ h.pressedKeys.length = 32 := by
  have hbounded := r.bounded
  rw [does_iff, ← r.held]
  show ¬ (key ∈ h.pressedKeys ∨ h.pressedKeys.length < 32) ↔ _
  rw [not_or, Nat.not_lt]
  exact and_congr_right fun _ => ⟨fun hfull => by omega, fun hfull => by omega⟩

theorem Recalls.responds {displays : List Display} {windows : List Window} {past : List Call}
    {h : Headless} (r : Recalls displays windows past h) : Responds displays windows past h where
  move_iff p := by
    rw [does_iff, ← r.allDisplays]
    rfl
  click_iff button p := by
    rw [does_iff, ← r.allDisplays]
    rfl
  scroll dx dy := (does_iff h _).mpr trivial
  press_iff := r.press_iff
  release key := (does_iff h _).mpr trivial
  type text := (does_iff h _).mpr trivial
  failed c hc := by
    rcases perform_cases h c with ⟨hd, _⟩ | ⟨_, _, hsame⟩
    · exact absurd hd hc
    · exact hsame
  looks c hc := by
    rcases perform_cases h c with ⟨_, _, hnext⟩ | ⟨_, _, hsame⟩
    · rw [hnext, next_of_looks h hc]
    · exact hsame
  showsDisplays := congrArg Outcome.done r.allDisplays
  showsWindows := congrArg Outcome.done r.allWindows
  showsWindowAt p := by
    refine ⟨windows.find? (·.contains p), ?_, find?_frontmost windows p, ?_⟩
    · rw [← r.allWindows]
      rfl
    · simp only [List.find?_eq_none, Bool.not_eq_true]

/-- After fewer calls than a word counts, the desktop is what the calls that succeeded make of it,
and by that it answers the next one. -/
theorem after_recalls_and_responds (displays : List Display) (windows : List Window)
    (calls : List Call) (few : calls.length < Nat.pow 2 64) :
    let start := new displays windows
    let past := deeds calls start
    let h := start.after calls
    Recalls displays windows past h ∧ Responds displays windows past h := by
  intro start past h
  have r : Recalls displays windows past h := recalls_after displays windows calls few
  exact ⟨r, r.responds⟩

/-- Two displays of which the second is the primary one. -/
def twoDisplays : List Display :=
  [⟨0, "Left", 4, 4, -4, 0, false⟩, ⟨1, "Right", 8, 4, 0, 0, true⟩]

/-- Clicks inside and outside of the displays, two keys of which one is released, and some text. -/
def someCalls : List Call :=
  [.mouseClick .left ⟨-1, 2⟩, .mouseMove ⟨8, 0⟩, .mouseClick .left ⟨9, 9⟩, .keyPress "b",
    .keyPress "a", .typeText "ab", .mouseScroll 3 (-1), .typeText "cé", .keyRelease "b", .displays,
    .mouseScroll (-5) 0]

theorem after_recalls_and_responds_someCalls :
    let start := new twoDisplays standardWindows
    let past := deeds someCalls start
    let h := start.after someCalls
    someCalls.length < Nat.pow 2 64 ∧ past.length = 9 ∧
    (start.cursor, h.cursor, h.clicks) = (⟨0, 0⟩, ⟨-1, 2⟩, 1) ∧
    (h.pressedKeys, h.typedText, h.typedChars) = (["a"], ['a', 'b', 'c', 'é'], 4) ∧
    (h.scrolledX, h.scrolledY) = (-2, -1) ∧
    Recalls twoDisplays standardWindows past h ∧ Responds twoDisplays standardWindows past h := by
  intro start past h
  have few : someCalls.length < Nat.pow 2 64 := by decide
  exact ⟨few, by decide +kernel, by decide +kernel, by decide +kernel, by decide +kernel,
    after_recalls_and_responds twoDisplays standardWindows someCalls few⟩

end Headless

end RemoteDesk.Desktop
