import RemoteDesk.Desktop.Geometry
import RemoteDesk.Proofs.Record

/-!
What a desktop shows, read back. Numbers of every type, displays, windows and lists of them are
read from the JSON that they are written as, and nothing else comes of it.
-/
namespace RemoteDesk

/-! ### Values of JSON -/

namespace Json

namespace Members

variable {key k : String} {v w : Json} {ms : Members}

theorem insertNew_lt (h : key < k) :
    insertNew key v ((k, w) :: ms) = (key, v) :: (k, w) :: ms := if_pos h

theorem insertNew_gt (h : ¬ key < k) (hne : key ≠ k) :
    insertNew key v ((k, w) :: ms) = (k, w) :: insertNew key v ms :=
  (if_neg h).trans (if_neg hne)

theorem insertNew_nil : insertNew key v [] = [(key, v)] := rfl

/-- The members of an object are put in one by one, last first. -/
theorem ofList_cons (m : String × Json) (ms : Members) :
    ofList (m :: ms) = (ofList ms).insertNew m.1 m.2 := by
  rw [ofList, ofReversed, List.reverse_cons, List.foldl_append]
  rfl

theorem ofList_nil : ofList [] = [] := rfl

end Members

/-- A number that a type holds is read as itself. -/
theorem integer_int {t : IntegerType} {n : Int} (h : t.least ≤ n ∧ n ≤ t.most) :
    Data.integer t (int n) = .ok n := IntegerType.accept_eq_ok_iff.mpr ⟨h, rfl⟩

theorem int32_int (n : Int32) : Data.int32 (int n.toInt) = .ok n := by
  rw [Data.int32, integer_int ⟨n.le_toInt, n.toInt_le⟩]
  exact congrArg Except.ok n.ofInt_toInt

theorem uint32_nat (n : UInt32) : Data.uint32 (nat n.toNat) = .ok n := by
  have hmost : (n.toNat : Int) ≤ 4294967295 := by
    have := n.toNat_lt
    omega
  rw [Data.uint32, nat, ← int, integer_int ⟨Int.natCast_nonneg n.toNat, hmost⟩]
  exact congrArg Except.ok n.ofNat_toNat

theorem uint64_nat (n : UInt64) : Data.uint64 (nat n.toNat) = .ok n := by
  have hmost : (n.toNat : Int) ≤ 18446744073709551615 := by
    have := n.toNat_lt
    omega
  rw [Data.uint64, nat, ← int, integer_int ⟨Int.natCast_nonneg n.toNat, hmost⟩]
  exact congrArg Except.ok n.ofNat_toNat

variable {α : Type}

/-- An object whose members fit is read by its members. -/
theorem record_obj {name : String} {fields : List (Field Json Unit)}
    {build : Members → Except Mismatch α} {ms : Members} (h : checkFields fields ms = .ok ()) :
    Data.record name fields build (.obj ms) = build ms := by
  have hmembers : recordMembers name fields (.obj ms) = .ok ms := by
    rw [recordMembers, h]
    rfl
  exact congrArg (·.bind build) hmembers

/-- The list that an array spells. -/
def asList (read : Json → Except Mismatch α) : Json → Except Mismatch (List α)
  | .arr items => items.mapM read
  | v => v.mismatched "a sequence"

theorem asList_map {read : Json → Except Mismatch α} {write : α → Json}
    (h : ∀ a, read (write a) = .ok a) (as : List α) :
    asList read (.arr (as.map write)) = .ok as := by
  have hitems : (as.map write).mapM read = .ok as := by
    induction as with
    | nil => rfl
    | cons a as ih =>
      rw [List.map_cons, List.mapM_cons, h, ih]
      rfl
  exact hitems

end Json

/-! ### Displays and windows -/

namespace Desktop

open Json Data

/-- Text and truth values are read as they are. -/
theorem string_str (s : String) : string (Json.str s) = .ok s := rfl

theorem bool_bool (b : Bool) : bool (Json.bool b) = .ok b := rfl

theorem Point.ofData_members (p : Point) : Point.ofData (Json.obj p.members) = .ok p := by
  have hx : (Field.needed "x" int32).of p.members = .ok p.x := int32_int p.x
  have hy : (Field.needed "y" int32).of p.members = .ok p.y := int32_int p.y
  unfold Point.ofData
  refine (record_obj ?_).trans ?_
  · rw [Point.members, checkFields_cons rfl (Field.test_read (int32_int p.x)),
      checkFields_cons rfl (Field.test_read (int32_int p.y))]
    rfl
  · simp only [hx, hy]
    rfl

/-- The members of a display by name. -/
def Display.sorted (d : Display) : Members :=
  [("height", .nat d.height.toNat), ("id", .nat d.id.toNat), ("is_primary", .bool d.isPrimary),
    ("name", .str d.name), ("width", .nat d.width.toNat), ("x", .int d.x.toInt),
    ("y", .int d.y.toInt)]

theorem Display.toJson_eq (d : Display) : d.toJson = .obj d.sorted := by
  simp (disch := decide) only [toJson, sorted, object, members, Members.ofList_cons,
    Members.ofList_nil, Members.insertNew_nil, Members.insertNew_lt, Members.insertNew_gt]

/-- A display read back. -/
theorem Display.ofData_toJson (d : Display) : Display.ofData d.toJson = .ok d := by
  have hid : (Field.needed "id" uint32).of d.sorted = .ok d.id := uint32_nat d.id
  have hname : (Field.needed "name" string).of d.sorted = .ok d.name := rfl
  have hwidth : (Field.needed "width" uint32).of d.sorted = .ok d.width := uint32_nat d.width
  have hheight : (Field.needed "height" uint32).of d.sorted = .ok d.height := uint32_nat d.height
  have hx : (Field.needed "x" int32).of d.sorted = .ok d.x := int32_int d.x
  have hy : (Field.needed "y" int32).of d.sorted = .ok d.y := int32_int d.y
  have hprimary : (Field.needed "is_primary" bool).of d.sorted = .ok d.isPrimary := rfl
  rw [toJson_eq]
  unfold Display.ofData
  refine (record_obj ?_).trans ?_
  · rw [sorted, checkFields_cons rfl (Field.test_read (uint32_nat d.height)),
      checkFields_cons rfl (Field.test_read (uint32_nat d.id)),
      checkFields_cons rfl (Field.test_read (bool_bool d.isPrimary)),
      checkFields_cons rfl (Field.test_read (string_str d.name)),
      checkFields_cons rfl (Field.test_read (uint32_nat d.width)),
      checkFields_cons rfl (Field.test_read (int32_int d.x)),
      checkFields_cons rfl (Field.test_read (int32_int d.y))]
    rfl
  · simp only [hid, hname, hwidth, hheight, hx, hy, hprimary]
    rfl

/-- The members of a window by name. -/
def Window.sorted (w : Window) : Members :=
  [("height", .nat w.height.toNat), ("id", .nat w.id.toNat), ("position", .obj w.position.members),
    ("process_name", .str w.processName), ("title", .str w.title), ("width", .nat w.width.toNat)]

theorem Window.toJson_eq (w : Window) : w.toJson = .obj w.sorted := by
  simp (disch := decide) only [toJson, sorted, object, members, Members.ofList_cons,
    Members.ofList_nil, Members.insertNew_nil, Members.insertNew_lt, Members.insertNew_gt]

/-- A window read back. -/
theorem Window.ofData_toJson (w : Window) : Window.ofData w.toJson = .ok w := by
  have hid : (Field.needed "id" uint64).of w.sorted = .ok w.id := uint64_nat w.id
  have htitle : (Field.needed "title" string).of w.sorted = .ok w.title := rfl
  have hwidth : (Field.needed "width" uint32).of w.sorted = .ok w.width := uint32_nat w.width
  have hheight : (Field.needed "height" uint32).of w.sorted = .ok w.height := uint32_nat w.height
  have hposition : (Field.needed "position" Point.ofData).of w.sorted = .ok w.position :=
    w.position.ofData_members
  have hprocess : (Field.withDefault "process_name" string "").of w.sorted =
    .ok w.processName := rfl
  rw [toJson_eq]
  unfold Window.ofData
  refine (record_obj ?_).trans ?_
  · rw [sorted, checkFields_cons rfl (Field.test_read (uint32_nat w.height)),
      checkFields_cons rfl (Field.test_read (uint64_nat w.id)),
      checkFields_cons rfl (Field.test_read w.position.ofData_members),
      checkFields_cons rfl (Field.test_read (string_str w.processName)),
      checkFields_cons rfl (Field.test_read (string_str w.title)),
      checkFields_cons rfl (Field.test_read (uint32_nat w.width))]
    rfl
  · simp only [hid, htitle, hwidth, hheight, hposition, hprocess]
    rfl

/-- A window, or that there is none, read back. -/
theorem Window.asOption_toJson (w? : Option Window) :
    asOption Window.ofData (match w? with
      | some w => w.toJson
      | none => .null) = .ok w? := by
  cases w? with
  | none => rfl
  | some w =>
    have hread := w.ofData_toJson
    dsimp only
    rw [toJson_eq] at hread ⊢
    rw [asOption, hread]
    · rfl
    · exact fun h => by contradiction

end Desktop

end RemoteDesk
