import RemoteDesk.Mismatch

/-!
Records read from named values. The values that are present are checked first, in the order in
which they stand; only when all of them fit is a missing one reported. Names that no field has
are ignored.
-/
namespace RemoteDesk

/-- A field of a record: its name, how its value is read, and what its absence stands for, if it
may be absent. -/
structure Field (ν α : Type) where
  name : String
  read : ν → Except Mismatch α
  absent : Option α

namespace Field

variable {ν α : Type}

/-- A field that has to be there. -/
def needed (name : String) (read : ν → Except Mismatch α) : Field ν α := ⟨name, read, none⟩

/-- A field with a value for its absence. -/
def withDefault (name : String) (read : ν → Except Mismatch α) (absent : α) : Field ν α :=
  ⟨name, read, some absent⟩

/-- The field as a test of its value alone. -/
def test (f : Field ν α) : Field ν Unit :=
  ⟨f.name, fun v => (f.read v).map fun _ => (), f.absent.map fun _ => ()⟩

/-- The field's value among the members. -/
def of (f : Field ν α) (members : List (String × ν)) : Except Mismatch α :=
  match members.lookup f.name, f.absent with
  | some v, _ => f.read v
  | none, some a => .ok a
  | none, none => .error (.missingField f.name)

theorem of_present {f : Field ν α} {members : List (String × ν)} {v : ν}
    (h : members.lookup f.name = some v) : f.of members = f.read v := by simp [of, h]

theorem of_absent {f : Field ν α} {members : List (String × ν)} {a : α}
    (h : members.lookup f.name = none) (ha : f.absent = some a) : f.of members = .ok a := by
  simp [of, h, ha]

theorem of_missing {f : Field ν α} {members : List (String × ν)}
    (h : members.lookup f.name = none) (ha : f.absent = none) :
    f.of members = .error (.missingField f.name) := by simp [of, h, ha]

end Field

/-- Checks the values that are present, in the order in which they stand. -/
def checkFields (fields : List (Field ν Unit)) : List (String × ν) → Except Mismatch Unit
  | [] => .ok ()
  | (name, v) :: members =>
    match fields.find? fun f => f.name == name with
    | none => checkFields fields members
    | some f => (f.read v).bind fun _ => checkFields fields members

/-- The place of the first field that a list of so many values leaves out and should not. -/
def firstLeftOut? (fields : List (Field ν Unit)) (values : Nat) : Option Nat :=
  ((fields.drop values).findIdx? fun f => f.absent.isNone).map (values + ·)

/-- What a list of a record's values should have looked like. -/
def wantedElements (name : String) (fields : Nat) : String :=
  "struct " ++ name ++ " with " ++ toString fields ++
    (if fields = 1 then " element" else " elements")

/-- One of several named choices. -/
def chosen (choices : List (String × α)) (name : String) : Except Mismatch α :=
  match choices.lookup name with
  | some a => .ok a
  | none => .error (.unknownVariant name (choices.map (·.1)))

/-- An integer type, as messages name it, with its least and greatest number. -/
structure IntegerType where
  name : String
  least : Int
  most : Int

namespace IntegerType

def i32 : IntegerType := ⟨"i32", -2147483648, 2147483647⟩
def u16 : IntegerType := ⟨"u16", 0, 65535⟩
def u32 : IntegerType := ⟨"u32", 0, 4294967295⟩
def u64 : IntegerType := ⟨"u64", 0, 18446744073709551615⟩
def usize : IntegerType := ⟨"usize", 0, 18446744073709551615⟩

def contains (t : IntegerType) (n : Int) : Bool := t.least ≤ n && n ≤ t.most

/-- The number itself, when the type holds it. -/
def accept (t : IntegerType) (n : Int) : Except Mismatch Int :=
  if t.contains n then .ok n else .error (.wrongValue (.integer n) t.name)

theorem accept_eq_ok_iff {t : IntegerType} {n m : Int} :
    t.accept n = .ok m ↔ (t.least ≤ n ∧ n ≤ t.most) ∧ n = m := by
  have hc : t.contains n = true ↔ t.least ≤ n ∧ n ≤ t.most := by
    simp [contains]
  by_cases h : t.contains n = true
  · simp only [accept, if_pos h, Except.ok.injEq, hc.mp h, true_and]
  · simp only [accept, if_neg h, reduceCtorEq, mt hc.mpr h, false_and]

end IntegerType

/-- A form of data in which records are written. -/
class Data (ν : Type) where
  string : ν → Except Mismatch String
  bool : ν → Except Mismatch Bool
  integer : IntegerType → ν → Except Mismatch Int
  /-- The values of a record of the named type, by name; its fields have been checked. -/
  members : String → List (Field ν Unit) → ν → Except Mismatch (List (String × ν))

namespace Data

variable {ν α : Type} [Data ν]

def int32 (v : ν) : Except Mismatch Int32 := (integer .i32 v).map Int32.ofInt

def uint16 (v : ν) : Except Mismatch UInt16 :=
  (integer .u16 v).map fun n => UInt16.ofNat n.toNat

def uint32 (v : ν) : Except Mismatch UInt32 :=
  (integer .u32 v).map fun n => UInt32.ofNat n.toNat

def uint64 (v : ν) : Except Mismatch UInt64 :=
  (integer .u64 v).map fun n => UInt64.ofNat n.toNat

/-- A count of things in memory, which takes a word. -/
def size (v : ν) : Except Mismatch Nat := (integer .usize v).map Int.toNat

/-- A record of the named type. -/
def record (name : String) (fields : List (Field ν Unit))
    (build : List (String × ν) → Except Mismatch α) (v : ν) : Except Mismatch α :=
  (members name fields v).bind build

end Data

end RemoteDesk
