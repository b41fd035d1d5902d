/-!
Permissions and sets of them. A set answers for each permission whether it is in, so two sets
with the same members are equal.
-/
namespace RemoteDesk

/-- A capability that commands need. -/
inductive Permission where
  /-- Moving the pointer and typing. -/
  | input
  /-- Taking pictures of the screen. -/
  | capture
  /-- Listing displays and windows. -/
  | query
  deriving DecidableEq, Repr, Inhabited

namespace Permission

/-- All permissions, in the order in which sets list them. -/
def all : List Permission := [.input, .capture, .query]

def name : Permission → String
  | .input => "input"
  | .capture => "capture"
  | .query => "query"

/-- The name as the audit log writes it. -/
def title : Permission → String
  | .input => "Input"
  | .capture => "Capture"
  | .query => "Query"

def ofName? (name : String) : Option Permission := all.find? fun p => p.name == name

theorem mem_all (p : Permission) : p ∈ all := by cases p <;> decide

@[simp] theorem ofName?_name (p : Permission) : ofName? p.name = some p := by cases p <;> decide

end Permission

/-- A name that no permission has. -/
structure UnknownPermission where
  name : String
  deriving DecidableEq, Repr

def UnknownPermission.message (e : UnknownPermission) : String :=
  "unknown permission '" ++ e.name ++ "'"

/-- A set of permissions. -/
structure PermissionSet where
  input : Bool
  capture : Bool
  query : Bool
  deriving DecidableEq, Repr, Inhabited

namespace PermissionSet

def empty : PermissionSet := ⟨false, false, false⟩

def contains (s : PermissionSet) : Permission → Bool
  | .input => s.input
  | .capture => s.capture
  | .query => s.query

def insert (s : PermissionSet) : Permission → PermissionSet
  | .input => { s with input := true }
  | .capture => { s with capture := true }
  | .query => { s with query := true }

def ofList (ps : List Permission) : PermissionSet := ps.foldl insert empty

/-- The members, in the order of `Permission.all`. -/
def toList (s : PermissionSet) : List Permission := Permission.all.filter s.contains

/-- The members by name. -/
def names (s : PermissionSet) : List String := s.toList.map (·.name)

/-- The set as the audit log writes it. -/
def title (s : PermissionSet) : String :=
  "\x7b" ++ ", ".intercalate (s.toList.map (·.title)) ++ "\x7d"

@[simp] theorem contains_empty (p : Permission) : empty.contains p = false := by cases p <;> rfl

@[simp] theorem contains_insert (s : PermissionSet) (p q : Permission) :
    (s.insert p).contains q = (decide (p = q) || s.contains q) := by
  cases p <;> cases q <;> simp [insert, contains]

theorem ext_contains {s t : PermissionSet} (h : ∀ p, s.contains p = t.contains p) : s = t := by
  have hi := h .input
  have hc := h .capture
  have hq := h .query
  cases s; cases t
  simp_all [contains]

@[simp] theorem mem_toList (s : PermissionSet) (p : Permission) :
    p ∈ s.toList ↔ s.contains p = true := by
  simp [toList, Permission.mem_all]

theorem contains_foldl_insert (ps : List Permission) (s : PermissionSet) (p : Permission) :
    (ps.foldl insert s).contains p = (decide (p ∈ ps) || s.contains p) := by
  induction ps generalizing s with
  | nil => simp
  | cons q ps ih =>
    rw [List.foldl_cons, ih, contains_insert, ← Bool.or_assoc]
    congr 1
    by_cases h : p = q <;> simp [h, eq_comm]

@[simp] theorem contains_ofList (ps : List Permission) (p : Permission) :
    (ofList ps).contains p = decide (p ∈ ps) := by
  simp [ofList, contains_foldl_insert]

end PermissionSet

end RemoteDesk
