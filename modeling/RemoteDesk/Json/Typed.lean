import RemoteDesk.Json.Basic
import RemoteDesk.Record

/-!
JSON values read as values of a wanted type.
-/
namespace RemoteDesk.Json

/-- The complaint about a value of another type. -/
def mismatched (v : Json) (wanted : String) : Except Mismatch α := .error (.wrongType v.seen wanted)

def asString : Json → Except Mismatch String
  | .str s => .ok s
  | v => v.mismatched "a string"

def asBool : Json → Except Mismatch Bool
  | .bool b => .ok b
  | v => v.mismatched "a boolean"

def asMembers : Json → Except Mismatch Members
  | .obj ms => .ok ms
  | v => v.mismatched "a map"

/-- Integers of a type. A float never counts as one, not even a whole float. -/
def asInteger (t : IntegerType) : Json → Except Mismatch Int
  | .num (.int n) => t.accept n
  | v => v.mismatched t.name

/-- Null stands for nothing. -/
def asOption (read : Json → Except Mismatch α) : Json → Except Mismatch (Option α)
  | .null => .ok none
  | v => (read v).map some

/-- A choice without data: its name, or the object that maps its name to null. -/
def asChoice (choices : List (String × α)) : Json → Except Mismatch α
  | .str name => chosen choices name
  | .obj [(name, v)] => do
    let a ← chosen choices name
    match v with
    | .null => .ok a
    | v => v.mismatched "unit"
  | .obj _ => .error (.wrongValue .map "map with a single key")
  | v => v.mismatched "string or map"

/-- The values of a record's fields, by name. A record of the named type is an object, or the
list of its fields' values in their order. -/
def recordMembers (name : String) (fields : List (Field Json Unit)) : Json → Except Mismatch Members
  | .obj ms => do
    checkFields fields ms
    return ms
  | .arr items => do
    let ms := (fields.map (·.name)).zip items
    checkFields fields ms
    match firstLeftOut? fields items.length with
    | some i => .error (.wrongLength i (wantedElements name fields.length))
    | none =>
      if fields.length < items.length then
        .error (.wrongLength items.length "fewer elements in array")
      else .ok ms
  | v => v.mismatched ("struct " ++ name)

instance : Data Json := ⟨asString, asBool, asInteger, recordMembers⟩

end RemoteDesk.Json
