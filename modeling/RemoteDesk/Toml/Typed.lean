import RemoteDesk.Record
import RemoteDesk.Toml.Basic

/-!
TOML values read as values of a wanted type. A record is a table or the list of its fields'
values in their order; a choice is its name, or a table that maps its name to an empty one.
-/
namespace RemoteDesk.Toml

def seen : Toml → Seen
  | .text s => .text s
  | .integer n => .integer n
  | .float x => .float x
  | .boolean b => .boolean b
  | .moment | .table .. => .map
  | .list _ | .rows _ => .sequence

/-- The complaint about a value of another type. -/
def mismatched (v : Toml) (wanted : String) : Except Mismatch α := .error (.wrongType v.seen wanted)

/-- Texts, called as the wanted type. -/
def asTextOf (wanted : String) : Toml → Except Mismatch String
  | .text s => .ok s
  | v => v.mismatched wanted

def asString : Toml → Except Mismatch String := asTextOf "a string"

def asBool : Toml → Except Mismatch Bool
  | .boolean b => .ok b
  | v => v.mismatched "a boolean"

/-- Integers of a type. A float never counts as one, not even a whole float. -/
def asInteger (t : IntegerType) : Toml → Except Mismatch Int
  | .integer n => t.accept n
  | v => v.mismatched t.name

/-- The items of a list, as far as there is one. -/
def items? : Toml → Option (List Toml)
  | .list items => some items
  | .rows tables => some (tables.map (.table .heading))
  | _ => none

def asList (read : Toml → Except Mismatch α) (v : Toml) : Except Mismatch (List α) :=
  match v.items? with
  | some items => items.mapM read
  | none => v.mismatched "a sequence"

/-- The values of a record's fields, by name. Items past the last field are ignored, and a date
or time has no fields. -/
def recordMembers (name : String) (fields : List (Field Toml Unit)) (v : Toml) :
    Except Mismatch Entries :=
  match v, v.items? with
  | .table _ entries, _ => (checkFields fields entries).map fun _ => entries
  | .moment, _ => .ok []
  | _, some items => do
    let entries := (fields.map (·.name)).zip items
    checkFields fields entries
    match firstLeftOut? fields items.length with
    | some i => .error (.wrongLength i (wantedElements name fields.length))
    | none => return entries
  | v, none => v.mismatched ("struct " ++ name)

instance : Data Toml := ⟨asString, asBool, asInteger, recordMembers⟩

/-- What may stand beside the name of a choice without data. -/
def checkEmpty : Toml → Except Mismatch Unit
  | .table _ [] | .list [] | .rows [] => .ok ()
  | .table .. | .list _ => .error .tableNotEmpty
  | .rows _ => .error .listNotEmpty
  | .text _ => .error (.notTable "string")
  | .integer _ => .error (.notTable "integer")
  | .float _ => .error (.notTable "float")
  | .boolean _ => .error (.notTable "boolean")
  | .moment => .error (.notTable "datetime")

def asChoice (choices : List (String × α)) : Toml → Except Mismatch α
  | .text name => chosen choices name
  | .table _ [] => .error (.notOneEntry false)
  | .table _ [(name, v)] => do
    let a ← chosen choices name
    checkEmpty v
    return a
  | .table .. => .error (.notOneEntry true)
  | _ => .error .notNameOrTable

end RemoteDesk.Toml
