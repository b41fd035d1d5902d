import RemoteDesk.Json.Parser
import RemoteDesk.Json.Typed

/-!
Records read straight from JSON text, member by member, so that what is wrong is reported where
it stands. A record is an object, whose unknown members are passed over, or the list of its
fields' values in their order.
-/
namespace RemoteDesk.Json

/-! ### Values passed over -/

mutual

/-- Passes over a value inside the brackets that are open, innermost first; `true` stands for a
square one. Such values may nest to any depth. -/
def skipValueIn : Nat → List Bool → Bytes → Except Halt Bytes
  | 0, _, bs => haltBefore .tooDeep bs
  | limit + 1, brackets, bs =>
    match skipBlank bs with
    | [] => haltBefore .endInValue []
    | 0x6E :: r => do skipAfter limit brackets true (← readWord [0x75, 0x6C, 0x6C] r)
    | 0x74 :: r => do skipAfter limit brackets true (← readWord [0x72, 0x75, 0x65] r)
    | 0x66 :: r => do skipAfter limit brackets true (← readWord [0x61, 0x6C, 0x73, 0x65] r)
    | 0x22 :: r => do skipAfter limit brackets true (← skipString r)
    | 0x2D :: r => do skipAfter limit brackets true (← skipNumber r)
    | 0x5B :: r => skipAfter limit (true :: brackets) false r
    | 0x7B :: r => skipAfter limit (false :: brackets) false r
    | b :: r =>
      if isDigit b then do skipAfter limit brackets true (← skipNumber (b :: r))
      else haltBefore .wantedValue r

/-- Goes on behind a value, or behind an opening bracket, where no comma may stand. -/
def skipAfter : Nat → List Bool → Bool → Bytes → Except Halt Bytes
  | 0, _, _, bs => haltBefore .tooDeep bs
  | _ + 1, [], _, bs => .ok bs
  | limit + 1, square :: brackets, comma, bs =>
    match skipBlank bs with
    | [] => haltBefore (if square then .endInList else .endInObject) []
    | b :: r =>
      if b = (if square then 0x5D else 0x7D) then skipAfter limit brackets true r
      else if comma && b ≠ 0x2C then
        haltBefore (if square then .wantedListEnd else .wantedObjectEnd) r
      else
        let next := if comma then r else b :: r
        if square then skipValueIn limit (square :: brackets) next
        else match skipBlank next with
          | [] => haltBefore .endInObject []
          | 0x22 :: r => do
            let r ← readColon (← skipString r)
            skipValueIn limit (square :: brackets) r
          | _ :: r => haltBefore .keyNotString r

end

/-- Passes over one value. -/
def skipValue (bs : Bytes) : Except Halt Bytes := skipValueIn (2 * bs.length + 2) [] bs

/-! ### Values of a wanted type -/

/-- A mismatch is reported behind what was read. -/
def mismatchBefore (m : Mismatch) (rest : Bytes) : Except Halt α := haltBefore (.mismatch m) rest

/-- Reports the value that stands here, in place of a wanted one. Arrays and objects are named
unread. -/
def haltMismatched (wanted : String) (bs : Bytes) : Except Halt α :=
  match skipBlank bs with
  | [] => haltBefore .endInValue []
  | 0x5B :: r => mismatchBefore (.wrongType .sequence wanted) (0x5B :: r)
  | 0x7B :: r => mismatchBefore (.wrongType .map wanted) (0x7B :: r)
  | bs => do
    let (v, r) ← readValue 0 0 bs
    mismatchBefore (.wrongType v.seen wanted) r

def readText (wanted : String) : Reader String := fun bs =>
  match skipBlank bs with
  | 0x22 :: r => readString r
  | bs => haltMismatched wanted bs

def readBool : Reader Bool := fun bs =>
  match skipBlank bs with
  | 0x74 :: r => do return (true, ← readWord [0x72, 0x75, 0x65] r)
  | 0x66 :: r => do return (false, ← readWord [0x61, 0x6C, 0x73, 0x65] r)
  | bs => haltMismatched "a boolean" bs

/-- Reads a value without parts, and takes it as the wanted type. -/
def readAs (wanted : String) (read : Json → Except Mismatch α) : Reader α := fun bs =>
  match skipBlank bs with
  | [] => haltBefore .endInValue []
  | 0x5B :: r => mismatchBefore (.wrongType .sequence wanted) (0x5B :: r)
  | 0x7B :: r => mismatchBefore (.wrongType .map wanted) (0x7B :: r)
  | bs => do
    let (v, r) ← readValue 0 0 bs
    match read v with
    | .ok a => .ok (a, r)
    | .error m => mismatchBefore m r

/-- Null stands for nothing. -/
def readOption (reader : Reader α) : Reader (Option α) := fun bs =>
  match skipBlank bs with
  | 0x6E :: r => do return (none, ← readWord [0x75, 0x6C, 0x6C] r)
  | bs => do
    let (a, r) ← reader bs
    return (some a, r)

/-- Reads an object that may hold `depth` levels, itself included. -/
def readMap (limit depth : Nat) : Reader Members := fun bs =>
  match skipBlank bs, depth with
  | 0x7B :: r, 0 => haltBefore .tooDeep r
  | 0x7B :: r, depth + 1 => readObject (readValue limit depth) limit r
  | bs, _ => haltMismatched "a map" bs

/-- Reads the name of a choice. -/
def readChosen (choices : List (String × α)) : Reader α := fun bs => do
  let (name, r) ← readText "variant identifier" bs
  match chosen choices name with
  | .ok a => .ok (a, r)
  | .error m => mismatchBefore m r

/-- Reads a choice without data: its name, or an object that maps its name to null. -/
def readChoice (choices : List (String × α)) (depth : Nat) : Reader α := fun bs =>
  match skipBlank bs with
  | [] => haltBefore .endInValue []
  | 0x22 :: r => readChosen choices (0x22 :: r)
  | 0x7B :: r =>
    if depth = 0 then haltBefore .tooDeep r
    else do
      let (a, r) ← readChosen choices r
      let r ← readColon r
      let ((), r) ← match skipBlank r with
        | 0x6E :: r => do pure ((), ← readWord [0x75, 0x6C, 0x6C] r)
        | r => haltMismatched "unit" r
      match skipBlank r with
      | [] => haltBefore .endInObject []
      | 0x7D :: r => .ok (a, r)
      | r => haltBefore .wantedValue r
  | _ :: r => haltBefore .wantedValue r

/-! ### Records -/

/-- A field of a record in text. Its reader gives what fills the field in. -/
structure Slot (ρ : Type) where
  name : String
  needed : Bool
  read : Reader (ρ → ρ)

/-- A field that has to be there. -/
def Slot.of (name : String) (reader : Reader α) (fill : α → ρ → ρ) : Slot ρ :=
  ⟨name, true, fun bs => do
    let (a, r) ← reader bs
    return (fill a, r)⟩

/-- A field that may be left out. -/
def Slot.free (name : String) (reader : Reader α) (fill : α → ρ → ρ) : Slot ρ :=
  { Slot.of name reader fill with needed := false }

/-- The first needed field that has not been read. -/
def firstUnread? (slots : List (Slot ρ)) (names : List String) : Option String :=
  (slots.find? fun s => s.needed && !names.contains s.name).map (·.name)

mutual

/-- Reads members up to the closing brace; `first` while none has been read. -/
def readSlots (slots : List (Slot ρ)) : Nat → Bool → List String → ρ → Reader ρ
  | 0, _, _, _, bs => haltBefore .tooDeep bs
  | limit + 1, first, names, value, bs =>
    match skipBlank bs with
    | [] => haltBefore .endInObject []
    | 0x7D :: r =>
      match firstUnread? slots names with
      | some name => mismatchBefore (.missingField name) r
      | none => .ok (value, r)
    | b :: r =>
      if first then
        if b = 0x22 then readSlot slots limit names value r else haltBefore .keyNotString r
      else if b ≠ 0x2C then haltBefore .wantedObjectEnd r
      else match skipBlank r with
        | [] => haltBefore .endInValue []
        | 0x22 :: r => readSlot slots limit names value r
        | 0x7D :: r => haltBefore .trailingComma r
        | _ :: r => haltBefore .keyNotString r

/-- Reads a member whose opening quote has been taken, and goes on. -/
def readSlot (slots : List (Slot ρ)) : Nat → List String → ρ → Reader ρ
  | 0, _, _, bs => haltBefore .tooDeep bs
  | limit + 1, names, value, bs => do
    let (name, r) ← readString bs
    match slots.find? fun s => s.name == name with
    | none => do
      let r ← readColon r
      let r ← skipValue r
      readSlots slots limit false names value r
    | some s =>
      if names.contains name then
        match skipBlank r with
        | 0x7D :: r => mismatchBefore (.duplicateField name) r
        | r => mismatchBefore (.duplicateField name) r
      else do
        let r ← readColon r
        let (fill, r) ← s.read r
        readSlots slots limit false (name :: names) (fill value) r

end

/-- Reads the closing bracket behind the last field's value. -/
def readListEnd (bs : Bytes) : Except Halt Bytes :=
  match skipBlank bs with
  | [] => haltBefore .endInList []
  | 0x5D :: r => .ok r
  | 0x2C :: r =>
    match skipBlank r with
    | 0x5D :: r => haltBefore .trailingComma r
    | r => haltAt .trailingCharacters r
  | _ :: r => haltBefore .trailingCharacters r

/-- Reads the values of the fields in their order, up to the closing bracket; `place` counts
those before. -/
def readElements (wanted : String) : List (Slot ρ) → Nat → ρ → Reader ρ
  | [], _, value, bs => do return (value, ← readListEnd bs)
  | s :: slots, place, value, bs =>
    match skipBlank bs with
    | [] => haltBefore .endInList []
    | 0x5D :: r =>
      match (s :: slots).findIdx? (·.needed) with
      | some i => mismatchBefore (.wrongLength (place + i) wanted) r
      | none => .ok (value, r)
    | b :: r =>
      if place = 0 then do
        let (fill, r) ← s.read (b :: r)
        readElements wanted slots (place + 1) (fill value) r
      else if b ≠ 0x2C then haltBefore .wantedListEnd r
      else match skipBlank r with
        | [] => haltBefore .endInValue []
        | 0x5D :: r => haltBefore .trailingComma r
        | r => do
          let (fill, r) ← s.read r
          readElements wanted slots (place + 1) (fill value) r

/-- Reads a record of the named type that may hold `depth` levels, itself included. Fields that
are left out keep their value in `start`. -/
def readRecord (name : String) (slots : Nat → List (Slot ρ)) (start : ρ) (depth : Nat) :
    Reader ρ := fun bs =>
  match skipBlank bs, depth with
  | 0x5B :: r, 0 => haltBefore .tooDeep r
  | 0x7B :: r, 0 => haltBefore .tooDeep r
  | 0x5B :: r, depth + 1 =>
    readElements (wantedElements name (slots depth).length) (slots depth) 0 start r
  | 0x7B :: r, depth + 1 => readSlots (slots depth) (2 * r.length + 2) true [] start r
  | bs, _ => haltMismatched ("struct " ++ name) bs

end RemoteDesk.Json
