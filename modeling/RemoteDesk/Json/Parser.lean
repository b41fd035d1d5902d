import RemoteDesk.Json.Scalar

/-!
Reading JSON values. Values nest at most 127 deep, counting the value itself. `limit` bounds the
number of items of any one array or object; the length of the text is always enough, since every
item takes a byte.
-/
namespace RemoteDesk.Json

/-- How deep arrays and objects may nest. -/
def maxDepth : Nat := 127

/-- Reads the items after the first, up to the closing bracket; `items` come last first. -/
def readItems (item : Reader Json) : Nat → List Json → Reader (List Json)
  | 0, _, bs => haltBefore .tooDeep bs
  | limit + 1, items, bs =>
    match skipBlank bs with
    | [] => haltBefore .endInList []
    | 0x5D :: r => .ok (items.reverse, r)
    | 0x2C :: r =>
      match skipBlank r with
      | [] => haltBefore .endInValue []
      | 0x5D :: r => haltBefore .trailingComma r
      | r => do
        let (v, r) ← item r
        readItems item limit (v :: items) r
    | _ :: r => haltBefore .wantedListEnd r

/-- Reads an array whose opening bracket has been taken. -/
def readArray (item : Reader Json) (limit : Nat) : Reader (List Json) := fun bs =>
  match skipBlank bs with
  | [] => haltBefore .endInList []
  | 0x5D :: r => .ok ([], r)
  | r => do
    let (v, r) ← item r
    readItems item limit [v] r

/-- Reads the colon between a key and its value. -/
def readColon (bs : Bytes) : Except Halt Bytes :=
  match skipBlank bs with
  | [] => haltBefore .endInObject []
  | 0x3A :: r => .ok r
  | _ :: r => haltBefore .wantedColon r

/-- Reads a member whose opening quote has been taken. -/
def readMember (item : Reader Json) : Reader (String × Json) := fun bs => do
  let (k, r) ← readString bs
  let r ← readColon r
  let (v, r) ← item r
  return ((k, v), r)

/-- Reads the members after the first, up to the closing brace; `members` come last first. -/
def readMembers (item : Reader Json) : Nat → List (String × Json) → Reader (List (String × Json))
  | 0, _, bs => haltBefore .tooDeep bs
  | limit + 1, members, bs =>
    match skipBlank bs with
    | [] => haltBefore .endInObject []
    | 0x7D :: r => .ok (members, r)
    | 0x2C :: r =>
      match skipBlank r with
      | [] => haltBefore .endInValue []
      | 0x22 :: r => do
        let (m, r) ← readMember item r
        readMembers item limit (m :: members) r
      | 0x7D :: r => haltBefore .trailingComma r
      | _ :: r => haltBefore .keyNotString r
    | _ :: r => haltBefore .wantedObjectEnd r

/-- Reads an object whose opening brace has been taken. -/
def readObject (item : Reader Json) (limit : Nat) : Reader Members := fun bs =>
  match skipBlank bs with
  | [] => haltBefore .endInObject []
  | 0x7D :: r => .ok ([], r)
  | 0x22 :: r => do
    let (m, r) ← readMember item r
    let (members, r) ← readMembers item limit [m] r
    return (Members.ofReversed members, r)
  | _ :: r => haltBefore .keyNotString r

/-- Reads a value that may hold `depth` levels of arrays and objects. -/
def readValue (limit : Nat) : Nat → Reader Json
  | depth, bs =>
    match skipBlank bs with
    | [] => haltBefore .endInValue []
    | 0x6E :: r => do
      let r ← readWord [0x75, 0x6C, 0x6C] r
      return (.null, r)
    | 0x74 :: r => do
      let r ← readWord [0x72, 0x75, 0x65] r
      return (.bool true, r)
    | 0x66 :: r => do
      let r ← readWord [0x61, 0x6C, 0x73, 0x65] r
      return (.bool false, r)
    | 0x22 :: r => do
      let (s, r) ← readString r
      return (.str s, r)
    | 0x5B :: r =>
      match depth with
      | 0 => haltBefore .tooDeep r
      | depth + 1 => do
        let (items, r) ← readArray (readValue limit depth) limit r
        return (.arr items, r)
    | 0x7B :: r =>
      match depth with
      | 0 => haltBefore .tooDeep r
      | depth + 1 => do
        let (members, r) ← readObject (readValue limit depth) limit r
        return (.obj members, r)
    | 0x2D :: r => do
      let (n, r) ← readNumber true r
      return (.num n, r)
    | b :: r =>
      if isDigit b then do
        let (n, r) ← readNumber false (b :: r)
        return (.num n, r)
      else haltBefore .wantedValue r

/-- Nothing but blanks may follow a document. -/
def readEnd (bs : Bytes) : Except Halt Unit :=
  match skipBlank bs with
  | [] => .ok ()
  | _ :: r => haltBefore .trailingCharacters r

/-- Reads a whole text with a reader, and locates its failure. -/
def readAll (reader : Reader α) (text : Bytes) : Except SyntaxError α :=
  let outcome : Except Halt α := do
    let (v, r) ← reader text
    readEnd r
    return v
  match outcome with
  | .ok v => .ok v
  | .error h => .error (h.locate text)

/-- The value that a text spells. -/
def parse (text : Bytes) : Except SyntaxError Json :=
  readAll (readValue text.length maxDepth) text

end RemoteDesk.Json
