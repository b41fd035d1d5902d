import RemoteDesk.Toml.Number

/-!
Reading TOML documents: keys, values, and the statements of a document line by line. Arrays and
tables in braces nest at most 79 deep, and a key has at most 79 parts. `limit` bounds the number
of items of one of them; the length of the text is always enough, since every item takes a
character.
-/
namespace RemoteDesk.Toml

/-- How deep values may nest. -/
def maxDepth : Nat := 79

/-! ### Keys -/

def isBare (c : Char) : Bool := c.isAlphanum || c = '_' || c = '-'

/-- Reads one part of a key, with the blanks around it. -/
def readKeyPart : Reader String := fun cs =>
  let cs := skipBlank cs
  match readLine cs with
  | some (s, r) => some (s, skipBlank r)
  | none =>
    match cs.takeWhile isBare with
    | [] => none
    | name => some (String.ofList name, skipBlank (cs.drop name.length))

/-- Reads a key; `before` holds its parts so far, last first. -/
def readKeyFrom : Nat → List String → Reader Key
  | 0, _, _ => none
  | limit + 1, before, cs => do
    let (name, r) ← readKeyPart cs
    match r with
    | '.' :: r => readKeyFrom limit (name :: before) r
    | r => return (⟨before.reverse, name⟩, r)

def readKey : Reader Key := readKeyFrom maxDepth []

/-- Reads a key, the sign behind it, and a value. -/
def readEntry (value : Reader Toml) : Reader (Key × Toml) := fun cs => do
  let (key, r) ← readKey cs
  let r ← takeChar '=' r
  let (v, r) ← value (skipBlank r)
  return ((key, v), r)

/-! ### Values -/

/-- Reads items up to the closing bracket; `items` come last first. -/
def readItems (value : Reader Toml) : Nat → List Toml → Reader (List Toml)
  | 0, _, _ => none
  | limit + 1, items, cs =>
    match skipLines false cs with
    | ']' :: r => some (items.reverse, r)
    | cs => do
      let (v, r) ← value cs
      match skipLines false r with
      | ']' :: r => return ((v :: items).reverse, r)
      | ',' :: r => readItems value limit (v :: items) r
      | _ => none

/-- Reads entries up to the closing brace; `pairs` come last first. -/
def readEntries (value : Reader Toml) : Nat → List (Key × Toml) → Reader (List (Key × Toml))
  | 0, _, _ => none
  | limit + 1, pairs, cs => do
    let (p, r) ← readEntry value cs
    match skipBlank r with
    | '\x7d' :: r => return ((p :: pairs).reverse, r)
    | ',' :: r => readEntries value limit (p :: pairs) r
    | _ => none

/-- Reads a table whose opening brace has been taken. -/
def readBraces (value : Reader Toml) (limit : Nat) : Reader Toml := fun cs =>
  match skipBlank cs with
  | '\x7d' :: r => some (.table .braces [], r)
  | cs => do
    let (pairs, r) ← readEntries value limit [] cs
    return (.table .braces (← Entries.addKeys pairs []), r)

/-- Reads a value that may hold `depth` levels of arrays and of tables in braces. -/
def readValue (limit : Nat) : Nat → Reader Toml
  | depth, cs =>
    match cs with
    | '"' :: _ | '\'' :: _ => do
      let (s, r) ← readString cs
      return (.text s, r)
    | 't' :: 'r' :: 'u' :: 'e' :: r => some (.boolean true, r)
    | 'f' :: 'a' :: 'l' :: 's' :: 'e' :: r => some (.boolean false, r)
    | '[' :: r =>
      match depth with
      | 0 => none
      | depth + 1 => do
        let (items, r) ← readItems (readValue limit depth) limit [] r
        return (.list items, r)
    | '\x7b' :: r =>
      match depth with
      | 0 => none
      | depth + 1 => readBraces (readValue limit depth) limit r
    | _ => (readMoment cs).orElse fun _ => readNumber cs

/-! ### Documents -/

/-- Reads what a heading announces. -/
def readHeading : Reader Heading
  | '[' :: '[' :: r => do
    let (key, r) ← readKey r
    return (.row key, ← takeChar ']' (← takeChar ']' r))
  | '[' :: r => do
    let (key, r) ← readKey r
    return (.table key, ← takeChar ']' r)
  | _ => none

/-- Reads entries, one to a line, up to the next heading or the end; `pairs` come last first. -/
def readPairs (value : Reader Toml) : Nat → List (Key × Toml) → Reader (List (Key × Toml))
  | 0, _, _ => none
  | limit + 1, pairs, cs =>
    match skipLines false cs with
    | [] => some (pairs.reverse, [])
    | '[' :: r => some (pairs.reverse, '[' :: r)
    | cs => do
      let (p, r) ← readEntry value cs
      readPairs value limit (p :: pairs) (← takeLineEnd r)

/-- Reads the parts of a document; `parts` come last first. -/
def readParts (value : Reader Toml) (limit : Nat) : Nat → List Part → List Char →
    Option (List Part)
  | _, parts, [] => some parts.reverse
  | 0, _, _ => none
  | rest + 1, parts, cs => do
    let (heading, r) ← readHeading cs
    let (pairs, r) ← readPairs value limit [] (← takeLineEnd r)
    readParts value limit rest (⟨heading, pairs⟩ :: parts) r

/-- A mark of the byte order may stand at the front of a document. -/
def skipMark : List Char → List Char
  | '\uFEFF' :: r => r
  | cs => cs

/-- The entries of the document that a text spells. -/
def parse (text : String) : Option Entries := do
  let cs := unifyLines (skipMark text.toList)
  let limit := cs.length + 1
  let value := readValue limit maxDepth
  let (pairs, r) ← readPairs value limit [] cs
  Entries.ofParts pairs (← readParts value limit limit [] r)

end RemoteDesk.Toml
