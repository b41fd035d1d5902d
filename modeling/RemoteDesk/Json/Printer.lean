import RemoteDesk.Json.Basic

/-!
Compact JSON text. Strings escape the quote, the backslash and the bytes below the space;
everything else, including the slash and all of Unicode, stands for itself. `pretty` is the
same text spread over lines with two spaces to a level.
-/
namespace RemoteDesk.Json

/-- The escaped form of one byte of a string. -/
def escapeByte (b : UInt8) : Bytes :=
  if b = 0x22 then [0x5C, 0x22]
  else if b = 0x5C then [0x5C, 0x5C]
  else if 0x20 ≤ b then [b]
  else if b = 0x08 then [0x5C, 0x62]
  else if b = 0x09 then [0x5C, 0x74]
  else if b = 0x0A then [0x5C, 0x6E]
  else if b = 0x0C then [0x5C, 0x66]
  else if b = 0x0D then [0x5C, 0x72]
  else [0x5C, 0x75, 0x30, 0x30] ++
    utf8 (String.ofList [hexDigit (b.toNat / 16), hexDigit (b.toNat % 16)])

/-- A string between quotes. -/
def renderString (s : String) : Bytes := 0x22 :: ((utf8 s).flatMap escapeByte ++ [0x22])

def renderNumber : Number.Value → Bytes
  | .int n => utf8 (toString n)
  | .float x => utf8 (Number.Layout.wire.text x.toBits)

mutual

/-- The compact text of a value. -/
def render : Json → Bytes
  | .null => utf8 "null"
  | .bool true => utf8 "true"
  | .bool false => utf8 "false"
  | .num n => renderNumber n
  | .str s => renderString s
  | .arr items => 0x5B :: (renderItems items ++ [0x5D])
  | .obj members => 0x7B :: (renderMembers members ++ [0x7D])

/-- Values with a comma between them. -/
def renderItems : List Json → Bytes
  | [] => []
  | [v] => render v
  | v :: v' :: vs => render v ++ 0x2C :: renderItems (v' :: vs)

/-- Members with a comma between them. -/
def renderMembers : List (String × Json) → Bytes
  | [] => []
  | [(k, v)] => renderString k ++ 0x3A :: render v
  | (k, v) :: m :: ms => renderString k ++ 0x3A :: (render v ++ 0x2C :: renderMembers (m :: ms))

end

/-- A line break and the indentation of a level. -/
def newline (level : Nat) : Bytes := 0x0A :: List.replicate (2 * level) 0x20

mutual

/-- The text of a value over several lines, for a reader at a terminal. -/
def pretty (level : Nat) : Json → Bytes
  | .arr (v :: vs) => 0x5B :: (prettyItems (level + 1) (v :: vs) ++ newline level ++ [0x5D])
  | .obj (m :: ms) => 0x7B :: (prettyMembers (level + 1) (m :: ms) ++ newline level ++ [0x7D])
  | .null => utf8 "null"
  | .bool true => utf8 "true"
  | .bool false => utf8 "false"
  | .num n => renderNumber n
  | .str s => renderString s
  | .arr [] => utf8 "[]"
  | .obj [] => [0x7B, 0x7D]

def prettyItems (level : Nat) : List Json → Bytes
  | [] => []
  | [v] => newline level ++ pretty level v
  | v :: v' :: vs => newline level ++ pretty level v ++ 0x2C :: prettyItems level (v' :: vs)

def prettyMembers (level : Nat) : List (String × Json) → Bytes
  | [] => []
  | [(k, v)] => newline level ++ renderString k ++ utf8 ": " ++ pretty level v
  | (k, v) :: m :: ms =>
    newline level ++ renderString k ++ utf8 ": " ++ pretty level v ++
      0x2C :: prettyMembers level (m :: ms)

end

end RemoteDesk.Json
