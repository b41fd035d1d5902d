import RemoteDesk.Json.Basic

/-!
What can be wrong with JSON text, and where. A reader stops with the bytes that follow the place
it reports; line and column are counted from those only when the message is wanted.
-/
namespace RemoteDesk.Json

inductive Fault where
  | endInList
  | endInObject
  | endInString
  | endInValue
  | wantedColon
  | wantedListEnd
  | wantedObjectEnd
  | wantedIdent
  | wantedValue
  | badEscape
  | badNumber
  | numberRange
  | badCodePoint
  | controlCharacter
  | keyNotString
  | loneSurrogate
  | brokenSurrogate
  | trailingComma
  | trailingCharacters
  | tooDeep
  | mismatch (m : Mismatch)
  deriving Repr, Inhabited

def Fault.message : Fault → String
  | .endInList => "EOF while parsing a list"
  | .endInObject => "EOF while parsing an object"
  | .endInString => "EOF while parsing a string"
  | .endInValue => "EOF while parsing a value"
  | .wantedColon => "expected `:`"
  | .wantedListEnd => "expected `,` or `]`"
  | .wantedObjectEnd => "expected `,` or `\x7d`"
  | .wantedIdent => "expected ident"
  | .wantedValue => "expected value"
  | .badEscape => "invalid escape"
  | .badNumber => "invalid number"
  | .numberRange => "number out of range"
  | .badCodePoint => "invalid unicode code point"
  | .controlCharacter => "control character (\\u0000-\\u001F) found while parsing a string"
  | .keyNotString => "key must be a string"
  | .loneSurrogate => "lone leading surrogate in hex escape"
  | .brokenSurrogate => "unexpected end of hex escape"
  | .trailingComma => "trailing comma"
  | .trailingCharacters => "trailing characters"
  | .tooDeep => "recursion limit exceeded"
  | .mismatch m => m.message .wire

/-- A reader's failure: the fault, and the bytes after the place it is reported at. -/
structure Halt where
  fault : Fault
  rest : Bytes
  deriving Inhabited

/-- A reader takes a value off the front of a text. -/
abbrev Reader (α : Type) := Bytes → Except Halt (α × Bytes)

/-- Fails at the next byte, which counts as read. -/
def haltAt (fault : Fault) (bs : Bytes) : Except Halt α := .error ⟨fault, bs.tail⟩

/-- Fails behind the last byte read. -/
def haltBefore (fault : Fault) (bs : Bytes) : Except Halt α := .error ⟨fault, bs⟩

/-- A fault with its place in the text. -/
structure SyntaxError where
  fault : Fault
  line : Nat
  column : Nat
  deriving Repr, Inhabited

def SyntaxError.message (e : SyntaxError) : String :=
  e.fault.message ++ " at line " ++ toString e.line ++ " column " ++ toString e.column

/-- Lines are counted from one, columns by the bytes of the line read so far. -/
def Halt.locate (text : Bytes) (h : Halt) : SyntaxError :=
  let read := text.take (text.length - h.rest.length)
  ⟨h.fault, 1 + read.count 0x0A, (read.reverse.takeWhile (· ≠ 0x0A)).length⟩

end RemoteDesk.Json
