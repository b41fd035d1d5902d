import RemoteDesk.Text.Base64
import RemoteDesk.Text.Quoted

/-!
Records of hashed passwords as text: fields behind dollar signs, for the algorithm, its version,
its parameters, the salt and the hash. Version, parameters, salt and hash may be left out, the
latter two from the end.
-/
namespace RemoteDesk

/-- What is wrong with a value. -/
inductive ValueFault where
  | badChar (c : Char)
  | badFormat
  | malformed
  | tooLong
  | tooShort
  deriving DecidableEq, Repr, Inhabited

def ValueFault.message : ValueFault → String
  | .badChar c => "contains invalid character: '" ++ String.singleton c ++ "'"
  | .badFormat => "value format is invalid"
  | .malformed => "value malformed"
  | .tooLong => "value to long"
  | .tooShort => "value to short"

inductive PhcError where
  | missingField
  | trailingData
  | name
  | value (fault : ValueFault)
  | salt (fault : ValueFault)
  | tooManyParams
  | encoding
  | encodedLength
  | shortHash
  | longHash
  deriving DecidableEq, Repr, Inhabited

namespace Phc

/-- Bytes that a hash has at least. -/
def leastHash : Nat := 10

/-- Bytes that a hash has at most. -/
def mostHash : Nat := 64

end Phc

def PhcError.message : PhcError → String
  | .missingField => "password hash string missing field"
  | .trailingData => "password hash string contains trailing characters"
  | .name => "invalid parameter name"
  | .value fault => "invalid parameter value: " ++ fault.message
  | .salt fault => "salt invalid: " ++ fault.message
  | .tooManyParams => "maximum number of parameters reached"
  | .encoding => "invalid Base64 encoding"
  | .encodedLength => "invalid Base64 length"
  | .shortHash => "output size too short, expected at least " ++ toString Phc.leastHash ++ " bytes"
  | .longHash => "output size too long, expected at most " ++ toString Phc.mostHash ++ " bytes"

/-- A record of a hashed password. -/
structure Phc where
  algorithm : String
  version? : Option Nat
  params : List (String × String)
  salt? : Option String
  hash? : Option Bytes
  deriving DecidableEq, Repr, Inhabited

namespace Phc

def isNameChar (c : Char) : Bool := ('a' ≤ c && c ≤ 'z') || ('0' ≤ c && c ≤ '9') || c = '-'

def isValueChar (c : Char) : Bool :=
  ('a' ≤ c && c ≤ 'z') || ('A' ≤ c && c ≤ 'Z') || ('0' ≤ c && c ≤ '9') || "/+.-".contains c

/-- A name: up to 32 small letters, figures and hyphens. -/
def readName (s : String) : Except PhcError String :=
  if 1 ≤ s.utf8ByteSize ∧ s.utf8ByteSize ≤ 32 ∧ s.toList.all isNameChar then .ok s
  else .error .name

/-- A value: up to 64 of the characters that values have. -/
def readValue (s : String) : Except ValueFault String :=
  if 64 < s.utf8ByteSize then .error .tooLong
  else match s.toList.find? fun c => !isValueChar c with
    | some c => .error (.badChar c)
    | none => .ok s

/-- A value as a number below `2³²`, without leading zeros. -/
def decimal (s : String) : Except ValueFault Nat :=
  if s.isEmpty then .error .malformed
  else match s.toList.find? fun c => !c.isDigit with
    | some c => .error (.badChar c)
    | none =>
      let n := s.toList.foldl (fun n c => n * 10 + (c.toNat - 48)) 0
      if s.startsWith "0" ∧ s.length ≠ 1 then .error .badFormat
      else if 4294967296 ≤ n then .error .badFormat
      else .ok n

def readVersion (s : String) : Except PhcError Nat :=
  match (readValue s).bind decimal with
  | .ok n => .ok n
  | .error fault => .error (.value fault)

/-- A name and a value with one equals sign between them. -/
def readParam (s : String) : Except PhcError (String × String) := do
  let parts := s.splitOn "="
  let name ← readName (parts.headD "")
  match parts.tail with
  | [] => .error (.value .malformed)
  | value :: more =>
    match readValue value with
    | .error fault => .error (.value fault)
    | .ok value => if more.isEmpty then .ok (name, value) else .error (.value .malformed)

def readParams (s : String) : Except PhcError (List (String × String)) :=
  if 127 < s.utf8ByteSize then .error .tooManyParams else (s.splitOn ",").mapM readParam

/-- A salt: from 4 to 64 of the characters that values have. -/
def readSalt (s : String) : Except PhcError String :=
  if s.utf8ByteSize < 4 then .error (.salt .tooShort)
  else match readValue s with
    | .ok s => .ok s
    | .error fault => .error (.salt fault)

/-- Bytes that base64 text without filling stands for, at most `room` of them. -/
def readBytes (room : Nat) (s : String) : Except PhcError Bytes :=
  let n := s.utf8ByteSize
  if room < n / 4 * 3 + n % 4 * 3 / 4 then .error .encodedLength
  else match Base64.decodeShort Base64.standard s.toList with
    | some bs => .ok bs
    | none => .error .encoding

def readHash (s : String) : Except PhcError Bytes := do
  let bs ← readBytes mostHash s
  if bs.length < leastHash then .error .shortHash else .ok bs

/-- Takes the next field if it is of a kind. -/
def takeIf (wanted : String → Bool) : List String → Option String × List String
  | [] => (none, [])
  | s :: fields => if wanted s then (some s, fields) else (none, s :: fields)

/-- The record that fields hold behind the first dollar sign. -/
def ofFields : List String → Except PhcError Phc
  | [] => .error .missingField
  | algorithm :: fields => do
    let algorithm ← readName algorithm
    let (version, fields) := takeIf (fun s => s.startsWith "v=" && !s.contains ',') fields
    let version? ← version.mapM fun s => readVersion (s.drop 2).toString
    let (params, fields) := takeIf (·.contains '=') fields
    let params ← params.mapM readParams
    let salt? ← fields.head?.mapM readSalt
    let hash? ← (fields.drop 1).head?.mapM readHash
    if 2 < fields.length then .error .trailingData
    else return ⟨algorithm, version?, params.getD [], salt?, hash?⟩

/-- The record that a text spells. -/
def parse (s : String) : Except PhcError Phc :=
  match s.splitOn "$" with
  | first :: fields => if first.isEmpty then ofFields fields else .error .missingField
  | [] => .error .missingField

/-- The text of a record. -/
def render (p : Phc) : String :=
  let version := p.version?.map fun n => "v=" ++ toString n
  let params := if p.params.isEmpty then none
    else some (",".intercalate (p.params.map fun q => q.1 ++ "=" ++ q.2))
  let hash := p.hash?.map (Base64.encodeShort Base64.standard)
  "$" ++ "$".intercalate ([some p.algorithm, version, params, p.salt?, hash].filterMap id)

end Phc

end RemoteDesk
