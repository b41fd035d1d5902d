import RemoteDesk.Password.Argon2
import RemoteDesk.Password.Phc

/-!
Passwords are kept as records of their hashes, and checked against them.
-/
namespace RemoteDesk.Password

open Argon2

/-- The parameters of a record: its cost, and the data that its hash depends on. -/
structure Recorded where
  params : Params
  associated : Bytes
  deriving DecidableEq, Inhabited

/-- Takes a parameter into account. The key's name is checked but does not count. -/
def Recorded.set (r : Recorded) (name value : String) : Option Recorded :=
  match name with
  | "m" => (Phc.decimal value).toOption.map fun n => { r with params.memory := n }
  | "t" => (Phc.decimal value).toOption.map fun n => { r with params.passes := n }
  | "p" => (Phc.decimal value).toOption.map fun n => { r with params.lanes := n }
  | "keyid" => (Phc.readBytes 8 value).toOption.map fun _ => r
  | "data" => (Phc.readBytes 32 value).toOption.map fun bs => { r with associated := bs }
  | _ => none

/-- The parameters of a record, if they are all known. What is not said has its usual value. -/
def recorded (p : Phc) : Option Recorded :=
  p.params.foldlM (fun r (name, value) => r.set name value)
    ⟨{ Params.standard with length? := p.hash?.map (·.length) }, []⟩

/-- Bytes that a salt has at least. -/
def leastSalt : Nat := 8

/-- What has to be hashed to check a password against a record, if the record can be used. -/
def input? (p : Phc) (password : Bytes) : Option Input := do
  let variant ← Variant.ofName? p.algorithm
  let version ← match p.version? with
    | none => some .newer
    | some n => Version.ofNumber? n
  let r ← recorded p
  let params ← r.params.check.toOption
  let salt ← (Phc.readBytes 64 (← p.salt?)).toOption
  if salt.length < leastSalt then none
  else some ⟨variant, version, params, password, salt, r.associated⟩

/-- Whether a record is of this password. -/
def isRecordOf (p : Phc) (password : String) : Bool :=
  match input? p (utf8 password), p.hash? with
  | some x, some kept => Argon2.hash x == kept
  | _, _ => false

/-- Whether the text of a record is of this password. -/
def verify (password record : String) : Bool :=
  match Phc.parse record with
  | .ok p => isRecordOf p password
  | .error _ => false

/-! ### Making records -/

/-- Random bytes in a salt. -/
def saltBytes : Nat := 16

/-- The record of a password, at a cost within the limits. -/
def record (params : Params) (salt : Bytes) (password : String) : Except PhcError Phc :=
  if params.length < Phc.leastHash then .error .shortHash
  else if Phc.mostHash < params.length then .error .longHash
  else .ok ⟨Variant.id.name, some Version.newer.number,
    [("m", toString params.memory), ("t", toString params.passes), ("p", toString params.lanes)],
    some (Base64.encodeShort Base64.standard salt),
    some (Argon2.hash ⟨.id, .newer, params, utf8 password, salt, []⟩)⟩

/-! ### Accepting records -/

/-- Why the text of a record is not accepted. -/
inductive RecordFault where
  | notPhc (e : PhcError)
  | otherAlgorithm (name : String)
  | incomplete
  deriving DecidableEq, Repr, Inhabited

def RecordFault.message : RecordFault → String
  | .notPhc e => "is not a PHC string: " ++ e.message
  | .otherAlgorithm name => "uses " ++ name ++ ", expected argon2id"
  | .incomplete => "has no salt or hash"

/-- Accepts the text of a record with salt and hash, of any algorithm of the family. -/
def checkRecord (record : String) : Except RecordFault Unit :=
  match Phc.parse record with
  | .error e => .error (.notPhc e)
  | .ok p =>
    if !p.algorithm.startsWith "argon2" then .error (.otherAlgorithm p.algorithm)
    else if p.salt?.isNone || p.hash?.isNone then .error .incomplete
    else .ok ()

end RemoteDesk.Password
