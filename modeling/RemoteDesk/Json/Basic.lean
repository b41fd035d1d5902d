import RemoteDesk.Bytes
import RemoteDesk.Mismatch

/-!
JSON values. Objects keep their members in increasing key order, one member to a key; the
operations here preserve that order. Integers outside the two 64-bit ranges, and numbers with a
fraction or an exponent, are floats.
-/
namespace RemoteDesk

inductive Number.Value where
  | int (n : Int)
  | float (x : Float)
  deriving Repr, Inhabited

inductive Json where
  | null
  | bool (b : Bool)
  | num (n : Number.Value)
  | str (s : String)
  | arr (items : List Json)
  | obj (members : List (String × Json))
  deriving Inhabited

namespace Json

/-- The members of an object. -/
abbrev Members := List (String × Json)

def int (n : Int) : Json := .num (.int n)

def nat (n : Nat) : Json := .num (.int n)

/-- The value under a key. -/
def Members.get? (ms : Members) (key : String) : Option Json :=
  ms.lookup key

/-- Puts a member in key order; a value already under the key stays. -/
def Members.insertNew (key : String) (value : Json) : Members → Members
  | [] => [(key, value)]
  | m :: ms =>
    if key < m.1 then (key, value) :: m :: ms
    else if key = m.1 then m :: ms
    else m :: insertNew key value ms

/-- The object written by members given last first: of several under one key the last written
counts, which is the first met here. -/
def Members.ofReversed (ms : Members) : Members :=
  ms.foldl (fun all m => all.insertNew m.1 m.2) []

/-- The object written by the members in this order. -/
def Members.ofList (ms : Members) : Members := ofReversed ms.reverse

/-- The object with these members. -/
def object (ms : List (String × Json)) : Json := .obj (Members.ofList ms)

/-- How a message names the kind of a value. -/
def kind : Json → String
  | .null => "null"
  | .bool _ => "a boolean"
  | .num _ => "a number"
  | .str _ => "a string"
  | .arr _ => "an array"
  | .obj _ => "an object"

def seen : Json → Seen
  | .null => .null
  | .bool b => .boolean b
  | .num (.int n) => .integer n
  | .num (.float x) => .float x
  | .str s => .text s
  | .arr _ => .sequence
  | .obj _ => .map

end Json

end RemoteDesk
