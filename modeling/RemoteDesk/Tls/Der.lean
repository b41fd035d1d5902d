import RemoteDesk.Bytes

/-!
Values with a tag and a length, in their one canonical form. Lengths take two bytes at most.
Readers take a value off the front.
-/
namespace RemoteDesk.Tls.Der

abbrev Reader (α : Type) := Bytes → Option (α × Bytes)

def integerTag : UInt8 := 0x02
def bitsTag : UInt8 := 0x03
def octetsTag : UInt8 := 0x04
def sequenceTag : UInt8 := 0x30

/-- The tag of the field with a number, which holds one value or, if `nested`, values. -/
def fieldTag (number : UInt8) (nested : Bool) : UInt8 := (if nested then 0xA0 else 0x80) + number

/-- The number that bytes spell, most significant first. -/
def number (bs : Bytes) : Nat := bs.foldl (fun n b => n * 256 + b.toNat) 0

/-- Takes a length; only the shortest form of it counts. -/
def readLength : Reader Nat
  | a :: r =>
    if a < 0x80 then some (a.toNat, r)
    else if a = 0x81 then
      match r with
      | b :: r => if b < 0x80 then none else some (b.toNat, r)
      | [] => none
    else if a = 0x82 then
      match r with
      | b :: c :: r => if b = 0 then none else some (b.toNat * 256 + c.toNat, r)
      | _ => none
    else none
  | [] => none

/-- Reads the content of a value with a tag. -/
def readTagged (tag : UInt8) : Reader Bytes
  | t :: r => do
    if t ≠ tag then none
    else
      let (n, r) ← readLength r
      if n ≤ r.length then some (r.take n, r.drop n) else none
  | [] => none

/-- The content of a value with a tag that nothing follows. -/
def whole (tag : UInt8) (bs : Bytes) : Option Bytes :=
  match readTagged tag bs with
  | some (content, []) => some content
  | _ => none

/-- The number in the content of an integer. It is not negative, and has no zero byte in front
that its sign does not need. -/
def natural? : Bytes → Option Nat
  | [] => none
  | [a] => if a < 0x80 then some a.toNat else none
  | a :: b :: r =>
    if 0x80 ≤ a ∨ (a = 0 ∧ b < 0x80) then none else some (number (a :: b :: r))

def readNatural : Reader Nat := fun bs => do
  let (content, r) ← readTagged integerTag bs
  return (← natural? content, r)

/-- Whole bytes of a string of bits. -/
def wholeBytes? : Bytes → Option Bytes
  | 0 :: bs => some bs
  | _ => none

/-- Reads the field with a tag, if it comes next. -/
def readIf (tag : UInt8) : Reader (Option Bytes) := fun bs =>
  if bs.head? = some tag then do
    let (content, r) ← readTagged tag bs
    return (some content, r)
  else some (none, bs)

end RemoteDesk.Tls.Der
