import RemoteDesk.Bytes

/-!
Addresses of hosts, and of ports on them. Numbers in the old form have no leading zeros; the new
form may leave out one run of zero groups and may end in the old form.
-/
namespace RemoteDesk.Net

inductive Address where
  | v4 (a b c d : UInt8)
  /-- Eight groups of sixteen bits, held by the type of their list's length. -/
  | v6 (groups : List UInt16) (length_eq : groups.length = 8)
  deriving DecidableEq

namespace Address

instance : Inhabited Address := ⟨.v4 0 0 0 0⟩

/-! ### Text -/

/-- A group without leading zeros. -/
def groupText (g : UInt16) : String := String.ofList (Nat.toDigits 16 g.toNat)

def joined (groups : List UInt16) : String := ":".intercalate (groups.map groupText)

/-- Length of the run of zeros at the front. -/
def zeroRun (groups : List UInt16) : Nat := (groups.takeWhile (· = 0)).length

/-- Start and length of the first longest run of zeros. -/
def longestRun : List UInt16 → Nat × Nat
  | [] => (0, 0)
  | g :: gs =>
    let (start, length) := longestRun gs
    let here := zeroRun (g :: gs)
    if length ≤ here then (0, here) else (start + 1, length)

def v4Text (a b c d : UInt8) : String :=
  ".".intercalate ([a, b, c, d].map fun n => toString n.toNat)

def v6Text (groups : List UInt16) : String :=
  match groups with
  | [0, 0, 0, 0, 0, 0xFFFF, g, h] =>
    "::ffff:" ++ v4Text (g >>> 8).toUInt8 g.toUInt8 (h >>> 8).toUInt8 h.toUInt8
  | _ =>
    let (start, length) := longestRun groups
    if length ≤ 1 then joined groups
    else joined (groups.take start) ++ "::" ++ joined (groups.drop (start + length))

def text : Address → String
  | .v4 a b c d => v4Text a b c d
  | .v6 groups _ => v6Text groups

/-! ### Reading -/

/-- A number of at most `most` digits, and what follows. -/
def takeNumber (base most : Nat) (leadingZeros : Bool) (cs : List Char) :
    Option (Nat × List Char) :=
  let digits := cs.takeWhile fun c => (digitValue? base c).isSome
  if digits.isEmpty ∨ most < digits.length then none
  else if !leadingZeros ∧ digits.head? = some '0' ∧ 1 < digits.length then none
  else some (digits.foldl (fun n c => n * base + (digitValue? base c).getD 0) 0,
    cs.drop digits.length)

/-- What follows a character. -/
def takeChar (wanted : Char) : List Char → Option (List Char)
  | c :: cs => if c = wanted then some cs else none
  | [] => none

def takeByte (cs : List Char) : Option (UInt8 × List Char) := do
  let (n, cs) ← takeNumber 10 3 false cs
  if n < 256 then some (UInt8.ofNat n, cs) else none

def takeV4 (cs : List Char) : Option ((UInt8 × UInt8 × UInt8 × UInt8) × List Char) := do
  let (a, cs) ← takeByte cs
  let (b, cs) ← takeByte (← takeChar '.' cs)
  let (c, cs) ← takeByte (← takeChar '.' cs)
  let (d, cs) ← takeByte (← takeChar '.' cs)
  return ((a, b, c, d), cs)

/-- The group of two bytes. -/
def pair (a b : UInt8) : UInt16 := a.toUInt16 <<< 8 ||| b.toUInt16

/-- Reads up to `limit` groups with colons between them; an address in the old form may end
them. Gives the groups, whether the old form ended them, and what follows. -/
def takeGroups : Nat → Bool → List Char → List UInt16 × Bool × List Char
  | 0, _, cs => ([], false, cs)
  | limit + 1, first, cs =>
    let start? := if first then some cs else takeChar ':' cs
    match start? with
    | none => ([], false, cs)
    | some start =>
      match (if limit = 0 then none else takeV4 start) with
      | some ((a, b, c, d), cs) => ([pair a b, pair c d], true, cs)
      | none =>
        match takeNumber 16 4 true start with
        | none => ([], false, cs)
        | some (g, cs) =>
          let (gs, old, cs) := takeGroups limit false cs
          (UInt16.ofNat g :: gs, old, cs)

def takeV6 (cs : List Char) : Option (Address × List Char) :=
  let (head, old, cs) := takeGroups 8 true cs
  if h : head.length = 8 then some (.v6 head h, cs)
  else if old then none
  else do
    let cs ← takeChar ':' (← takeChar ':' cs)
    let (tail, _, cs) := takeGroups (7 - head.length) true cs
    let groups := head ++ List.replicate (8 - head.length - tail.length) 0 ++ tail
    if h : groups.length = 8 then some (.v6 groups h, cs) else none

def take (cs : List Char) : Option (Address × List Char) :=
  match takeV4 cs with
  | some ((a, b, c, d), cs) => some (.v4 a b c d, cs)
  | none => takeV6 cs

/-- The address that a text names. -/
def parse (s : String) : Option Address :=
  match take s.toList with
  | some (a, []) => some a
  | _ => none

end Address

/-- A port of a host. Addresses in the new form may name the interface. -/
structure Endpoint where
  host : Address
  scope : UInt32
  port : UInt16
  deriving DecidableEq, Inhabited

namespace Endpoint

def text (e : Endpoint) : String :=
  let port := ":" ++ toString e.port.toNat
  match e.host with
  | .v4 .. => e.host.text ++ port
  | .v6 .. =>
    if e.scope = 0 then "[" ++ e.host.text ++ "]" ++ port
    else "[" ++ e.host.text ++ "%" ++ toString e.scope.toNat ++ "]" ++ port

/-- A colon and the number of a port. -/
def takePort (cs : List Char) : Option (UInt16 × List Char) := do
  let (n, cs) ← Address.takeNumber 10 cs.length true (← Address.takeChar ':' cs)
  if n < 65536 then some (UInt16.ofNat n, cs) else none

/-- An interface, if one is named. -/
def takeScope (cs : List Char) : Option (UInt32 × List Char) :=
  match cs with
  | '%' :: cs => do
    let (n, cs) ← Address.takeNumber 10 cs.length true cs
    if n < 4294967296 then some (UInt32.ofNat n, cs) else none
  | cs => some (0, cs)

def takeBracketed (cs : List Char) : Option (Endpoint × List Char) := do
  let (host, cs) ← Address.takeV6 (← Address.takeChar '[' cs)
  let (scope, cs) ← takeScope cs
  let (port, cs) ← takePort (← Address.takeChar ']' cs)
  return (⟨host, scope, port⟩, cs)

/-- The endpoint that a text names. -/
def parse (s : String) : Option Endpoint :=
  let read := match Address.takeV4 s.toList with
    | some ((a, b, c, d), cs) => do
      let (port, cs) ← takePort cs
      some ((⟨.v4 a b c d, 0, port⟩ : Endpoint), cs)
    | none => takeBracketed s.toList
  match read with
  | some (e, []) => some e
  | _ => none

end Endpoint

end RemoteDesk.Net
