import RemoteDesk.Bytes

/-!
Base64: three bytes as four digits of six bits, the first byte's highest bits first. Two bytes
that are left make three digits, one makes two; the bits that fill the last digit are zero.
-/
namespace RemoteDesk.Base64

/-- The digits of an alphabet: letters, ten figures, and two more characters. -/
structure Alphabet where
  digit62 : Char
  digit63 : Char

def standard : Alphabet := ⟨'+', '/'⟩

/-- Fit for addresses and file names. -/
def urlSafe : Alphabet := ⟨'-', '_'⟩

namespace Alphabet

def digit (a : Alphabet) (n : Nat) : Char :=
  if n < 26 then Char.ofNat (65 + n)
  else if n < 52 then Char.ofNat (71 + n)
  else if n < 62 then Char.ofNat (n - 4)
  else if n = 62 then a.digit62
  else a.digit63

def value? (a : Alphabet) (c : Char) : Option Nat :=
  let n := c.toNat
  if 65 ≤ n ∧ n ≤ 90 then some (n - 65)
  else if 97 ≤ n ∧ n ≤ 122 then some (n - 71)
  else if 48 ≤ n ∧ n ≤ 57 then some (n + 4)
  else if c = a.digit62 then some 62
  else if c = a.digit63 then some 63
  else none

end Alphabet

/-! ### Writing -/

/-- The digits of bytes, put before others in reverse; `fill` completes the last four. -/
def encodeOnto (a : Alphabet) (fill : List Char) : List Char → Bytes → List Char
  | out, [] => out
  | out, [x] =>
    let n := x.toNat
    fill.take 2 ++ a.digit (n % 4 * 16) :: a.digit (n / 4) :: out
  | out, [x, y] =>
    let n := x.toNat * 256 + y.toNat
    fill.take 1 ++ a.digit (n % 16 * 4) :: a.digit (n / 16 % 64) :: a.digit (n / 1024) :: out
  | out, x :: y :: z :: r =>
    let n := (x.toNat * 256 + y.toNat) * 256 + z.toNat
    encodeOnto a fill (a.digit (n % 64) :: a.digit (n / 64 % 64) :: a.digit (n / 4096 % 64) ::
      a.digit (n / 262144) :: out) r

/-- The text of bytes, filled up to whole groups of four characters. -/
def encode (a : Alphabet) (bs : Bytes) : String :=
  String.ofList (encodeOnto a ['=', '='] [] bs).reverse

/-- The text of bytes, as short as it gets. -/
def encodeShort (a : Alphabet) (bs : Bytes) : String :=
  String.ofList (encodeOnto a [] [] bs).reverse

/-! ### Reading -/

/-- The bytes of digits, put before others in reverse. A `strict` reading wants zeros for the bits
that fill the last digit. -/
def decodeOnto (strict : Bool) : Bytes → List Nat → Option Bytes
  | out, [] => some out
  | _, [_] => none
  | out, [p, q] =>
    if strict ∧ q % 16 ≠ 0 then none else some (UInt8.ofNat (p * 4 + q / 16) :: out)
  | out, [p, q, r] =>
    if strict ∧ r % 4 ≠ 0 then none
    else some (UInt8.ofNat (q % 16 * 16 + r / 4) :: UInt8.ofNat (p * 4 + q / 16) :: out)
  | out, p :: q :: r :: s :: rest =>
    decodeOnto strict (UInt8.ofNat (r % 4 * 64 + s) :: UInt8.ofNat (q % 16 * 16 + r / 4) ::
      UInt8.ofNat (p * 4 + q / 16) :: out) rest

/-- The bytes of a text that is not filled up. -/
def decodeShort (a : Alphabet) (cs : List Char) : Option Bytes := do
  let digits ← cs.mapM a.value?
  let out ← decodeOnto true [] digits
  return out.reverse

/-- The bytes of a text that is filled up to whole groups of four characters. -/
def decode (a : Alphabet) (cs : List Char) : Option Bytes :=
  let body := (cs.reverse.dropWhile (· = '=')).reverse
  let fill := cs.length - body.length
  if cs.length % 4 = 0 ∧ fill ≤ 2 then decodeShort a body else none

/-- The space, and the controls that move to another place on the page. -/
def isBlank (c : Char) : Bool := c = ' ' || ('\t' ≤ c && c ≤ '\r')

/-- The bytes of a text in which blanks do not count, and which may be filled up or not. -/
def decodeLoose (a : Alphabet) (cs : List Char) : Option Bytes := do
  let cs := cs.filter fun c => !isBlank c
  let body := cs.takeWhile (· ≠ '=')
  let fill := cs.length - body.length
  let digits ← body.mapM a.value?
  if (cs.drop body.length).all (· = '=') ∧ (fill = 0 ∨ (cs.length % 4 = 0 ∧ fill ≤ 2)) then
    return (← decodeOnto false [] digits).reverse
  else none

end RemoteDesk.Base64
