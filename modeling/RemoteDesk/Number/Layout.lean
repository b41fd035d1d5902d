import RemoteDesk.Number.Shortest

/-!
How the digits of a floating point number are laid out. Wire text writes numbers from `10⁻⁵` up
to below `10¹⁶` positionally and others with a signed exponent; messages about configuration
files write every number positionally.
-/
namespace RemoteDesk.Number

/-- The decisions of one written form. -/
structure Layout where
  /-- Decimal exponents from `least` up to, not including, `most` are written positionally. -/
  least : Int
  most : Int
  notANumber : String
  infinity : String

/-- Numbers in wire text. -/
def Layout.wire : Layout := ⟨-5, 16, "null", "null"⟩

/-- Numbers in messages about configuration files. -/
def Layout.plain : Layout := ⟨-400, 400, "NaN", "inf"⟩

def zeros (n : Nat) : String := String.ofList (List.replicate n '0')

/-- Digits with a point after the first `point` of them; `point` may lie outside the digits. -/
def positional (digits : List Char) (point : Int) : String :=
  if point ≤ 0 then "0." ++ zeros (-point).toNat ++ String.ofList digits
  else if digits.length ≤ point then
    String.ofList digits ++ zeros (point - digits.length).toNat ++ ".0"
  else
    String.ofList (digits.take point.toNat) ++ "." ++ String.ofList (digits.drop point.toNat)

/-- One digit before the point, and the exponent with its sign. -/
def scientific (digits : List Char) (exponent : Int) : String :=
  let fraction := match digits.drop 1 with
    | [] => ""
    | rest => "." ++ String.ofList rest
  String.ofList (digits.take 1) ++ fraction ++ "e" ++
    (if exponent < 0 then "-" else "+") ++ toString exponent.natAbs

/-- The text of an unsigned finite number. -/
def Layout.unsigned (l : Layout) (b : Binary) : String :=
  if b.mantissa = 0 then "0.0"
  else
    let d := b.shortest
    let digits := Nat.toDigits 10 d.digits
    let point := d.exponent + digits.length
    if l.least ≤ point - 1 ∧ point - 1 < l.most then positional digits point
    else scientific digits (point - 1)

/-- The text of a double given by its bits. -/
def Layout.text (l : Layout) (bits : UInt64) : String :=
  let sign := if bits >>> 63 = 1 then "-" else ""
  match Binary.ofBits? bits with
  | some b => sign ++ l.unsigned b
  | none => if bits &&& 0xFFFFFFFFFFFFF = 0 then sign ++ l.infinity else l.notANumber

end RemoteDesk.Number
