/-!
Byte strings. Wire data is a list of bytes; text crosses to and from it as UTF-8.
-/
namespace RemoteDesk

abbrev Bytes := List UInt8

/-- The UTF-8 form of a text. -/
def utf8 (s : String) : Bytes := s.toUTF8.data.toList

/-- The text that a byte string spells, when it is UTF-8. -/
def text? (bs : Bytes) : Option String := String.fromUTF8? ⟨bs.toArray⟩

@[simp] theorem text?_utf8 (s : String) : text? (utf8 s) = some s := by
  have h : (ByteArray.mk (utf8 s).toArray) = s.toUTF8 := by
    simp [utf8]
  unfold text?
  rw [h]
  simp only [String.fromUTF8?, String.toUTF8_eq_toByteArray, dif_pos s.isValidUTF8]
  rfl

/-- Lower-case hexadecimal digit of a value below sixteen. -/
def hexDigit (n : Nat) : Char :=
  if n < 10 then Char.ofNat (48 + n) else Char.ofNat (87 + n)

/-- The value of a hexadecimal digit in either case. -/
def hexValue? (b : UInt8) : Option Nat :=
  let n := b.toNat
  if 48 ≤ n ∧ n ≤ 57 then some (n - 48)
  else if 97 ≤ n ∧ n ≤ 102 then some (n - 87)
  else if 65 ≤ n ∧ n ≤ 70 then some (n - 55)
  else none

/-- The value of a digit in a base up to sixteen. -/
def digitValue? (base : Nat) (c : Char) : Option Nat :=
  if c.toNat < 128 then
    match hexValue? (UInt8.ofNat c.toNat) with
    | some d => if d < base then some d else none
    | none => none
  else none

/-- The least-significant-first bytes of a number, `count` of them. -/
def littleEndian : Nat → Nat → Bytes
  | 0, _ => []
  | count + 1, n => UInt8.ofNat (n % 256) :: littleEndian count (n / 256)

/-- The number that bytes spell, least significant first. -/
def ofLittleEndian : Bytes → Nat
  | [] => 0
  | b :: bs => b.toNat + 256 * ofLittleEndian bs

@[simp] theorem length_littleEndian (count n : Nat) : (littleEndian count n).length = count := by
  induction count generalizing n with
  | zero => rfl
  | succ count ih => simp [littleEndian, ih]

theorem ofLittleEndian_littleEndian (count n : Nat) (h : n < Nat.pow 256 count) :
    ofLittleEndian (littleEndian count n) = n := by
  induction count generalizing n with
  | zero => simp at h; simp [littleEndian, ofLittleEndian, h]
  | succ count ih =>
    have hs : n < 256 * Nat.pow 256 count := by
      rw [Nat.mul_comm]
      exact h
    have hq : n / 256 < Nat.pow 256 count := Nat.div_lt_of_lt_mul hs
    simp only [littleEndian, ofLittleEndian, ih _ hq]
    have : (UInt8.ofNat (n % 256)).toNat = n % 256 := by
      simp
    omega

end RemoteDesk
