import RemoteDesk.Text.Base64
import Mathlib.Data.List.Basic

/-!
Reading base64 undoes writing it. Between bytes and characters stand numbers below 64, four for
three bytes: writing spells the numbers of the bytes one by one, and reading puts the bytes
together again, with zeros in the bits that fill the last number.
-/
namespace RemoteDesk.Base64

/-- The numbers below 64 that bytes are written as. -/
def sixes : Bytes → List Nat
  | [] => []
  | [x] => [x.toNat / 4, x.toNat % 4 * 16]
  | [x, y] =>
    let n := x.toNat * 256 + y.toNat
    [n / 1024, n / 16 % 64, n % 16 * 4]
  | x :: y :: z :: r =>
    let n := (x.toNat * 256 + y.toNat) * 256 + z.toNat
    n / 262144 :: n / 4096 % 64 :: n / 64 % 64 :: n % 64 :: sixes r

theorem lt_of_mem_sixes {bs : Bytes} : ∀ n ∈ sixes bs, n < 64 := by
  fun_induction sixes bs with
  | case1 => simp
  | case2 x =>
    have := x.toNat_lt
    simp only [List.mem_cons, List.not_mem_nil, or_false, forall_eq_or_imp, forall_eq]
    omega
  | case3 x y n =>
    have := x.toNat_lt
    have := y.toNat_lt
    simp only [List.mem_cons, List.not_mem_nil, or_false, forall_eq_or_imp, forall_eq]
    omega
  | case4 x y z r n ih =>
    have := x.toNat_lt
    have := y.toNat_lt
    have := z.toNat_lt
    simp only [List.mem_cons, forall_eq_or_imp]
    exact ⟨by omega, by omega, by omega, by omega, ih⟩

theorem length_sixes (bs : Bytes) : (sixes bs).length = (4 * bs.length + 2) / 3 := by
  fun_induction sixes bs with
  | case1 => rfl
  | case2 x => simp
  | case3 x y n => simp
  | case4 x y z r n ih =>
    simp only [List.length_cons, ih]
    omega

/-! ### Writing -/

theorem encodeOnto_eq (a : Alphabet) (out : List Char) (bs : Bytes) :
    encodeOnto a [] out bs = ((sixes bs).map a.digit).reverse ++ out := by
  fun_induction encodeOnto a [] out bs with
  | case1 => rfl
  | case2 out x n => rfl
  | case3 out x y n => rfl
  | case4 out x y z r n ih =>
    rw [ih]
    simp [sixes, n]

theorem toList_encodeShort (a : Alphabet) (bs : Bytes) :
    (encodeShort a bs).toList = (sixes bs).map a.digit := by
  simp [encodeShort, encodeOnto_eq]

/-! ### Reading -/

theorem decodeOnto_sixes (strict : Bool) (out bs : Bytes) :
    decodeOnto strict out (sixes bs) = some (bs.reverse ++ out) := by
  fun_induction sixes bs generalizing out with
  | case1 => rfl
  | case2 x =>
    have := x.toNat_lt
    have hx : x.toNat / 4 * 4 + x.toNat % 4 * 16 / 16 = x.toNat := by omega
    rw [decodeOnto, if_neg (by omega), hx]
    simp
  | case3 x y n =>
    have := x.toNat_lt
    have := y.toNat_lt
    have hx : n / 1024 * 4 + n / 16 % 64 / 16 = x.toNat := by omega
    have hy : n / 16 % 64 % 16 * 16 + n % 16 * 4 / 4 = y.toNat := by omega
    rw [decodeOnto, if_neg (by omega), hx, hy]
    simp
  | case4 x y z r n ih =>
    have := x.toNat_lt
    have := y.toNat_lt
    have := z.toNat_lt
    have hx : n / 262144 * 4 + n / 4096 % 64 / 16 = x.toNat := by omega
    have hy : n / 4096 % 64 % 16 * 16 + n / 64 % 64 / 4 = y.toNat := by omega
    have hz : n / 64 % 64 % 4 * 64 + n % 64 = z.toNat := by omega
    rw [decodeOnto, hx, hy, hz, ih]
    simp

/-- Every number below 64 has a digit of its own. -/
theorem value?_digit : ∀ n < 64, standard.value? (standard.digit n) = some n := by decide

theorem mapM_value?_digit {ns : List Nat} (h : ∀ n ∈ ns, n < 64) :
    (ns.map standard.digit).mapM standard.value? = some ns := by
  induction ns with
  | nil => rfl
  | cons n ns ih =>
    rw [List.forall_mem_cons] at h
    rw [List.map_cons, List.mapM_cons, value?_digit n h.1, ih h.2]
    rfl

/-- Bytes read back from their shortest text. -/
theorem decodeShort_encodeShort (bs : Bytes) :
    decodeShort standard (encodeShort standard bs).toList = some bs := by
  rw [toList_encodeShort, decodeShort, mapM_value?_digit lt_of_mem_sixes]
  simp [decodeOnto_sixes]

/-! ### Whole groups -/

/-- How many characters complete the last group. -/
def missing (bs : Bytes) : Nat := (3 - bs.length % 3) % 3

theorem encodeOnto_fill (a : Alphabet) (fill out : List Char) (bs : Bytes) :
    encodeOnto a fill out bs = fill.take (missing bs) ++ encodeOnto a [] out bs := by
  fun_induction encodeOnto a fill out bs with
  | case1 => rfl
  | case2 => rfl
  | case3 => rfl
  | case4 out x y z r n ih =>
    have hmissing : missing (x :: y :: z :: r) = missing r := by
      simp only [missing, List.length_cons]
      omega
    rw [ih, hmissing]
    rfl

theorem toList_encode (a : Alphabet) (bs : Bytes) :
    (encode a bs).toList = (sixes bs).map a.digit ++ List.replicate (missing bs) '=' := by
  have hle : missing bs ≤ 2 := by
    unfold missing
    omega
  have hfill : ['=', '='].take (missing bs) = List.replicate (missing bs) '=' :=
    List.take_replicate.trans (congrArg (List.replicate · '=') (Nat.min_eq_left hle))
  rw [encode, String.toList_ofList, encodeOnto_fill, hfill, encodeOnto_eq, List.append_nil,
    List.reverse_append, List.reverse_reverse, List.reverse_replicate]

/-- No digit is a sign that completes a group. -/
theorem digit_ne_fill : ∀ n < 64, standard.digit n ≠ '=' := by decide

theorem dropWhile_fill {cs : List Char} (h : ∀ c ∈ cs, c ≠ '=') (count : Nat) :
    (((cs ++ List.replicate count '=').reverse.dropWhile (· = '=')).reverse) = cs := by
  have hfill : ∀ c ∈ List.replicate count '=', decide (c = '=') = true := by
    intro c hc
    rw [List.eq_of_mem_replicate hc]
    rfl
  have hkept : cs.reverse.dropWhile (fun c => decide (c = '=')) = cs.reverse := by
    cases hcs : cs.reverse with
    | nil => rfl
    | cons c rest =>
      have hc : c ∈ cs := List.mem_reverse.mp (hcs ▸ List.mem_cons_self)
      exact List.dropWhile_cons_of_neg (by simpa using h c hc)
  rw [List.reverse_append, List.reverse_replicate, List.dropWhile_append_of_pos hfill, hkept,
    List.reverse_reverse]

/-- Bytes read back from their text in whole groups. -/
theorem decode_encode (bs : Bytes) : decode standard (encode standard bs).toList = some bs := by
  have hdigits : ∀ c ∈ (sixes bs).map standard.digit, c ≠ '=' := by
    intro c hc
    obtain ⟨n, hn, rfl⟩ := List.mem_map.mp hc
    exact digit_ne_fill n (lt_of_mem_sixes n hn)
  have hgroups : ((sixes bs).length + missing bs) % 4 = 0 ∧
      (sixes bs).length + missing bs - (sixes bs).length ≤ 2 := by
    have hleft : bs.length % 3 = 0 ∨ bs.length % 3 = 1 ∨ bs.length % 3 = 2 := by omega
    rw [length_sixes, missing]
    rcases hleft with h | h | h <;> rw [h] <;> omega
  rw [toList_encode, decode]
  simp only [dropWhile_fill hdigits, List.length_append, List.length_map, List.length_replicate]
  rw [if_pos hgroups, ← toList_encodeShort]
  exact decodeShort_encodeShort bs

end RemoteDesk.Base64
