import RemoteDesk.Json.Printer
import RemoteDesk.Json.Scalar

/-!
Strings and integers read back. A string reader that stands behind an opening quote gives the
string whatever its bytes are; a number reader gives the integer as long as what follows does not
go on with it.
-/
namespace RemoteDesk

/-- The bytes of a text, character by character. -/
theorem utf8_ofList (cs : List Char) :
    utf8 (String.ofList cs) = cs.flatMap String.utf8EncodeChar := by
  simp [utf8, List.utf8Encode]

theorem utf8_append (s t : String) : utf8 (s ++ t) = utf8 s ++ utf8 t := by
  simp [utf8]

namespace Json

/-! ### Strings -/

/-- A hexadecimal digit is one byte, which reads back. -/
theorem hexDigit_reads (n : Nat) (h : n < 16) :
    ∃ b, String.utf8EncodeChar (hexDigit n) = [b] ∧ hexValue? b = some n := by
  refine ⟨(hexDigit n).val.toUInt8, ?_, ?_⟩
  · revert h n
    decide
  · revert h n
    decide

/-- Code points below the space are single bytes. -/
theorem pushCodePoint_low (b : UInt8) (h : b.toNat < 32) (out : Bytes) :
    pushCodePoint b.toNat out = b :: out := by
  have hb : ∀ n < 32, String.utf8EncodeChar (Char.ofNat n) = [UInt8.ofNat n] := by decide
  simp [pushCodePoint, hb _ h]

/-- A byte that stands for itself. -/
theorem readStringBytes_plain (b : UInt8) (out r : Bytes) (hq : b ≠ 0x22) (hs : b ≠ 0x5C)
    (hc : ¬ b < 0x20) : readStringBytes out (b :: r) = readStringBytes (b :: out) r := by
  rw [readStringBytes, if_neg hc]
  all_goals simp_all

/-- A byte behind a one-letter escape. -/
theorem readStringBytes_short (e b : UInt8) (out r : Bytes) (hu : e ≠ 0x75)
    (he : shortEscape? e = some b) :
    readStringBytes out (0x5C :: e :: r) = readStringBytes (b :: out) r := by
  rw [readStringBytes]
  all_goals simp_all

/-- A byte behind an escape by number. -/
theorem readStringBytes_hex (b : UInt8) (out r : Bytes) (hb : b.toNat < 32) :
    readStringBytes out ([0x5C, 0x75, 0x30, 0x30] ++
      utf8 (String.ofList [hexDigit (b.toNat / 16), hexDigit (b.toNat % 16)]) ++ r) =
    readStringBytes (b :: out) r := by
  obtain ⟨high, heh, hvh⟩ := hexDigit_reads (b.toNat / 16) (by omega)
  obtain ⟨low, hel, hvl⟩ := hexDigit_reads (b.toNat % 16) (by omega)
  have hz : hexValue? 0x30 = some 0 := by decide
  have hx : hex4? 0x30 0x30 high low = some b.toNat := by
    simp only [hex4?, hz, hvh, hvl, Option.bind_eq_bind, Option.bind_some, pure]
    congr 1
    omega
  have ht : isTrailing b.toNat = false := by simp [isTrailing]; omega
  have hl : isLeading b.toNat = false := by simp [isLeading]; omega
  rw [utf8_ofList]
  simp only [List.flatMap_cons, List.flatMap_nil, heh, hel, List.cons_append, List.nil_append]
  rw [readStringBytes.eq_def]
  simp [hx, ht, hl, pushCodePoint_low b hb]

/-- What is written for a byte is read as that byte. -/
theorem readStringBytes_escapeByte (b : UInt8) (out r : Bytes) :
    readStringBytes out (escapeByte b ++ r) = readStringBytes (b :: out) r := by
  by_cases hq : b = 0x22
  · subst hq
    exact readStringBytes_short 0x22 0x22 out r (by decide) (by decide)
  by_cases hs : b = 0x5C
  · subst hs
    exact readStringBytes_short 0x5C 0x5C out r (by decide) (by decide)
  by_cases hp : 0x20 ≤ b
  · simp only [escapeByte, if_neg hq, if_neg hs, if_pos hp]
    exact readStringBytes_plain b out r hq hs (UInt8.not_lt.mpr hp)
  -- below the space, five bytes have letters of their own
  by_cases h8 : b = 0x08
  · subst h8
    exact readStringBytes_short 0x62 0x08 out r (by decide) (by decide)
  by_cases h9 : b = 0x09
  · subst h9
    exact readStringBytes_short 0x74 0x09 out r (by decide) (by decide)
  by_cases ha : b = 0x0A
  · subst ha
    exact readStringBytes_short 0x6E 0x0A out r (by decide) (by decide)
  by_cases hc : b = 0x0C
  · subst hc
    exact readStringBytes_short 0x66 0x0C out r (by decide) (by decide)
  by_cases hd : b = 0x0D
  · subst hd
    exact readStringBytes_short 0x72 0x0D out r (by decide) (by decide)
  simp only [escapeByte, if_neg hq, if_neg hs, if_neg hp, if_neg h8, if_neg h9, if_neg ha,
    if_neg hc, if_neg hd]
  exact readStringBytes_hex b out r (UInt8.lt_iff_toNat_lt.mp (UInt8.not_le.mp hp))

theorem readStringBytes_escaped (content out r : Bytes) :
    readStringBytes out (content.flatMap escapeByte ++ 0x22 :: r) =
      .ok (out.reverse ++ content, r) := by
  induction content generalizing out with
  | nil =>
    rw [List.flatMap_nil, List.nil_append, readStringBytes.eq_def]
    simp
  | cons b content ih =>
    rw [List.flatMap_cons, List.append_assoc, readStringBytes_escapeByte, ih]
    simp

/-- A string reads back, with what follows its closing quote. -/
theorem readString_escaped (s : String) (r : Bytes) :
    readString ((utf8 s).flatMap escapeByte ++ 0x22 :: r) = .ok (s, r) := by
  simp only [readString, readStringBytes_escaped, List.reverse_nil, List.nil_append, bind,
    Except.bind, text?_utf8]

/-! ### Integers -/

/-- What may follow a value: nothing, a comma or a closing bracket. None of these goes on with a
number. -/
def Ends (r : Bytes) : Prop := ∀ b ∈ r.head?, b = 0x2C ∨ b = 0x5D ∨ b = 0x7D

theorem ends_nil : Ends [] := by simp [Ends]

theorem Ends.cases {r : Bytes} (h : Ends r) :
    r = [] ∨ ∃ b s, r = b :: s ∧ (b = 0x2C ∨ b = 0x5D ∨ b = 0x7D) := by
  cases r with
  | nil => exact .inl rfl
  | cons b s => exact .inr ⟨b, s, rfl, h b rfl⟩

theorem Ends.not_digit {r : Bytes} (h : Ends r) : startsWithDigit r = false := by
  rcases h.cases with rfl | ⟨b, s, rfl, rfl | rfl | rfl⟩ <;> rfl

theorem Ends.readDigits {r : Bytes} (h : Ends r) (bound n count : Nat) :
    readDigits bound n count r = (n, count, r) := by
  rcases h.cases with rfl | ⟨b, s, rfl, rfl | rfl | rfl⟩ <;> rfl

theorem toNat_of_isDigit {c : Char} (h : c.isDigit) : 48 ≤ c.toNat ∧ c.toNat ≤ 57 := by
  simp only [Char.isDigit, Bool.and_eq_true, decide_eq_true_eq, UInt32.le_iff_toNat_le] at h
  exact h

/-- A decimal digit is one byte, which reads back. -/
theorem digit_reads {c : Char} (h : c.isDigit) :
    ∃ b, String.utf8EncodeChar c = [b] ∧ digit? b = some (c.toNat - 48) := by
  have hc := toNat_of_isDigit h
  have hv : c.val.toNat = c.toNat := rfl
  have hb : (UInt8.ofNat c.toNat).toNat = c.toNat := by
    rw [UInt8.toNat_ofNat']
    omega
  refine ⟨UInt8.ofNat c.toNat, ?_, ?_⟩
  · exact if_pos (show c.val.toNat ≤ 0x7f by omega)
  · have hr : 0x30 ≤ UInt8.ofNat c.toNat ∧ UInt8.ofNat c.toNat ≤ 0x39 := by
      simp only [UInt8.le_iff_toNat_le, hb]
      exact hc
    simp only [digit?, if_pos hr, hb]

theorem isDigit_of_digit? {b : UInt8} {d : Nat} (h : digit? b = some d) : isDigit b = true := by
  simp only [digit?, Option.ite_none_right_eq_some] at h
  simp [isDigit, h.1]

theorem le_ofDigitChars (cs : List Char) (n : Nat) : n ≤ Nat.ofDigitChars 10 cs n := by
  induction cs generalizing n with
  | nil => simp
  | cons c cs ih =>
    rw [Nat.ofDigitChars_cons]
    exact Nat.le_trans (by omega) (ih _)

/-- Digits are read to their end, since all the numbers on the way are smaller. -/
theorem readDigits_digits (bound : Nat) (cs : List Char) (n count : Nat) (r : Bytes)
    (hc : ∀ c ∈ cs, c.isDigit) (hn : Nat.ofDigitChars 10 cs n < bound) (hr : Ends r) :
    readDigits bound n count (cs.flatMap String.utf8EncodeChar ++ r) =
      (Nat.ofDigitChars 10 cs n, count + cs.length, r) := by
  induction cs generalizing n count with
  | nil => exact hr.readDigits bound n count
  | cons c cs ih =>
    obtain ⟨b, he, hd⟩ := digit_reads (hc c List.mem_cons_self)
    rw [Nat.ofDigitChars_cons, show '0'.toNat = 48 from rfl] at hn ⊢
    have hb : n * 10 + (c.toNat - 48) < bound := by
      have := le_ofDigitChars cs (10 * n + (c.toNat - 48))
      exact Nat.lt_of_le_of_lt (by omega) (Nat.lt_of_le_of_lt this hn)
    simp only [List.flatMap_cons, he, List.cons_append, List.nil_append, readDigits, hd, if_pos hb]
    rw [Nat.mul_comm n 10, ih _ _ (fun c h => hc c (List.mem_cons_of_mem _ h)) hn]
    simp only [List.length_cons]
    congr 2
    omega

/-- No positive number begins with a zero. -/
theorem head_toDigits (n : Nat) (h : 0 < n) : ∃ c cs, Nat.toDigits 10 n = c :: cs ∧ c ≠ '0' := by
  induction n using Nat.strongRecOn with
  | ind n ih =>
    by_cases hn : n < 10
    · refine ⟨n.digitChar, [], Nat.toDigits_of_lt_base hn, ?_⟩
      simp only [ne_eq, Nat.digitChar_eq_zero]
      omega
    · obtain ⟨c, cs, he, hc⟩ := ih (n / 10) (by omega) (by omega)
      refine ⟨c, cs ++ [(n % 10).digitChar], ?_, hc⟩
      rw [Nat.toDigits_of_base_le (by decide) (by omega), he, List.cons_append]

/-- The digits of a 64-bit number, with what follows them. -/
theorem readNumber_digits (negative : Bool) (n : Nat) (r : Bytes) (hn : n < 1 <<< 64)
    (hr : Ends r) :
    ∃ b bs, utf8 (toString n) = b :: bs ∧ isDigit b = true ∧
      readNumber negative (b :: bs ++ r) = readAfterInteger negative n r := by
  have hu : utf8 (toString n) = (Nat.toDigits 10 n).flatMap String.utf8EncodeChar := by
    rw [Nat.toString_eq_ofList_toDigits, utf8_ofList]
  by_cases hz : n = 0
  · subst hz
    refine ⟨0x30, [], by rw [hu]; rfl, rfl, ?_⟩
    simp only [List.cons_append, List.nil_append, readNumber, hr.not_digit,
      show digit? 0x30 = some 0 from rfl]
    rfl
  · obtain ⟨c, cs, he, hc⟩ := head_toDigits n (by omega)
    have hd : ∀ x ∈ c :: cs, x.isDigit := fun x hx =>
      Nat.isDigit_of_mem_toDigits (by decide) (by decide) (he ▸ hx)
    have hv : Nat.ofDigitChars 10 cs (c.toNat - 48) = n := by
      have := Nat.ofDigitChars_ten_toDigits (n := n)
      rwa [he, Nat.ofDigitChars_cons, Nat.mul_zero, Nat.zero_add] at this
    obtain ⟨b, hb, hg⟩ := digit_reads (hd c List.mem_cons_self)
    refine ⟨b, cs.flatMap String.utf8EncodeChar, ?_, isDigit_of_digit? hg, ?_⟩
    · rw [hu, he, List.flatMap_cons, hb, List.cons_append, List.nil_append]
    · have hk : ∃ k, c.toNat - 48 = k + 1 := by
        refine ⟨c.toNat - 48 - 1, ?_⟩
        have h48 := (toNat_of_isDigit (hd c List.mem_cons_self)).1
        have hne : c.toNat ≠ 48 := fun h => hc (Char.ext (UInt32.toNat_inj.mp h))
        omega
      obtain ⟨k, hk⟩ := hk
      have hread := readDigits_digits (1 <<< 64) cs (c.toNat - 48) 0 r
        (fun x hx => hd x (List.mem_cons_of_mem _ hx)) (by rw [hv]; exact hn) hr
      rw [hk] at hg hread hv
      simp only [List.cons_append, readNumber, hg, hread, hv, hr.not_digit]
      rfl

theorem Ends.readAfterInteger {r : Bytes} (h : Ends r) (negative : Bool) (n : Nat) :
    readAfterInteger negative n r =
      if !negative then .ok (.int n, r)
      else if n = 0 ∨ 1 <<< 63 < n then .ok (.float (-n.toUInt64.toFloat), r)
      else .ok (.int (-n), r) := by
  rcases h.cases with rfl | ⟨b, s, rfl, rfl | rfl | rfl⟩ <;> rfl

/-- An integer within 64 bits reads back, whatever its sign. -/
theorem renderNumber_int (n : Int) (r : Bytes) (hl : -9223372036854775808 ≤ n)
    (hu : n ≤ 18446744073709551615) (hr : Ends r) :
    (∃ bs, renderNumber (.int n) = 0x2D :: bs ∧ readNumber true (bs ++ r) = .ok (.int n, r)) ∨
    ∃ b bs, renderNumber (.int n) = b :: bs ∧ isDigit b = true ∧
      readNumber false (b :: bs ++ r) = .ok (.int n, r) := by
  cases n with
  | ofNat n =>
    obtain ⟨b, bs, hb, hd, hread⟩ := readNumber_digits false n r (by
      simp only [Int.ofNat_eq_natCast] at hu
      omega) hr
    refine .inr ⟨b, bs, hb, hd, ?_⟩
    rw [hread, hr.readAfterInteger]
    rfl
  | negSucc n =>
    have hn : n + 1 ≤ 1 <<< 63 := by
      simp only [Int.negSucc_eq] at hl
      omega
    obtain ⟨b, bs, hb, -, hread⟩ := readNumber_digits true (n + 1) r (by omega) hr
    have hs : renderNumber (.int (.negSucc n)) = 0x2D :: b :: bs := by
      have : renderNumber (.int (.negSucc n)) = utf8 ("-" ++ toString (n + 1)) := rfl
      rw [this, utf8_append, hb]
      rfl
    refine .inl ⟨b :: bs, hs, ?_⟩
    have hz : ¬ (n + 1 = 0 ∨ 1 <<< 63 < n + 1) := by omega
    rw [hread, hr.readAfterInteger, if_neg (by simp), if_neg hz]
    rfl

end Json

end RemoteDesk
