import Mathlib.Algebra.GroupWithZero.Nat
import RemoteDesk.Proofs.Json.Reading

/-!
How long the compact text of a value is. A value was read from at least as many bytes: no escape is
shorter than what is written for its character, an integer has no digits in front that count for
nothing, and blanks, and members that later ones stand in for, come on top. Only a float may be
written with more digits than it was read from, and counts nothing here.
-/
namespace RemoteDesk

theorem utf8_of_text? {bs : Bytes} {s : String} (h : text? bs = some s) : utf8 s = bs := by
  unfold text? String.fromUTF8? at h
  split at h
  · rw [← Option.some.inj h]
    rfl
  · contradiction

namespace Json

/-! ### Strings -/

/-- How many bytes are written for these inside a string. -/
def escapedLength (content : Bytes) : Nat := (content.flatMap escapeByte).length

@[simp] theorem escapedLength_nil : escapedLength [] = 0 := rfl

theorem escapedLength_cons (b : UInt8) (content : Bytes) :
    escapedLength (b :: content) = (escapeByte b).length + escapedLength content :=
  List.length_append

theorem escapedLength_append (content more : Bytes) :
    escapedLength (content ++ more) = escapedLength content + escapedLength more := by
  simp [escapedLength]

theorem escapedLength_reverse (content : Bytes) :
    escapedLength content.reverse = escapedLength content := by
  induction content with
  | nil => rfl
  | cons b content ih =>
    rw [List.reverse_cons, escapedLength_append, ih, escapedLength_cons, escapedLength_cons,
      escapedLength_nil]
    omega

/-- Six bytes are enough for any byte. -/
theorem length_escapeByte_le (b : UInt8) : (escapeByte b).length ≤ 6 := by
  by_cases hp : 0x20 ≤ b
  · simp only [escapeByte, if_pos hp]
    repeat' split
    all_goals simp
  · have hlow : b.toNat < 32 := UInt8.lt_iff_toNat_lt.mp (UInt8.not_le.mp hp)
    obtain ⟨high, heh, -⟩ := hexDigit_reads (b.toNat / 16) (by omega)
    obtain ⟨low, hel, -⟩ := hexDigit_reads (b.toNat % 16) (by omega)
    simp only [escapeByte, if_neg hp, utf8_ofList, List.flatMap_cons, List.flatMap_nil, heh, hel]
    repeat' split
    all_goals simp

theorem escapeByte_plain {b : UInt8} (hq : b ≠ 0x22) (hs : b ≠ 0x5C) (hp : ¬ b < 0x20) :
    escapeByte b = [b] := by
  rw [escapeByte, if_neg hq, if_neg hs, if_pos (UInt8.not_lt.mp hp)]

/-- What has an escape of one letter is written with it, or as it is. -/
theorem length_escapeByte_short {e b : UInt8} (h : shortEscape? e = some b) :
    (escapeByte b).length ≤ 2 := by
  unfold shortEscape? at h
  repeat' split at h
  all_goals first
    | contradiction
    | rw [← Option.some.inj h]; decide

theorem escapedLength_high {content : Bytes} (h : ∀ b ∈ content, 128 ≤ b.toNat) :
    escapedLength content = content.length := by
  induction content with
  | nil => rfl
  | cons b content ih =>
    have hb := h b List.mem_cons_self
    have hne : ∀ c : UInt8, c.toNat < 128 → b ≠ c := by
      rintro c hc rfl
      omega
    have hp : ¬ b < 0x20 := by
      rw [UInt8.lt_iff_toNat_lt]
      exact fun hlt => by simp at hlt; omega
    rw [escapedLength_cons, escapeByte_plain (hne _ (by decide)) (hne _ (by decide)) hp,
      ih fun c hc => h c (List.mem_cons_of_mem b hc)]
    exact Nat.add_comm 1 _

/-- Characters of more than one byte are written as they are. -/
theorem escapedLength_codePoint (c : Char) : escapedLength (String.utf8EncodeChar c) ≤ 6 := by
  unfold String.utf8EncodeChar
  dsimp only
  split
  · rw [escapedLength_cons, escapedLength_nil]
    exact length_escapeByte_le _
  · split
    · rw [escapedLength_high]
      · simp
      · simp; omega
    · split
      · rw [escapedLength_high]
        · simp
        · simp; omega
      · rw [escapedLength_high]
        · simp
        · simp; omega

theorem escapedLength_pushCodePoint (n : Nat) (out : Bytes) :
    escapedLength (pushCodePoint n out) ≤ 6 + escapedLength out := by
  rw [pushCodePoint, escapedLength_append, escapedLength_reverse]
  exact Nat.add_le_add_right (escapedLength_codePoint _) _

theorem escapedLength_of_readStringBytes {out bs content r : Bytes}
    (h : readStringBytes out bs = .ok (content, r)) :
    escapedLength content + 1 + r.length ≤ escapedLength out + bs.length := by
  fun_induction readStringBytes out bs
  case case2 out rest =>
    obtain ⟨rfl, rfl⟩ := Prod.mk.inj (Except.ok.inj h)
    rw [escapedLength_reverse, List.length_cons]
    omega
  case case5 out _ _ _ _ _ n _ _ _ ih =>
    have hpush := escapedLength_pushCodePoint n out
    have hrest := ih h
    simp only [List.length_cons]
    omega
  case case7 out _ _ _ _ n _ _ _ _ _ _ _ _ m _ _ ih =>
    have hpush := escapedLength_pushCodePoint (0x10000 + (n - 0xD800) * 0x400 + (m - 0xDC00)) out
    have hrest := ih h
    simp only [List.length_cons]
    omega
  case case15 out e _ _ b hshort ih =>
    have hlen := length_escapeByte_short hshort
    have hrest := ih h
    rw [escapedLength_cons] at hrest
    simp only [List.length_cons]
    omega
  case case19 out b rest hq _ hs hend hp ih =>
    have hbackslash : b ≠ 0x5C := by
      rintro rfl
      cases rest with
      | nil => exact hend rfl rfl
      | cons e rest => exact hs e rest rfl rfl
    have hrest := ih h
    rw [escapedLength_cons, escapeByte_plain hq hbackslash hp, List.length_singleton] at hrest
    simp only [List.length_cons]
    omega
  all_goals contradiction

theorem length_of_readString {bs r : Bytes} {s : String} (h : readString bs = .ok (s, r)) :
    (renderString s).length + r.length ≤ 1 + bs.length := by
  obtain ⟨⟨content, rest⟩, hcontent, h⟩ := bind_eq_ok h
  have hlen := escapedLength_of_readStringBytes hcontent
  dsimp only at h
  split at h
  · rename_i t ht
    obtain ⟨rfl, rfl⟩ := Prod.mk.inj (Except.ok.inj h)
    rw [renderString, utf8_of_text? ht, List.length_cons, List.length_append, ← escapedLength,
      List.length_singleton]
    rw [escapedLength_nil] at hlen
    omega
  · contradiction

/-! ### Numbers -/

theorem length_digits_le {n k : Nat} (h : n < Nat.pow 10 (k + 1)) :
    (utf8 (toString n)).length ≤ k + 1 := by
  have hbytes : (utf8 (toString n)).length = (Nat.toDigits 10 n).length := by
    rw [Nat.toString_eq_ofList_toDigits, utf8_ofList, List.length_flatMap]
    have hone : ∀ c ∈ Nat.toDigits 10 n, (String.utf8EncodeChar c).length = 1 := fun c hc => by
      obtain ⟨b, hb, -⟩ := digit_reads (Nat.isDigit_of_mem_toDigits (by decide) (by decide) hc)
      rw [hb, List.length_singleton]
    rw [List.map_congr_left hone, List.map_const', List.sum_replicate_nat, Nat.mul_one]
  rw [hbytes]
  exact (Nat.length_toDigits_le_iff (by decide) (Nat.succ_pos k)).mpr h

/-- Digits that are taken spell no number with more digits. -/
theorem readDigits_taken (bound n count : Nat) (bs : Bytes) :
    ∃ k, bs.length = k + (readDigits bound n count bs).2.2.length ∧
      (readDigits bound n count bs).1 < (n + 1) * Nat.pow 10 k := by
  induction bs generalizing n count with
  | nil => exact ⟨0, rfl, by simp [readDigits]⟩
  | cons b bs ih =>
    rw [readDigits]
    split
    · rename_i d hd
      split
      · obtain ⟨k, hlen, hlt⟩ := ih (n * 10 + d) (count + 1)
        refine ⟨k + 1, by rw [List.length_cons, hlen]; omega, Nat.lt_of_lt_of_le hlt ?_⟩
        have hle : n * 10 + d + 1 ≤ (n + 1) * 10 := by
          have := digit?_le hd
          omega
        calc (n * 10 + d + 1) * Nat.pow 10 k ≤ (n + 1) * 10 * Nat.pow 10 k :=
              Nat.mul_le_mul_right _ hle
          _ = (n + 1) * Nat.pow 10 (k + 1) := by
            rw [Nat.mul_assoc, Nat.mul_comm 10]
            rfl
      · exact ⟨0, by simp, by simp⟩
    · exact ⟨0, by simp, by simp⟩

section
variable {negative : Bool} {bound m n count read significand : Nat} {e : Int} {bs r : Bytes}
  {x : Number.Value}

theorem exists_of_readDigits (h : readDigits bound n count bs = (m, read, r)) :
    ∃ k, bs.length = k + r.length ∧ m < (n + 1) * Nat.pow 10 k := by
  have htaken := readDigits_taken bound n count bs
  rwa [h] at htaken

theorem length_skipDigits (bs : Bytes) : (bs.dropWhile isDigit).length ≤ bs.length :=
  (List.dropWhile_sublist _).length_le

/-- A reader that succeeds leaves one rest. -/
theorem rest_eq {α : Type} {a b : α} {r s : Bytes}
    (h : (.ok (a, r) : Except Halt (α × Bytes)) = .ok (b, s)) : r = s :=
  (Prod.mk.inj (Except.ok.inj h)).2

theorem rest_of_readParts (h : readParts negative significand e bs = .ok (x, r)) : r = bs := by
  unfold readParts at h
  split at h
  · exact (rest_eq h).symm
  · contradiction

theorem rest_of_readExponent (h : readExponent negative significand e bs = .ok (x, r)) :
    r.length ≤ bs.length := by
  unfold readExponent at h
  split at h
  rename_i up digits hsigned
  have hle : digits.length ≤ bs.length := by
    split at hsigned
    all_goals
      obtain ⟨-, rfl⟩ := Prod.mk.inj hsigned
      simp
  split at h
  · contradiction
  · split at h
    · contradiction
    · split at h
      rename_i left hread
      obtain ⟨k, hlen, -⟩ := exists_of_readDigits hread
      have hskip := length_skipDigits left
      rw [List.length_cons] at hle
      split at h
      · split at h
        · contradiction
        · rw [← rest_eq h]
          omega
      · rw [rest_of_readParts h]
        omega

theorem rest_of_readScaled (h : readScaled negative significand e bs = .ok (x, r)) :
    r.length ≤ bs.length := by
  unfold readScaled at h
  split at h
  · exact Nat.le_succ_of_le (rest_of_readExponent h)
  · exact Nat.le_succ_of_le (rest_of_readExponent h)
  · exact Nat.le_of_eq (congrArg List.length (rest_of_readParts h))

theorem rest_of_readFraction (h : readFraction negative significand e bs = .ok (x, r)) :
    r.length ≤ bs.length := by
  unfold readFraction at h
  split at h
  rename_i left hread
  obtain ⟨k, hlen, -⟩ := exists_of_readDigits hread
  have hskip := length_skipDigits left
  split at h
  · have := rest_of_readScaled h
    omega
  · split at h
    · split at h <;> contradiction
    · have := rest_of_readScaled h
      omega

/-- The length of a number's text, with nothing for a float. -/
def Number.weight : Number.Value → Nat
  | .int n => (renderNumber (.int n)).length
  | .float _ => 0

theorem weight_of_isFloat (h : IsFloat x) : Number.weight x = 0 := by
  obtain ⟨f, rfl⟩ := h
  rfl

/-- A sign is one byte more. -/
theorem length_negative_le {k : Nat} (hm : m ≠ 0) (h : (utf8 (toString m)).length ≤ k) :
    Number.weight (.int (-m)) ≤ true.toNat + k := by
  obtain ⟨m, rfl⟩ := Nat.exists_eq_succ_of_ne_zero hm
  have hsign : renderNumber (.int (-(m + 1 : Nat))) = utf8 "-" ++ utf8 (toString (m + 1)) :=
    utf8_append "-" (toString (m + 1))
  rw [Number.weight, hsign, List.length_append]
  exact Nat.add_le_add_left h 1

/-- The digits of an integer have been taken already. -/
theorem length_of_readAfterInteger {k : Nat} (hm : m < Nat.pow 10 (k + 1))
    (h : readAfterInteger negative m bs = .ok (x, r)) :
    Number.weight x + r.length ≤ negative.toNat + (k + 1) + bs.length := by
  unfold readAfterInteger at h
  have hdigits := length_digits_le hm
  split at h
  · rw [weight_of_isFloat (isFloat_of_readFraction h), List.length_cons]
    have := rest_of_readFraction h
    omega
  · rw [weight_of_isFloat (isFloat_of_readExponent h), List.length_cons]
    have := rest_of_readExponent h
    omega
  · rw [weight_of_isFloat (isFloat_of_readExponent h), List.length_cons]
    have := rest_of_readExponent h
    omega
  · split at h
    · rw [← value_eq h, rest_eq h]
      exact Nat.add_le_add_right (Nat.le_trans hdigits (Nat.le_add_left _ _)) _
    · rename_i hnegative
      split at h
      · rw [← value_eq h, rest_eq h, Number.weight]
        omega
      · rename_i hnot
        obtain rfl : negative = true := by simpa using hnegative
        rw [← value_eq h, rest_eq h]
        exact Nat.add_le_add_right (length_negative_le (by omega) hdigits) _

theorem length_of_readNumber (h : readNumber negative bs = .ok (x, r)) :
    Number.weight x + r.length ≤ negative.toNat + bs.length := by
  unfold readNumber at h
  split at h
  · contradiction
  · rename_i b rest
    split at h
    · contradiction
    · split at h
      · contradiction
      · have := length_of_readAfterInteger (k := 0) (by decide) h
        rw [List.length_cons]
        omega
    · rename_i d _ hd
      split at h
      rename_i left hread
      obtain ⟨k, hlen, hlt⟩ := exists_of_readDigits hread
      have hskip := length_skipDigits left
      dsimp only at h
      rw [List.length_cons]
      split at h
      · split at h
        · rename_i tail htail
          rw [htail, List.length_cons] at hskip
          rw [weight_of_isFloat (isFloat_of_readFraction h)]
          have := rest_of_readFraction h
          omega
        · rw [weight_of_isFloat (isFloat_of_readScaled h)]
          have := rest_of_readScaled h
          omega
      · have hle : (d + 1) * Nat.pow 10 k ≤ Nat.pow 10 (k + 1) := by
          rw [Nat.mul_comm]
          exact Nat.mul_le_mul_left _ (Nat.succ_le_succ (digit?_le hd))
        have := length_of_readAfterInteger (Nat.lt_of_lt_of_le hlt hle) h
        omega

end

/-! ### Items and members -/

mutual

/-- The length of a value's text, with nothing for floats. Behind each item and each member there
is a comma or a closing sign. -/
def weight : Json → Nat
  | .null => 4
  | .bool true => 4
  | .bool false => 5
  | .num x => Number.weight x
  | .str s => (renderString s).length
  | .arr items => 1 + max 1 (weightItems items)
  | .obj members => 1 + max 1 (weightMembers members)

def weightItems : List Json → Nat
  | [] => 0
  | v :: vs => weight v + 1 + weightItems vs

def weightMembers : List (String × Json) → Nat
  | [] => 0
  | (k, v) :: ms => (renderString k).length + 1 + weight v + 1 + weightMembers ms

end

theorem weightItems_append (vs ws : List Json) :
    weightItems (vs ++ ws) = weightItems vs + weightItems ws := by
  induction vs with
  | nil => rw [List.nil_append, weightItems, Nat.zero_add]
  | cons v vs ih =>
    rw [List.cons_append, weightItems, weightItems, ih]
    omega

theorem weightItems_reverse (vs : List Json) : weightItems vs.reverse = weightItems vs := by
  induction vs with
  | nil => rfl
  | cons v vs ih =>
    rw [List.reverse_cons, weightItems_append, ih, weightItems, weightItems, weightItems]
    omega

/-- A member that is put into an object adds no more than itself. -/
theorem weightMembers_insertNew_le (k : String) (v : Json) (ms : Members) :
    weightMembers (ms.insertNew k v) ≤ weightMembers ((k, v) :: ms) := by
  induction ms with
  | nil => exact Nat.le_refl _
  | cons m ms ih =>
    obtain ⟨k', v'⟩ := m
    rw [Members.insertNew]
    split
    · exact Nat.le_refl _
    · split
      · rw [weightMembers.eq_2 k v]
        exact Nat.le_add_left _ _
      · rw [weightMembers, weightMembers] at *
        rw [weightMembers]
        omega

/-- Members that others stand in for are gone. -/
theorem weightMembers_ofReversed_le (ms : Members) :
    weightMembers (Members.ofReversed ms) ≤ weightMembers ms := by
  have hfold : ∀ all : Members,
      weightMembers (ms.foldl (fun all m => Members.insertNew m.1 m.2 all) all) ≤
        weightMembers all + weightMembers ms := by
    induction ms with
    | nil => exact fun all => Nat.le_refl _
    | cons m ms ih =>
      intro all
      have hinsert := weightMembers_insertNew_le m.1 m.2 all
      have hrest := ih (Members.insertNew m.1 m.2 all)
      rw [weightMembers] at hinsert ⊢
      rw [List.foldl_cons]
      omega
  have hempty := hfold []
  rwa [weightMembers, Nat.zero_add] at hempty

section
variable {item : Reader Json}

theorem length_skipBlank (bs : Bytes) : (skipBlank bs).length ≤ bs.length :=
  (List.dropWhile_sublist _).length_le

/-- The items that are read, and the closing bracket. -/
theorem length_of_readItems
    (hitem : ∀ bs v r, item bs = .ok (v, r) → weight v + r.length ≤ bs.length) {limit : Nat}
    {done items : List Json} {bs r : Bytes} (h : readItems item limit done bs = .ok (items, r)) :
    weightItems items + r.length + 1 ≤ weightItems done + bs.length ∧ r.length + 1 ≤ bs.length := by
  induction limit generalizing done bs with
  | zero => contradiction
  | succ limit ih =>
    have hskip := length_skipBlank bs
    unfold readItems at h
    split at h
    · contradiction
    · rename_i tail hbs
      rw [hbs, List.length_cons] at hskip
      rw [← value_eq h, ← rest_eq h, weightItems_reverse]
      omega
    · rename_i tail hbs
      rw [hbs, List.length_cons] at hskip
      have htail := length_skipBlank tail
      split at h
      · contradiction
      · contradiction
      · obtain ⟨⟨v, r'⟩, hv, h⟩ := bind_eq_ok h
        have hread := hitem _ v r' hv
        obtain ⟨hall, hrest⟩ := ih h
        rw [weightItems] at hall
        omega
    · contradiction

/-- An array whose opening bracket has been taken. -/
theorem length_of_readArray
    (hitem : ∀ bs v r, item bs = .ok (v, r) → weight v + r.length ≤ bs.length) {limit : Nat}
    {items : List Json} {bs r : Bytes} (h : readArray item limit bs = .ok (items, r)) :
    max 1 (weightItems items) + r.length ≤ bs.length := by
  have hskip := length_skipBlank bs
  unfold readArray at h
  split at h
  · contradiction
  · rename_i tail hbs
    rw [hbs, List.length_cons] at hskip
    rw [← value_eq h, ← rest_eq h, weightItems]
    omega
  · obtain ⟨⟨v, r'⟩, hv, h⟩ := bind_eq_ok h
    have hread := hitem _ v r' hv
    obtain ⟨hall, hrest⟩ := length_of_readItems hitem h
    rw [weightItems, weightItems] at hall
    omega

theorem length_of_readColon {bs r : Bytes} (h : readColon bs = .ok r) :
    r.length + 1 ≤ bs.length := by
  have hskip := length_skipBlank bs
  unfold readColon at h
  split at h
  · contradiction
  · rename_i tail hbs
    rw [hbs, List.length_cons, Except.ok.inj h] at hskip
    exact hskip
  · contradiction

/-- A member whose opening quote has been taken. -/
theorem length_of_readMember
    (hitem : ∀ bs v r, item bs = .ok (v, r) → weight v + r.length ≤ bs.length)
    {m : String × Json} {bs r : Bytes} (h : readMember item bs = .ok (m, r)) :
    (renderString m.1).length + 1 + weight m.2 + r.length ≤ 1 + bs.length := by
  obtain ⟨⟨k, r₁⟩, hk, h⟩ := bind_eq_ok h
  obtain ⟨r₂, hcolon, h⟩ := bind_eq_ok h
  obtain ⟨⟨v, r₃⟩, hv, h⟩ := bind_eq_ok h
  have hkey := length_of_readString hk
  have hsign := length_of_readColon hcolon
  have hread := hitem _ v r₃ hv
  rw [← value_eq h, ← rest_eq h]
  dsimp only
  omega

/-- The members that are read, and the closing brace. -/
theorem length_of_readMembers
    (hitem : ∀ bs v r, item bs = .ok (v, r) → weight v + r.length ≤ bs.length) {limit : Nat}
    {done members : Members} {bs r : Bytes}
    (h : readMembers item limit done bs = .ok (members, r)) :
    weightMembers members + r.length + 1 ≤ weightMembers done + bs.length ∧
      r.length + 1 ≤ bs.length := by
  induction limit generalizing done bs with
  | zero => contradiction
  | succ limit ih =>
    have hskip := length_skipBlank bs
    unfold readMembers at h
    split at h
    · contradiction
    · rename_i tail hbs
      rw [hbs, List.length_cons] at hskip
      rw [← value_eq h, ← rest_eq h]
      omega
    · rename_i tail hbs
      rw [hbs, List.length_cons] at hskip
      have htail := length_skipBlank tail
      split at h
      · contradiction
      · rename_i quoted hquote
        rw [hquote, List.length_cons] at htail
        obtain ⟨⟨m, r'⟩, hm, h⟩ := bind_eq_ok h
        have hread := length_of_readMember hitem hm
        obtain ⟨hall, hrest⟩ := ih h
        rw [weightMembers] at hall
        omega
      · contradiction
      · contradiction
    · contradiction

/-- An object whose opening brace has been taken. -/
theorem length_of_readObject
    (hitem : ∀ bs v r, item bs = .ok (v, r) → weight v + r.length ≤ bs.length) {limit : Nat}
    {members : Members} {bs r : Bytes} (h : readObject item limit bs = .ok (members, r)) :
    max 1 (weightMembers members) + r.length ≤ bs.length := by
  have hskip := length_skipBlank bs
  unfold readObject at h
  split at h
  · contradiction
  · rename_i tail hbs
    rw [hbs, List.length_cons] at hskip
    rw [← value_eq h, ← rest_eq h, weightMembers]
    omega
  · rename_i quoted hbs
    rw [hbs, List.length_cons] at hskip
    obtain ⟨⟨m, r₁⟩, hm, h⟩ := bind_eq_ok h
    obtain ⟨⟨ms, r₂⟩, hms, h⟩ := bind_eq_ok h
    have hread := length_of_readMember hitem hm
    obtain ⟨hall, hrest⟩ := length_of_readMembers hitem hms
    have hkept := weightMembers_ofReversed_le ms
    rw [← value_eq h, ← rest_eq h]
    rw [weightMembers, weightMembers] at hall
    omega
  · contradiction

end

/-! ### Values -/

theorem length_of_readWord {word bs r : Bytes} (h : readWord word bs = .ok r) :
    word.length + r.length ≤ bs.length := by
  induction word generalizing bs with
  | nil =>
    rw [readWord] at h
    obtain rfl := Except.ok.inj h
    simp
  | cons w word ih =>
    cases bs with
    | nil => contradiction
    | cons b bs =>
      rw [readWord] at h
      split at h
      · have := ih h
        simp only [List.length_cons]
        omega
      · contradiction

/-- A value that is a word is written as that word. -/
theorem weight_of_readWord {word bs r : Bytes} {v w : Json}
    (h : (do let r ← readWord word bs; return (w, r)) = Except.ok (v, r))
    (hw : weight w = word.length + 1) : weight v + r.length ≤ bs.length + 1 := by
  obtain ⟨r', hword, h⟩ := bind_eq_ok h
  have hlen := length_of_readWord hword
  rw [← value_eq h, ← rest_eq h, hw]
  omega

/-- A value takes at least as many bytes as its weight. By induction on the levels: the items are
read by the reader of the level below. -/
theorem weight_of_readValue {limit depth : Nat} {bs r : Bytes} {v : Json}
    (h : readValue limit depth bs = .ok (v, r)) : weight v + r.length ≤ bs.length := by
  induction depth using Nat.strongRecOn generalizing bs r v with
  | ind depth ih =>
    have hskip := length_skipBlank bs
    unfold readValue at h
    split at h
    · contradiction
    all_goals
      rename_i hbs
      try rw [hbs, List.length_cons] at hskip
    · have hword := weight_of_readWord h rfl
      omega
    · have hword := weight_of_readWord h rfl
      omega
    · have hword := weight_of_readWord h rfl
      omega
    · obtain ⟨⟨s, r'⟩, hs, h⟩ := bind_eq_ok h
      have hlen := length_of_readString hs
      rw [← value_eq h, ← rest_eq h, weight]
      omega
    · cases depth with
      | zero => contradiction
      | succ depth =>
        obtain ⟨⟨items, r'⟩, hitems, h⟩ := bind_eq_ok h
        have hlen := length_of_readArray (fun _ _ _ => ih depth (Nat.lt_succ_self depth)) hitems
        rw [← value_eq h, ← rest_eq h, weight]
        omega
    · cases depth with
      | zero => contradiction
      | succ depth =>
        obtain ⟨⟨members, r'⟩, hmembers, h⟩ := bind_eq_ok h
        have hlen := length_of_readObject (fun _ _ _ => ih depth (Nat.lt_succ_self depth)) hmembers
        rw [← value_eq h, ← rest_eq h, weight]
        omega
    · obtain ⟨⟨n, r'⟩, hn, h⟩ := bind_eq_ok h
      have hlen := length_of_readNumber hn
      rw [← value_eq h, ← rest_eq h, weight]
      simp only [Bool.toNat_true] at hlen
      omega
    · split at h
      · obtain ⟨⟨n, r'⟩, hn, h⟩ := bind_eq_ok h
        have hlen := length_of_readNumber hn
        rw [← value_eq h, ← rest_eq h, weight]
        simp only [Bool.toNat_false, List.length_cons] at hlen
        omega
      · contradiction

/-! ### Compact texts -/

section
variable {α : Type} {text : α → Bytes} {size : α → Nat}

/-- Texts behind commas. -/
theorem length_commas_le {all : List α} (h : ∀ a ∈ all, (text a).length ≤ size a) :
    (all.flatMap fun a => 0x2C :: text a).length ≤ (all.map fun a => size a + 1).sum := by
  induction all with
  | nil => exact Nat.le_refl 0
  | cons a all ih =>
    have ha := h a List.mem_cons_self
    have hrest := ih fun b hb => h b (List.mem_cons_of_mem a hb)
    rw [List.flatMap_cons, List.length_append, List.length_cons, List.map_cons, List.sum_cons]
    omega

end

theorem weightItems_eq (vs : List Json) : weightItems vs = (vs.map fun v => weight v + 1).sum := by
  induction vs with
  | nil => rfl
  | cons v vs ih => rw [weightItems, ih, List.map_cons, List.sum_cons]

/-- The length of a member's text, with nothing for floats. -/
def weightMember (m : String × Json) : Nat := (renderString m.1).length + 1 + weight m.2

theorem weightMembers_eq (ms : Members) :
    weightMembers ms = (ms.map fun m => weightMember m + 1).sum := by
  induction ms with
  | nil => rfl
  | cons m ms ih =>
    rw [weightMembers, ih, List.map_cons, List.sum_cons, weightMember]

theorem length_renderItems_le {vs : List Json} (h : ∀ v ∈ vs, (render v).length ≤ weight v) :
    (renderItems vs).length + 1 ≤ max 1 (weightItems vs) := by
  cases vs with
  | nil => exact Nat.le_refl 1
  | cons v vs =>
    have hv := h v List.mem_cons_self
    have hrest := length_commas_le fun w hw => h w (List.mem_cons_of_mem v hw)
    rw [renderItems_cons, List.length_append, weightItems, weightItems_eq]
    omega

theorem length_renderMembers_le {ms : Members}
    (h : ∀ m ∈ ms, (render m.2).length ≤ weight m.2) :
    (renderMembers ms).length + 1 ≤ max 1 (weightMembers ms) := by
  have hmember : ∀ m ∈ ms, (renderMember m).length ≤ weightMember m := by
    intro m hm
    have := h m hm
    rw [renderMember, List.length_append, List.length_cons, weightMember]
    omega
  cases ms with
  | nil => exact Nat.le_refl 1
  | cons m ms =>
    have hm := hmember m List.mem_cons_self
    have hrest := length_commas_le fun w hw => hmember w (List.mem_cons_of_mem m hw)
    rw [renderMembers_cons, List.length_append, weightMembers_eq, List.map_cons, List.sum_cons]
    omega

/-- Without floats, the weight of a value bounds its compact text. -/
theorem length_render_le {v : Json} (h : v.Floatless) : (render v).length ≤ weight v := by
  induction h with
  | null => exact Nat.le_refl 4
  | bool b => cases b <;> exact Nat.le_refl _
  | int n => exact Nat.le_refl _
  | str s => exact Nat.le_refl _
  | arr items _ ih =>
    have := length_renderItems_le ih
    simp only [render, weight, List.length_cons, List.length_append, List.length_nil]
    omega
  | obj members _ ih =>
    have := length_renderMembers_le ih
    simp only [render, weight, List.length_cons, List.length_append, List.length_nil]
    omega

/-- A text that spells a value without floats is at least as long as the compact one. -/
theorem length_render_le_of_parse {text : Bytes} {v : Json} (h : parse text = .ok v)
    (hf : v.Floatless) : (render v).length ≤ text.length := by
  obtain ⟨r, hread⟩ := exists_of_readAll h
  have hweight := weight_of_readValue hread
  have hrender := length_render_le hf
  omega

end Json

end RemoteDesk
