import RemoteDesk.Password.Phc
import RemoteDesk.Proofs.Json.Scalar
import RemoteDesk.Proofs.Text.Base64
import RemoteDesk.Proofs.Text.Splitting

/-!
The text of a record reads back as that record. None of the fields has a dollar sign in it, the
version and the parameters can be told apart from what follows them, and a number reads back from
its decimal digits.
-/
namespace RemoteDesk.Phc

/-! ### Characters of names and values -/

theorem isValueChar_eq (c : Char) : isValueChar c =
    (('a' ≤ c && c ≤ 'z') || ('A' ≤ c && c ≤ 'Z') || ('0' ≤ c && c ≤ '9') ||
      ['/', '+', '.', '-'].contains c) := by
  rw [isValueChar, String.contains_char_eq, List.contains_eq_mem]
  rfl

theorem isValueChar_of_isNameChar {c : Char} (h : isNameChar c = true) : isValueChar c = true := by
  rw [isValueChar_eq]
  simp only [isNameChar, Bool.or_eq_true] at h
  rcases h with (h | h) | h
  · simp [h]
  · simp [h]
  · simp_all

theorem isValueChar_of_isDigit {c : Char} (h : c.isDigit = true) : isValueChar c = true := by
  have hc : ('0' ≤ c && c ≤ '9') = true := h
  rw [isValueChar_eq, hc, Bool.or_true, Bool.true_or]

/-- The signs between fields, between parameters, and between names and values. -/
theorem ne_of_isValueChar {c : Char} (h : isValueChar c = true) : c ≠ '$' ∧ c ≠ ',' ∧ c ≠ '=' := by
  rw [isValueChar_eq] at h
  refine ⟨?_, ?_, ?_⟩ <;> rintro rfl <;> revert h <;> decide

theorem le_of_isValueChar {c : Char} (h : isValueChar c = true) : c ≤ 'z' := by
  simp only [isValueChar_eq, Bool.or_eq_true, Bool.and_eq_true, decide_eq_true_eq,
    List.contains_iff_mem] at h
  rcases h with ((h | h) | h) | h
  · exact h.2
  · exact Char.le_trans h.2 (by decide)
  · exact Char.le_trans h.2 (by decide)
  · simp only [List.mem_cons, List.not_mem_nil, or_false] at h
    rcases h with rfl | rfl | rfl | rfl <;> decide

theorem utf8ByteSize_of_isValueChar {s : String} (h : ∀ c ∈ s.toList, isValueChar c = true) :
    s.utf8ByteSize = s.toList.length := by
  rw [← String.utf8Len_toList]
  generalize s.toList = cs at h
  induction cs with
  | nil => rfl
  | cons c cs ih =>
    rw [List.forall_mem_cons] at h
    have hc : c.utf8Size = 1 :=
      Char.utf8Size_eq_one_iff.mpr (UInt32.le_trans (le_of_isValueChar h.1) (by decide))
    rw [String.utf8Len_cons, hc, ih h.2, List.length_cons]

theorem isValueChar_digit : ∀ n < 64, isValueChar (Base64.standard.digit n) = true := by
  intro n hn
  rw [isValueChar_eq]
  revert n
  decide

/-! ### Fields -/

theorem isNameChar_of_readName {s t : String} (h : readName s = .ok t) :
    ∀ c ∈ s.toList, isNameChar c = true := by
  unfold readName at h
  split at h
  · rename_i hs
    exact List.all_eq_true.mp hs.2.2
  · contradiction

theorem isValueChar_of_readValue {s t : String} (h : readValue s = .ok t) :
    ∀ c ∈ s.toList, isValueChar c = true := by
  unfold readValue at h
  split at h
  · contradiction
  · split at h
    · contradiction
    · rename_i hs
      intro c hc
      simpa using List.find?_eq_none.mp hs c hc

theorem readValue_eq {s : String} (h : ∀ c ∈ s.toList, isValueChar c = true)
    (hroom : s.utf8ByteSize ≤ 64) : readValue s = .ok s := by
  have hnone : (s.toList.find? fun c => !isValueChar c) = none :=
    List.find?_eq_none.mpr fun c hc => by simp [h c hc]
  rw [readValue, if_neg (Nat.not_lt.mpr hroom), hnone]

/-! ### Numbers -/

theorem isDigit_of_mem_toString {n : Nat} {c : Char} (h : c ∈ (toString n).toList) :
    c.isDigit = true := by
  rw [Nat.toString_eq_ofList_toDigits, String.toList_ofList] at h
  exact Nat.isDigit_of_mem_toDigits (by decide) (by decide) h

theorem isValueChar_of_mem_toString (n : Nat) : ∀ c ∈ (toString n).toList, isValueChar c = true :=
  fun _ hc => isValueChar_of_isDigit (isDigit_of_mem_toString hc)

/-- A number reads back from its digits. -/
theorem decimal_toString {n : Nat} (h : n < 4294967296) : decimal (toString n) = .ok n := by
  have hdigits : (toString n).toList = Nat.toDigits 10 n := by
    rw [Nat.toString_eq_ofList_toDigits, String.toList_ofList]
  have hempty : (toString n).isEmpty = false := by
    rw [Bool.eq_false_iff, ne_eq, String.isEmpty_iff, ← String.toList_eq_nil_iff, hdigits]
    exact Nat.toDigits_ne_nil
  have hnone : ((toString n).toList.find? fun c => !c.isDigit) = none :=
    List.find?_eq_none.mpr fun c hc => by simp [isDigit_of_mem_toString hc]
  have hvalue : (toString n).toList.foldl (fun n c => n * 10 + (c.toNat - 48)) 0 = n := by
    rw [hdigits]
    simp only [Nat.mul_comm _ 10]
    exact Nat.ofDigitChars_eq_foldl.symm.trans Nat.ofDigitChars_ten_toDigits
  have hzeros : ¬((toString n).startsWith "0" ∧ (toString n).length ≠ 1) := by
    rw [String.startsWith_string_iff, hdigits]
    rintro ⟨⟨t, ht⟩, hlength⟩
    by_cases hn : n = 0
    · subst hn
      exact hlength rfl
    · obtain ⟨c, cs, hcs, hc⟩ := Json.head_toDigits n (Nat.pos_of_ne_zero hn)
      rw [hcs] at ht
      exact hc (List.cons.inj ht).1.symm
  simp only [decimal, hempty, hnone, hvalue, if_neg hzeros, if_neg (Nat.not_le.mpr h)]
  rfl

theorem utf8ByteSize_toString {n : Nat} (h : n < 4294967296) : (toString n).utf8ByteSize ≤ 10 := by
  rw [utf8ByteSize_of_isValueChar (isValueChar_of_mem_toString n), Nat.toString_eq_ofList_toDigits,
    String.toList_ofList, Nat.length_toDigits_le_iff (by decide) (by decide)]
  omega

theorem readValue_toString {n : Nat} (h : n < 4294967296) :
    readValue (toString n) = .ok (toString n) := by
  have hsize := utf8ByteSize_toString h
  exact readValue_eq (isValueChar_of_mem_toString n) (by omega)

theorem readVersion_toString {n : Nat} (h : n < 4294967296) : readVersion (toString n) = .ok n := by
  rw [readVersion, readValue_toString h, Except.bind, decimal_toString h]

/-! ### Bytes -/

theorem isValueChar_of_mem_encodeShort {bs : Bytes} :
    ∀ c ∈ (Base64.encodeShort Base64.standard bs).toList, isValueChar c = true := by
  rw [Base64.toList_encodeShort]
  intro c hc
  obtain ⟨n, hn, rfl⟩ := List.mem_map.mp hc
  exact isValueChar_digit n (Base64.lt_of_mem_sixes n hn)

theorem utf8ByteSize_encodeShort (bs : Bytes) :
    (Base64.encodeShort Base64.standard bs).utf8ByteSize = (4 * bs.length + 2) / 3 := by
  rw [utf8ByteSize_of_isValueChar isValueChar_of_mem_encodeShort, Base64.toList_encodeShort,
    List.length_map, Base64.length_sixes]

theorem readBytes_encodeShort {room : Nat} {bs : Bytes} (h : bs.length ≤ room) :
    readBytes room (Base64.encodeShort Base64.standard bs) = .ok bs := by
  have hroom : ¬room < (4 * bs.length + 2) / 3 / 4 * 3 + (4 * bs.length + 2) / 3 % 4 * 3 / 4 := by
    omega
  simp only [readBytes, utf8ByteSize_encodeShort, if_neg hroom, Base64.decodeShort_encodeShort]

theorem readHash_encodeShort {bs : Bytes} (hleast : leastHash ≤ bs.length)
    (hmost : bs.length ≤ mostHash) :
    readHash (Base64.encodeShort Base64.standard bs) = .ok bs := by
  rw [readHash, readBytes_encodeShort hmost]
  exact if_neg (Nat.not_lt.mpr hleast)

theorem readSalt_encodeShort {bs : Bytes} (hleast : 3 ≤ bs.length) (hmost : bs.length ≤ 48) :
    readSalt (Base64.encodeShort Base64.standard bs) =
      .ok (Base64.encodeShort Base64.standard bs) := by
  have hsize := utf8ByteSize_encodeShort bs
  rw [readSalt, if_neg (by omega), readValue_eq isValueChar_of_mem_encodeShort (by omega)]

/-! ### Parameters -/

/-- A parameter as its name, the equals sign and its value. -/
def written (q : String × String) : String := q.1 ++ "=" ++ q.2

/-- Whether a name and a value can be told apart again. -/
def Legible (q : String × String) : Prop := readName q.1 = .ok q.1 ∧ readValue q.2 = .ok q.2

theorem Legible.valueChars {q : String × String} (h : Legible q) :
    (∀ c ∈ q.1.toList, isValueChar c = true) ∧ ∀ c ∈ q.2.toList, isValueChar c = true :=
  ⟨fun c hc => isValueChar_of_isNameChar (isNameChar_of_readName h.1 c hc),
    isValueChar_of_readValue h.2⟩

theorem Legible.mem_written {q : String × String} (h : Legible q) :
    ∀ c ∈ (written q).toList, isValueChar c = true ∨ c = '=' := by
  obtain ⟨hname, hvalue⟩ := h.valueChars
  intro c hc
  simp only [written, String.toList_append, List.mem_append] at hc
  rcases hc with (hc | hc) | hc
  · exact .inl (hname c hc)
  · exact .inr (by simpa using hc)
  · exact .inl (hvalue c hc)

theorem readParam_written {q : String × String} (h : Legible q) :
    readParam (written q) = .ok q := by
  obtain ⟨hname, hvalue⟩ := h.valueChars
  have hsigns : ∀ part ∈ [q.1, q.2], '=' ∉ part.toList := by
    simp only [List.mem_cons, List.not_mem_nil, or_false, forall_eq_or_imp, forall_eq]
    exact ⟨fun hc => (ne_of_isValueChar (hname _ hc)).2.2 rfl,
      fun hc => (ne_of_isValueChar (hvalue _ hc)).2.2 rfl⟩
  have hsplit : (written q).splitOn "=" = [q.1, q.2] :=
    Text.splitOn_intercalate (by simp) hsigns
  simp only [readParam, hsplit, List.headD_cons, List.tail_cons, h.1, h.2]
  rfl

theorem mapM_readParam {params : List (String × String)} (h : ∀ q ∈ params, Legible q) :
    (params.map written).mapM readParam = .ok params := by
  induction params with
  | nil => rfl
  | cons q params ih =>
    rw [List.forall_mem_cons] at h
    rw [List.map_cons, List.mapM_cons, readParam_written h.1, ih h.2]
    rfl

/-- Parameters as they stand in a record. -/
def writtenAll (params : List (String × String)) : String := ",".intercalate (params.map written)

theorem mem_writtenAll {params : List (String × String)} (h : ∀ q ∈ params, Legible q) :
    ∀ c ∈ (writtenAll params).toList, isValueChar c = true ∨ c = '=' ∨ c = ',' := by
  intro c hc
  rcases Text.mem_intercalate hc with hc | ⟨part, hpart, hc⟩
  · exact .inr (.inr (by simpa using hc))
  · obtain ⟨q, hq, rfl⟩ := List.mem_map.mp hpart
    exact ((h q hq).mem_written c hc).imp_right .inl

theorem equals_mem_writtenAll {params : List (String × String)} (hne : params ≠ []) :
    '=' ∈ (writtenAll params).toList := by
  obtain ⟨q, rest, rfl⟩ := List.exists_cons_of_ne_nil hne
  exact Text.mem_intercalate_of_mem_head (by simp [written])

theorem readParams_writtenAll {params : List (String × String)} (hne : params ≠ [])
    (h : ∀ q ∈ params, Legible q) (hroom : (writtenAll params).utf8ByteSize ≤ 127) :
    readParams (writtenAll params) = .ok params := by
  have hsplit : (writtenAll params).splitOn "," = params.map written := by
    refine Text.splitOn_intercalate (c := ',') (by simpa using hne) ?_
    intro part hpart hc
    obtain ⟨q, hq, rfl⟩ := List.mem_map.mp hpart
    rcases (h q hq).mem_written ',' hc with hv | hv
    · exact (ne_of_isValueChar hv).2.1 rfl
    · contradiction
  rw [readParams, if_neg (Nat.not_lt.mpr hroom), hsplit, mapM_readParam h]

/-! ### Records -/

/-- What fields must be like for a record's text to be read back. -/
structure Fit (algorithm : String) (version : Nat) (params : List (String × String))
    (salt : String) (hash : Bytes) : Prop where
  algorithm : readName algorithm = .ok algorithm
  version : version < 4294967296
  some_param : params ≠ []
  legible : ∀ q ∈ params, Legible q
  room : (writtenAll params).utf8ByteSize ≤ 127
  salt : readSalt salt = .ok salt
  least : leastHash ≤ hash.length
  most : hash.length ≤ mostHash

theorem isValueChar_of_readSalt {s t : String} (h : readSalt s = .ok t) :
    ∀ c ∈ s.toList, isValueChar c = true := by
  unfold readSalt at h
  split at h
  · contradiction
  · split at h
    · rename_i hs
      exact isValueChar_of_readValue hs
    · contradiction

variable {algorithm salt : String} {version : Nat} {params : List (String × String)} {hash : Bytes}

theorem toString_version_toList (n : Nat) :
    ("v=" ++ toString n).toList = 'v' :: '=' :: (toString n).toList := by
  rw [String.toList_append]
  rfl

/-- No field has the sign in it that stands between fields. -/
theorem Fit.not_mem_dollar (h : Fit algorithm version params salt hash) :
    ∀ part ∈ ["", algorithm, "v=" ++ toString version, writtenAll params, salt,
      Base64.encodeShort Base64.standard hash], '$' ∉ part.toList := by
  have hvalue : isValueChar '$' ≠ true := fun hc => (ne_of_isValueChar hc).1 rfl
  simp only [List.forall_mem_cons, List.not_mem_nil, false_imp_iff, implies_true, and_true]
  refine ⟨by simp, fun hc => ?_, fun hc => ?_, fun hc => ?_, fun hc => ?_, fun hc => ?_⟩
  · exact hvalue (isValueChar_of_isNameChar (isNameChar_of_readName h.algorithm _ hc))
  · rw [toString_version_toList] at hc
    simp only [List.mem_cons, (by decide : '$' ≠ 'v'), (by decide : '$' ≠ '='), false_or] at hc
    exact hvalue (isValueChar_of_isDigit (isDigit_of_mem_toString hc))
  · rcases mem_writtenAll h.legible _ hc with hc | hc | hc
    · exact hvalue hc
    · contradiction
    · contradiction
  · exact hvalue (isValueChar_of_readSalt h.salt _ hc)
  · exact hvalue (isValueChar_of_mem_encodeShort _ hc)

theorem takeIf_version (n : Nat) (fields : List String) :
    takeIf (fun s => s.startsWith "v=" && !s.contains ',') (("v=" ++ toString n) :: fields) =
      (some ("v=" ++ toString n), fields) := by
  have hcomma : ',' ∉ (toString n).toList := fun hc => by
    simpa using isDigit_of_mem_toString hc
  refine if_pos ?_
  rw [Bool.and_eq_true, String.startsWith_string_iff, String.contains_char_eq,
    toString_version_toList, Bool.not_eq_true', decide_eq_false_iff_not]
  exact ⟨⟨_, rfl⟩, by simpa using hcomma⟩

theorem takeIf_params {params : List (String × String)} (hne : params ≠ [])
    (fields : List String) :
    takeIf (·.contains '=') (writtenAll params :: fields) = (some (writtenAll params), fields) := by
  have hequals : (writtenAll params).contains '=' = true := by
    rw [String.contains_char_eq]
    exact decide_eq_true (equals_mem_writtenAll hne)
  exact if_pos hequals

theorem drop_version (n : Nat) : (("v=" ++ toString n).drop 2).toString = toString n := by
  apply String.ext
  rw [String.Slice.toString, String.toList_copy_drop, toString_version_toList]
  rfl

theorem Fit.ofFields_eq (h : Fit algorithm version params salt hash) :
    ofFields [algorithm, "v=" ++ toString version, writtenAll params, salt,
        Base64.encodeShort Base64.standard hash] =
      .ok ⟨algorithm, some version, params, some salt, some hash⟩ := by
  simp only [ofFields, h.algorithm, takeIf_version, takeIf_params h.some_param, Option.mapM_some,
    drop_version, readVersion_toString h.version,
    readParams_writtenAll h.some_param h.legible h.room, List.head?_cons, List.drop_one,
    List.tail_cons, h.salt, readHash_encodeShort h.least h.most]
  rfl

/-- The text of a record reads back as the record. -/
theorem Fit.parse_render (h : Fit algorithm version params salt hash) :
    parse (render ⟨algorithm, some version, params, some salt, some hash⟩) =
      .ok ⟨algorithm, some version, params, some salt, some hash⟩ := by
  have hrender : render ⟨algorithm, some version, params, some salt, some hash⟩ =
      "$".intercalate ["", algorithm, "v=" ++ toString version, writtenAll params, salt,
        Base64.encodeShort Base64.standard hash] := by
    have hne : params.isEmpty = false := by simpa using h.some_param
    simp only [render, hne]
    rfl
  have hfields : (render ⟨algorithm, some version, params, some salt, some hash⟩).splitOn "$" =
      ["", algorithm, "v=" ++ toString version, writtenAll params, salt,
        Base64.encodeShort Base64.standard hash] := by
    rw [hrender]
    exact Text.splitOn_intercalate (c := '$') (by simp) h.not_mem_dollar
  simp only [parse, hfields, if_pos (show "".isEmpty = true from rfl), h.ofFields_eq]

end RemoteDesk.Phc
