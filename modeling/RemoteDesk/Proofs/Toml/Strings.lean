import RemoteDesk.Toml.Printer
import Mathlib.Data.List.Basic

/-!
A text reads back from its written form, whichever of the four forms was taken. In the forms with
escapes every character by itself stands for itself again; in the forms with several lines the
quotes at the end of the text run into the closing ones, and are told apart by their number.
-/
namespace RemoteDesk.Toml

/-! ### Reading one character -/

section

variable (lines : Bool) (out r : List Char)

theorem readEscaped_backslash :
    readEscaped lines .plain out ('\\' :: r) = readEscaped lines .escape out r := rfl

theorem readEscaped_cons (c : Char) : readEscaped lines .plain out (c :: r) =
    if c = '\\' then readEscaped lines .escape out r
    else if c = '"' then
      if !lines then some (String.ofList out.reverse, r)
      else match r with
        | '"' :: '"' :: r => some (finishLines '"' out r)
        | _ => readEscaped lines .plain ('"' :: out) r
    else if isAllowed c ∨ (lines ∧ c = '\n') then readEscaped lines .plain (c :: out) r
    else none := rfl

theorem readEscaped_closing : readEscaped false .plain out ('"' :: r) =
    some (String.ofList out.reverse, r) := rfl

variable {lines}

theorem readEscaped_plain {c : Char} (hs : c ≠ '\\') (hq : c ≠ '"')
    (h : isAllowed c = true ∨ (lines = true ∧ c = '\n')) :
    readEscaped lines .plain out (c :: r) = readEscaped lines .plain (c :: out) r := by
  rw [readEscaped_cons, if_neg hs, if_neg hq, if_pos h]

theorem readEscaped_short {e c : Char} (h : shortEscape? e = some c) :
    readEscaped lines .plain out ('\\' :: e :: r) = readEscaped lines .plain (c :: out) r := by
  have hu : e ≠ 'u' := by
    rintro rfl
    contradiction
  have hU : e ≠ 'U' := by
    rintro rfl
    contradiction
  rw [readEscaped_backslash, readEscaped, if_neg hu, if_neg hU, h]

theorem readEscaped_digit {c : Char} {d left value : Nat} (h : digitValue? 16 c = some d)
    (hl : 1 < left) : readEscaped lines (.digits left value) out (c :: r) =
      readEscaped lines (.digits (left - 1) (value * 16 + d)) out r := by
  rw [readEscaped, h]
  exact if_pos hl

theorem readEscaped_lastDigit {c : Char} {d value : Nat} (h : digitValue? 16 c = some d)
    (hv : (value * 16 + d).isValidChar) : readEscaped lines (.digits 1 value) out (c :: r) =
      readEscaped lines .plain (Char.ofNat (value * 16 + d) :: out) r := by
  rw [readEscaped, h]
  exact if_pos hv

theorem digitValue?_hexDigit : ∀ d < 16,
    digitValue? 16 (if d < 10 then Char.ofNat (48 + d) else Char.ofNat (55 + d)) = some d := by
  decide

/-- Four digits stand for the character whose number they spell. -/
theorem readEscaped_hexFour {c : Char} (h : c.toNat < 65536) :
    readEscaped lines .plain out ('\\' :: 'u' :: (hexFour c.toNat ++ r)) =
      readEscaped lines .plain (c :: out) r := by
  have hvalue : ((0 * 16 + c.toNat / 4096 % 16) * 16 + c.toNat / 256 % 16) * 16 +
      c.toNat / 16 % 16 = c.toNat / 16 := by
    omega
  have hlast : c.toNat / 16 * 16 + c.toNat % 16 = c.toNat := by
    omega
  have hdigit : ∀ n, digitValue? 16
      (if n % 16 < 10 then Char.ofNat (48 + n % 16) else Char.ofNat (55 + n % 16)) =
        some (n % 16) := fun n => digitValue?_hexDigit _ (Nat.mod_lt n (by decide))
  have hopen : readEscaped lines .plain out ('\\' :: 'u' :: (hexFour c.toNat ++ r)) =
      readEscaped lines (.digits 4 0) out (hexFour c.toNat ++ r) := rfl
  rw [hopen, hexFour]
  simp only [List.cons_append, List.nil_append]
  rw [readEscaped_digit _ _ (hdigit _) (by decide), readEscaped_digit _ _ (hdigit _) (by decide),
    readEscaped_digit _ _ (hdigit _) (by decide), hvalue, readEscaped_lastDigit _ _ (hdigit _),
    hlast, Char.ofNat_toNat]
  rw [hlast]
  exact c.valid

end

/-! ### Reading what was written -/

theorem needsEscape_lt {c : Char} (h : needsEscape c = true) : c.toNat < 128 := by
  simp only [needsEscape, isAllowed, Bool.and_eq_true, Bool.not_eq_true', Bool.or_eq_false_iff,
    decide_eq_false_iff_not, Bool.and_eq_false_iff] at h
  omega

/-- A character other than a quote stands for itself. -/
theorem readEscaped_escaped (lines : Bool) (out r : List Char) {c : Char} (hq : c ≠ '"') :
    readEscaped lines .plain out (escaped lines c ++ r) =
      readEscaped lines .plain (c :: out) r := by
  unfold escaped
  split_ifs with hb ht hn hlines hf hr hs he
  · exact hb ▸ readEscaped_short out r rfl
  · exact ht ▸ readEscaped_short out r rfl
  · subst hn
    exact readEscaped_plain out r (by decide) (by decide) (.inr ⟨hlines, rfl⟩)
  · exact hn ▸ readEscaped_short out r rfl
  · exact hf ▸ readEscaped_short out r rfl
  · exact hr ▸ readEscaped_short out r rfl
  · subst hs
    exact readEscaped_short out r rfl
  · exact readEscaped_hexFour out r (Nat.lt_trans (needsEscape_lt he) (by decide))
  · have hallowed : isAllowed c = true := by
      simpa [needsEscape, hn] using he
    exact readEscaped_plain out r hs hq (.inl hallowed)

theorem escapeAll_other {lines : Bool} {quotes : Nat} {c : Char} (hq : c ≠ '"') (cs : List Char) :
    escapeAll lines quotes (c :: cs) = escaped lines c ++ escapeAll lines 0 cs := if_neg hq

/-- A quote stands for itself after less than two others, where there are several lines. -/
theorem escapeAll_quote {quotes : Nat} (h : quotes < 2) (cs : List Char) :
    escapeAll true quotes ('"' :: cs) = '"' :: escapeAll true (quotes + 1) cs := if_pos h

theorem escapeAll_escapedQuote {lines : Bool} {quotes : Nat}
    (h : (if lines then 2 else 0) ≤ quotes) (cs : List Char) :
    escapeAll lines quotes ('"' :: cs) = '\\' :: '"' :: escapeAll lines 0 cs := by
  rw [escapeAll, if_pos rfl, if_neg (Nat.not_lt.mpr h)]

/-- A text without lines up to its closing quote. -/
theorem readEscaped_escapeAll (cs out r : List Char) :
    readEscaped false .plain out (escapeAll false 0 cs ++ '"' :: r) =
      some (String.ofList (out.reverse ++ cs), r) := by
  induction cs generalizing out with
  | nil => rw [escapeAll, List.nil_append, readEscaped_closing, List.append_nil]
  | cons c cs ih =>
    by_cases hq : c = '"'
    · subst hq
      rw [escapeAll_escapedQuote (Nat.zero_le 0), List.cons_append, List.cons_append,
        readEscaped_short out _ rfl, ih]
      simp
    · rw [escapeAll_other hq, List.append_assoc, readEscaped_escaped false out _ hq, ih]
      simp

/-! ### Closing quotes of several lines -/

/-- Quotes right before the closing ones belong to the text. -/
theorem finishLines_replicate (quote : Char) (out : List Char) {r : List Char} {count : Nat}
    (hcount : count ≤ 2) (hr : r.head? ≠ some quote) :
    finishLines quote out (List.replicate count quote ++ r) =
      (String.ofList (out.reverse ++ List.replicate count quote), r) := by
  have hstop : ∀ n, (r.take n).takeWhile (· = quote) = [] := fun n => by
    cases r with
    | nil => simp
    | cons c r =>
      cases n with
      | zero => rfl
      | succ n =>
        have hc : c ≠ quote := by simpa using hr
        simp [hc]
  have htake : (List.replicate count quote ++ r).take 2 =
      List.replicate count quote ++ r.take (2 - count) := by
    rw [List.take_append, List.take_of_length_le (by simpa using hcount), List.length_replicate]
  have hrun : ((List.replicate count quote ++ r).take 2).takeWhile (· = quote) =
      List.replicate count quote := by
    rw [htake, List.takeWhile_append_of_pos (by simp), hstop, List.append_nil]
  simp only [finishLines, hrun, List.length_replicate]
  rw [List.drop_left' List.length_replicate]

/-- A character is escaped, or written as itself. -/
theorem escaped_cases (lines : Bool) (c : Char) :
    (∃ ds, escaped lines c = '\\' :: ds) ∨ escaped lines c = [c] := by
  unfold escaped
  split_ifs with hb ht hn
  · exact .inl ⟨_, rfl⟩
  · exact .inl ⟨_, rfl⟩
  · exact .inr (hn ▸ rfl)
  · exact .inl ⟨_, rfl⟩
  · exact .inl ⟨_, rfl⟩
  · exact .inl ⟨_, rfl⟩
  · exact .inl ⟨_, rfl⟩
  · exact .inl ⟨_, rfl⟩
  · exact .inr rfl

theorem head_escaped (lines : Bool) {c : Char} (hq : c ≠ '"') :
    ∃ d ds, escaped lines c = d :: ds ∧ d ≠ '"' := by
  rcases escaped_cases lines c with ⟨ds, h⟩ | h
  · exact ⟨'\\', ds, h, by decide⟩
  · exact ⟨c, [], h, hq⟩

/-- After two quotes of their own the written characters go on with something else. -/
theorem head_escapeAll (lines : Bool) {quotes : Nat} (h : (if lines then 2 else 0) ≤ quotes)
    (c : Char) (cs : List Char) :
    ∃ d ds, escapeAll lines quotes (c :: cs) = d :: ds ∧ d ≠ '"' := by
  by_cases hq : c = '"'
  · subst hq
    exact ⟨'\\', '"' :: escapeAll lines 0 cs, escapeAll_escapedQuote h cs, by decide⟩
  · obtain ⟨d, ds, hd, hne⟩ := head_escaped lines hq
    exact ⟨d, ds ++ escapeAll lines 0 cs, by rw [escapeAll_other hq, hd, List.cons_append], hne⟩

/-- Behind a quote, two more quotes are closing ones. -/
theorem eq_of_two_quotes {quotes : Nat} (hquotes : 1 ≤ quotes) {cs r t : List Char}
    (h : escapeAll true quotes cs ++ '"' :: '"' :: '"' :: r = '"' :: '"' :: t) :
    cs = [] ∨ (cs = ['"'] ∧ quotes = 1) := by
  have hfull : ∀ n, 2 ≤ n → ∀ (c : Char) (ds u : List Char),
      escapeAll true n (c :: ds) ++ '"' :: '"' :: '"' :: r ≠ '"' :: u := fun n hn c ds u hu => by
    obtain ⟨d, es, hd, hne⟩ := head_escapeAll true hn c ds
    rw [hd] at hu
    exact hne (List.cons.inj hu).1
  cases cs with
  | nil => exact .inl rfl
  | cons c cs =>
    by_cases hn : 2 ≤ quotes
    · exact absurd h (hfull quotes hn c cs _)
    · obtain rfl : quotes = 1 := by omega
      by_cases hq : c = '"'
      · subst hq
        rw [escapeAll_quote (by decide)] at h
        cases cs with
        | nil => exact .inr ⟨rfl, rfl⟩
        | cons d ds => exact absurd (List.cons.inj h).2 (hfull 2 (Nat.le_refl 2) d ds _)
      · obtain ⟨d, es, hd, hne⟩ := head_escaped true hq
        rw [escapeAll_other hq, hd] at h
        exact absurd (List.cons.inj h).1 hne

theorem readEscaped_quote (out : List Char) {r : List Char}
    (h : ∀ t, r ≠ '"' :: '"' :: t) :
    readEscaped true .plain out ('"' :: r) = readEscaped true .plain ('"' :: out) r := by
  rw [readEscaped_cons, if_neg (by decide), if_pos rfl]
  split
  · contradiction
  · split
    · exact absurd rfl (h _)
    · rfl

/-- A text of several lines up to its closing quotes. -/
theorem readEscaped_escapeAllLines (cs out : List Char) {r : List Char} (hr : r.head? ≠ some '"')
    {quotes : Nat} (hquotes : quotes ≤ 2) :
    readEscaped true .plain out (escapeAll true quotes cs ++ '"' :: '"' :: '"' :: r) =
      some (String.ofList (out.reverse ++ cs), r) := by
  -- The reader stops at the first of three quotes in a row, so the text's own last quotes are
  -- closing ones to it; what it takes for the rest of the text are as many quotes behind them.
  induction cs generalizing out quotes with
  | nil => exact congrArg some (finishLines_replicate '"' out (Nat.zero_le 2) hr)
  | cons c cs ih =>
    by_cases hq : c = '"'
    · subst hq
      by_cases hfull : quotes < 2
      · rw [escapeAll_quote hfull, List.cons_append]
        by_cases hclose : ∃ t, escapeAll true (quotes + 1) cs ++ '"' :: '"' :: '"' :: r =
            '"' :: '"' :: t
        · obtain ⟨t, ht⟩ := hclose
          rcases eq_of_two_quotes (Nat.le_add_left 1 quotes) ht with rfl | ⟨rfl, hone⟩
          · exact congrArg some (finishLines_replicate '"' out (by decide : 1 ≤ 2) hr)
          · obtain rfl : quotes = 0 := by omega
            exact congrArg some (finishLines_replicate '"' out (Nat.le_refl 2) hr)
        · rw [readEscaped_quote out (fun t ht => hclose ⟨t, ht⟩), ih _ (by omega)]
          simp
      · rw [escapeAll_escapedQuote (Nat.not_lt.mp hfull), List.cons_append, List.cons_append,
          readEscaped_short out _ rfl, ih _ (Nat.zero_le 2)]
        simp
    · rw [escapeAll_other hq, List.append_assoc, readEscaped_escaped true out _ hq,
        ih _ (Nat.zero_le 2)]
      simp

/-! ### Texts without escapes -/

theorem not_needsEscape {c : Char} (h : needsEscape c = false) : isAllowed c = true ∨ c = '\n' := by
  by_cases hn : c = '\n'
  · exact .inr hn
  · exact .inl (by simpa [needsEscape, hn] using h)

/-- A text without quotes of its own up to its closing quote. -/
theorem readLiteral_append {cs : List Char} (r : List Char)
    (h : ∀ c ∈ cs, isAllowed c = true ∧ c ≠ '\'') :
    readLiteral (cs ++ '\'' :: r) = some (String.ofList cs, r) := by
  have hbody : (cs ++ '\'' :: r).takeWhile (fun c => isAllowed c && c ≠ '\'') = cs := by
    rw [List.takeWhile_append_of_pos (by simpa using h)]
    simp
  simp only [readLiteral, hbody]
  rw [List.drop_left' rfl]
  rfl

theorem readLiteralLines_cons (out r : List Char) (c : Char) : readLiteralLines out (c :: r) =
    if c = '\'' then
      match r with
      | '\'' :: '\'' :: r => some (finishLines '\'' out r)
      | _ => readLiteralLines ('\'' :: out) r
    else if isAllowed c ∨ c = '\n' then readLiteralLines (c :: out) r
    else none := rfl

theorem readLiteralLines_other {c : Char} (hq : c ≠ '\'') (h : isAllowed c = true ∨ c = '\n')
    (out r : List Char) :
    readLiteralLines out (c :: r) = readLiteralLines (c :: out) r := by
  rw [readLiteralLines_cons, if_neg hq, if_pos h]

theorem readLiteralLines_quote (out : List Char) {r : List Char} (h : ∀ t, r ≠ '\'' :: '\'' :: t) :
    readLiteralLines out ('\'' :: r) = readLiteralLines ('\'' :: out) r := by
  rw [readLiteralLines_cons, if_pos rfl]
  split
  · exact absurd rfl (h _)
  · rfl

/-- A text of several lines without escapes up to its closing quotes. -/
theorem readLiteralLines_append (cs out : List Char) {r : List Char} (hr : r.head? ≠ some '\'')
    (hrun : longestRun '\'' cs ≤ 2) (h : ∀ c ∈ cs, needsEscape c = false) :
    readLiteralLines out (cs ++ '\'' :: '\'' :: '\'' :: r) =
      some (String.ofList (out.reverse ++ cs), r) := by
  induction cs generalizing out with
  | nil => exact congrArg some (finishLines_replicate '\'' out (Nat.zero_le 2) hr)
  | cons c cs ih =>
    rw [List.forall_mem_cons] at h
    have hrun' := Nat.max_le.mp hrun
    rw [List.cons_append]
    by_cases hq : c = '\''
    · subst hq
      by_cases hclose : ∃ t, cs ++ '\'' :: '\'' :: '\'' :: r = '\'' :: '\'' :: t
      · obtain ⟨t, ht⟩ := hclose
        -- A third quote in a row would be one too many.
        match cs, ht with
        | [], _ => exact congrArg some (finishLines_replicate '\'' out (by decide : 1 ≤ 2) hr)
        | [d], ht =>
          obtain rfl : d = '\'' := (List.cons.inj ht).1
          exact congrArg some (finishLines_replicate '\'' out (Nat.le_refl 2) hr)
        | d :: e :: ds, ht =>
          obtain rfl : d = '\'' := (List.cons.inj ht).1
          obtain rfl : e = '\'' := (List.cons.inj (List.cons.inj ht).2).1
          exact absurd hrun'.1 (by simp [runOf])
      · rw [readLiteralLines_quote out (fun t ht => hclose ⟨t, ht⟩), ih _ hrun'.2 h.2]
        simp
    · rw [readLiteralLines_other hq (not_needsEscape h.1), ih _ hrun'.2 h.2]
      simp

/-! ### The four forms -/

theorem Form.of_literal {cs : List Char} (h : Form.of cs = .literal) :
    cs ≠ [] ∧ ∀ c ∈ cs, isAllowed c = true ∧ c ≠ '\'' := by
  refine ⟨by rintro rfl; contradiction, ?_⟩
  simp only [Form.of] at h
  split_ifs at h with hescape hlines hplain hquotes
  simp only [List.any_eq_true, not_exists, not_and, Bool.not_eq_true] at hescape
  simp only [Bool.and_eq_true, Bool.not_eq_true', List.contains_eq_mem,
    decide_eq_false_iff_not] at hquotes
  intro c hc
  refine ⟨(not_needsEscape (hescape c hc)).resolve_right ?_, ?_⟩
  · rintro rfl
    exact hquotes.1 hc
  · rintro rfl
    exact hquotes.2 hc

theorem Form.of_literalLines {cs : List Char} (h : Form.of cs = .literalLines) :
    longestRun '\'' cs ≤ 2 ∧ ∀ c ∈ cs, needsEscape c = false := by
  simp only [Form.of] at h
  split_ifs at h with hescape hlines hplain hliteral hdouble hsingle
  simp only [List.any_eq_true, not_exists, not_and, Bool.not_eq_true] at hescape
  exact ⟨hsingle, hescape⟩

/-- Less than three quotes open one line. -/
theorem readString_line {quote : Char} (hquote : quote = '"' ∨ quote = '\'') {t : List Char}
    (h : ∀ u, t ≠ quote :: quote :: u) : readString (quote :: t) = readLine (quote :: t) := by
  unfold readString
  split
  · rename_i u hu
    obtain ⟨rfl, rfl⟩ := List.cons.inj hu
    exact absurd rfl (h u)
  · rename_i u hu
    obtain ⟨rfl, rfl⟩ := List.cons.inj hu
    exact absurd rfl (h u)
  · rfl

theorem skipFirstLine_of_head {t : List Char} (h : t.head? ≠ some '\n') : skipFirstLine t = t := by
  unfold skipFirstLine
  split
  · exact absurd rfl h
  · rfl

/-- The line end that is put in front of a text with lines, and only of such a text, is left out. -/
theorem skipFirstLine_firstLine {cs t : List Char} (h : '\n' ∉ cs → t.head? ≠ some '\n') :
    skipFirstLine (firstLine cs ++ t) = t := by
  by_cases hn : '\n' ∈ cs
  · simp [firstLine, hn, skipFirstLine]
  · have hnone : firstLine cs = [] := by simp [firstLine, hn]
    rw [hnone, List.nil_append, skipFirstLine_of_head (h hn)]

theorem head_escapeAllLines {cs r : List Char} (h : '\n' ∉ cs) :
    (escapeAll true 0 cs ++ '"' :: r).head? ≠ some '\n' := by
  cases cs with
  | nil => simp [escapeAll]
  | cons c cs =>
    by_cases hq : c = '"'
    · subst hq
      simp [escapeAll_quote]
    · have hc : c ≠ '\n' := fun hc => h (hc ▸ List.mem_cons_self)
      rw [escapeAll_other hq]
      rcases escaped_cases true c with ⟨ds, hd⟩ | hd
      · simp [hd]
      · simpa [hd] using hc

variable {r : List Char}

theorem readString_basic (cs : List Char) (hr : r.head? ≠ some '"') :
    readString (Form.basic.write cs ++ r) = some (String.ofList cs, r) := by
  have hopen : ∀ u, escapeAll false 0 cs ++ '"' :: r ≠ '"' :: '"' :: u := fun u hu => by
    cases cs with
    | nil =>
      exact hr (congrArg List.head? (List.cons.inj hu).2)
    | cons c cs =>
      obtain ⟨d, ds, hd, hne⟩ := head_escapeAll false (Nat.zero_le 0) c cs
      rw [hd] at hu
      exact hne (List.cons.inj hu).1
  have hwrite : Form.basic.write cs ++ r = '"' :: (escapeAll false 0 cs ++ '"' :: r) := by
    simp [Form.write]
  rw [hwrite, readString_line (.inl rfl) hopen, readLine, readEscaped_escapeAll]
  rfl

theorem readString_literal {cs : List Char} (h : Form.of cs = .literal) :
    readString (Form.literal.write cs ++ r) = some (String.ofList cs, r) := by
  obtain ⟨hne, hall⟩ := Form.of_literal h
  have hopen : ∀ u, cs ++ '\'' :: r ≠ '\'' :: '\'' :: u := fun u hu => by
    obtain ⟨c, ds, rfl⟩ := List.exists_cons_of_ne_nil hne
    exact (hall c List.mem_cons_self).2 (List.cons.inj hu).1
  have hwrite : Form.literal.write cs ++ r = '\'' :: (cs ++ '\'' :: r) := by
    simp [Form.write]
  rw [hwrite, readString_line (.inr rfl) hopen, readLine, readLiteral_append r hall]

theorem readString_basicLines (cs : List Char) (hr : r.head? ≠ some '"') :
    readString (Form.basicLines.write cs ++ r) = some (String.ofList cs, r) := by
  have hwrite : Form.basicLines.write cs ++ r =
      '"' :: '"' :: '"' :: (firstLine cs ++ (escapeAll true 0 cs ++ '"' :: '"' :: '"' :: r)) := by
    simp [Form.write]
  rw [hwrite, readString, skipFirstLine_firstLine head_escapeAllLines,
    readEscaped_escapeAllLines cs [] hr (Nat.zero_le 2)]
  rfl

theorem readString_literalLines {cs : List Char} (h : Form.of cs = .literalLines)
    (hr : r.head? ≠ some '\'') :
    readString (Form.literalLines.write cs ++ r) = some (String.ofList cs, r) := by
  obtain ⟨hrun, hall⟩ := Form.of_literalLines h
  have hwrite : Form.literalLines.write cs ++ r =
      '\'' :: '\'' :: '\'' :: (firstLine cs ++ (cs ++ '\'' :: '\'' :: '\'' :: r)) := by
    simp [Form.write]
  have hfirst : '\n' ∉ cs → (cs ++ '\'' :: '\'' :: '\'' :: r).head? ≠ some '\n' := fun hn => by
    cases cs with
    | nil => simp
    | cons c cs =>
      have hc : c ≠ '\n' := fun hc => hn (hc ▸ List.mem_cons_self)
      simpa using hc
  rw [hwrite, readString, skipFirstLine_firstLine hfirst,
    readLiteralLines_append cs [] hr hrun hall]
  rfl

/-- A text reads back from its written form. -/
theorem readString_write (cs : List Char) (hdouble : r.head? ≠ some '"')
    (hsingle : r.head? ≠ some '\'') :
    readString ((Form.of cs).write cs ++ r) = some (String.ofList cs, r) := by
  cases h : Form.of cs with
  | basic => exact readString_basic cs hdouble
  | literal => exact readString_literal h
  | basicLines => exact readString_basicLines cs hdouble
  | literalLines => exact readString_literalLines h hsingle

/-! ### Carriage returns -/

theorem carriageReturn_not_mem_hexFour (n : Nat) : '\r' ∉ hexFour n := by
  have hdigit : ∀ d < 16, '\r' ≠ if d < 10 then Char.ofNat (48 + d) else Char.ofNat (55 + d) := by
    decide
  have hmod : ∀ k, k % 16 < 16 := fun k => Nat.mod_lt k (by decide)
  simp only [hexFour, List.mem_cons, List.not_mem_nil, or_false, not_or]
  exact ⟨hdigit _ (hmod _), hdigit _ (hmod _), hdigit _ (hmod _), hdigit _ (hmod _)⟩

theorem carriageReturn_not_mem_escaped (lines : Bool) (c : Char) : '\r' ∉ escaped lines c := by
  unfold escaped
  split_ifs with hb ht hn hlines hf hr
  · decide
  · decide
  · decide
  · decide
  · decide
  · decide
  · decide
  · simpa using carriageReturn_not_mem_hexFour c.toNat
  · simpa using Ne.symm hr

theorem carriageReturn_not_mem_escapeAll (lines : Bool) (cs : List Char) (quotes : Nat) :
    '\r' ∉ escapeAll lines quotes cs := by
  induction cs generalizing quotes with
  | nil => exact List.not_mem_nil
  | cons c cs ih =>
    rw [escapeAll]
    split_ifs
    all_goals simp [ih, carriageReturn_not_mem_escaped]

/-- A carriage return is always escaped, so the line ends of a document can be told apart. -/
theorem carriageReturn_not_mem_write (cs : List Char) : '\r' ∉ (Form.of cs).write cs := by
  have hfirst : '\r' ∉ firstLine cs := by
    unfold firstLine
    split_ifs <;> decide
  cases h : Form.of cs with
  | basic => simp [Form.write, carriageReturn_not_mem_escapeAll]
  | literal =>
    have hcs : '\r' ∉ cs := fun hc => absurd ((Form.of_literal h).2 _ hc).1 (by decide)
    simp [Form.write, hcs]
  | basicLines => simp [Form.write, hfirst, carriageReturn_not_mem_escapeAll]
  | literalLines =>
    have hcs : '\r' ∉ cs := fun hc => absurd ((Form.of_literalLines h).2 _ hc) (by decide)
    simp [Form.write, hfirst, hcs]

end RemoteDesk.Toml
