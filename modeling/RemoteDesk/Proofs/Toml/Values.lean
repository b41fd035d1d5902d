import RemoteDesk.Toml.Parser
import RemoteDesk.Proofs.Toml.Strings

/-!
What stands in a document reads back: bare keys, texts in their written form, lists of them, and
entries one to a line.
-/
namespace RemoteDesk.Toml

variable {r : List Char}

/-! ### Bare keys -/

theorem ne_of_isBare {c d : Char} (hc : isBare c = true) (hd : isBare d = false) : c ≠ d := by
  rintro rfl
  rw [hc] at hd
  contradiction

theorem skipBlank_of_isBare {c : Char} (h : isBare c = true) (cs : List Char) :
    skipBlank (c :: cs) = c :: cs := by
  have hspace : c ≠ ' ' := ne_of_isBare h (by decide)
  have htab : c ≠ '\t' := ne_of_isBare h (by decide)
  simp [skipBlank, isBlank, hspace, htab]

theorem skipLines_of_isBare {c : Char} (h : isBare c = true) (cs : List Char) :
    skipLines false (c :: cs) = c :: cs := by
  have hline : c ≠ '\n' := ne_of_isBare h (by decide)
  have hcomment : c ≠ '#' := ne_of_isBare h (by decide)
  have hspace : c ≠ ' ' := ne_of_isBare h (by decide)
  have htab : c ≠ '\t' := ne_of_isBare h (by decide)
  simp [skipLines, isBlank, hline, hcomment, hspace, htab]

theorem readLine_of_isBare {c : Char} (h : isBare c = true) (cs : List Char) :
    readLine (c :: cs) = none := by
  unfold readLine
  split
  · rename_i hq
    exact absurd (List.cons.inj hq).1 (ne_of_isBare h (by decide))
  · rename_i hq
    exact absurd (List.cons.inj hq).1 (ne_of_isBare h (by decide))
  · rfl

theorem readKeyPart_bare {name : List Char} (hne : name ≠ []) (hbare : ∀ c ∈ name, isBare c = true)
    {c : Char} (hc : isBare c = false) (t : List Char) :
    readKeyPart (name ++ c :: t) = some (String.ofList name, skipBlank (c :: t)) := by
  obtain ⟨n, ns, rfl⟩ := List.exists_cons_of_ne_nil hne
  have hn := hbare n List.mem_cons_self
  have htake : (n :: ns ++ c :: t).takeWhile isBare = n :: ns := by
    rw [List.takeWhile_append_of_pos hbare]
    simp [hc]
  simp only [readKeyPart, List.cons_append, skipBlank_of_isBare hn, readLine_of_isBare hn]
  rw [← List.cons_append, htake]
  simp only [List.drop_left' rfl]

/-- A bare key up to a sign that is not part of it. -/
theorem readKey_bare {name : List Char} (hne : name ≠ []) (hbare : ∀ c ∈ name, isBare c = true)
    {c : Char} (hc : isBare c = false) {t : List Char}
    (hdot : (skipBlank (c :: t)).head? ≠ some '.') :
    readKey (name ++ c :: t) = some (⟨[], String.ofList name⟩, skipBlank (c :: t)) := by
  rw [readKey, maxDepth, readKeyFrom, readKeyPart_bare hne hbare hc]
  simp only [Option.bind_eq_bind, Option.bind_some]
  split
  · rename_i hu
    rw [hu] at hdot
    exact absurd rfl hdot
  · rfl

/-- An entry with a bare key, for a value that can be read. -/
theorem readEntry_bare {name : List Char} (hne : name ≠ []) (hbare : ∀ c ∈ name, isBare c = true)
    {value : Reader Toml} {v : Toml} {t : List Char} (hskip : skipBlank t = t)
    (hvalue : value t = some (v, r)) :
    readEntry value (name ++ ' ' :: '=' :: ' ' :: t) =
      some ((⟨[], String.ofList name⟩, v), r) := by
  have hkey : readKey (name ++ ' ' :: '=' :: ' ' :: t) =
      some (⟨[], String.ofList name⟩, '=' :: ' ' :: t) :=
    readKey_bare hne hbare (by decide) (by simp [skipBlank, isBlank])
  have hblank : skipBlank (' ' :: t) = t := hskip
  simp only [readEntry, hkey, takeChar, Option.bind_eq_bind, Option.bind_some, if_pos, hblank,
    hvalue]
  rfl

/-! ### Values -/

/-- The written form of a text starts with a quote. -/
theorem head_write (f : Form) (cs : List Char) :
    ∃ q t, (q = '"' ∨ q = '\'') ∧ f.write cs = q :: t := by
  cases f
  · exact ⟨'"', _, .inl rfl, rfl⟩
  · exact ⟨'\'', _, .inr rfl, rfl⟩
  · exact ⟨'"', _, .inl rfl, rfl⟩
  · exact ⟨'\'', _, .inr rfl, rfl⟩

theorem readValue_write (limit depth : Nat) (cs : List Char) (hdouble : r.head? ≠ some '"')
    (hsingle : r.head? ≠ some '\'') :
    readValue limit depth ((Form.of cs).write cs ++ r) = some (.text (String.ofList cs), r) := by
  have hread := readString_write cs hdouble hsingle
  obtain ⟨q, t, hq, ht⟩ := head_write (Form.of cs) cs
  rw [ht] at hread ⊢
  rcases hq with rfl | rfl
  · unfold readValue
    simp only [List.cons_append] at hread ⊢
    rw [hread]
    rfl
  · unfold readValue
    simp only [List.cons_append] at hread ⊢
    rw [hread]
    rfl

theorem toList_renderText (s : String) :
    (renderText s).toList = (Form.of s.toList).write s.toList := String.toList_ofList

theorem readValue_renderText (limit depth : Nat) (s : String) (hdouble : r.head? ≠ some '"')
    (hsingle : r.head? ≠ some '\'') :
    readValue limit depth ((renderText s).toList ++ r) = some (.text s, r) := by
  rw [toList_renderText, readValue_write limit depth s.toList hdouble hsingle, String.ofList_toList]

/-- Nothing is passed over in front of a text. -/
theorem skip_renderText (s : String) (r : List Char) :
    skipBlank ((renderText s).toList ++ r) = (renderText s).toList ++ r := by
  obtain ⟨q, t, hq, ht⟩ := head_write (Form.of s.toList) s.toList
  rw [toList_renderText, ht]
  rcases hq with rfl | rfl <;> rfl

theorem readItems_blank (value : Reader Toml) (limit : Nat) (items : List Toml) (cs : List Char) :
    readItems value limit items (' ' :: cs) = readItems value limit items cs := by
  cases limit with
  | zero => rfl
  | succ limit =>
    have hskip : skipLines false (' ' :: cs) = skipLines false cs := rfl
    rw [readItems, readItems, hskip]

/-- What starts with a quotation mark is an item. -/
theorem readItems_quoted (value : Reader Toml) (n : Nat) (items : List Toml) {q : Char}
    {cs : List Char} (hq : q = '"' ∨ q = '\'') :
    readItems value (n + 1) items (q :: cs) = (do
      let (v, r) ← value (q :: cs)
      match skipLines false r with
      | ']' :: r => return ((v :: items).reverse, r)
      | ',' :: r => readItems value n (v :: items) r
      | _ => none) := by
  rcases hq with rfl | rfl <;> rfl

/-- Behind an item that is a text stands the closing bracket or a comma. -/
theorem readItems_renderText (limit depth n : Nat) (items : List Toml) (s : String)
    (hdouble : r.head? ≠ some '"') (hsingle : r.head? ≠ some '\'') :
    readItems (readValue limit depth) (n + 1) items ((renderText s).toList ++ r) =
      match skipLines false r with
      | ']' :: r => some ((.text s :: items).reverse, r)
      | ',' :: r => readItems (readValue limit depth) n (.text s :: items) r
      | _ => none := by
  have hvalue := readValue_renderText limit depth s hdouble hsingle
  obtain ⟨q, t, hq, ht⟩ := head_write (Form.of s.toList) s.toList
  rw [toList_renderText, ht, List.cons_append] at hvalue ⊢
  rw [readItems_quoted _ n items hq, hvalue]
  rfl

/-- The items of a list of texts up to its closing bracket. -/
theorem readItems_texts (limit depth : Nat) (ts : List String) (n : Nat) (items : List Toml)
    (hn : ts.length < n) :
    readItems (readValue limit depth) n items
      ((", ".intercalate (ts.map renderText)).toList ++ ']' :: r) =
        some (items.reverse ++ ts.map .text, r) := by
  induction ts generalizing n items with
  | nil =>
    obtain ⟨n, rfl⟩ : ∃ k, n = k + 1 := ⟨n - 1, by omega⟩
    simp only [List.map_nil, String.intercalate_nil, String.toList_empty, List.nil_append]
    rw [List.append_nil]
    rfl
  | cons t ts ih =>
    obtain ⟨n, rfl⟩ : ∃ k, n = k + 1 := ⟨n - 1, by omega⟩
    cases ts with
    | nil =>
      simp only [List.map_cons, List.map_nil, String.intercalate_singleton]
      rw [readItems_renderText limit depth n items t (by simp) (by simp)]
      simp [skipLines, isBlank]
    | cons u us =>
      have hmore := ih n (.text t :: items) (by simpa using hn)
      have hsplit : (", ".intercalate ((t :: u :: us).map renderText)).toList ++ ']' :: r =
          (renderText t).toList ++ ',' :: ' ' ::
            ((", ".intercalate ((u :: us).map renderText)).toList ++ ']' :: r) := by
        simp [String.intercalate_cons_cons]
      rw [hsplit, readItems_renderText limit depth n items t (by simp) (by simp)]
      refine (readItems_blank (readValue limit depth) n (.text t :: items) _).trans ?_
      rw [hmore]
      simp

/-- A list of texts reads back, in brackets and with commas between them. -/
theorem readValue_texts {limit : Nat} (depth : Nat) {ts : List String}
    (hlimit : ts.length < limit) :
    readValue limit (depth + 1)
      ('[' :: ((", ".intercalate (ts.map renderText)).toList ++ ']' :: r)) =
        some (.list (ts.map .text), r) := by
  have hitems := readItems_texts (r := r) limit depth ts limit [] hlimit
  rw [readValue, hitems]
  rfl

/-- Every text takes at least a character. -/
theorem length_le_texts (ts : List String) :
    ts.length ≤ (", ".intercalate (ts.map renderText)).toList.length := by
  induction ts with
  | nil => exact Nat.zero_le _
  | cons t ts ih =>
    have ht : 1 ≤ (renderText t).toList.length := by
      obtain ⟨q, cs, -, hcs⟩ := head_write (Form.of t.toList) t.toList
      rw [toList_renderText, hcs, List.length_cons]
      omega
    cases ts with
    | nil => simpa using ht
    | cons u us =>
      simp only [List.map_cons, String.intercalate_cons_cons, String.toList_append,
        List.length_append, List.length_cons] at ih ⊢
      omega

/-! ### Lines -/

/-- An entry with a bare key and the line end behind it. -/
theorem readPairs_bare {name : List Char} (hne : name ≠ []) (hbare : ∀ c ∈ name, isBare c = true)
    {value : Reader Toml} {v : Toml} {t u : List Char} (hskip : skipBlank t = t)
    (hvalue : value t = some (v, '\n' :: u)) (n : Nat) (pairs : List (Key × Toml)) :
    readPairs value (n + 1) pairs (name ++ ' ' :: '=' :: ' ' :: t) =
      readPairs value n ((⟨[], String.ofList name⟩, v) :: pairs) u := by
  have hentry := readEntry_bare hne hbare hskip hvalue
  obtain ⟨c, cs, rfl⟩ := List.exists_cons_of_ne_nil hne
  have hc := hbare c List.mem_cons_self
  rw [readPairs.eq_def]
  simp only [List.cons_append, skipLines_of_isBare hc] at hentry ⊢
  split
  · contradiction
  · rename_i hb
    exact absurd (List.cons.inj hb).1 (ne_of_isBare hc (by decide))
  · rw [hentry]
    rfl

theorem readPairs_end (value : Reader Toml) (n : Nat) (pairs : List (Key × Toml)) :
    readPairs value (n + 1) pairs [] = some (pairs.reverse, []) := rfl

/-- A repeated heading of a bare key. -/
theorem readHeading_row {name : List Char} (hne : name ≠ []) (hbare : ∀ c ∈ name, isBare c = true)
    (t : List Char) :
    readHeading ('[' :: '[' :: (name ++ ']' :: ']' :: t)) =
      some (.row ⟨[], String.ofList name⟩, t) := by
  have hkey : readKey (name ++ ']' :: ']' :: t) =
      some (⟨[], String.ofList name⟩, ']' :: ']' :: t) :=
    readKey_bare hne hbare (by decide) (by simp [skipBlank, isBlank])
  rw [readHeading, hkey]
  rfl

/-- A heading with the line end behind it, and the entries under it. -/
theorem readParts_part {value : Reader Toml} {limit : Nat} {heading : Heading} {cs t u : List Char}
    {pairs : List (Key × Toml)} (hheading : readHeading cs = some (heading, '\n' :: t))
    (hpairs : readPairs value limit [] t = some (pairs, u)) (n : Nat) (parts : List Part) :
    readParts value limit (n + 1) parts cs =
      readParts value limit n (⟨heading, pairs⟩ :: parts) u := by
  have hline : takeLineEnd ('\n' :: t) = some t := rfl
  cases cs with
  | nil => contradiction
  | cons c cs =>
    rw [readParts.eq_def]
    simp only [hheading, Option.bind_eq_bind, Option.bind_some, hline, hpairs]

theorem readParts_end (value : Reader Toml) (limit n : Nat) (parts : List Part) :
    readParts value limit n parts [] = some parts.reverse := by
  cases n <;> rfl

theorem unifyLines_cons {c : Char} (h : c ≠ '\r') (cs : List Char) :
    unifyLines (c :: cs) = c :: unifyLines cs := by
  rw [unifyLines]
  rintro r hc
  exact absurd hc h

theorem unifyLines_eq {cs : List Char} (h : '\r' ∉ cs) : unifyLines cs = cs := by
  induction cs with
  | nil => rfl
  | cons c cs ih =>
    rw [List.mem_cons, not_or] at h
    rw [unifyLines_cons (Ne.symm h.1), ih h.2]

end RemoteDesk.Toml
