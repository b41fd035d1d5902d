import Mathlib.Data.String.Basic

/-!
Cutting a text at a character undoes putting its parts together with that character between them,
as long as no part has it.
-/
namespace RemoteDesk.Text

open String

/-- The text is cut up to the end of `l`, and the next part starts with `m`. -/
theorem splitOnAux_singleton (c : Char) (l m r : List Char) (before : List String) :
    splitOnAux (ofList (l ++ m ++ r)) (ofList [c]) ⟨utf8Len l⟩ ⟨utf8Len l + utf8Len m⟩ 0 before =
      before.reverse ++ (List.splitOnPPrepend (· == c) r m.reverse).map ofList := by
  induction r generalizing l m before with
  | nil =>
    rw [splitOnAux, if_pos (by simp [-ofList_append])]
    simpa using extract_of_valid l m []
  | cons d r ih =>
    have hget : Pos.Raw.get (ofList (l ++ m ++ d :: r)) ⟨utf8Len l + utf8Len m⟩ = d := by
      simpa using get_of_valid (l ++ m) (d :: r)
    have hnext : Pos.Raw.next (ofList (l ++ m ++ d :: r)) ⟨utf8Len l + utf8Len m⟩ =
        ⟨utf8Len l + utf8Len m + d.utf8Size⟩ := by
      simpa using next_of_valid (l ++ m) d r
    have hget0 : Pos.Raw.get (ofList [c]) 0 = c := by simpa using get_of_valid [] [c]
    have hnext0 : Pos.Raw.next (ofList [c]) 0 = ⟨c.utf8Size⟩ := by simpa using next_of_valid [] c []
    have hsize : 0 < d.utf8Size := d.utf8Size_pos
    rw [splitOnAux, if_neg (by simp [-ofList_append]; omega), hget0, hget]
    by_cases h : d = c
    · subst h
      have hback : Pos.Raw.unoffsetBy ⟨utf8Len l + utf8Len m + d.utf8Size⟩ ⟨d.utf8Size⟩ =
          ⟨utf8Len l + utf8Len m⟩ := by
        simp [Pos.Raw.unoffsetBy]
      have hrest := ih (l ++ m ++ [d]) [] (ofList m :: before)
      rw [if_pos (by simp), hnext, hnext0, if_pos (by simp [-ofList_cons]), hback,
        extract_of_valid, List.splitOnPPrepend_cons_pos (by simp)]
      simpa [-ofList_append, Nat.add_assoc] using hrest
    · have hback : Pos.Raw.unoffsetBy ⟨utf8Len l + utf8Len m⟩ 0 = ⟨utf8Len l + utf8Len m⟩ := rfl
      have hrest := ih l (m ++ [d]) before
      rw [if_neg (by simp [h]), hback, hnext, List.splitOnPPrepend_cons_neg (by simp [h])]
      simpa [-ofList_append, Nat.add_assoc] using hrest

theorem splitOn_singleton (s : String) (c : Char) :
    s.splitOn (ofList [c]) = (s.toList.splitOn c).map ofList := by
  have h := splitOnAux_singleton c [] [] s.toList []
  rw [splitOn, if_neg (by simp)]
  simpa [List.splitOn_eq_splitOnP] using h

theorem splitOn_intercalate {c : Char} {parts : List String} (hne : parts ≠ [])
    (h : ∀ p ∈ parts, c ∉ p.toList) :
    ((ofList [c]).intercalate parts).splitOn (ofList [c]) = parts := by
  have hparts : ∀ cs ∈ parts.map toList, c ∉ cs := by simpa using h
  rw [splitOn_singleton, toList_intercalate, toList_ofList,
    List.splitOn_intercalate c hparts (by simpa using hne)]
  simp

theorem mem_intercalate {separator : String} {parts : List String} {c : Char}
    (h : c ∈ (separator.intercalate parts).toList) :
    c ∈ separator.toList ∨ ∃ p ∈ parts, c ∈ p.toList := by
  induction parts with
  | nil => simp at h
  | cons p parts ih =>
    by_cases hne : parts = []
    · subst hne
      exact .inr ⟨p, List.mem_cons_self, by simpa using h⟩
    · rw [intercalate_cons_of_ne_nil hne, toList_append, toList_append, List.mem_append,
        List.mem_append] at h
      rcases h with (h | h) | h
      · exact .inr ⟨p, List.mem_cons_self, h⟩
      · exact .inl h
      · exact (ih h).imp_right fun ⟨q, hq, hc⟩ => ⟨q, List.mem_cons_of_mem p hq, hc⟩

theorem mem_intercalate_of_mem_head {separator p : String} {parts : List String} {c : Char}
    (h : c ∈ p.toList) : c ∈ (separator.intercalate (p :: parts)).toList := by
  cases parts with
  | nil => simpa using h
  | cons q parts => simp [intercalate_cons_cons, h]

end RemoteDesk.Text
