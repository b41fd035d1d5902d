import RemoteDesk.Proofs.Json.RoundTrip

/-!
Objects as tables. Members in key order hold one value to a key, which is found under it; and
whatever is put into an object, the members stay in key order and the first value for a key is the
one that stays.
-/
namespace RemoteDesk

/-- Under keys that are all different, every entry is found. -/
theorem lookup_of_mem {ν : Type} {entries : List (String × ν)} {e : String × ν}
    (h : (entries.map (·.1)).Nodup) (he : e ∈ entries) : entries.lookup e.1 = some e.2 := by
  induction entries with
  | nil => contradiction
  | cons other entries ih =>
    rw [List.map_cons, List.nodup_cons] at h
    rw [List.lookup_cons]
    rcases List.mem_cons.mp he with rfl | he
    · rw [beq_self_eq_true]
    · have hne : e.1 ≠ other.1 := fun heq => h.1 (heq ▸ List.mem_map_of_mem he)
      rw [beq_eq_false_iff_ne.mpr hne]
      exact ih h.2 he

/-- The order of such entries does not matter. -/
theorem lookup_of_perm {ν : Type} {entries others : List (String × ν)}
    (h : (entries.map (·.1)).Nodup) (hperm : entries.Perm others) (key : String) :
    entries.lookup key = others.lookup key := by
  have hothers : (others.map (·.1)).Nodup := (hperm.map _).nodup_iff.mp h
  cases hv : entries.lookup key with
  | some v =>
    obtain ⟨before, after, hsplit, -⟩ := List.lookup_eq_some_iff.mp hv
    have hmem : (key, v) ∈ entries := hsplit ▸ List.mem_append_right before List.mem_cons_self
    exact (lookup_of_mem hothers (hperm.mem_iff.mp hmem)).symm
  | none =>
    rw [List.lookup_eq_none_iff] at hv
    exact (List.lookup_eq_none_iff.mpr fun e he => hv e (hperm.mem_iff.mpr he)).symm

theorem lookup_filter_self {ν : Type} (key : String) (entries : List (String × ν)) :
    (entries.filter (·.1 ≠ key)).lookup key = none :=
  List.lookup_eq_none_iff.mpr fun _ he =>
    bne_iff_ne.mpr (of_decide_eq_true (List.mem_filter.mp he).2).symm

/-- Entries under other keys stay when those under one key go. -/
theorem lookup_filter_of_ne {ν : Type} {key other : String} (h : other ≠ key)
    (entries : List (String × ν)) :
    (entries.filter (·.1 ≠ key)).lookup other = entries.lookup other := by
  induction entries with
  | nil => rfl
  | cons e entries ih =>
    obtain ⟨name, v⟩ := e
    rw [List.filter_cons]
    by_cases hname : name = key
    · have hskip : (other == name) = false := beq_eq_false_iff_ne.mpr (hname ▸ h)
      rw [if_neg (by simpa using hname), ih, List.lookup_cons, hskip]
    · rw [if_pos (by simpa using hname), List.lookup_cons, List.lookup_cons, ih]

namespace Json.Members

variable {key k : String} {value v : Json} {ms ns : Members} {m : String × Json}

/-! ### Looking up -/

@[simp] theorem get?_nil (k : String) : get? [] k = none := rfl

theorem get?_cons (m : String × Json) (ms : Members) (k : String) :
    get? (m :: ms) k = if k = m.1 then some m.2 else ms.get? k := by
  rw [get?, List.lookup_cons]
  by_cases h : k = m.1
  · rw [if_pos h, beq_iff_eq.mpr h]
  · rw [if_neg h, beq_eq_false_iff_ne.mpr h]
    rfl

theorem mem_of_get? (h : ms.get? k = some v) : (k, v) ∈ ms := by
  obtain ⟨before, after, rfl, -⟩ := List.lookup_eq_some_iff.mp h
  exact List.mem_append_right before List.mem_cons_self

theorem get?_eq_none_iff : ms.get? k = none ↔ ∀ m ∈ ms, m.1 ≠ k := by
  rw [get?, List.lookup_eq_none_iff]
  exact forall₂_congr fun m _ => bne_iff_ne.trans ne_comm

/-- Under keys that are all different, every member is found. -/
theorem get?_of_mem (h : (ms.map (·.1)).Nodup) (hm : m ∈ ms) : ms.get? m.1 = some m.2 :=
  lookup_of_mem h hm

/-! ### Members in order -/

theorem Ordered.nodup (h : ms.Ordered) : (ms.map (·.1)).Nodup := by
  refine List.pairwise_map.mpr (h.imp fun {m n} hlt heq => ?_)
  rw [heq] at hlt
  exact String.lt_irrefl n.1 hlt

theorem mem_of_mem_insertNew (h : m ∈ ms.insertNew key value) : m = (key, value) ∨ m ∈ ms := by
  induction ms with
  | nil => exact .inl (List.mem_singleton.mp h)
  | cons n ms ih =>
    rw [insertNew] at h
    split at h
    · exact List.mem_cons.mp h
    · split at h
      · exact .inr h
      · rcases List.mem_cons.mp h with rfl | h
        · exact .inr List.mem_cons_self
        · exact (ih h).imp_right (List.mem_cons_of_mem n)

theorem Ordered.insertNew (h : ms.Ordered) (key : String) (value : Json) :
    (ms.insertNew key value).Ordered := by
  induction ms with
  | nil => exact List.pairwise_singleton _ _
  | cons n ms ih =>
    obtain ⟨hn, hms⟩ := List.pairwise_cons.mp h
    rw [Members.insertNew]
    split
    · rename_i hlt
      refine List.pairwise_cons.mpr ⟨fun m hm => ?_, h⟩
      rcases List.mem_cons.mp hm with rfl | hm
      · exact hlt
      · exact String.lt_trans hlt (hn m hm)
    · rename_i hle
      split
      · exact h
      · rename_i hne
        refine List.pairwise_cons.mpr ⟨fun m hm => ?_, ih hms⟩
        rcases mem_of_mem_insertNew hm with rfl | hm
        · exact String.not_le.mp fun hkey => hne (String.le_antisymm hkey (String.not_lt.mp hle))
        · exact hn m hm

/-- A value under the key stays, and no other key is concerned. -/
theorem Ordered.get?_insertNew (h : ms.Ordered) (key : String) (value : Json) (k : String) :
    (ms.insertNew key value).get? k =
      (ms.get? k).or (if k = key then some value else none) := by
  induction ms with
  | nil => rw [Members.insertNew, get?_cons, get?_nil, Option.none_or]
  | cons n ms ih =>
    obtain ⟨hn, hms⟩ := List.pairwise_cons.mp h
    rw [Members.insertNew]
    split
    · rename_i hlt
      rw [get?_cons]
      by_cases hk : k = key
      · have hnone : get? (n :: ms) k = none := by
          refine get?_eq_none_iff.mpr fun m hm heq => ?_
          have hless : key < m.1 := by
            rcases List.mem_cons.mp hm with rfl | hm
            · exact hlt
            · exact String.lt_trans hlt (hn m hm)
          exact String.lt_irrefl key (by rwa [heq, hk] at hless)
        rw [hnone, if_pos hk, Option.none_or]
      · rw [if_neg hk, if_neg hk, Option.or_none]
    · split
      · rename_i heq
        rw [get?_cons]
        by_cases hk : k = n.1
        · rw [if_pos hk, Option.some_or]
        · rw [if_neg hk, if_neg fun hkey => hk (hkey.trans heq), Option.or_none]
      · rw [get?_cons, get?_cons, ih hms]
        by_cases hk : k = n.1
        · rw [if_pos hk, if_pos hk, Option.some_or]
        · rw [if_neg hk, if_neg hk]

/-! ### Objects from members -/

/-- Members are put in one after the other, each where no value for its key is there yet. -/
theorem foldl_insertNew (all ms : Members) (h : all.Ordered) :
    (ms.foldl (fun all m => all.insertNew m.1 m.2) all).Ordered ∧
    (∀ k, get? (ms.foldl (fun all m => all.insertNew m.1 m.2) all) k =
      (all.get? k).or (ms.get? k)) ∧
    ∀ m ∈ ms.foldl (fun all m => all.insertNew m.1 m.2) all, m ∈ all ∨ m ∈ ms := by
  induction ms generalizing all with
  | nil => exact ⟨h, fun k => (Option.or_none).symm, fun m hm => .inl hm⟩
  | cons n ms ih =>
    obtain ⟨hordered, hget, hmem⟩ := ih (all.insertNew n.1 n.2) (h.insertNew n.1 n.2)
    rw [List.foldl_cons]
    refine ⟨hordered, fun k => ?_, fun m hm => ?_⟩
    · rw [hget, h.get?_insertNew, get?_cons, Option.or_assoc]
      congr 1
      by_cases hk : k = n.1
      · rw [if_pos hk, if_pos hk, Option.some_or]
      · rw [if_neg hk, if_neg hk, Option.none_or]
    · rcases hmem m hm with hm | hm
      · exact (mem_of_mem_insertNew hm).elim
          (fun heq => .inr (heq ▸ List.mem_cons_self)) .inl
      · exact .inr (List.mem_cons_of_mem _ hm)

theorem ordered_ofReversed (ms : Members) : (ofReversed ms).Ordered :=
  (foldl_insertNew [] ms .nil).1

theorem get?_ofReversed (ms : Members) (k : String) : (ofReversed ms).get? k = ms.get? k :=
  (foldl_insertNew [] ms .nil).2.1 k

theorem mem_of_mem_ofReversed (h : m ∈ ofReversed ms) : m ∈ ms :=
  ((foldl_insertNew [] ms .nil).2.2 m h).resolve_left List.not_mem_nil

theorem ordered_ofList (ms : Members) : (ofList ms).Ordered := ordered_ofReversed _

/-- Under keys that are all different, an object has the values that were listed. -/
theorem get?_ofList (h : (ms.map (·.1)).Nodup) (k : String) : (ofList ms).get? k = ms.get? k := by
  have hr : (ms.reverse.map (·.1)).Nodup := by
    rw [List.map_reverse]
    exact (List.reverse_perm _).nodup_iff.mpr h
  rw [ofList, get?_ofReversed]
  cases hv : ms.get? k with
  | none =>
    exact get?_eq_none_iff.mpr fun m hm => get?_eq_none_iff.mp hv m (List.mem_reverse.mp hm)
  | some v => exact get?_of_mem hr (List.mem_reverse.mpr (mem_of_get? hv))

/-! ### Members that may be left out -/

/-- The members of a table whose values are set. -/
def ofTable (table : List (String × Option Json)) : Members :=
  table.filterMap fun e => e.2.map (e.1, ·)

theorem names_ofTable (table : List (String × Option Json)) :
    ((ofTable table).map (·.1)).Sublist (table.map (·.1)) := by
  induction table with
  | nil => exact .slnil
  | cons e table ih =>
    obtain ⟨name, v?⟩ := e
    cases v? with
    | none => exact ih.cons name
    | some v => exact ih.cons_cons name

theorem get?_ofTable {table : List (String × Option Json)} (h : (table.map (·.1)).Nodup)
    (k : String) : (ofTable table).get? k = (table.lookup k).join := by
  induction table with
  | nil => rfl
  | cons e table ih =>
    obtain ⟨name, v?⟩ := e
    obtain ⟨hname, hnodup⟩ := List.nodup_cons.mp h
    have hrest := ih hnodup
    rw [List.lookup_cons]
    by_cases hk : k = name
    · rw [beq_iff_eq.mpr hk]
      cases v? with
      | some v =>
        have hcons : ofTable ((name, some v) :: table) = (name, v) :: ofTable table := rfl
        rw [hcons, get?_cons, if_pos hk]
        rfl
      | none =>
        refine get?_eq_none_iff.mpr fun m hm heq => hname ?_
        rw [← hk, ← heq]
        exact (names_ofTable table).subset (List.mem_map_of_mem hm)
    · rw [beq_eq_false_iff_ne.mpr hk]
      cases v? with
      | some v =>
        have hcons : ofTable ((name, some v) :: table) = (name, v) :: ofTable table := rfl
        rw [hcons, get?_cons, if_neg hk, hrest]
      | none => exact hrest

/-- An object that is written from a table holds what the table has set. -/
theorem get?_ofList_ofTable {table : List (String × Option Json)} (h : (table.map (·.1)).Nodup)
    (k : String) : (ofList (ofTable table)).get? k = (table.lookup k).join := by
  rw [get?_ofList ((names_ofTable table).nodup h), get?_ofTable h]

end Json.Members

end RemoteDesk
