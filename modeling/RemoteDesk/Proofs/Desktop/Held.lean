import RemoteDesk.Desktop.Headless

/-!
Keys that are held down. A key is held if its last press has not been followed by a release. The
desktop keeps the held keys in increasing order, each of them once, and room for no more than a
certain number.
-/
namespace RemoteDesk.Desktop

/-! ### Keys in order -/

namespace Headless

variable {key k : String} {ks : List String}

theorem ne_of_lt (h : k < key) : k ≠ key := by
  rintro rfl
  exact String.lt_irrefl k h

theorem mem_insertKey : k ∈ insertKey key ks ↔ k = key ∨ k ∈ ks := by
  induction ks with
  | nil => simp [insertKey]
  | cons other ks ih =>
    rw [insertKey]
    split
    · simp
    · split
      · rename_i heq
        simp [heq]
      · simp only [List.mem_cons, ih]
        exact or_left_comm

theorem pairwise_insertKey (h : ks.Pairwise (· < ·)) :
    (insertKey key ks).Pairwise (· < ·) := by
  induction ks with
  | nil => exact List.pairwise_singleton _ _
  | cons other ks ih =>
    obtain ⟨hfirst, hrest⟩ := List.pairwise_cons.mp h
    rw [insertKey]
    split
    · rename_i hlt
      refine List.pairwise_cons.mpr ⟨?_, h⟩
      intro k hk
      rcases List.mem_cons.mp hk with rfl | hk
      · exact hlt
      · exact String.lt_trans hlt (hfirst k hk)
    · split
      · exact h
      · rename_i hge hne
        have hgt : other < key := by
          rcases String.le_total key other with hle | hle
          · exact absurd (String.le_antisymm hle (String.not_lt.mp hge)) hne
          · exact String.not_le.mp fun hle' => hne (String.le_antisymm hle' hle)
        refine List.pairwise_cons.mpr ⟨?_, ih hrest⟩
        intro k hk
        rcases mem_insertKey.mp hk with rfl | hk
        · exact hgt
        · exact hfirst k hk

theorem length_insertKey_le : (insertKey key ks).length ≤ ks.length + 1 := by
  induction ks with
  | nil => exact Nat.le_refl _
  | cons other ks ih =>
    rw [insertKey]
    split
    · exact Nat.le_refl _
    · split
      · exact Nat.le_succ _
      · exact Nat.succ_le_succ ih

/-- A key that is down already is not put in again. -/
theorem insertKey_of_mem (h : ks.Pairwise (· < ·)) (hmem : key ∈ ks) : insertKey key ks = ks := by
  induction ks with
  | nil => contradiction
  | cons other ks ih =>
    obtain ⟨hfirst, hrest⟩ := List.pairwise_cons.mp h
    rw [insertKey]
    rcases List.mem_cons.mp hmem with rfl | hmem
    · rw [if_neg (String.lt_irrefl key), if_pos rfl]
    · have hlt := hfirst key hmem
      rw [if_neg (String.lt_asymm hlt), if_neg (ne_of_lt hlt).symm, ih hrest hmem]

theorem nodup_of_pairwise (h : ks.Pairwise (· < ·)) : ks.Nodup :=
  h.imp ne_of_lt

end Headless

/-! ### The calls that hold a key down -/

/-- The last press of a key among some calls has not been followed by a release. -/
def Held (key : String) (calls : List Call) : Prop :=
  ∃ before after, calls = before ++ .keyPress key :: after ∧
    .keyPress key ∉ after ∧ .keyRelease key ∉ after

variable {key : String} {calls : List Call} {c : Call}

theorem not_held_nil : ¬ Held key [] := by
  rintro ⟨before, after, h, _⟩
  simp at h

theorem held_concat_press : Held key (calls ++ [.keyPress key]) :=
  ⟨calls, [], rfl, List.not_mem_nil, List.not_mem_nil⟩

/-- Another call is the last press itself, or it comes behind that. -/
theorem held_concat (hpress : c ≠ .keyPress key) :
    Held key (calls ++ [c]) ↔ c ≠ .keyRelease key ∧ Held key calls := by
  constructor
  · rintro ⟨before, after, h, hpresses, hreleases⟩
    rcases List.eq_nil_or_concat after with rfl | ⟨after, last, rfl⟩
    · have hlast := (List.append_inj' h rfl).2
      exact absurd (List.cons.inj hlast).1 hpress
    · rw [List.concat_eq_append] at h hpresses hreleases
      rw [← List.cons_append, ← List.append_assoc] at h
      obtain ⟨hcalls, hlast⟩ := List.append_inj' h rfl
      obtain rfl := (List.cons.inj hlast).1
      refine ⟨?_, before, after, hcalls, ?_, ?_⟩
      · rintro rfl
        exact hreleases (by simp)
      · exact fun hmem => hpresses (List.mem_append_left _ hmem)
      · exact fun hmem => hreleases (List.mem_append_left _ hmem)
  · rintro ⟨hrelease, before, after, rfl, hpresses, hreleases⟩
    refine ⟨before, after ++ [c], by simp, ?_, ?_⟩
    · simp only [List.mem_append, List.mem_singleton, not_or]
      exact ⟨hpresses, Ne.symm hpress⟩
    · simp only [List.mem_append, List.mem_singleton, not_or]
      exact ⟨hreleases, Ne.symm hrelease⟩

end RemoteDesk.Desktop
