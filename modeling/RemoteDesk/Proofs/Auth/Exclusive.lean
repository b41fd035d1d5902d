import Mathlib.Data.Finset.Card
import RemoteDesk.Proofs.Auth.Lobby

/-!
One attempt of a source at a time. The references to a gate are counted, and the count is one more
than the number of those who hold one; so whoever sees that it is two is the last one to hold one,
and forgets a gate that nobody else will ever enter. All who are not through with a gate of their
source therefore refer to the same one, which lets one in at a time. An attempt that is inside has
read what all before it have left in the table, and nobody of its source changes the table before
it does.
-/
namespace RemoteDesk.Auth.Lobby

variable {ι : Type} [DecidableEq ι] {s : Settings} {attempts : ι → Attempt} {w w' : Lobby ι}
  {i : ι} {g : Nat}

/-! ### Counting references -/

/-- The count is one more than the number of attempts that refer to the gate. -/
def Counted (count : Nat) (stage : ι → Stage) (g : Nat) : Prop :=
  ∃ holders : Finset ι, (∀ i, i ∈ holders ↔ (stage i).held? = some g) ∧ count = holders.card + 1

namespace Counted

variable {count : Nat} {stage : ι → Stage} {st : Stage}

omit [DecidableEq ι] in
/-- Nobody refers to a new gate. -/
theorem new (h : ∀ i, (stage i).held? ≠ some g) : Counted 1 stage g :=
  ⟨∅, fun i => ⟨fun hi => absurd hi (Finset.notMem_empty i), fun hi => absurd hi (h i)⟩, rfl⟩

/-- Someone who refers to a gate goes on to do so, or someone who does not goes on not to. -/
theorem aside (h : Counted count stage g)
    (hsame : st.held? = some g ↔ (stage i).held? = some g) :
    Counted count (Function.update stage i st) g := by
  obtain ⟨holders, hmem, hcount⟩ := h
  refine ⟨holders, fun j => (hmem j).trans ?_, hcount⟩
  by_cases hj : j = i
  · rw [hj, Function.update_self, hsame]
  · rw [Function.update_of_ne hj]

theorem refer (h : Counted count stage g) (hnot : (stage i).held? ≠ some g)
    (hst : st.held? = some g) : Counted (count + 1) (Function.update stage i st) g := by
  obtain ⟨holders, hmem, hcount⟩ := h
  have hi : i ∉ holders := fun hi => hnot ((hmem i).mp hi)
  refine ⟨insert i holders, fun j => Finset.mem_insert.trans ?_, ?_⟩
  · by_cases hj : j = i
    · rw [hj, Function.update_self, hst]
      exact ⟨fun _ => rfl, fun _ => .inl rfl⟩
    · rw [Function.update_of_ne hj, hmem j]
      exact ⟨fun h => h.resolve_left hj, .inr⟩
  · rw [Finset.card_insert_of_notMem hi, hcount]

theorem letGo (h : Counted count stage g) (hheld : (stage i).held? = some g)
    (hst : st.held? ≠ some g) : Counted (count - 1) (Function.update stage i st) g := by
  obtain ⟨holders, hmem, hcount⟩ := h
  have hi : i ∈ holders := (hmem i).mpr hheld
  refine ⟨holders.erase i, fun j => Finset.mem_erase.trans ?_, ?_⟩
  · by_cases hj : j = i
    · rw [hj, Function.update_self]
      exact ⟨fun h => absurd rfl h.1, fun h => absurd h hst⟩
    · rw [Function.update_of_ne hj, hmem j]
      exact ⟨fun h => h.2, fun h => ⟨hj, h⟩⟩
  · have hpos := Finset.card_pos.mpr ⟨i, hi⟩
    rw [Finset.card_erase_of_mem hi, hcount]
    omega

omit [DecidableEq ι] in
/-- Whoever sees that the count is two is the only one to refer to the gate. -/
theorem eq_of_two (h : Counted 2 stage g) {j : ι} (hi : (stage i).held? = some g)
    (hj : (stage j).held? = some g) : j = i := by
  obtain ⟨holders, hmem, hcount⟩ := h
  have hone : holders.card ≤ 1 := by omega
  exact Finset.card_le_one.mp hone j ((hmem j).mpr hj) i ((hmem i).mpr hi)

omit [DecidableEq ι] in
/-- Whoever sees another count has someone else to refer to the gate. -/
theorem exists_other (h : Counted count stage g) (hi : (stage i).held? = some g)
    (hcount : count ≠ 2) : ∃ j, j ≠ i ∧ (stage j).held? = some g := by
  obtain ⟨holders, hmem, hcard⟩ := h
  have hpos := Finset.card_pos.mpr ⟨i, (hmem i).mpr hi⟩
  obtain ⟨j, hj, hne⟩ := Finset.exists_mem_ne (by omega : 1 < holders.card) i
  exact ⟨j, hne, (hmem j).mp hj⟩

end Counted

/-! ### Gates -/

/-- What ties an attempt to its gate. -/
def ties (stage : Stage) : Option Nat × Option Nat × Option Nat :=
  (stage.held?, stage.live?, stage.inside?)

theorem held?_of_live? {stage : Stage} (h : stage.live? = some g) : stage.held? = some g := by
  cases stage <;> first | exact h | contradiction

theorem live?_of_inside? {stage : Stage} (h : stage.inside? = some g) : stage.live? = some g := by
  cases stage <;> first | exact h | contradiction

omit [DecidableEq ι] in
/-- A gate that is changed in other respects, and the other gates. -/
theorem gates_changed {α : Type} (f : Gate ι → α) (change : Gate ι → Gate ι)
    (h : ∀ gate, f (change gate) = f gate) (k : Nat) :
    f ((w.changed g change).gates k) = f (w.gates k) := by
  change f (Function.update w.gates g (change (w.gates g)) k) = f (w.gates k)
  by_cases hk : k = g
  · rw [hk, Function.update_self, h]
  · rw [Function.update_of_ne hk]

/-- What is on a map from which something has been taken is what else was on it before. -/
theorem of_forgotten {gateOf : Net.Address → Option Nat} {source other : Net.Address}
    (h : Function.update gateOf source none other = some g) :
    other ≠ source ∧ gateOf other = some g := by
  by_cases hsource : other = source
  · rw [hsource, Function.update_self] at h
    contradiction
  · exact ⟨hsource, by rwa [Function.update_of_ne hsource] at h⟩

omit [DecidableEq ι] in
/-- When a gate is made, the lobby knows it and those that it has known. -/
theorem gateOf_make {source other : Net.Address} (h : (w.make source).gateOf other = some g) :
    (other = source ∧ g = w.made) ∨ w.gateOf other = some g := by
  change Function.update w.gateOf source (some w.made) other = some g at h
  by_cases hother : other = source
  · rw [hother, Function.update_self] at h
    exact .inl ⟨hother, (Option.some.inj h).symm⟩
  · rw [Function.update_of_ne hother] at h
    exact .inr h

/-- What ties an attempt at a stage to the gates. -/
structure Placed (attempts : ι → Attempt) (w : Lobby ι) (i : ι) (stage : Stage) : Prop where
  held : ∀ g, stage.held? = some g → g < w.made
  live : ∀ g, stage.live? = some g → w.gateOf (attempts i).source = some g
  inside : ∀ g, stage.inside? = some g → (w.gates g).inside = some i

namespace Placed

omit [DecidableEq ι] in
/-- Another stage with the same ties does as well, and so do gates with the same ones inside. -/
theorem congr {stage stage' : Stage} (h : Placed attempts w i stage)
    (hstage : ties stage' = ties stage) (hmap : w'.gateOf = w.gateOf) (hmade : w'.made = w.made)
    (hinside : ∀ g, (w'.gates g).inside = (w.gates g).inside) : Placed attempts w' i stage' where
  held g hg := by
    rw [hmade]
    exact h.held g ((congrArg (·.1) hstage).symm.trans hg)
  live g hg := by
    rw [hmap]
    exact h.live g ((congrArg (·.2.1) hstage).symm.trans hg)
  inside g hg := by
    rw [hinside]
    exact h.inside g ((congrArg (·.2.2) hstage).symm.trans hg)

/-- An attempt comes to a stage, and the others stay where they are. -/
theorem update {stages : ι → Stage} {st : Stage} (hself : Placed attempts w i st)
    (hothers : ∀ j, j ≠ i → Placed attempts w j (stages j)) :
    ∀ j, Placed attempts w j (Function.update stages i st j) :=
  (Function.forall_update_iff stages (Placed attempts w)).mpr ⟨hself, hothers⟩

end Placed

/-- What holds of the gates at any time. -/
structure Sound (attempts : ι → Attempt) (w : Lobby ι) : Prop where
  held : ∀ i g, (w.stage i).held? = some g → g < w.made
  known : ∀ source g, w.gateOf source = some g → g < w.made
  /-- No gate is shared between sources. -/
  distinct : ∀ source other g, w.gateOf source = some g → w.gateOf other = some g → source = other
  /-- A gate that someone is not through with is the one of its source. -/
  live : ∀ i g, (w.stage i).live? = some g → w.gateOf (attempts i).source = some g
  counted : ∀ source g, w.gateOf source = some g → Counted (w.gates g).references w.stage g
  inside : ∀ i g, (w.stage i).inside? = some g → (w.gates g).inside = some i

namespace Sound

omit [DecidableEq ι] in
theorem placed (h : Sound attempts w) (i : ι) : Placed attempts w i (w.stage i) :=
  ⟨h.held i, h.live i, h.inside i⟩

omit [DecidableEq ι] in
theorem of_placed (known : ∀ source g, w.gateOf source = some g → g < w.made)
    (distinct : ∀ source other g, w.gateOf source = some g → w.gateOf other = some g →
      source = other)
    (counted : ∀ source g, w.gateOf source = some g → Counted (w.gates g).references w.stage g)
    (placed : ∀ i, Placed attempts w i (w.stage i)) : Sound attempts w :=
  ⟨fun i => (placed i).held, known, distinct, fun i => (placed i).live, counted,
    fun i => (placed i).inside⟩

omit [DecidableEq ι] in
theorem start (fs : Failures) : Sound attempts (start fs) where
  held := fun _ _ h => by contradiction
  known := fun _ _ h => by contradiction
  distinct := fun _ _ _ h _ => by contradiction
  live := fun _ _ h => by contradiction
  counted := fun _ _ h => by contradiction
  inside := fun _ _ h => by contradiction

omit [DecidableEq ι] in
/-- Two that are not through with gates of one source. -/
theorem same_gate (h : Sound attempts w) {j : ι} {k : Nat} (hi : (w.stage i).live? = some g)
    (hj : (w.stage j).live? = some k) (hsource : (attempts i).source = (attempts j).source) :
    g = k := by
  have hgate := h.live i g hi
  rw [hsource, h.live j k hj] at hgate
  exact (Option.some.inj hgate).symm

omit [DecidableEq ι] in
/-- Two that are inside of gates of one source. -/
theorem alone (h : Sound attempts w) {j : ι} {k : Nat} (hi : (w.stage i).inside? = some g)
    (hj : (w.stage j).inside? = some k) (hsource : (attempts i).source = (attempts j).source) :
    i = j := by
  obtain rfl := h.same_gate (live?_of_inside? hi) (live?_of_inside? hj) hsource
  exact Option.some.inj ((h.inside i g hi).symm.trans (h.inside j g hj))

/-! ### Steps -/

/-- An attempt goes on with the gate that it refers to. -/
theorem goOn (h : Sound attempts w) {st : Stage} (hheld : st.held? = (w.stage i).held?)
    (hmap : w'.gateOf = w.gateOf) (hmade : w'.made = w.made)
    (hreferences : ∀ g, (w'.gates g).references = (w.gates g).references)
    (hstage : w'.stage = Function.update w.stage i st) (hself : Placed attempts w' i st)
    (hothers : ∀ j, j ≠ i → Placed attempts w' j (w.stage j)) : Sound attempts w' := by
  refine of_placed (fun source g hg => ?_) (by rw [hmap]; exact h.distinct)
    (fun source g hg => ?_) (by rw [hstage]; exact Placed.update hself hothers)
  · rw [hmade]
    exact h.known source g (hmap ▸ hg)
  · rw [hreferences, hstage]
    exact (h.counted source g (hmap ▸ hg)).aside (by rw [hheld])

/-- An attempt stays inside, or outside, of the gate that it refers to. -/
theorem stay (h : Sound attempts w) {st : Stage} (hst : ties st = ties (w.stage i))
    (hmap : w'.gateOf = w.gateOf) (hmade : w'.made = w.made)
    (hreferences : ∀ g, (w'.gates g).references = (w.gates g).references)
    (hinside : ∀ g, (w'.gates g).inside = (w.gates g).inside)
    (hstage : w'.stage = Function.update w.stage i st) : Sound attempts w' :=
  h.goOn (congrArg (·.1) hst) hmap hmade hreferences hstage
    ((h.placed i).congr hst hmap hmade hinside)
    fun j _ => (h.placed j).congr rfl hmap hmade hinside

/-- An attempt is let in. -/
theorem enter (h : Sound attempts w) (hlined : w.stage i = .lined g)
    (hlets : (w.gates g).lets i = true) :
    Sound attempts ((w.changed g (.letIn i)).moved i (.admitted g)) := by
  have hplaced := h.placed i
  rw [hlined] at hplaced
  refine h.goOn (by rw [hlined]; rfl) rfl rfl
    (gates_changed (·.references) (.letIn i) fun _ => rfl) rfl
    ⟨hplaced.held, hplaced.live, fun k hk => ?_⟩ fun j _ => ⟨h.held j, h.live j, fun k hk => ?_⟩
  · obtain rfl := Option.some.inj hk
    exact congrArg Gate.inside (Function.update_self g ((w.gates g).letIn i) w.gates)
  · -- Nobody else is inside of this gate, since it was empty.
    have hinside := h.inside j k hk
    have hk : k ≠ g := by
      rintro rfl
      rw [Gate.lets, hinside] at hlets
      contradiction
    exact (congrArg Gate.inside (Function.update_of_ne hk _ _)).trans hinside

/-- An attempt leaves its gate. -/
theorem leave (h : Sound attempts w) (hjudged : w.stage i = .judged g) :
    Sound attempts ((w.changed g .letOut).moved i (.outside g)) := by
  have hplaced := h.placed i
  rw [hjudged] at hplaced
  refine h.goOn (by rw [hjudged]; rfl) rfl rfl
    (gates_changed (·.references) .letOut fun _ => rfl) rfl
    ⟨hplaced.held, hplaced.live, fun k hk => by contradiction⟩
    fun j hj => ⟨h.held j, h.live j, fun k hk => ?_⟩
  -- Nobody else is inside of this gate, since the attempt is.
  have hinside := h.inside j k hk
  have hk : k ≠ g := by
    rintro rfl
    exact hj (Option.some.inj (hinside.symm.trans (hplaced.inside k rfl)))
  exact (congrArg Gate.inside (Function.update_of_ne hk _ _)).trans hinside

omit [DecidableEq ι] in
/-- The gate of a source is made. -/
theorem make (h : Sound attempts w) {source : Net.Address} (hgate : w.gateOf source = none) :
    Sound attempts (w.make source) := by
  have hothers : ∀ k, k < w.made → (w.make source).gates k = w.gates k :=
    fun k hk => Function.update_of_ne (Nat.ne_of_lt hk) _ _
  refine ⟨fun j k hk => Nat.lt_succ_of_lt (h.held j k hk), ?_, fun one other k hone hother => ?_,
    fun j k hk => ?_, ?_, fun j k hk => ?_⟩
  · refine (Function.forall_update_iff w.gateOf fun _ gate =>
      ∀ k, gate = some k → k < w.made + 1).mpr
      ⟨fun k hk => ?_, fun source _ k hk => Nat.lt_succ_of_lt (h.known source k hk)⟩
    obtain rfl := Option.some.inj hk
    exact Nat.lt_succ_self _
  · -- A new gate is nobody's yet.
    rcases gateOf_make hone with ⟨hsource, rfl⟩ | hbefore <;>
      rcases gateOf_make hother with ⟨hsame, hnew⟩ | hlong
    · exact hsource.trans hsame.symm
    · exact absurd (h.known other _ hlong) (Nat.lt_irrefl _)
    · exact absurd (h.known one k hbefore) (by rw [hnew]; exact Nat.lt_irrefl _)
    · exact h.distinct one other k hbefore hlong
  · have hlive := h.live j k hk
    have hsource : (attempts j).source ≠ source := by
      intro hsource
      rw [hsource, hgate] at hlive
      contradiction
    exact (Function.update_of_ne hsource _ _).trans hlive
  · refine (Function.forall_update_iff w.gateOf fun _ gate =>
      ∀ k, gate = some k → Counted ((w.make source).gates k).references w.stage k).mpr
      ⟨fun k hk => ?_, fun source _ k hk => ?_⟩
    · obtain rfl := Option.some.inj hk
      have hnew : (w.make source).gates w.made = Gate.new.refer := Function.update_self _ _ _
      rw [hnew]
      exact Counted.new fun j hj => Nat.lt_irrefl _ (h.held j w.made hj)
    · rw [hothers k (h.known source k hk)]
      exact h.counted source k hk
  · rw [hothers k (h.held j k (held?_of_live? (live?_of_inside? hk)))]
    exact h.inside j k hk

/-- An attempt that has come refers to the gate of its source. -/
theorem refer (h : Sound attempts w) (habsent : w.stage i = .absent)
    (hgate : w.gateOf (attempts i).source = some g) :
    Sound attempts ((w.changed g .refer).moved i (.arrived g)) := by
  have hnone : (w.stage i).held? = none := by rw [habsent]; rfl
  refine of_placed h.known h.distinct (fun source k hk => ?_) (Placed.update
    ⟨fun k hk => h.known _ k (hgate.trans hk), fun k hk => hgate.trans hk,
      fun k hk => by contradiction⟩
    fun j _ => (h.placed j).congr rfl rfl rfl (gates_changed (·.inside) .refer fun _ => rfl))
  change Counted (Function.update w.gates g (w.gates g).refer k).references
    (Function.update w.stage i (.arrived g)) k
  have hcounted := h.counted source k hk
  by_cases hkg : k = g
  · subst hkg
    rw [Function.update_self]
    exact hcounted.refer (by rw [hnone]; exact (Option.some_ne_none k).symm) rfl
  · rw [Function.update_of_ne hkg]
    refine hcounted.aside ?_
    rw [hnone]
    exact ⟨fun hheld => absurd (Option.some.inj hheld).symm hkg, fun hfalse => by contradiction⟩

/-- An attempt comes. -/
theorem arrive (h : Sound attempts w) (habsent : w.stage i = .absent) :
    Sound attempts (w.arrive (attempts i).source i) := by
  rw [Lobby.arrive]
  split
  · rename_i g hgate
    exact h.refer habsent hgate
  · rename_i hgate
    exact (h.make hgate).refer habsent (Function.update_self _ _ _)

/-- An attempt is through with its gate. It may forget it, since nobody else refers to it then. -/
theorem part (h : Sound attempts w) (houtside : w.stage i = .outside g) :
    Sound attempts ((w.forget (attempts i).source g).moved i (.parting g)) := by
  have hheld : (w.stage i).held? = some g := by rw [houtside]; rfl
  have hmap : w.gateOf (attempts i).source = some g := h.live i g (by rw [houtside]; rfl)
  have hplaced := h.placed i
  rw [houtside] at hplaced
  have hstay : Sound attempts (w.moved i (.parting g)) :=
    of_placed h.known h.distinct
      (fun source k hk => (h.counted source k hk).aside (by rw [hheld]; exact Iff.rfl))
      (Placed.update ⟨hplaced.held, fun k hk => by contradiction, fun k hk => by contradiction⟩
        fun j _ => (h.placed j).congr rfl rfl rfl fun _ => rfl)
  rw [forget]
  split
  · rename_i htwo
    have hcounted := hstay.counted _ g hmap
    change Counted (w.gates g).references (Function.update w.stage i (.parting g)) g at hcounted
    rw [htwo] at hcounted
    have hself : (Function.update w.stage i (.parting g) i).held? = some g := by
      rw [Function.update_self]
      rfl
    rw [release_of_some hmap]
    refine ⟨hstay.held, fun source k hk => ?_, fun source other k hk hother => ?_,
      fun j k hk => ?_, fun source k hk => ?_, fun j k hk => ?_⟩
    · exact hstay.known source k (of_forgotten hk).2
    · exact hstay.distinct source other k (of_forgotten hk).2 (of_forgotten hother).2
    · have hlive := hstay.live j k hk
      refine (Function.update_of_ne (fun hsource => ?_) _ _).trans hlive
      -- Another one that is not through would refer to this gate as well.
      rw [hsource] at hlive
      obtain rfl := Option.some.inj (hmap.symm.trans hlive)
      obtain rfl := hcounted.eq_of_two hself (held?_of_live? hk)
      change (Function.update w.stage j (.parting g) j).live? = some g at hk
      rw [Function.update_self] at hk
      contradiction
    · -- The gates of other sources are other gates.
      obtain ⟨hsource, hlong⟩ := of_forgotten hk
      have hkg : k ≠ g := by
        rintro rfl
        exact hsource (h.distinct source _ k hlong hmap)
      have hgate : (w.changed g .letGo).gates k = w.gates k := Function.update_of_ne hkg _ _
      change Counted ((w.changed g .letGo).gates k).references _ k
      rw [hgate]
      exact hstay.counted source k hlong
    · exact (gates_changed (·.inside) .letGo (fun _ => rfl) k).trans (hstay.inside j k hk)
  · exact hstay

/-- An attempt lets go of its gate. -/
theorem letGo (h : Sound attempts w) (hparting : w.stage i = .parting g) :
    Sound attempts ((w.changed g .letGo).moved i .gone) := by
  have hheld : (w.stage i).held? = some g := by rw [hparting]; rfl
  refine of_placed h.known h.distinct (fun source k hk => ?_) (Placed.update
    ⟨fun k hk => by contradiction, fun k hk => by contradiction, fun k hk => by contradiction⟩
    fun j _ => (h.placed j).congr rfl rfl rfl (gates_changed (·.inside) .letGo fun _ => rfl))
  change Counted (Function.update w.gates g (w.gates g).letGo k).references
    (Function.update w.stage i .gone) k
  have hcounted := h.counted source k hk
  by_cases hkg : k = g
  · subst hkg
    rw [Function.update_self]
    exact hcounted.letGo hheld (Option.some_ne_none k).symm
  · rw [Function.update_of_ne hkg]
    refine hcounted.aside ?_
    rw [hheld]
    exact ⟨fun hfalse => by contradiction, fun heq => absurd (Option.some.inj heq).symm hkg⟩

theorem step {a : Action ι} (h : Sound attempts w) (htaken : Taken s attempts w a w') :
    Sound attempts w' := by
  cases htaken with
  | arrive absent => exact h.arrive absent
  | lineUp arrived =>
    exact h.stay (by rw [arrived]; rfl) rfl rfl
      (gates_changed (·.references) (.lineUp _) fun _ => rfl)
      (gates_changed (·.inside) (.lineUp _) fun _ => rfl) rfl
  | enter lined lets => exact h.enter lined lets
  | read admitted =>
    rw [Lobby.read]
    split <;> exact h.stay (by rw [admitted]; rfl) rfl rfl (fun _ => rfl) (fun _ => rfl) rfl
  | wake sleeping =>
    exact h.stay (by rw [sleeping]; rfl) rfl rfl (fun _ => rfl) (fun _ => rfl) rfl
  | settle checking =>
    exact h.stay (by rw [checking]; rfl) rfl rfl (fun _ => rfl) (fun _ => rfl) rfl
  | leave judged => exact h.leave judged
  | part outside => exact h.part outside
  | letGo parting => exact h.letGo parting
  | quitLine lined =>
    exact h.stay (by rw [lined]; rfl) rfl rfl (gates_changed (·.references) (.quit _) fun _ => rfl)
      (gates_changed (·.inside) (.quit _) fun _ => rfl) rfl
  | quit waiting =>
    obtain ⟨count, hstage | hstage⟩ := waiting <;>
      exact h.stay (by rw [hstage]; rfl) rfl rfl (fun _ => rfl) (fun _ => rfl) rfl

end Sound

end RemoteDesk.Auth.Lobby
