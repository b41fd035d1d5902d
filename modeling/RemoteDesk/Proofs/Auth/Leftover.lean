import Mathlib.Data.List.Chain
import RemoteDesk.Proofs.Auth.Exclusive
import RemoteDesk.Proofs.Auth.Together

/-!
Gates that are left behind. An attempt that has left its gate checks whether anyone else refers to
it, and lets go of it afterwards. Two attempts that end at the same time can each find that the
other one refers to the gate still; then neither forgets it. This is the only way in which a gate
outlasts the attempts of its source: the last one of them to check found someone else who had
checked and had not let go. Where everyone lets go right after checking, no gate is left.
-/
namespace RemoteDesk.Auth.Lobby

variable {ι : Type} [DecidableEq ι] {s : Settings} {attempts : ι → Attempt} {fs : Failures}
  {actions : List (Action ι)} {a : Action ι} {w w' : Lobby ι} {i : ι} {g : Nat}
  {source : Net.Address}

/-! ### What steps change -/

omit [DecidableEq ι] in
/-- Only who has just come refers to a gate that it has not referred to before. -/
theorem Follows.held? {stage stage' : Stage} (h : Follows a stage stage')
    (hheld : stage'.held? = some g) : (∃ i, a = .arrive i) ∨ stage.held? = some g := by
  cases h <;> first | exact .inl ⟨_, rfl⟩ | exact .inr hheld | contradiction

omit [DecidableEq ι] in
/-- Only who has just checked its gate is through with it, and was not before. -/
theorem Follows.live? {stage stage' : Stage} (h : Follows a stage stage')
    (hlive : stage'.live? = none) : (∃ i, a = .part i) ∨ stage.live? = none := by
  cases h <;> first | exact .inl ⟨_, rfl⟩ | exact .inr rfl | contradiction

omit [DecidableEq ι] in
/-- Who has just come is not through with its gate. -/
theorem Follows.live?_ne_none {stage stage' : Stage} (h : Follows (.arrive i) stage stage') :
    stage'.live? ≠ none := by
  cases h with
  | arrive => exact Option.some_ne_none _

/-- Only for the source of who comes or checks is a gate made or forgotten. -/
theorem Taken.gateOf_of_ne (h : Taken s attempts w a w')
    (hother : (attempts a.client).source ≠ source) : w'.gateOf source = w.gateOf source := by
  cases h with
  | arrive absent =>
    rw [Lobby.arrive]
    split
    · rfl
    · exact Function.update_of_ne (Ne.symm hother) _ _
  | read admitted =>
    rw [Lobby.read]
    split <;> rfl
  | part outside =>
    change (w.forget _ _).gateOf source = w.gateOf source
    rw [forget]
    split
    · exact (congrFun (gateOf_release ..) source).trans (Function.update_of_ne (Ne.symm hother) _ _)
    · rfl
  | _ => rfl

/-- Only who comes makes a gate, and only who checks one forgets it. -/
theorem Taken.gateOf (h : Taken s attempts w a w') (hcome : ∀ i, a ≠ .arrive i)
    (hcheck : ∀ i, a ≠ .part i) : w'.gateOf = w.gateOf := by
  cases h with
  | arrive absent => exact absurd rfl (hcome _)
  | read admitted =>
    rw [Lobby.read]
    split <;> rfl
  | part outside => exact absurd rfl (hcheck _)
  | _ => rfl

/-! ### Who may refer to a gate -/

omit [DecidableEq ι] in
/-- What the lobby knows after a check it has known before. -/
theorem gateOf_forget {other : Net.Address} {k : Nat}
    (h : (w.forget source g).gateOf other = some k) : w.gateOf other = some k := by
  rw [forget] at h
  split at h
  · rw [gateOf_release] at h
    exact (of_forgotten h).2
  · exact h

/-- Whoever refers to a gate that the lobby knows is of the source that has it. -/
def Owned (attempts : ι → Attempt) (w : Lobby ι) : Prop :=
  ∀ i source g, (w.stage i).held? = some g → w.gateOf source = some g →
    (attempts i).source = source

namespace Owned

omit [DecidableEq ι] in
theorem start (fs : Failures) : Owned attempts (start fs) := fun _ _ _ h _ => by contradiction

omit [DecidableEq ι] in
/-- Gates may be forgotten and let go of. -/
theorem fewer (h : Owned attempts w)
    (hknown : ∀ source g, w'.gateOf source = some g → w.gateOf source = some g)
    (hheld : ∀ i g, (w'.stage i).held? = some g → (w.stage i).held? = some g) :
    Owned attempts w' :=
  fun i source g hi hg => h i source g (hheld i g hi) (hknown source g hg)

omit [DecidableEq ι] in
/-- Nobody refers to a new gate yet. -/
theorem make (h : Owned attempts w) (hsound : Sound attempts w) (source : Net.Address) :
    Owned attempts (w.make source) := by
  intro i other g hi hother
  rcases gateOf_make hother with ⟨-, rfl⟩ | hlong
  · exact absurd (hsound.held i _ hi) (Nat.lt_irrefl _)
  · exact h i other g hi hlong

/-- Whoever comes refers to the gate of its source. -/
theorem refer (h : Owned attempts w) (hsound : Sound attempts w)
    (hgate : w.gateOf (attempts i).source = some g) :
    Owned attempts ((w.changed g .refer).moved i (.arrived g)) := by
  refine (Function.forall_update_iff w.stage fun j st => ∀ source k, st.held? = some k →
    w.gateOf source = some k → (attempts j).source = source).mpr
    ⟨fun source k hk hsource => ?_, fun j _ => h j⟩
  obtain rfl := Option.some.inj hk
  exact hsound.distinct _ _ g hgate hsource

theorem step (h : Owned attempts w) (hsound : Sound attempts w)
    (htaken : Taken s attempts w a w') : Owned attempts w' := by
  by_cases hcome : ∃ i, a = .arrive i
  · obtain ⟨i, rfl⟩ := hcome
    cases htaken with
    | arrive absent =>
      rw [Lobby.arrive]
      split
      · rename_i g hgate
        exact h.refer hsound hgate
      · rename_i hgate
        exact (h.make hsound _).refer (hsound.make hgate) (Function.update_self _ _ _)
  · refine h.fewer (fun source g hg => ?_) fun j g hj => ?_
    · by_cases hcheck : ∃ i, a = .part i
      · obtain ⟨i, rfl⟩ := hcheck
        cases htaken with
        | part outside => exact gateOf_forget hg
      · rwa [htaken.gateOf (fun i hi => hcome ⟨i, hi⟩) fun i hi => hcheck ⟨i, hi⟩] at hg
    · by_cases hself : j = a.client
      · rw [hself] at hj ⊢
        exact (htaken.follows.held? hj).resolve_left hcome
      · rwa [← htaken.stage_of_ne hself]

end Owned

/-! ### The last check -/

/-- Someone is about to check its gate, and another one refers to it that has checked already. -/
def Hindered (w : Lobby ι) (i : ι) : Prop :=
  ∃ g j, w.stage i = .outside g ∧ w.stage j = .parting g

/-- The last of a source to check its gate was hindered. -/
def LastHindered (s : Settings) (attempts : ι → Attempt) (fs : Failures) (source : Net.Address)
    (actions : List (Action ι)) : Prop :=
  ∃ before i after w, actions = before ++ .part i :: after ∧ (attempts i).source = source ∧
    (∀ j, .part j ∈ after → (attempts j).source ≠ source) ∧
    Schedule.run (step s attempts) before (start fs) = some w ∧ Hindered w i

theorem not_lastHindered_nil : ¬ LastHindered s attempts fs source [] := by
  rintro ⟨before, i, after, w, hsplit, -⟩
  exact absurd hsplit.symm (List.append_ne_nil_of_right_ne_nil before (List.cons_ne_nil _ _))

omit [DecidableEq ι] in
/-- Steps are split at the last one or at an earlier one. -/
theorem split_concat {before after : List (Action ι)} {b : Action ι}
    (h : actions ++ [a] = before ++ b :: after) :
    (actions = before ∧ a = b ∧ after = []) ∨
      ∃ rest, actions = before ++ b :: rest ∧ after = rest ++ [a] := by
  rcases List.eq_nil_or_concat after with rfl | ⟨rest, last, rfl⟩
  · obtain ⟨hactions, hlast⟩ := List.append_inj' h rfl
    exact .inl ⟨hactions, List.singleton_inj.mp hlast, rfl⟩
  · rw [List.concat_eq_append, ← List.cons_append, ← List.append_assoc] at h
    obtain ⟨hactions, hlast⟩ := List.append_inj' h rfl
    rw [List.concat_eq_append, hlast]
    exact .inr ⟨rest, hactions, rfl⟩

/-- The last check is the one that has just been made. -/
theorem lastHindered_check (hrun : Schedule.run (step s attempts) actions (start fs) = some w)
    (hi : (attempts i).source = source) :
    LastHindered s attempts fs source (actions ++ [.part i]) ↔ Hindered w i := by
  constructor
  · rintro ⟨before, j, after, u, hsplit, -, hafter, hearlier, hhindered⟩
    rcases split_concat hsplit with ⟨rfl, hlast, -⟩ | ⟨rest, -, rfl⟩
    · obtain rfl : i = j := Action.part.inj hlast
      obtain rfl : w = u := Option.some.inj (hrun.symm.trans hearlier)
      exact hhindered
    · exact absurd hi (hafter i (List.mem_append_right rest List.mem_cons_self))
  · exact fun h => ⟨actions, i, [], w, rfl, hi, fun j hj => absurd hj List.not_mem_nil, hrun, h⟩

/-- A step that is no check of the source leaves the last one what it was. -/
theorem lastHindered_other (h : ∀ i, a = .part i → (attempts i).source ≠ source) :
    LastHindered s attempts fs source (actions ++ [a]) ↔
      LastHindered s attempts fs source actions := by
  constructor
  · rintro ⟨before, j, after, u, hsplit, hj, hafter, hearlier, hhindered⟩
    rcases split_concat hsplit with ⟨-, hlast, -⟩ | ⟨rest, rfl, rfl⟩
    · exact absurd hj (h j hlast)
    · exact ⟨before, j, rest, u, rfl, hj, fun k hk => hafter k (List.mem_append_left _ hk),
        hearlier, hhindered⟩
  · rintro ⟨before, j, after, u, rfl, hj, hafter, hearlier, hhindered⟩
    refine ⟨before, j, after ++ [a], u, List.append_assoc _ _ _, hj, fun k hk => ?_, hearlier,
      hhindered⟩
    rcases List.mem_append.mp hk with hk | hk
    · exact hafter k hk
    · exact h k (List.mem_singleton.mp hk).symm

/-! ### What is left -/

/-- Nobody of a source has a gate to check. -/
def Through (attempts : ι → Attempt) (w : Lobby ι) (source : Net.Address) : Prop :=
  ∀ i, (attempts i).source = source → (w.stage i).live? = none

/-- Who is through with a gate and refers to it still has checked it. -/
theorem eq_parting {stage : Stage} (hheld : stage.held? = some g) (hlive : stage.live? = none) :
    stage = .parting g := by
  cases stage with
  | parting k => rw [Option.some.inj hheld]
  | _ => contradiction

omit [DecidableEq ι] in
/-- After a check that no other will follow, the gate of the source is known exactly if the check
was hindered. -/
theorem left_of_check (hsound : Sound attempts w) (howned : Owned attempts w)
    (houtside : w.stage i = .outside g)
    (hothers : ∀ j, j ≠ i → (attempts j).source = (attempts i).source →
      (w.stage j).live? = none) :
    (∃ k, (w.forget (attempts i).source g).gateOf (attempts i).source = some k) ↔
      Hindered w i := by
  have hheld : (w.stage i).held? = some g := by rw [houtside]; rfl
  have hmap : w.gateOf (attempts i).source = some g := hsound.live i g (by rw [houtside]; rfl)
  have hcounted := hsound.counted _ g hmap
  by_cases htwo : (w.gates g).references = 2
  · -- Nobody else refers to the gate, and it is forgotten.
    have hnone : (w.forget (attempts i).source g).gateOf (attempts i).source = none := by
      rw [forget, if_pos htwo, gateOf_release]
      exact Function.update_self _ _ _
    rw [hnone]
    constructor
    · rintro ⟨k, hk⟩
      contradiction
    · rintro ⟨k, j, hk, hj⟩
      obtain rfl : g = k := Stage.outside.inj (houtside.symm.trans hk)
      rw [htwo] at hcounted
      obtain rfl : j = i := hcounted.eq_of_two hheld (by rw [hj]; rfl)
      rw [houtside] at hj
      contradiction
  · -- Whoever else refers to the gate is of this source, and is through with it.
    rw [forget, if_neg htwo]
    refine ⟨fun _ => ?_, fun _ => ⟨g, hmap⟩⟩
    obtain ⟨j, hne, hj⟩ := hcounted.exists_other hheld htwo
    have hsource := howned j _ g hj hmap
    exact ⟨g, j, houtside, eq_parting hj (hothers j hne hsource)⟩

/-- What holds of the gates at the end of a run. -/
structure Trail (s : Settings) (attempts : ι → Attempt) (fs : Failures)
    (actions : List (Action ι)) (w : Lobby ι) : Prop where
  run : Schedule.run (step s attempts) actions (start fs) = some w
  sound : Sound attempts w
  owned : Owned attempts w
  left : ∀ source, Through attempts w source →
    ((∃ g, w.gateOf source = some g) ↔ LastHindered s attempts fs source actions)

namespace Trail

theorem start (fs : Failures) : Trail s attempts fs [] (start fs) where
  run := rfl
  sound := Sound.start fs
  owned := Owned.start fs
  left := fun source _ => by
    constructor
    · rintro ⟨g, hg⟩
      contradiction
    · exact fun h => absurd h not_lastHindered_nil

/-- A step that is no check of the source changes nothing once nobody of it has a gate to check. -/
theorem left_other (h : Trail s attempts fs actions w) (htaken : Taken s attempts w a w')
    (hthrough : Through attempts w' source)
    (hother : ∀ i, a = .part i → (attempts i).source ≠ source) :
    (∃ g, w'.gateOf source = some g) ↔ LastHindered s attempts fs source actions := by
  have hsame : w'.gateOf source = w.gateOf source := by
    by_cases hsource : (attempts a.client).source = source
    · have hcome : ∀ i, a ≠ .arrive i := by
        rintro i rfl
        exact htaken.follows.live?_ne_none (hthrough i hsource)
      have hcheck : ∀ i, a ≠ .part i := by
        rintro i rfl
        exact hother i rfl hsource
      exact congrFun (htaken.gateOf hcome hcheck) source
    · exact htaken.gateOf_of_ne hsource
  rw [hsame]
  refine h.left source fun j hj => ?_
  by_cases hself : j = a.client
  · rw [hself] at hj ⊢
    refine (htaken.follows.live? (hthrough _ hj)).resolve_left ?_
    rintro ⟨i, rfl⟩
    exact hother i rfl hj
  · rw [← htaken.stage_of_ne hself]
    exact hthrough j hj

theorem step (h : Trail s attempts fs actions w) (htaken : Taken s attempts w a w')
    (hstep : Lobby.step s attempts a w = some w') :
    Trail s attempts fs (actions ++ [a]) w' where
  run := by rw [Schedule.run_append_of_eq h.run, Schedule.run_singleton, hstep]
  sound := h.sound.step htaken
  owned := h.owned.step h.sound htaken
  left := fun source hthrough => by
    by_cases hcheck : ∃ i, a = .part i ∧ (attempts i).source = source
    · obtain ⟨i, rfl, rfl⟩ := hcheck
      have hothers : ∀ j, j ≠ i → (attempts j).source = (attempts i).source →
          (w.stage j).live? = none := by
        intro j hj hsource
        rw [← htaken.stage_of_ne hj]
        exact hthrough j hsource
      cases htaken with
      | part outside =>
        rw [lastHindered_check h.run rfl]
        exact left_of_check h.sound h.owned outside hothers
    · have hother : ∀ i, a = .part i → (attempts i).source ≠ source :=
        fun i hi hsource => hcheck ⟨i, hi, hsource⟩
      rw [lastHindered_other hother]
      exact h.left_other htaken hthrough hother

theorem of_run (h : Schedule.run (Lobby.step s attempts) actions (Lobby.start fs) = some w) :
    Trail s attempts fs actions w :=
  Schedule.run_invariant (start fs)
    (fun _ _ _ _ htrail hstep => htrail.step (taken_of_step hstep) hstep) h

end Trail

/-! ### One after the other -/

/-- Everyone lets go right after checking. -/
def AtOnce (actions : List (Action ι)) : Prop :=
  actions.IsChain fun a b => ∀ i, a = .part i → b = .letGo i

omit [DecidableEq ι] in
/-- Only who has checked is to let go. -/
theorem Follows.parting {stage : Stage} (h : Follows a stage (.parting g)) :
    a = .part a.client := by
  cases h with
  | part => rfl

/-- Only who has just checked is to let go. -/
theorem AtOnce.getLast? (h : AtOnce actions)
    (hrun : Schedule.run (step s attempts) actions (start fs) = some w) :
    ∀ j g, w.stage j = .parting g → actions.getLast? = some (.part j) := by
  refine Schedule.run_invariant (P := fun actions w => AtOnce actions →
    ∀ j g, w.stage j = .parting g → actions.getLast? = some (.part j)) ?_ ?_ hrun h
  · exact fun _ j g hj => by contradiction
  · intro actions a w w' ih hstep h j g hj
    have htaken := taken_of_step hstep
    obtain ⟨hbefore, -, hnext⟩ := List.isChain_append.mp h
    have hself : j = a.client := by
      by_contra hne
      rw [htaken.stage_of_ne hne] at hj
      -- It has checked in the step before, and so this one is its own.
      have hlast := ih hbefore j g hj
      have hletGo := hnext (.part j) hlast a rfl j rfl
      exact hne (by rw [hletGo]; rfl)
    have hfollows := htaken.follows
    rw [← hself, hj] at hfollows
    rw [List.getLast?_concat, hfollows.parting, ← hself]

/-- Where everyone lets go right after checking, no check is hindered. -/
theorem not_lastHindered_of_atOnce (h : AtOnce actions) :
    ¬ LastHindered s attempts fs source actions := by
  rintro ⟨before, i, after, w, rfl, -, -, hrun, g, j, -, hj⟩
  obtain ⟨hbefore, -, hnext⟩ := List.isChain_append.mp h
  have hlast := AtOnce.getLast? hbefore hrun j g hj
  have hletGo := hnext (.part j) hlast (.part i) rfl j rfl
  contradiction

/-- No gate outlasts the attempts of its source if everyone lets go right after checking. -/
theorem none_left_of_atOnce (h : AtOnce actions)
    (hrun : Schedule.run (step s attempts) actions (start fs) = some w)
    (hthrough : Through attempts w source) : w.gateOf source = none := by
  rw [Option.eq_none_iff_forall_ne_some]
  intro g hg
  exact not_lastHindered_of_atOnce h (((Trail.of_run hrun).left source hthrough).mp ⟨g, hg⟩)

/-- A gate outlasts the attempts of its source exactly if the last of them to check it found
another one that had checked and had not let go. -/
theorem left_behind_iff (h : Schedule.run (step s attempts) actions (start fs) = some w)
    (through : ∀ i, (attempts i).source = source → (w.stage i).live? = none) :
    (∃ g, w.gateOf source = some g) ↔ LastHindered s attempts fs source actions :=
  (Trail.of_run h).left source through

/-- Two attempts of one source, until both have been settled and have left their gate. -/
def bothOutside (now : Time) : List (Action (Fin 2)) :=
  [.arrive 0, .arrive 1, .lineUp 0, .lineUp 1, .enter 0, .read 0 now, .settle 0 now, .leave 0,
    .enter 1, .read 1 now, .settle 1 now, .leave 1]

/-- The second one checks when the first one has let go, and the gate is forgotten. -/
theorem left_behind_iff_inTurn :
    let attempts : Fin 2 → Attempt := fun _ => Parallel.attemptFrom 1 "secret"
    let actions := bothOutside default ++ [.part 0, .letGo 0, .part 1, .letGo 1]
    ∃ w, Schedule.run (step Parallel.strict attempts) actions (start []) = some w ∧
      (∀ i, (attempts i).source = .v4 192 0 2 1 → (w.stage i).live? = none) ∧
      ((∃ g, w.gateOf (.v4 192 0 2 1) = some g) ↔
        LastHindered Parallel.strict attempts [] (.v4 192 0 2 1) actions) :=
  ⟨_, rfl, by decide, left_behind_iff rfl (by decide)⟩

/-- Both check before either lets go. Nobody is there any more, and the gate is known still. -/
theorem gate_outlasts_both :
    let attempts : Fin 2 → Attempt := fun _ => Parallel.attemptFrom 1 "secret"
    ∃ w, Schedule.run (step Parallel.strict attempts)
        (bothOutside default ++ [.part 0, .part 1, .letGo 0, .letGo 1]) (start []) = some w ∧
      (∀ i, w.stage i = .gone) ∧ w.gateOf (.v4 192 0 2 1) = some 0 :=
  ⟨_, rfl, by decide, rfl⟩

end RemoteDesk.Auth.Lobby
