import RemoteDesk.Proofs.Auth.Exclusive
import RemoteDesk.Proofs.Auth.Together

/-!
What attempts to log in go by. The table of failures is the one to which every outcome so far has
been added, in the order in which they came about. An attempt that has read it goes by a number
that takes in all failures of its source up to now, since whoever of its source was let in before
had left, and whoever comes later waits.
-/
namespace RemoteDesk.Auth.Lobby

variable {ι : Type} [DecidableEq ι] {s : Settings} {attempts : ι → Attempt} {fs : Failures}
  {actions : List (Action ι)} {a : Action ι} {w w' : Lobby ι} {i : ι}

/-! ### What has happened -/

/-- How the attempt comes out that is settled in a step. -/
def Action.outcome? (s : Settings) (attempts : ι → Attempt) : Action ι → Option Outcome
  | .settle i now => some ((attempts i).outcome s now)
  | _ => none

/-- The outcomes of all attempts that have been settled, in their order. -/
def outcomes (s : Settings) (attempts : ι → Attempt) (actions : List (Action ι)) : List Outcome :=
  actions.filterMap (Action.outcome? s attempts)

/-- Someone has been settled or has given up. -/
def Over (actions : List (Action ι)) (i : ι) : Prop :=
  (∃ now, .settle i now ∈ actions) ∨ .giveUp i ∈ actions

omit [DecidableEq ι] in
theorem Over.concat (h : Over actions i) (a : Action ι) : Over (actions ++ [a]) i :=
  h.imp (fun ⟨now, hmem⟩ => ⟨now, List.mem_append_left _ hmem⟩) (List.mem_append_left _)

omit [DecidableEq ι] in
theorem outcomes_append (actions more : List (Action ι)) :
    outcomes s attempts (actions ++ more) =
      outcomes s attempts actions ++ outcomes s attempts more := List.filterMap_append

/-- Only settling an attempt changes the table. -/
theorem Taken.failures (h : Taken s attempts w a w') :
    w'.failures = (outcomes s attempts [a]).foldl Failures.note w.failures := by
  cases h with
  | settle checking => exact Attempt.settle_failures s w.failures _ _
  | arrive absent =>
    rw [Lobby.arrive]
    split <;> rfl
  | read admitted =>
    rw [Lobby.read]
    split <;> rfl
  | part outside => exact failures_forget ..
  | _ => rfl

/-! ### What has become of an attempt -/

/-- How far an attempt has come, compared with the steps that have been taken. -/
structure Story (actions : List (Action ι)) (i : ι) (stage : Stage) : Prop where
  /-- Whoever has been let in is inside or has left. -/
  entered : .enter i ∈ actions → stage.inside?.isSome = true ∨ .leave i ∈ actions
  /-- Whoever leaves has been settled or has given up. -/
  ended : stage.isJudged = true ∨ .leave i ∈ actions → Over actions i

/-- What a step must be that brings an attempt inside, or out again, or to an end. -/
structure Passes (a : Action ι) (i : ι) (stage stage' : Stage) : Prop where
  inside : stage.inside?.isSome = true → stage'.inside?.isSome = true ∨ a = .leave i
  enter : a = .enter i → stage'.inside?.isSome = true
  judged : stage'.isJudged = true → stage.isJudged = true ∨ Over [a] i
  leave : a = .leave i → stage.isJudged = true

omit [DecidableEq ι] in
theorem Follows.passes {stage stage' : Stage} (h : Follows a stage stage') :
    Passes a a.client stage stage' := by
  cases h <;> constructor <;> simp [Action.client, Stage.inside?, Stage.isJudged, Over]

theorem Taken.passes (h : Taken s attempts w a w') (i : ι) :
    Passes a i (w.stage i) (w'.stage i) := by
  by_cases hi : i = a.client
  · rw [hi]
    exact h.follows.passes
  · rw [h.stage_of_ne hi]
    refine ⟨.inl, ?_, .inl, ?_⟩
    · rintro rfl
      exact absurd rfl hi
    · rintro rfl
      exact absurd rfl hi

omit [DecidableEq ι] in
theorem Story.concat {stage stage' : Stage} (h : Story actions i stage)
    (hpasses : Passes a i stage stage') : Story (actions ++ [a]) i stage' := by
  refine ⟨fun hentered => ?_, fun hover => ?_⟩
  · rcases List.mem_append.mp hentered with hearlier | hnow
    · rcases h.entered hearlier with hinside | hleft
      · refine (hpasses.inside hinside).imp id ?_
        rintro rfl
        exact List.mem_concat_self
      · exact .inr (List.mem_append_left _ hleft)
    · exact .inl (hpasses.enter (List.mem_singleton.mp hnow).symm)
  · have hend : stage.isJudged = true ∨ .leave i ∈ actions ∨ Over [a] i := by
      rcases hover with hjudged | hleft
      · exact (hpasses.judged hjudged).imp id .inr
      · rcases List.mem_append.mp hleft with hearlier | hnow
        · exact .inr (.inl hearlier)
        · exact .inl (hpasses.leave (List.mem_singleton.mp hnow).symm)
    rcases hend with hjudged | hleft | hnow
    · exact (h.ended (.inl hjudged)).concat a
    · exact (h.ended (.inr hleft)).concat a
    · exact hnow.imp (fun ⟨now, hmem⟩ => ⟨now, List.mem_append_right _ hmem⟩)
        (List.mem_append_right _)

/-! ### What an attempt goes by -/

/-- An attempt has read the table between the steps before and after, and goes by this count. -/
structure Reading (s : Settings) (attempts : ι → Attempt) (fs : Failures)
    (before after : List (Action ι)) (i : ι) (now : Time) (count : UInt32) : Prop where
  /-- The count is that of a table to which all outcomes before have been added. -/
  count : count =
    ((outcomes s attempts before).foldl Failures.note fs).prior (attempts i).source now
  /-- No attempt of its source has been settled since. -/
  since : ∀ o ∈ outcomes s attempts after, o.source ≠ (attempts i).source
  /-- All others of its source that have been let in had come to their ends and left. -/
  earlier : ∀ j, j ≠ i → (attempts j).source = (attempts i).source →
    .enter j ∈ before ++ .read i now :: after → Over before j ∧ .leave j ∈ before

/-- An attempt goes by the failures of its source up to now. -/
def UpToDate (s : Settings) (attempts : ι → Attempt) (fs : Failures) (actions : List (Action ι))
    (i : ι) (count : UInt32) : Prop :=
  ∃ before now after, actions = before ++ .read i now :: after ∧
    Reading s attempts fs before after i now count

/-- What holds at any time. -/
structure Chronicle (s : Settings) (attempts : ι → Attempt) (fs : Failures)
    (actions : List (Action ι)) (w : Lobby ι) : Prop where
  sound : Sound attempts w
  /-- No outcome is missing from the table. -/
  table : w.failures = (outcomes s attempts actions).foldl Failures.note fs
  story : ∀ i, Story actions i (w.stage i)
  reading : ∀ i count, (w.stage i).count? = some count → UpToDate s attempts fs actions i count

theorem inside?_of_count? {stage : Stage} {count : UInt32} (h : stage.count? = some count) :
    ∃ g, stage.inside? = some g := by
  cases stage <;> first | exact ⟨_, rfl⟩ | contradiction

omit [DecidableEq ι] in
/-- A step in which nobody else of the source is let in or settled. -/
theorem UpToDate.concat {count : UInt32} (h : UpToDate s attempts fs actions i count)
    (houtcome : ∀ o ∈ a.outcome? s attempts, o.source ≠ (attempts i).source)
    (henter : ∀ j, j ≠ i → (attempts j).source = (attempts i).source → a ≠ .enter j) :
    UpToDate s attempts fs (actions ++ [a]) i count := by
  obtain ⟨before, now, after, rfl, hreading⟩ := h
  refine ⟨before, now, after ++ [a], List.append_assoc _ _ _, hreading.count, fun o ho => ?_,
    fun j hj hsource hentered => ?_⟩
  · rw [outcomes_append] at ho
    rcases List.mem_append.mp ho with ho | ho
    · exact hreading.since o ho
    · obtain ⟨b, hb, hout⟩ := List.mem_filterMap.mp ho
      obtain rfl := List.mem_singleton.mp hb
      exact houtcome o hout
  · refine hreading.earlier j hj hsource ?_
    rw [← List.cons_append, ← List.append_assoc] at hentered
    rcases List.mem_append.mp hentered with hearlier | hnow
    · exact hearlier
    · exact absurd (List.mem_singleton.mp hnow).symm (henter j hj hsource)

namespace Chronicle

omit [DecidableEq ι] in
theorem start (fs : Failures) : Chronicle s attempts fs [] (start fs) where
  sound := Sound.start fs
  table := rfl
  story := fun _ => ⟨fun h => by contradiction, fun h => by rcases h with h | h <;> contradiction⟩
  reading := fun _ _ h => by contradiction

omit [DecidableEq ι] in
/-- An attempt that has been let in reads the table. -/
theorem read (h : Chronicle s attempts fs actions w) {g : Nat} {now : Time}
    (hadmitted : w.stage i = .admitted g) :
    UpToDate s attempts fs (actions ++ [.read i now]) i
      (w.failures.prior (attempts i).source now) := by
  have hinside : (w.stage i).inside? = some g := by rw [hadmitted]; rfl
  refine ⟨actions, now, [], rfl, ?_, fun o ho => by contradiction, fun j hj hsource hentered => ?_⟩
  · rw [h.table]
  · have hearlier : .enter j ∈ actions := by
      rcases List.mem_append.mp hentered with hearlier | hnow
      · exact hearlier
      · have heq := List.mem_singleton.mp hnow
        contradiction
    rcases (h.story j).entered hearlier with hstill | hleft
    · obtain ⟨k, hk⟩ := Option.isSome_iff_exists.mp hstill
      exact absurd (h.sound.alone hk hinside hsource) hj
    · exact ⟨(h.story j).ended (.inr hleft), hleft⟩

theorem step (h : Chronicle s attempts fs actions w) (htaken : Taken s attempts w a w') :
    Chronicle s attempts fs (actions ++ [a]) w' := by
  have hsound := h.sound.step htaken
  refine ⟨hsound, ?_, fun i => (h.story i).concat (htaken.passes i), fun i count hcount => ?_⟩
  · rw [htaken.failures, h.table, outcomes_append, List.foldl_append]
  by_cases hi : i = a.client
  · subst hi
    rcases htaken.count? hcount with ⟨i, g, now, rfl, hadmitted, rfl⟩ | ⟨i, rfl, hwoken⟩
    · exact h.read hadmitted
    · exact (h.reading i count hwoken).concat (fun o ho => by contradiction)
        fun j _ _ hwake => by contradiction
  · rw [htaken.stage_of_ne hi] at hcount
    obtain ⟨g, hinside⟩ := inside?_of_count? hcount
    -- Whoever is inside now, and is not this one, has come from elsewhere.
    have hother : ∀ j, j ≠ i → (w'.stage j).inside?.isSome = true →
        (attempts j).source ≠ (attempts i).source := by
      intro j hj hstill hsource
      obtain ⟨k, hk⟩ := Option.isSome_iff_exists.mp hstill
      rw [← htaken.stage_of_ne hi] at hinside
      exact hj (hsound.alone hk hinside hsource)
    refine (h.reading i count hcount).concat (fun o ho => ?_) fun j hj hsource => ?_
    · cases htaken with
      | settle checking =>
        obtain rfl := Option.some.inj ho
        refine hother _ (Ne.symm hi) ?_
        rw [stage_settle]
        rfl
      | _ => contradiction
    · rintro rfl
      exact hother j hj ((htaken.passes j).enter rfl) hsource

theorem of_run (h : Schedule.run (Lobby.step s attempts) actions (Lobby.start fs) = some w) :
    Chronicle s attempts fs actions w :=
  Schedule.run_invariant (start fs)
    (fun _ _ _ _ hchronicle hstep => hchronicle.step (taken_of_step hstep)) h

end Chronicle

/-! ### One at a time -/

/-- What holds at any time of attempts that come and go. -/
structure Exclusive (s : Settings) (attempts : ι → Attempt) (fs : Failures)
    (actions : List (Action ι)) (w : Lobby ι) : Prop where
  /-- All of a source that are not through with their gates have the same one. -/
  same_gate : ∀ i j g k, (w.stage i).live? = some g → (w.stage j).live? = some k →
    (attempts i).source = (attempts j).source → g = k
  /-- At most one of a source is inside. -/
  alone : ∀ i j, (w.stage i).inside?.isSome = true → (w.stage j).inside?.isSome = true →
    (attempts i).source = (attempts j).source → i = j
  /-- Whoever has read the table goes by all failures of its source up to now. -/
  upToDate : ∀ i count, (w.stage i).count? = some count → UpToDate s attempts fs actions i count
  /-- No outcome is missing from the table. -/
  table : w.failures = (outcomes s attempts actions).foldl Failures.note fs

/-- However the steps of any number of attempts interleave, those of one source are evaluated one
at a time. -/
theorem exclusive_of_run
    (h : Schedule.run (step s attempts) actions (start fs) = some w) :
    Exclusive s attempts fs actions w := by
  have hchronicle := Chronicle.of_run h
  refine ⟨fun i j g k => hchronicle.sound.same_gate, fun i j hi hj => ?_, hchronicle.reading,
    hchronicle.table⟩
  obtain ⟨g, hg⟩ := Option.isSome_iff_exists.mp hi
  obtain ⟨k, hk⟩ := Option.isSome_iff_exists.mp hj
  exact hchronicle.sound.alone hg hk

/-- Three wrong attempts of one source. The second gives up in line. The gate is forgotten before
the third one comes, and the first one refers to it still. -/
def relay (now : Time) : List (Action (Fin 3)) :=
  [.arrive 0, .lineUp 0, .arrive 1, .enter 0, .lineUp 1, .read 0 now, .giveUp 1, .settle 0 now,
    .part 1, .leave 0, .letGo 1, .part 0, .arrive 2, .lineUp 2, .enter 2, .read 2 now]

theorem exclusive_relay :
    let attempts : Fin 3 → Attempt := fun _ => Parallel.attemptFrom 1 "wrong"
    ∃ w, Schedule.run (step Parallel.strict attempts) (relay default) (start []) = some w ∧
      w.stage 0 = .parting 0 ∧ w.stage 2 = .sleeping 1 1 ∧
      Exclusive Parallel.strict attempts [] (relay default) w :=
  ⟨_, rfl, rfl, rfl, exclusive_of_run rfl⟩

end RemoteDesk.Auth.Lobby
