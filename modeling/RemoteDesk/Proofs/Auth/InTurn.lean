import RemoteDesk.Proofs.Auth.Table

/-!
Attempts that are made one after the other, at one time. What an attempt meets is decided by the
attempts of its own source before it. How the attempts of different sources interleave makes no
difference to anything.
-/
namespace RemoteDesk.Auth

namespace Failures

theorem prior_note_self (fs : Failures) (o : Outcome) :
    (fs.note o).prior o.source o.time =
      if o.failed then countUp (fs.prior o.source o.time) else 0 := by
  unfold note
  split
  · exact prior_record_self fs o.source o.time
  · exact prior_clear_self fs o.source o.time

end Failures

namespace Attempt

variable (s : Settings) (now : Time)

/-- Whether the password is the user's. -/
def isRight (a : Attempt) : Bool :=
  s.accounts.verify a.credentials.username a.credentials.password

/-- How the attempt comes out. -/
def outcome (a : Attempt) : Outcome := ⟨now, a.source, !a.isRight s⟩

/-- How long an attempt waits, in nanoseconds. -/
def pause (fs : Failures) (a : Attempt) : Nat := ((delay s fs a.source now).getD .zero).toNanos

variable {s now} {fs gs : Failures} {a : Attempt}

theorem settle_congr (h : fs.prior a.source now = gs.prior a.source now) :
    (a.settle s fs now).result = (a.settle s gs now).result ∧
      (a.settle s fs now).event = (a.settle s gs now).event := by
  cases hv : s.accounts.identify a.credentials.username a.credentials.password with
  | some who =>
    rw [settle_of_some fs now hv, settle_of_some gs now hv]
    exact ⟨rfl, rfl⟩
  | none =>
    rw [settle_of_none fs now hv, settle_of_none gs now hv, Failures.prior_record_self,
      Failures.prior_record_self, h]
    exact ⟨rfl, rfl⟩

theorem delay_congr (h : fs.prior a.source now = gs.prior a.source now) :
    delay s fs a.source now = delay s gs a.source now := by
  rw [delay, delay, h]

end Attempt

variable (s : Settings) (now : Time)

/-- The table after attempts that are made in turn. -/
def tableAfter (fs : Failures) (attempts : List Attempt) : Failures :=
  attempts.foldl (fun fs a => (a.settle s fs now).failures) fs

/-- How many failures count after attempts of one source: a failure adds one, a success forgets
them. -/
def counted (count : UInt32) (own : List Attempt) : UInt32 :=
  own.foldl (fun count a => if a.isRight s then 0 else countUp count) count

/-- The attempts of a source. -/
def own (source : Net.Address) (attempts : List Attempt) : List Attempt :=
  attempts.filter (·.source = source)

theorem own_cons_self (a : Attempt) (attempts : List Attempt) :
    own a.source (a :: attempts) = a :: own a.source attempts :=
  List.filter_cons_of_pos (by simp)

theorem own_cons_of_ne {source : Net.Address} {a : Attempt} (h : a.source ≠ source)
    (attempts : List Attempt) : own source (a :: attempts) = own source attempts :=
  List.filter_cons_of_neg (by simpa using h)

theorem own_append (source : Net.Address) (attempts more : List Attempt) :
    own source (attempts ++ more) = own source attempts ++ own source more :=
  List.filter_append attempts more

section
variable {s now} {fs gs : Failures}

theorem tableAfter_cons (fs : Failures) (a : Attempt) (attempts : List Attempt) :
    tableAfter s now fs (a :: attempts) =
      tableAfter s now (fs.note (a.outcome s now)) attempts := by
  rw [tableAfter, List.foldl_cons, Attempt.settle_failures]
  rfl

theorem tableAfter_append (fs : Failures) (attempts more : List Attempt) :
    tableAfter s now fs (attempts ++ more) =
      tableAfter s now (tableAfter s now fs attempts) more := List.foldl_append

theorem onePerAddress_tableAfter (h : fs.OnePerAddress) (attempts : List Attempt) :
    (tableAfter s now fs attempts).OnePerAddress := by
  induction attempts generalizing fs with
  | nil => exact h
  | cons a attempts ih =>
    rw [tableAfter_cons]
    exact ih (h.note (a.outcome s now))

/-- What counts against a source comes from its own attempts. -/
theorem prior_tableAfter (h : fs.OnePerAddress) (source : Net.Address) (attempts : List Attempt) :
    (tableAfter s now fs attempts).prior source now =
      counted s (fs.prior source now) (own source attempts) := by
  induction attempts generalizing fs with
  | nil => rfl
  | cons a attempts ih =>
    rw [tableAfter_cons, ih (h.note (a.outcome s now))]
    by_cases ha : a.source = source
    · subst ha
      have hself : (fs.note (a.outcome s now)).prior a.source now =
          if a.isRight s then 0 else countUp (fs.prior a.source now) := by
        refine (Failures.prior_note_self fs (a.outcome s now)).trans ?_
        cases hr : a.isRight s <;> simp [Attempt.outcome, hr]
      rw [own_cons_self, hself]
      rfl
    · have hother : (fs.note (a.outcome s now)).prior source now = fs.prior source now :=
        Failures.prior_note_of_ne h (Ne.symm ha)
      rw [own_cons_of_ne ha, hother]

theorem Failures.Same.tableAfter (s : Settings) (now : Time) (h : fs.Same gs)
    (hf : fs.OnePerAddress) (hg : gs.OnePerAddress) (attempts : List Attempt) :
    (tableAfter s now fs attempts).Same (tableAfter s now gs attempts) := by
  induction attempts generalizing fs gs with
  | nil => exact h
  | cons a attempts ih =>
    rw [tableAfter_cons, tableAfter_cons]
    exact ih (h.note hf hg (a.outcome s now)) (hf.note _) (hg.note _)

/-- An attempt may be made before those of other sources. -/
theorem tableAfter_concat_same (h : fs.OnePerAddress) {a : Attempt} {attempts : List Attempt}
    (hother : own a.source attempts = []) :
    (tableAfter s now fs (attempts ++ [a])).Same (tableAfter s now fs (a :: attempts)) := by
  induction attempts generalizing fs with
  | nil => exact fun _ => rfl
  | cons b attempts ih =>
    have hne : b.source ≠ a.source := by
      intro heq
      rw [← heq, own_cons_self] at hother
      contradiction
    rw [own_cons_of_ne hne] at hother
    have hb : (fs.note (b.outcome s now)).OnePerAddress := h.note _
    have ha : (fs.note (a.outcome s now)).OnePerAddress := h.note _
    have hlast := ih hb hother
    -- The two are next to each other now.
    have hswap : ((fs.note (b.outcome s now)).note (a.outcome s now)).Same
        ((fs.note (a.outcome s now)).note (b.outcome s now)) := Failures.note_comm h hne rfl
    have hfirst := hswap.tableAfter s now (hb.note _) (ha.note _) attempts
    intro source
    rw [List.cons_append, tableAfter_cons, hlast source, tableAfter_cons, tableAfter_cons,
      tableAfter_cons]
    exact hfirst source

/-- Two orders of attempts that agree for each source lead to the same table. -/
theorem tableAfter_same (h : fs.OnePerAddress) {attempts others : List Attempt}
    (hown : ∀ source, own source attempts = own source others) :
    (tableAfter s now fs attempts).Same (tableAfter s now fs others) := by
  induction attempts generalizing fs others with
  | nil =>
    cases others with
    | nil => exact fun _ => rfl
    | cons b others =>
      have hb := hown b.source
      rw [own_cons_self] at hb
      contradiction
  | cons a attempts ih =>
    -- The first attempt is the first one of its source in the other order, too.
    have ha : own a.source others = a :: own a.source attempts := by
      rw [← hown a.source, own_cons_self]
    obtain ⟨front, back, rfl, hfront, -, hback⟩ := List.filter_eq_cons_iff.mp ha
    have hfront : own a.source front = [] := List.filter_eq_nil_iff.mpr hfront
    have hrest : ∀ source, own source attempts = own source (front ++ back) := by
      intro source
      by_cases hs : a.source = source
      · subst hs
        rw [own_append, hfront]
        exact hback.symm
      · have hsame := hown source
        rwa [own_cons_of_ne hs, own_append, own_cons_of_ne hs, ← own_append] at hsame
    have hnext := ih (h.note (a.outcome s now)) hrest
    have hmove : (tableAfter s now fs (front ++ [a])).Same (tableAfter s now fs (a :: front)) :=
      tableAfter_concat_same h hfront
    have hmore := hmove.tableAfter s now (onePerAddress_tableAfter h (front ++ [a]))
      (onePerAddress_tableAfter h (a :: front)) back
    intro source
    calc (tableAfter s now fs (a :: attempts)).lookup source
      _ = (tableAfter s now fs (a :: (front ++ back))).lookup source := by
        rw [tableAfter_cons, hnext source, tableAfter_cons]
      _ = (tableAfter s now (tableAfter s now fs (a :: front)) back).lookup source := by
        rw [← tableAfter_append, List.cons_append]
      _ = (tableAfter s now (tableAfter s now fs (front ++ [a])) back).lookup source :=
        (hmore source).symm
      _ = (tableAfter s now fs (front ++ a :: back)).lookup source := by
        rw [← tableAfter_append, List.append_assoc, List.singleton_append]

end

end RemoteDesk.Auth
