import Mathlib.Algebra.GroupWithZero.Nat
import RemoteDesk.Auth.Parallel
import RemoteDesk.Proofs.Auth.InTurn

/-!
A list of attempts, and who waits how long if they are made in turn. The attempts of a source are
a lane. An attempt starts when those before it in its lane have waited.
-/
namespace RemoteDesk.Auth.Parallel

/-! ### Lanes -/

section
variable (attempts : List Attempt)

/-- The places of a list that hold attempts of a source. -/
def lane (source : Net.Address) (places : List Nat) : List Nat :=
  places.filter fun place => (attempts[place]?).any (·.source = source)

/-- The attempts at the places of a list. -/
def attemptsAt (places : List Nat) : List Attempt := places.filterMap (attempts[·]?)

variable {attempts} {place : Nat} {a : Attempt}

theorem lane_append (source : Net.Address) (places more : List Nat) :
    lane attempts source (places ++ more) =
      lane attempts source places ++ lane attempts source more := List.filter_append places more

theorem lane_nil (source : Net.Address) : lane attempts source [] = [] := rfl

theorem mem_lane {source : Net.Address} {places : List Nat} :
    place ∈ lane attempts source places ↔
      place ∈ places ∧ (attempts[place]?).any (·.source = source) := List.mem_filter

theorem lane_self (h : attempts[place]? = some a) : lane attempts a.source [place] = [place] :=
  List.filter_cons_of_pos (by simp [h])

theorem lane_of_ne (h : attempts[place]? = some a) {source : Net.Address}
    (hne : source ≠ a.source) : lane attempts source [place] = [] :=
  List.filter_cons_of_neg (by simpa [h] using Ne.symm hne)

theorem lane_of_absent (h : attempts[place]? = none) (source : Net.Address) :
    lane attempts source [place] = [] :=
  List.filter_cons_of_neg (by simp [h])

theorem count_lane (h : attempts[place]? = some a) (places : List Nat) :
    (lane attempts a.source places).count place = places.count place :=
  List.count_filter (by simp [h])

/-- What stands before a place in its lane are the earlier places. -/
theorem lane_range_of_split {source : Net.Address} {n : Nat} {front back : List Nat}
    (h : lane attempts source (List.range n) = front ++ [place] ++ back) :
    lane attempts source (List.range place) = front := by
  induction n generalizing back with
  | zero => simp [lane] at h
  | succ n ih =>
    rw [List.range_succ, lane_append] at h
    by_cases hn : (attempts[n]?).any (·.source = source) = true
    · have hlast : lane attempts source [n] = [n] := List.filter_cons_of_pos hn
      rw [hlast] at h
      rcases List.eq_nil_or_concat back with rfl | ⟨back, q, rfl⟩
      · obtain ⟨hfront, hplace⟩ := List.append_inj' (h.trans (List.append_nil _)) rfl
        obtain rfl := List.singleton_inj.mp hplace
        exact hfront
      · rw [List.concat_eq_append, ← List.append_assoc] at h
        exact ih (List.append_inj' h rfl).1
    · have hlast : lane attempts source [n] = [] := List.filter_cons_of_neg hn
      rw [hlast, List.append_nil] at h
      exact ih h

theorem attemptsAt_append (places more : List Nat) :
    attemptsAt attempts (places ++ more) = attemptsAt attempts places ++ attemptsAt attempts more :=
  List.filterMap_append

theorem attemptsAt_singleton (h : attempts[place]? = some a) :
    attemptsAt attempts [place] = [a] := by
  rw [attemptsAt, List.filterMap_cons_some h]
  rfl

/-- The attempts of a lane are those of its source. -/
theorem attemptsAt_lane (source : Net.Address) (places : List Nat) :
    attemptsAt attempts (lane attempts source places) =
      own source (attemptsAt attempts places) := by
  rw [attemptsAt, lane, List.filterMap_filter, own, attemptsAt, List.filter_filterMap]
  congr 1
  funext place
  cases attempts[place]? <;> simp [Option.filter]

theorem attemptsAt_range (n : Nat) : attemptsAt attempts (List.range n) = attempts.take n := by
  induction n with
  | zero => rfl
  | succ n ih =>
    rw [List.range_succ, attemptsAt_append, ih, List.take_add_one]
    cases h : attempts[n]? <;> simp [attemptsAt, h]

end

/-! ### Waiting in turn -/

variable (s : Settings) (now : Time) (attempts : List Attempt) (fs : Failures)

/-- The table that the attempt at a place meets if all attempts are made in turn. -/
def metAt (place : Nat) : Failures := tableAfter s now fs (attempts.take place)

/-- How long the attempt at a place waits then. -/
def pauseAt (place : Nat) : Nat :=
  (attempts[place]?).elim 0 (Attempt.pause s now (metAt s now attempts fs place))

/-- How long the attempts at places wait together. -/
def waited (places : List Nat) : Nat := (places.map (pauseAt s now attempts fs)).sum

/-- When the attempt at a place starts to wait: when those before it in its lane have waited. -/
def startAt (place : Nat) : Nat :=
  (attempts[place]?).elim 0 fun a =>
    waited s now attempts fs (lane attempts a.source (List.range place))

/-- When the attempt at a place has waited. -/
def dueAt (place : Nat) : Nat := startAt s now attempts fs place + pauseAt s now attempts fs place

variable {s now attempts fs} {place : Nat} {a : Attempt}

theorem waited_append (places more : List Nat) :
    waited s now attempts fs (places ++ more) =
      waited s now attempts fs places + waited s now attempts fs more := by
  simp [waited]

theorem startAt_eq (h : attempts[place]? = some a) :
    startAt s now attempts fs place =
      waited s now attempts fs (lane attempts a.source (List.range place)) := by
  rw [startAt, h]
  rfl

theorem dueAt_eq (h : attempts[place]? = some a) :
    dueAt s now attempts fs place =
      waited s now attempts fs (lane attempts a.source (List.range (place + 1))) := by
  rw [List.range_succ, lane_append, lane_self h, waited_append, dueAt, startAt_eq h]
  simp [waited]

theorem pauseAt_eq (h : attempts[place]? = some a) :
    pauseAt s now attempts fs place = a.pause s now (metAt s now attempts fs place) := by
  rw [pauseAt, h]
  rfl

/-- What counts against an attempt comes from those before it in its lane. -/
theorem prior_metAt (single : fs.OnePerAddress) (source : Net.Address) (place : Nat) :
    (metAt s now attempts fs place).prior source now = counted s (fs.prior source now)
      (attemptsAt attempts (lane attempts source (List.range place))) := by
  rw [metAt, prior_tableAfter single, attemptsAt_lane, attemptsAt_range]

end RemoteDesk.Auth.Parallel
