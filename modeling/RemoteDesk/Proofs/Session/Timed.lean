import Mathlib.Data.List.TakeWhile
import RemoteDesk.Proofs.Session.Waiting

/-!
Bytes with the instants at which they arrive. A peer that never closes, on a connection with room
for all that it sends, is such a row of bytes: what has arrived lies in its buffer, what is to come
is told by its script. Waiting for some of them ends at the instant of the last one, if that is not
behind the deadline, and otherwise in vain, however many of them come before.
-/
namespace RemoteDesk

/-- Bytes with the instants at which they arrive. -/
abbrev Timed := List (UInt8 × Nat)

namespace Timed

/-- The bytes alone. -/
def bytes (row : Timed) : Bytes := row.map Prod.fst

/-- Those that are there by a deadline. -/
def within (deadline : Nat) (row : Timed) : Timed := row.takeWhile (·.2 ≤ deadline)

/-- When they are all there for somebody who waits from an instant on. -/
def instant (start : Nat) (row : Timed) : Nat := row.foldl (fun now b => max now b.2) start

/-- Bytes that arrive together. -/
def together (now : Nat) (bytes : Bytes) : Timed := bytes.map (·, now)

variable {row more : Timed} {now start deadline : Nat}

@[simp] theorem bytes_append (row more : Timed) : (row ++ more).bytes = row.bytes ++ more.bytes :=
  List.map_append

@[simp] theorem length_bytes (row : Timed) : row.bytes.length = row.length := List.length_map _

@[simp] theorem bytes_together (now : Nat) (bytes : Bytes) :
    (together now bytes).bytes = bytes := by
  simp [together, Timed.bytes, Function.comp_def]

theorem mem_together {b : UInt8 × Nat} {bytes : Bytes} (h : b ∈ together now bytes) :
    b.2 = now := by
  obtain ⟨_, -, rfl⟩ := List.mem_map.mp h
  rfl

theorem bytes_take (n : Nat) (row : Timed) : bytes (row.take n) = row.bytes.take n := List.map_take

theorem bytes_drop (n : Nat) (row : Timed) : bytes (row.drop n) = row.bytes.drop n := List.map_drop

/-! ### Deadlines -/

theorem within_append (h : ∀ b ∈ row, b.2 ≤ deadline) :
    within deadline (row ++ more) = row ++ within deadline more :=
  List.takeWhile_append_of_pos fun b hb => decide_eq_true (h b hb)

theorem within_of_lt (h : ∀ b ∈ row, deadline < b.2) : within deadline row = [] := by
  cases row with
  | nil => rfl
  | cons b row =>
    exact List.takeWhile_cons_of_neg (by simpa using h b List.mem_cons_self)

theorem length_within_le (deadline : Nat) (row : Timed) :
    (within deadline row).length ≤ row.length := (List.takeWhile_sublist _).length_le

theorem within_within (h : start ≤ deadline) : within start (within deadline row) =
    within start row := by
  unfold within
  rw [List.takeWhile_takeWhile]
  congr 1
  funext b
  simp only [decide_eq_true_eq, decide_eq_decide]
  omega

theorem take_within {n : Nat} (h : n ≤ (within deadline row).length) :
    (within deadline row).take n = row.take n := by
  conv => rhs; rw [← List.takeWhile_append_dropWhile (p := (·.2 ≤ deadline)) (l := row)]
  exact (List.take_append_of_le_length h).symm

theorem drop_within {n : Nat} (h : n ≤ (within deadline row).length) :
    (within deadline row).drop n = within deadline (row.drop n) := by
  induction n generalizing row with
  | zero => rfl
  | succ n ih =>
    cases row with
    | nil => rfl
    | cons b row =>
      by_cases hb : b.2 ≤ deadline
      · have hwithin : within deadline (b :: row) = b :: within deadline row :=
          List.takeWhile_cons_of_pos (decide_eq_true hb)
        rw [hwithin, List.length_cons] at h
        rw [hwithin, List.drop_succ_cons, List.drop_succ_cons, ih (Nat.le_of_succ_le_succ h)]
      · have hwithin : within deadline (b :: row) = [] :=
          List.takeWhile_cons_of_neg (by simpa using hb)
        rw [hwithin] at h
        exact absurd h (Nat.not_succ_le_zero n)

theorem le_of_mem_within {b : UInt8 × Nat} (h : b ∈ within deadline row) : b.2 ≤ deadline := by
  have hb := List.mem_takeWhile_imp h
  exact of_decide_eq_true hb

/-! ### Instants -/

theorem instant_append : (row ++ more).instant start = more.instant (row.instant start) :=
  List.foldl_append

theorem le_instant : start ≤ row.instant start := by
  induction row generalizing start with
  | nil => exact Nat.le_refl start
  | cons b row ih => exact Nat.le_trans (Nat.le_max_left ..) ih

theorem instant_le (hs : start ≤ deadline) (h : ∀ b ∈ row, b.2 ≤ deadline) :
    row.instant start ≤ deadline := by
  induction row generalizing start with
  | nil => exact hs
  | cons b row ih =>
    exact ih (Nat.max_le.mpr ⟨hs, h b List.mem_cons_self⟩)
      fun b hb => h b (List.mem_cons_of_mem _ hb)

/-- Nobody has to wait for what is there. -/
theorem instant_of_le (h : ∀ b ∈ row, b.2 ≤ start) : row.instant start = start :=
  Nat.le_antisymm (instant_le (Nat.le_refl start) h) le_instant

/-- It does not matter how long before the first byte the waiting begins. -/
theorem instant_of_ge (hne : row ≠ []) (hs : start ≤ now) (h : ∀ b ∈ row, now ≤ b.2) :
    row.instant start = row.instant now := by
  cases row with
  | nil => exact absurd rfl hne
  | cons b row =>
    have hb := h b List.mem_cons_self
    unfold instant
    rw [List.foldl_cons, List.foldl_cons, Nat.max_eq_right hb,
      Nat.max_eq_right (Nat.le_trans hs hb)]

end Timed

/-- What a script sends, from an instant on. -/
def Script.arrivals (now : Nat) : List PeerStep → Timed
  | [] => []
  | .send bytes :: script => Timed.together now bytes ++ arrivals now script
  | .pause nanos :: script => arrivals (now + nanos) script
  | .close :: _ => []

namespace Script

theorem le_of_mem_arrivals {now : Nat} {script : List PeerStep} {b : UInt8 × Nat}
    (h : b ∈ arrivals now script) : now ≤ b.2 := by
  induction script generalizing now with
  | nil => exact absurd h List.not_mem_nil
  | cons step script ih =>
    cases step with
    | send bytes =>
      rcases List.mem_append.mp h with h | h
      · exact Nat.le_of_eq (Timed.mem_together h).symm
      · exact ih h
    | pause nanos => exact Nat.le_trans (Nat.le_add_right ..) (ih h)
    | close => exact absurd h List.not_mem_nil

theorem bytes_arrivals {script : List PeerStep} (now : Nat) (h : .close ∉ script) :
    (arrivals now script).bytes = sent script := by
  induction script generalizing now with
  | nil => rfl
  | cons step script ih =>
    have hrest : .close ∉ script := fun hm => h (List.mem_cons_of_mem _ hm)
    cases step with
    | send bytes =>
      rw [arrivals, Timed.bytes_append, Timed.bytes_together, ih now hrest]
      rfl
    | pause nanos => exact ih (now + nanos) hrest
    | close => exact absurd List.mem_cons_self h

end Script

namespace Peer

open Script

/-- What a peer that stays open has sent and will send: the bytes in its buffer have arrived, those
of its script are to come. -/
structure Ahead (row : Timed) (now : Nat) (p : Peer) : Prop where
  isOpen : p.closed = false
  lasting : .close ∉ p.script
  flowing : p.unsent = []
  room : p.capacity?.all (p.buffer.length + (sent p.script).length ≤ ·) = true
  told : ∃ early : Timed, row = early ++ arrivals p.ready p.script ∧ early.bytes = p.buffer ∧
    ∀ b ∈ early, b.2 ≤ now

/-- What the peer could do up to now it has done. -/
structure OnTime (row : Timed) (now : Nat) (p : Peer) : Prop extends Ahead row now p where
  played : p.script = [] ∨ now < p.ready

variable {row : Timed} {now next deadline limit wanted : Nat} {p : Peer}

theorem Ahead.later (h : Ahead row now p) (hle : now ≤ next) : Ahead row next p :=
  { h with
    told := by
      obtain ⟨early, hrow, hbuffer, hearly⟩ := h.told
      exact ⟨early, hrow, hbuffer, fun b hb => Nat.le_trans (hearly b hb) hle⟩ }

theorem push_of_room {bytes : Bytes} (h : p.capacity?.all (p.buffer.length + bytes.length ≤ ·)) :
    p.push bytes = { p with buffer := p.buffer ++ bytes, unsent := [] } := by
  unfold push
  cases hc : p.capacity? with
  | none => rfl
  | some capacity =>
    rw [hc] at h
    have hroom : bytes.length ≤ capacity - p.buffer.length := by
      have := of_decide_eq_true h
      omega
    simp only [List.take_of_length_le hroom, List.drop_of_length_le hroom]

theorem Ahead.sending {bytes : Bytes} {steps : List PeerStep}
    (h : Ahead row now { p with script := .send bytes :: steps }) (hready : p.ready ≤ now) :
    Ahead row now { p with script := steps, buffer := p.buffer ++ bytes, unsent := [] } where
  isOpen := h.isOpen
  lasting := fun hm => h.lasting (List.mem_cons_of_mem _ hm)
  flowing := rfl
  room := by
    have hroom := h.room
    rw [sent_cons, List.length_append, ← Nat.add_assoc] at hroom
    rw [List.length_append]
    exact hroom
  told := by
    obtain ⟨early, hrow, hbuffer, hearly⟩ := h.told
    refine ⟨early ++ Timed.together p.ready bytes, ?_, ?_, ?_⟩
    · rw [hrow, arrivals, List.append_assoc]
    · rw [Timed.bytes_append, Timed.bytes_together, hbuffer]
    · intro b hb
      rcases List.mem_append.mp hb with hb | hb
      · exact hearly b hb
      · rw [Timed.mem_together hb]
        exact hready

theorem Ahead.pausing {nanos : Nat} {steps : List PeerStep}
    (h : Ahead row now { p with script := .pause nanos :: steps }) :
    Ahead row now { p with script := steps, ready := p.ready + nanos } where
  isOpen := h.isOpen
  lasting := fun hm => h.lasting (List.mem_cons_of_mem _ hm)
  flowing := h.flowing
  room := h.room
  told := h.told

/-- By induction on the steps; none of them closes, and nothing is held back. -/
theorem play_onTime {steps : List PeerStep} (h : Ahead row now { p with script := steps }) :
    OnTime row now (play now steps p) ∧ (play now steps p).script.length ≤ steps.length ∧
      (steps ≠ [] → p.ready ≤ now → (play now steps p).script.length < steps.length) := by
  induction steps generalizing p with
  | nil => exact ⟨⟨h, .inl rfl⟩, Nat.le_refl _, fun hne => absurd rfl hne⟩
  | cons step steps ih =>
    unfold play
    by_cases hready : now < p.ready
    · rw [if_pos hready]
      exact ⟨⟨h, .inr hready⟩, Nat.le_refl _, fun _ hle => absurd hready (Nat.not_lt.mpr hle)⟩
    rw [if_neg hready]
    cases step with
    | close => exact absurd List.mem_cons_self h.lasting
    | pause nanos =>
      obtain ⟨hontime, hle, -⟩ := ih (p := { p with ready := p.ready + nanos }) h.pausing
      exact ⟨hontime, Nat.le_succ_of_le hle, fun _ _ => Nat.lt_succ_of_le hle⟩
    | send bytes =>
      have hroom : p.capacity?.all (p.buffer.length + bytes.length ≤ ·) := by
        have hroom := h.room
        cases hc : p.capacity? with
        | none => rfl
        | some capacity =>
          simp only [hc, sent_cons, List.length_append, Option.all_some, decide_eq_true_eq,
            PeerStep.sent] at hroom ⊢
          omega
      have hpush : (if p.closed = true then p else p.push bytes) =
          { p with buffer := p.buffer ++ bytes, unsent := [] } :=
        (if_neg (Bool.eq_false_iff.mp h.isOpen)).trans (push_of_room hroom)
      obtain ⟨hontime, hle, -⟩ := ih (p := { p with buffer := p.buffer ++ bytes, unsent := [] })
        (h.sending (Nat.not_lt.mp hready))
      simp only [hpush, List.isEmpty_nil, if_true]
      exact ⟨hontime, Nat.le_succ_of_le hle, fun _ _ => Nat.lt_succ_of_le hle⟩

/-- The peer acts up to an instant. -/
theorem Ahead.advance (h : Ahead row now p) (hle : now ≤ next) :
    OnTime row next (p.advance next) ∧ (p.advance next).script.length ≤ p.script.length ∧
      (p.script ≠ [] → p.ready ≤ next → (p.advance next).script.length < p.script.length) := by
  rw [Peer.advance, if_pos (by simp [h.flowing])]
  exact play_onTime (h.later hle)

/-! ### Waiting -/

/-- What is there can be taken. -/
theorem OnTime.taken (h : OnTime row now p) {count : Nat} (hc : count ≤ p.buffer.length) :
    Timed.bytes (row.take count) = p.buffer.take count ∧
      Timed.instant now (row.take count) = now ∧
      OnTime (row.drop count) now { p with buffer := p.buffer.drop count } := by
  obtain ⟨early, hrow, hbuffer, hearly⟩ := h.told
  have hlen : count ≤ early.length := by
    rwa [← hbuffer, Timed.length_bytes] at hc
  have htake : row.take count = early.take count := by
    rw [hrow, List.take_append_of_le_length hlen]
  refine ⟨?_, ?_, ⟨⟨h.isOpen, h.lasting, h.flowing, ?_, early.drop count, ?_, ?_, ?_⟩, h.played⟩⟩
  · rw [htake, Timed.bytes_take, hbuffer]
  · rw [htake]
    exact Timed.instant_of_le fun b hb => hearly b (List.mem_of_mem_take hb)
  · have hroom := h.room
    cases hcap : p.capacity? with
    | none => rfl
    | some capacity =>
      simp only [hcap, Option.all_some, decide_eq_true_eq, List.length_drop] at hroom ⊢
      omega
  · rw [hrow, List.drop_append_of_le_length hlen]
  · rw [← hbuffer]
    exact List.map_drop
  · exact fun b hb => hearly b (List.mem_of_mem_drop hb)

/-- Behind what is there comes what the script sends. -/
theorem Ahead.drop_buffer (h : Ahead row now p) :
    row.drop p.buffer.length = arrivals p.ready p.script := by
  obtain ⟨early, hrow, hbuffer, -⟩ := h.told
  rw [hrow, ← hbuffer, Timed.length_bytes, List.drop_left]

theorem Ahead.length_within (h : Ahead row now p) (hnow : now ≤ deadline) :
    (row.within deadline).length =
      p.buffer.length + (Timed.within deadline (arrivals p.ready p.script)).length := by
  obtain ⟨early, hrow, hbuffer, hearly⟩ := h.told
  rw [hrow, Timed.within_append fun b hb => Nat.le_trans (hearly b hb) hnow, List.length_append,
    ← hbuffer, Timed.length_bytes]

/-- Nothing comes before the next step of the script. -/
theorem within_arrivals_of_lt (hlate : p.script = [] ∨ deadline < p.ready) :
    Timed.within deadline (arrivals p.ready p.script) = [] := by
  rcases hlate with hnil | hlt
  · rw [hnil]
    rfl
  · exact Timed.within_of_lt fun b hb => Nat.lt_of_lt_of_le hlt (le_of_mem_arrivals hb)

theorem OnTime.await_of_lt (h : OnTime row now p) (hlt : p.buffer.length < wanted)
    (hlate : p.script = [] ∨ deadline < p.ready) :
    p.await deadline (limit + 1) wanted now = .late := by
  have hclosed : ¬ (p.closed = true ∧ p.unsent.isEmpty = true) := by simp [h.isOpen]
  simp only [await, take_of_lt hlt, if_neg (Nat.ne_of_lt hlt), if_neg hclosed]
  by_cases hover : deadline ≤ now
  · rw [if_pos hover]
  rw [if_neg hover]
  rcases hlate with hnil | hlt
  · simp only [next?, h.flowing, hnil, List.isEmpty_nil, Bool.not_true, Bool.false_eq_true,
      if_false, if_true]
  · cases hscript : p.script.isEmpty with
    | true =>
      simp only [next?, h.flowing, hscript, List.isEmpty_nil, Bool.not_true, Bool.false_eq_true,
        if_false, if_true]
    | false =>
      have hnext : deadline < max p.ready now := Nat.lt_of_lt_of_le hlt (Nat.le_max_left ..)
      simp only [next?, h.flowing, hscript, List.isEmpty_nil, Bool.not_true, Bool.false_eq_true,
        if_false, if_pos hnext]

/-- One round of waiting: the session takes what is there, and the peer runs its next step. -/
theorem OnTime.round (limit : Nat) (h : OnTime row now p) (hlt : p.buffer.length < wanted)
    (hscript : p.script ≠ []) (hready : p.ready ≤ deadline) :
    ∃ p', p.await deadline (limit + 1) wanted now =
        (await deadline limit (wanted - p.buffer.length) p.ready p').after p.buffer ∧
      now < p.ready ∧ OnTime (row.drop p.buffer.length) p.ready p' ∧
      p'.script.length < p.script.length := by
  have hnow : now < p.ready := h.played.resolve_left hscript
  have htaken := (h.taken (Nat.le_refl p.buffer.length)).2.2
  rw [List.drop_length] at htaken
  obtain ⟨hontime, -, hless⟩ := htaken.toAhead.advance (Nat.le_of_lt hnow)
  have hnext : next? now { p with buffer := [] } = some p.ready := by
    rw [next?, if_neg (by simp [h.flowing]), if_neg (by simpa using hscript)]
    exact congrArg some (Nat.max_eq_left (Nat.le_of_lt hnow))
  exact ⟨_, await_of_next hlt h.isOpen (Nat.lt_of_lt_of_le hnow hready) hnext hready, hnow, hontime,
    hless hscript (Nat.le_refl _)⟩

/-- Bytes that are there by the deadline are given out at the instant of the last. -/
theorem OnTime.await_of_within (h : OnTime row now p) (hlimit : p.script.length < limit)
    (hnow : now ≤ deadline) (hw : wanted ≤ (row.within deadline).length) :
    ∃ p', p.await deadline limit wanted now =
        .complete (Timed.bytes (row.take wanted)) (Timed.instant now (row.take wanted)) p' ∧
      OnTime (row.drop wanted) (Timed.instant now (row.take wanted)) p' := by
  induction limit generalizing p row now wanted with
  | zero => exact absurd hlimit (Nat.not_lt_zero _)
  | succ limit ih =>
    by_cases hle : wanted ≤ p.buffer.length
    · obtain ⟨hbytes, hinstant, hontime⟩ := h.taken hle
      rw [hbytes, hinstant]
      exact ⟨_, await_of_le hle, hontime⟩
    have hlength := h.length_within hnow
    have hcoming : ¬ (p.script = [] ∨ deadline < p.ready) := by
      intro hlate
      rw [within_arrivals_of_lt hlate, List.length_nil] at hlength
      omega
    obtain ⟨hscript, hready⟩ := not_or.mp hcoming
    have hready : p.ready ≤ deadline := Nat.not_lt.mp hready
    obtain ⟨p₁, hround, hbefore, hontime, hless⟩ :=
      h.round limit (Nat.not_le.mp hle) hscript hready
    obtain ⟨hbytes, hinstant, -⟩ := h.taken (Nat.le_refl p.buffer.length)
    rw [h.drop_buffer] at hontime
    obtain ⟨k, rfl⟩ : ∃ k, wanted = p.buffer.length + k := ⟨wanted - p.buffer.length, by omega⟩
    have hcount : k ≤ (Timed.within deadline (arrivals p.ready p.script)).length := by omega
    obtain ⟨p₂, hawait, hontime⟩ := ih hontime (by omega) hready hcount
    -- the wait begins anew when the peer goes on, but no byte is there before
    have hsame : Timed.instant now (row.take (p.buffer.length + k)) =
        Timed.instant p.ready ((arrivals p.ready p.script).take k) := by
      rw [List.take_add, Timed.instant_append, hinstant, h.drop_buffer]
      have hall := Timed.length_within_le deadline (arrivals p.ready p.script)
      have hne : (arrivals p.ready p.script).take k ≠ [] := by
        rw [← List.length_pos_iff, List.length_take]
        omega
      exact Timed.instant_of_ge hne (Nat.le_of_lt hbefore)
        fun b hb => le_of_mem_arrivals (List.mem_of_mem_take hb)
    refine ⟨p₂, ?_, ?_⟩
    · rw [hround, Nat.add_sub_cancel_left, hawait, Arrival.after, hsame, List.take_add,
        Timed.bytes_append, hbytes, List.take_length, h.drop_buffer]
    · rwa [hsame, ← List.drop_drop, h.drop_buffer]

/-- Otherwise the wait is in vain, however many there are. -/
theorem OnTime.await_late (h : OnTime row now p) (hlimit : p.script.length < limit)
    (hnow : now ≤ deadline) (hw : (row.within deadline).length < wanted) :
    p.await deadline limit wanted now = .late := by
  induction limit generalizing p row now wanted with
  | zero => exact absurd hlimit (Nat.not_lt_zero _)
  | succ limit ih =>
    have hlength := h.length_within hnow
    have hlt : p.buffer.length < wanted := by omega
    by_cases hlate : p.script = [] ∨ deadline < p.ready
    · exact h.await_of_lt hlt hlate
    obtain ⟨hscript, hready⟩ := not_or.mp hlate
    have hready : p.ready ≤ deadline := Nat.not_lt.mp hready
    obtain ⟨p', hround, -, hontime, hless⟩ := h.round limit hlt hscript hready
    rw [h.drop_buffer] at hontime
    rw [hround, ih hontime (by omega) hready (by omega)]
    rfl

/-- A session that waits for what is there by the deadline gets it, not later than the deadline,
and can go on to wait for the rest of it. -/
theorem OnTime.await_front (h : OnTime row now p) (hlimit : p.script.length < limit)
    (hnow : now ≤ deadline) {front rest : Bytes}
    (hwithin : (row.within deadline).bytes = front ++ rest) :
    ∃ p', p.await deadline limit front.length now =
        .complete front (Timed.instant now (row.take front.length)) p' ∧
      OnTime (row.drop front.length) (Timed.instant now (row.take front.length)) p' ∧
      Timed.instant now (row.take front.length) ≤ deadline ∧
      (Timed.within deadline (row.drop front.length)).bytes = rest := by
  have hlen : front.length ≤ (row.within deadline).length := by
    rw [← Timed.length_bytes, hwithin, List.length_append]
    omega
  have hfront : Timed.bytes (row.take front.length) = front := by
    rw [← Timed.take_within hlen, Timed.bytes_take, hwithin, List.take_left]
  obtain ⟨p', hawait, hontime⟩ := h.await_of_within hlimit hnow hlen
  rw [hfront] at hawait
  refine ⟨p', hawait, hontime, ?_, ?_⟩
  · rw [← Timed.take_within hlen]
    exact Timed.instant_le hnow fun b hb => Timed.le_of_mem_within (List.mem_of_mem_take hb)
  · rw [← Timed.drop_within hlen, Timed.bytes_drop, hwithin, List.drop_left]

end Peer

end RemoteDesk
