import RemoteDesk.Proofs.Session.Playing

/-!
Waiting for bytes. A session that waits gets what it waits for, or the rest if the peer closes
before, provided that the script does not pause up to the deadline. Each round of waiting takes all
that is there and lets the peer act once more.
-/
namespace RemoteDesk.Peer

open Script

/-- What arrives behind bytes that are there. -/
def Arrival.after (got : Bytes) : Arrival → Arrival
  | .complete more now p => .complete (got ++ more) now p
  | .ended more now => .ended (got ++ more) now
  | .late => .late

variable {script done : List PeerStep} {read : Bytes} {now first start deadline limit wanted : Nat}
  {p : Peer}

theorem await_of_le (h : wanted ≤ p.buffer.length) :
    p.await deadline (limit + 1) wanted now =
      .complete (p.buffer.take wanted) now { p with buffer := p.buffer.drop wanted } := by
  have hlen : (p.buffer.take wanted).length = wanted := by
    rw [List.length_take]
    omega
  simp only [await, take, hlen, if_true]

theorem take_of_lt (h : p.buffer.length < wanted) :
    p.take wanted = (p.buffer, { p with buffer := [] }) := by
  rw [take, List.take_of_length_le (Nat.le_of_lt h), List.drop_of_length_le (Nat.le_of_lt h)]

theorem await_of_closed (h : p.buffer.length < wanted) (hclosed : p.closed = true)
    (hu : p.unsent = []) : p.await deadline (limit + 1) wanted now = .ended p.buffer now := by
  simp only [await, take_of_lt h, if_neg (Nat.ne_of_lt h), hclosed, hu, List.isEmpty_nil,
    and_self, if_true]

theorem await_of_next {next : Nat} (h : p.buffer.length < wanted) (hopen : p.closed = false)
    (hnow : now < deadline) (hnext : next? now { p with buffer := [] } = some next)
    (hle : next ≤ deadline) :
    p.await deadline (limit + 1) wanted now =
      (await deadline limit (wanted - p.buffer.length) next
        (advance next { p with buffer := [] })).after p.buffer := by
  have hclosed : ¬ (p.closed = true ∧ p.unsent.isEmpty = true) := by simp [hopen]
  simp only [await, take_of_lt h, if_neg (Nat.ne_of_lt h), if_neg hclosed,
    if_neg (Nat.not_le.mpr hnow), hnext, if_neg (Nat.not_lt.mpr hle)]
  cases await deadline limit (wanted - p.buffer.length) next
    (advance next { p with buffer := [] }) <;> rfl

/-- The peer that has not closed acts again, at once or when its next step can run. -/
theorem Follows.next?_eq (h : Follows script done read now p) (hopen : p.closed = false) :
    ∃ next, next? now { p with buffer := [] } = some next ∧ now ≤ next ∧ next ≤ max p.ready now ∧
      (p.unsent = [] → p.ready ≤ next) := by
  unfold next?
  by_cases hu : p.unsent = []
  · have hscript : p.script ≠ [] := by
      rcases h.stage with ⟨hclosed, -⟩ | ⟨-, hclosing⟩
      · rw [hopen] at hclosed
        contradiction
      · exact hclosing.ne_nil
    refine ⟨max p.ready now, ?_, Nat.le_max_right .., Nat.le_refl _, fun _ => Nat.le_max_left ..⟩
    simp [hu, hscript]
  · have hroom : p.capacity?.all (([] : Bytes).length < ·) = true := by
      cases hc : p.capacity? with
      | none => rfl
      | some capacity =>
        have hne : capacity ≠ 0 := fun h0 => h.room (by rw [hc, h0])
        simpa using Nat.pos_of_ne_zero hne
    refine ⟨now, ?_, Nat.le_refl _, Nat.le_max_right .., fun h => absurd h hu⟩
    simp [hu] at hroom ⊢
    exact hroom

/-- One round of waiting for bytes that come before the deadline. -/
theorem Follows.round (h : Follows script done read now p)
    (hw : Within script done p now first start) (hopen : p.closed = false)
    (hlt : p.buffer.length < wanted)
    (hdue : start + pausedBefore (read.length + wanted) script <
      pausedBefore first script + deadline) :
    ∃ next p' done', p.await deadline (limit + 1) wanted now =
        (await deadline limit (wanted - p.buffer.length) next p').after p.buffer ∧
      now ≤ next ∧ Follows script done' (read ++ p.buffer) next p' ∧
      Within script done' p' next first start ∧ p'.size < p.size := by
  obtain ⟨next, hnext, hnow, hmax, hready⟩ := h.next?_eq hopen
  have hheld := h.held (read.length + wanted) (by omega)
  have hbefore : max p.ready now < deadline := by
    unfold Within at hw
    omega
  have htaken := (h.taken p.buffer.length (Nat.le_refl _)).later hnow
  rw [List.take_length, List.drop_length] at htaken
  have hw' : Within script done { p with buffer := [] } next first start := by
    unfold Within at hw ⊢
    dsimp only
    omega
  obtain ⟨done', hf, hwithin, -, hsize⟩ := advance_follows htaken hw'
  refine ⟨next, advance next { p with buffer := [] }, done',
    await_of_next hlt hopen (by omega) hnext (by omega), hnow, hf, hwithin, ?_⟩
  have hlt := hsize rfl hopen hready
  rw [size_eq p]
  rw [size_eq { p with buffer := [] }] at hlt
  exact hlt

/-- Bytes that the peer sends before the deadline are all there in the end, and come before what
it sends after them. -/
theorem Follows.complete {got rest : Bytes} (h : Follows script done read now p)
    (hw : Within script done p now first start) (hsize : p.size < limit)
    (hsent : Script.sent script = read ++ (got ++ rest))
    (hdue : start + pausedBefore (read.length + got.length) script <
      pausedBefore first script + deadline) :
    ∃ now' p' done', p.await deadline limit got.length now = .complete got now' p' ∧
      now ≤ now' ∧ Follows script done' (read ++ got) now' p' ∧
      Within script done' p' now' first start := by
  induction limit generalizing p done read now got with
  | zero => exact absurd hsize (Nat.not_lt_zero _)
  | succ limit ih =>
    have hbuffer : p.buffer ++ (p.unsent ++ Script.sent p.script) = got ++ rest :=
      List.append_cancel_left (h.sent_script.symm.trans hsent)
    by_cases hle : got.length ≤ p.buffer.length
    · have hgot : p.buffer.take got.length = got := by
        have htake := congrArg (List.take got.length) hbuffer
        rwa [List.take_append_of_le_length hle, List.take_left' rfl] at htake
      have htaken := h.taken got.length hle
      rw [hgot] at htaken
      refine ⟨now, { p with buffer := p.buffer.drop got.length }, done, ?_, Nat.le_refl _, htaken,
        hw⟩
      rw [await_of_le hle, hgot]
    · have hlt : p.buffer.length < got.length := Nat.not_le.mp hle
      rcases h.stage with ⟨-, hscript, hu⟩ | ⟨hopen, -⟩
      · have hlen := congrArg List.length hbuffer
        simp only [hscript, hu, sent_nil, List.append_nil, List.length_append] at hlen
        omega
      · obtain ⟨next, p', done', hround, hnext, hf, hwithin, hless⟩ := h.round hw hopen hlt hdue
        obtain ⟨more, rfl⟩ : ∃ more, got = p.buffer ++ more := by
          have hprefix := List.prefix_of_prefix_length_le (List.prefix_append p.buffer _)
            (hbuffer ▸ List.prefix_append got rest) (Nat.le_of_lt hlt)
          obtain ⟨more, hmore⟩ := hprefix
          exact ⟨more, hmore.symm⟩
        have hlen : (p.buffer ++ more).length - p.buffer.length = more.length := by
          rw [List.length_append]
          omega
        have hsent' : Script.sent script = (read ++ p.buffer) ++ (more ++ rest) := by
          rw [hsent]
          simp only [List.append_assoc]
        have hdue' : start + pausedBefore ((read ++ p.buffer).length + more.length) script <
            pausedBefore first script + deadline := by
          rw [List.length_append] at hdue ⊢
          rwa [Nat.add_assoc]
        obtain ⟨now', p'', done'', hawait, hnow, hf', hwithin'⟩ :=
          ih hf hwithin (by omega) hsent' hdue'
        refine ⟨now', p'', done'', ?_, Nat.le_trans hnext hnow, ?_, hwithin'⟩
        · rw [hround, hlen, hawait]
          rfl
        · rwa [List.append_assoc] at hf'

/-- If the peer closes before it has sent as many bytes, the rest is what there is. -/
theorem Follows.ended {rest : Bytes} (h : Follows script done read now p)
    (hw : Within script done p now first start) (hsize : p.size < limit)
    (hsent : Script.sent script = read ++ rest) (hlt : rest.length < wanted)
    (hdue : start + pausedBefore (read.length + wanted) script <
      pausedBefore first script + deadline) :
    ∃ now', p.await deadline limit wanted now = .ended rest now' := by
  induction limit generalizing p done read now rest wanted with
  | zero => exact absurd hsize (Nat.not_lt_zero _)
  | succ limit ih =>
    have hbuffer : p.buffer ++ (p.unsent ++ Script.sent p.script) = rest :=
      List.append_cancel_left (h.sent_script.symm.trans hsent)
    have hshort : p.buffer.length < wanted := by
      have hlen := congrArg List.length hbuffer
      rw [List.length_append] at hlen
      omega
    rcases h.stage with ⟨hclosed, hscript, hu⟩ | ⟨hopen, -⟩
    · rw [hscript, hu, sent_nil, List.append_nil, List.append_nil] at hbuffer
      exact ⟨now, by rw [await_of_closed hshort hclosed hu, hbuffer]⟩
    · obtain ⟨next, p', done', hround, -, hf, hwithin, hless⟩ := h.round hw hopen hshort hdue
      have hlen := congrArg List.length hbuffer
      rw [List.length_append] at hlen
      have hsent' : Script.sent script =
          (read ++ p.buffer) ++ (p.unsent ++ Script.sent p.script) := by
        rw [hsent, ← hbuffer]
        simp only [List.append_assoc]
      have hlt' : (p.unsent ++ Script.sent p.script).length < wanted - p.buffer.length := by omega
      have hdue' : start +
          pausedBefore ((read ++ p.buffer).length + (wanted - p.buffer.length)) script <
            pausedBefore first script + deadline := by
        rw [List.length_append, Nat.add_assoc, Nat.add_sub_of_le (Nat.le_of_lt hshort)]
        exact hdue
      obtain ⟨now', hawait⟩ := ih hf hwithin (by omega) hsent' hlt' hdue'
      refine ⟨now', ?_⟩
      rw [hround, hawait, ← hbuffer]
      rfl

end RemoteDesk.Peer
