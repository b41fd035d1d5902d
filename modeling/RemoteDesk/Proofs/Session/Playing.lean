import RemoteDesk.Proofs.Session.Script

/-!
What a peer does with a script. However the script cuts what it sends, and whatever room there is,
the bytes come in their order. While a session waits, no more time passes than the script pauses,
because the peer never stands still for anything else then.
-/
namespace RemoteDesk.Peer

open Script

/-- A peer has played a part of a script, and a session has read some bytes of that part. The last
two fields bound when the next step runs, by any byte that is there, and what a byte that is not
there has waited for. -/
structure Follows (script done : List PeerStep) (read : Bytes) (now : Nat) (p : Peer) : Prop where
  split : script = done ++ p.script
  sent : Script.sent done = read ++ (p.buffer ++ p.unsent)
  stage : (p.closed = true ∧ p.script = [] ∧ p.unsent = []) ∨
    (p.closed = false ∧ Closing p.script)
  room : p.capacity? ≠ some 0
  timely : ∀ n ≤ (Script.sent done).length,
    p.ready + pausedBefore n script ≤ now + Script.paused done
  held : ∀ n, read.length + p.buffer.length < n → Script.paused done ≤ pausedBefore n script

/-- Since a session began to wait for the bytes behind some, no more time has passed than the
script has paused, and the next step does not take longer. -/
def Within (script done : List PeerStep) (p : Peer) (now first start : Nat) : Prop :=
  max p.ready now + pausedBefore first script ≤ start + Script.paused done

variable {script done : List PeerStep} {read : Bytes} {now : Nat} {p : Peer}

theorem Follows.sent_script (h : Follows script done read now p) :
    Script.sent script = read ++ (p.buffer ++ (p.unsent ++ Script.sent p.script)) := by
  rw [h.split, sent_append, h.sent]
  simp only [List.append_assoc]

/-- Time passes. -/
theorem Follows.later (h : Follows script done read now p) {next : Nat} (hn : now ≤ next) :
    Follows script done read next p :=
  { h with timely := fun n hle => Nat.le_trans (h.timely n hle) (Nat.add_le_add_right hn _) }

/-- A session begins to wait. -/
theorem Follows.within (h : Follows script done read now p) :
    Within script done p now read.length now := by
  have hle : read.length ≤ (Script.sent done).length := by
    rw [h.sent, List.length_append]
    omega
  have ht := h.timely _ hle
  have hp : pausedBefore read.length script ≤ Script.paused done := by
    rw [h.split]
    exact pausedBefore_append_le _ hle
  unfold Within
  omega

/-- Bytes that are there can be read. -/
theorem Follows.taken (h : Follows script done read now p) (count : Nat)
    (hc : count ≤ p.buffer.length) :
    Follows script done (read ++ p.buffer.take count) now
      { p with buffer := p.buffer.drop count } where
  split := h.split
  sent := by
    rw [h.sent, List.append_assoc, ← List.append_assoc (p.buffer.take count),
      List.take_append_drop]
  stage := h.stage
  room := h.room
  timely := h.timely
  held := by
    intro n hn
    apply h.held
    simp only [List.length_append, List.length_take, List.length_drop] at hn
    omega

/-! ### What the peer does -/

/-- The peer sends a part of some bytes, and more than none if there is room. -/
theorem push_eq (bytes : Bytes) (p : Peer) :
    ∃ there left, bytes = there ++ left ∧
      p.push bytes = { p with buffer := p.buffer ++ there, unsent := left } ∧
      (p.capacity? ≠ some 0 → p.buffer = [] → bytes ≠ [] → left.length < bytes.length) := by
  unfold push
  cases hc : p.capacity? with
  | none =>
    refine ⟨bytes, [], (List.append_nil _).symm, rfl, ?_⟩
    intro _ _ hne
    exact List.length_pos_iff.mpr hne
  | some capacity =>
    refine ⟨bytes.take (capacity - p.buffer.length), bytes.drop (capacity - p.buffer.length),
      (List.take_append_drop ..).symm, rfl, ?_⟩
    intro hroom hbuffer hne
    have hpos : 0 < capacity := by
      rcases Nat.eq_zero_or_pos capacity with rfl | hpos
      · exact absurd rfl hroom
      · exact hpos
    have hlen := List.length_pos_iff.mpr hne
    rw [hbuffer, List.length_drop, List.length_nil]
    omega

/-- The bound on how often the peer acts counts the bytes and the steps to come. -/
theorem size_eq (p : Peer) :
    p.size = p.unsent.length + (Script.sent p.script).length + p.script.length := by
  unfold size
  generalize p.unsent.length = n, p.script = script
  induction script generalizing n with
  | nil => rfl
  | cons step script ih =>
    rw [List.foldl_cons, ih, sent_cons, List.length_append, List.length_cons]
    cases step <;> simp only [PeerStep.sent, List.length_nil] <;> omega

section Steps

variable {steps : List PeerStep}

/-- The peer pauses. -/
theorem Follows.pausing {nanos : Nat}
    (h : Follows script done read now { p with script := .pause nanos :: steps })
    (hu : p.unsent = []) :
    Follows script (done ++ [.pause nanos]) read now
      { p with script := steps, ready := p.ready + nanos } where
  split := by
    rw [h.split, List.append_assoc]
    rfl
  sent := by
    rw [sent_append, h.sent]
    exact List.append_nil _
  stage := by
    rcases h.stage with ⟨-, hnil, -⟩ | ⟨hopen, hclosing⟩
    · contradiction
    · cases hclosing with
      | pause _ hclosing => exact .inr ⟨hopen, hclosing⟩
  room := h.room
  timely := by
    intro n hn
    rw [sent_append, List.length_append] at hn
    have ht := h.timely n hn
    rw [paused_append]
    simp only [paused_cons, paused_nil, PeerStep.paused] at ht ⊢
    omega
  held := by
    intro n hn
    have hlen := congrArg List.length h.sent
    simp only [List.length_append, hu, List.length_nil] at hlen
    rw [h.split]
    show _ ≤ pausedBefore n (done ++ ([.pause nanos] ++ steps))
    rw [← List.append_assoc]
    apply paused_le_pausedBefore
    rw [sent_append, List.length_append]
    show (Script.sent done).length + 0 < n
    have hn : read.length + p.buffer.length < n := hn
    omega

/-- The peer sends what there is room for. -/
theorem Follows.sending {bytes there left : Bytes}
    (h : Follows script done read now { p with script := .send bytes :: steps })
    (hu : p.unsent = []) (hready : p.ready ≤ now) (hbytes : bytes = there ++ left) :
    Follows script (done ++ [.send bytes]) read now
      { p with script := steps, buffer := p.buffer ++ there, unsent := left } where
  split := by
    rw [h.split, List.append_assoc]
    rfl
  sent := by
    rw [sent_append, h.sent, hbytes]
    simp [hu, PeerStep.sent]
  stage := by
    rcases h.stage with ⟨-, hnil, -⟩ | ⟨hopen, hclosing⟩
    · contradiction
    · cases hclosing with
      | send _ hclosing => exact .inr ⟨hopen, hclosing⟩
  room := h.room
  timely := by
    intro n hn
    have hle : pausedBefore n script ≤ Script.paused (done ++ [.send bytes]) := by
      rw [h.split]
      show pausedBefore n (done ++ ([.send bytes] ++ steps)) ≤ _
      rw [← List.append_assoc]
      exact pausedBefore_append_le _ hn
    exact Nat.add_le_add hready hle
  held := by
    intro n hn
    have hlen := congrArg List.length h.sent
    simp only [List.length_append, hu, List.length_nil] at hlen hn
    rw [paused_append, h.split]
    apply paused_le_pausedBefore
    omega

/-- The peer closes. -/
theorem Follows.ending (h : Follows script done read now { p with script := .close :: steps })
    (hu : p.unsent = []) :
    steps = [] ∧
      Follows script (done ++ [.close]) read now { p with script := [], closed := true } := by
  have hsteps : steps = [] := by
    rcases h.stage with ⟨-, hnil, -⟩ | ⟨-, hclosing⟩
    · contradiction
    · cases hclosing
      rfl
  subst hsteps
  refine ⟨rfl, h.split.trans (List.append_nil _).symm, ?_, .inl ⟨rfl, rfl, hu⟩, h.room, ?_, ?_⟩
  · rw [sent_append, h.sent]
    exact List.append_nil _
  · intro n hn
    rw [sent_append, List.length_append] at hn
    rw [paused_append]
    exact h.timely n hn
  · intro n hn
    rw [paused_append]
    exact h.held n hn

/-- The peer goes on at once when it has been held up. -/
theorem Follows.resume (h : Follows script done read now p) :
    Follows script done read now { p with ready := max p.ready now } :=
  { h with
    timely := by
      intro n hn
      have ht := h.timely n hn
      have hp : pausedBefore n script ≤ Script.paused done := by
        rw [h.split]
        exact pausedBefore_append_le _ hn
      dsimp only
      omega }

/-- What is played keeps to the script and to the time, and a step that can run does. -/
theorem play_follows {first start : Nat}
    (h : Follows script done read now { p with script := steps })
    (hw : Within script done p now first start) (hu : p.unsent = []) :
    ∃ done', Follows script done' read now (play now steps p) ∧
      Within script done' (play now steps p) now first start ∧
      (play now steps p).size ≤ { p with script := steps }.size ∧
      (steps ≠ [] → p.ready ≤ now → (play now steps p).size < { p with script := steps }.size) := by
  induction steps generalizing p done with
  | nil => exact ⟨done, h, hw, Nat.le_refl _, fun hne => absurd rfl hne⟩
  | cons step steps ih =>
    unfold play
    by_cases hready : now < p.ready
    · rw [if_pos hready]
      exact ⟨done, h, hw, Nat.le_refl _, fun _ hle => absurd hready (Nat.not_lt.mpr hle)⟩
    rw [if_neg hready]
    have hready : p.ready ≤ now := Nat.not_lt.mp hready
    cases step with
    | pause nanos =>
      have hnext := h.pausing hu
      have hw' : Within script (done ++ [.pause nanos]) { p with ready := p.ready + nanos } now
          first start := by
        unfold Within at hw ⊢
        rw [paused_append]
        simp only [paused_cons, paused_nil, PeerStep.paused]
        omega
      obtain ⟨done', hf, hw', hsize, -⟩ :=
        ih (p := { p with ready := p.ready + nanos }) hnext hw' hu
      have hlt : { p with script := steps, ready := p.ready + nanos }.size <
          { p with script := PeerStep.pause nanos :: steps }.size := by
        simp only [size_eq, sent_cons, List.length_append, List.length_cons, PeerStep.sent,
          List.length_nil]
        omega
      exact ⟨done', hf, hw', Nat.le_of_lt (Nat.lt_of_le_of_lt hsize hlt),
        fun _ _ => Nat.lt_of_le_of_lt hsize hlt⟩
    | close =>
      obtain ⟨rfl, hnext⟩ := h.ending hu
      have hlt : { p with script := [], closed := true }.size <
          { p with script := [PeerStep.close] }.size := by
        simp only [size_eq, sent_cons, List.length_append, List.length_cons, PeerStep.sent,
          List.length_nil]
        omega
      refine ⟨done ++ [.close], hnext, ?_, Nat.le_of_lt hlt, fun _ _ => hlt⟩
      unfold Within at hw ⊢
      rw [paused_append]
      exact hw
    | send bytes =>
      obtain ⟨there, left, hbytes, hpush, -⟩ := push_eq bytes p
      have hopen : p.closed = false := by
        rcases h.stage with ⟨-, hnil, -⟩ | ⟨hopen, -⟩
        · contradiction
        · exact hopen
      have hnext := h.sending hu hready hbytes
      have hw' : Within script (done ++ [.send bytes])
          { p with buffer := p.buffer ++ there, unsent := left } now first start := by
        unfold Within at hw ⊢
        rw [paused_append]
        exact hw
      have hlt : { p with script := steps, buffer := p.buffer ++ there, unsent := left }.size <
          { p with script := PeerStep.send bytes :: steps }.size := by
        have hlen := congrArg List.length hbytes
        simp only [size_eq, sent_cons, List.length_append, List.length_cons, PeerStep.sent, hu,
          List.length_nil] at hlen ⊢
        omega
      have hp : (if p.closed = true then p else p.push bytes) =
          { p with buffer := p.buffer ++ there, unsent := left } :=
        (if_neg (by simp [hopen])).trans hpush
      simp only [hp]
      by_cases hleft : left = []
      · subst hleft
        rw [if_pos List.isEmpty_nil]
        obtain ⟨done', hf, hw', hsize, -⟩ :=
          ih (p := { p with buffer := p.buffer ++ there, unsent := [] }) hnext hw' rfl
        exact ⟨done', hf, hw', Nat.le_of_lt (Nat.lt_of_le_of_lt hsize hlt),
          fun _ _ => Nat.lt_of_le_of_lt hsize hlt⟩
      · rw [if_neg (by simpa using hleft)]
        exact ⟨done ++ [.send bytes], hnext, hw', Nat.le_of_lt hlt, fun _ _ => hlt⟩

/-- Whatever the peer does up to an instant, it keeps to the script and to the time. It does
something if a step can run, or if there is room for what it holds back. -/
theorem advance_follows {first start : Nat} (h : Follows script done read now p)
    (hw : Within script done p now first start) :
    ∃ done', Follows script done' read now (p.advance now) ∧
      Within script done' (p.advance now) now first start ∧ (p.advance now).size ≤ p.size ∧
      (p.buffer = [] → p.closed = false → (p.unsent = [] → p.ready ≤ now) →
        (p.advance now).size < p.size) := by
  unfold advance
  by_cases hu : p.unsent = []
  · rw [if_pos (by simp [hu])]
    obtain ⟨done', hf, hw', hsize, hlt⟩ := play_follows (p := p) h hw hu
    refine ⟨done', hf, hw', hsize, fun _ hopen hready => hlt ?_ (hready hu)⟩
    rcases h.stage with ⟨hclosed, -⟩ | ⟨-, hclosing⟩
    · rw [hopen] at hclosed
      contradiction
    · exact hclosing.ne_nil
  · rw [if_neg (by simpa using hu)]
    obtain ⟨there, left, hbytes, hpush, hless⟩ := push_eq p.unsent p
    have hf : Follows script done read now
        { p with buffer := p.buffer ++ there, unsent := left } := by
      refine ⟨h.split, ?_, ?_, h.room, h.timely, ?_⟩
      · rw [h.sent, hbytes, List.append_assoc]
      · rcases h.stage with ⟨-, -, hnil⟩ | hopen
        · exact absurd hnil hu
        · exact .inr hopen
      · intro n hn
        apply h.held
        simp only [List.length_append] at hn
        omega
    have hsize : { p with buffer := p.buffer ++ there, unsent := left }.size ≤ p.size := by
      have hlen := congrArg List.length hbytes
      simp only [size_eq, List.length_append] at hlen ⊢
      omega
    have hlt : p.buffer = [] →
        { p with buffer := p.buffer ++ there, unsent := left }.size < p.size := by
      intro hbuffer
      have hlen := hless h.room hbuffer hu
      simp only [size_eq]
      omega
    simp only [hpush]
    by_cases hleft : left = []
    · subst hleft
      rw [if_pos List.isEmpty_nil]
      have hw : Within script done
          { p with buffer := p.buffer ++ there, unsent := [], ready := max p.ready now } now first
          start := by
        unfold Within at hw ⊢
        dsimp only
        omega
      obtain ⟨done', hf', hw', hsize', -⟩ := play_follows hf.resume hw rfl
      exact ⟨done', hf', hw', Nat.le_trans hsize' hsize,
        fun hbuffer _ _ => Nat.lt_of_le_of_lt hsize' (hlt hbuffer)⟩
    · rw [if_neg (by simpa using hleft)]
      exact ⟨done, hf, hw, hsize, fun hbuffer _ _ => hlt hbuffer⟩

end Steps

end RemoteDesk.Peer
