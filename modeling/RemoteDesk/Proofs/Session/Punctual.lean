import RemoteDesk.Proofs.Session.Timed
import RemoteDesk.Proofs.Session.Transcript

/-!
The idle timeout. It begins anew when a response has been written, and the whole next frame has to
be there before it is over: a session is told by the instants at which bytes arrive and by one
deadline for each frame, however the bytes are spread over the time between. Behind a deadline that
has passed, nothing counts.
-/
namespace RemoteDesk.Session

open Script Peer

/-! ### Waiting for one frame -/

/-- A frame among bytes takes that many of them. -/
theorem length_le_of_split {row : Timed} {deadline limit : Nat} {payload rest : Bytes}
    (h : Frame.split (row.within deadline).bytes limit = .ok (payload, rest)) :
    headLength + payload.length ≤ (row.within deadline).length := by
  have hlen := congrArg List.length (Frame.split_eq_ok h).1
  rw [Timed.length_bytes, List.length_append, Frame.length_around] at hlen
  omega

/-- So fewer are left behind it. -/
theorem length_behind_lt {row : Timed} {deadline limit : Nat} {payload rest : Bytes}
    (h : Frame.split (row.within deadline).bytes limit = .ok (payload, rest)) :
    (row.drop (headLength + payload.length)).length < row.length := by
  have hsize := length_le_of_split h
  have hwithin := Timed.length_within_le deadline row
  rw [headLength] at hsize
  rw [List.length_drop, headLength]
  omega

section Await

variable {row : Timed} {now limit deadline : Nat} {p : Peer}

theorem length_script_lt (p : Peer) : p.script.length < p.size + 1 := by
  rw [size_eq]
  omega

/-- Without its last byte a frame is not read, however many bytes of it are there. -/
theorem awaitFrame_late (h : OnTime row now p) (hnow : now ≤ deadline) {part : FrameSection}
    {expected received : Nat}
    (hsplit : Frame.split (row.within deadline).bytes limit =
      .error (.truncated part expected received)) :
    awaitFrame limit deadline now p = .nothing .idleTimeout deadline := by
  rcases Frame.split_cases (row.within deadline).bytes limit with
    ⟨hshort, -⟩ | ⟨head, body, hwithin, hlen, hcases⟩
  · rw [Timed.length_bytes] at hshort
    simp only [awaitFrame, h.await_late (length_script_lt p) hnow hshort]
  obtain ⟨p₁, hhead, hontime, hnow₁, hbody⟩ := h.await_front (length_script_lt p) hnow hwithin
  rw [hlen] at hhead hontime hnow₁ hbody
  rcases hcases with ⟨-, he⟩ | ⟨hle, hpart, -⟩ | ⟨-, payload, rest, -, -, hok⟩
  · rw [he] at hsplit
    cases hsplit
  · have hlt : (Timed.within deadline (row.drop headLength)).length < ofLittleEndian head := by
      rwa [← Timed.length_bytes, hbody]
    simp only [awaitFrame, hhead, Frame.declaredLength, if_neg (Nat.not_lt.mpr hle),
      hontime.await_late (length_script_lt p₁) hnow₁ hlt]
  · rw [hok] at hsplit
    cases hsplit

/-- A head that declares too much ends the session when it is there. -/
theorem awaitFrame_oversized (h : OnTime row now p) (hnow : now ≤ deadline) {declared most : Nat}
    (hsplit : Frame.split (row.within deadline).bytes limit = .error (.oversized declared most)) :
    awaitFrame limit deadline now p =
      .nothing (.broken (.framing (.oversized declared most)))
        (Timed.instant now (row.take headLength)) := by
  rcases Frame.split_cases (row.within deadline).bytes limit with
    ⟨-, he⟩ | ⟨head, body, hwithin, hlen, hcases⟩
  · rw [he] at hsplit
    cases hsplit
  obtain ⟨p₁, hhead, -⟩ := h.await_front (length_script_lt p) hnow hwithin
  rw [hlen] at hhead
  rcases hcases with ⟨hover, he⟩ | ⟨-, -, he⟩ | ⟨-, payload, rest, -, -, he⟩
  · rw [he] at hsplit
    obtain ⟨rfl, rfl⟩ := FramingError.oversized.inj (Except.error.inj hsplit)
    simp only [awaitFrame, hhead, Frame.declaredLength, if_pos hover]
  · rw [he] at hsplit
    cases hsplit
  · rw [he] at hsplit
    cases hsplit

/-- A frame that is there by the deadline is read at the instant of its last byte, or at once. -/
theorem awaitFrame_whole (h : OnTime row now p) (hnow : now ≤ deadline) {payload rest : Bytes}
    (hsplit : Frame.split (row.within deadline).bytes limit = .ok (payload, rest)) :
    ∃ p', awaitFrame limit deadline now p =
        .payload payload (Timed.instant now (row.take (headLength + payload.length))) p' ∧
      OnTime (row.drop (headLength + payload.length))
        (Timed.instant now (row.take (headLength + payload.length))) p' := by
  obtain ⟨hwithin, hbound⟩ := Frame.split_eq_ok hsplit
  obtain ⟨hlimit, hmost⟩ := Nat.le_min.mp hbound
  have hlen : (littleEndian headLength payload.length).length = headLength :=
    length_littleEndian _ _
  rw [Frame.around, List.append_assoc] at hwithin
  obtain ⟨p₁, hhead, hontime₁, hnow₁, hbody⟩ := h.await_front (length_script_lt p) hnow hwithin
  rw [hlen] at hhead hontime₁ hnow₁ hbody
  obtain ⟨p₂, hpayload, hontime₂, -⟩ := hontime₁.await_front (length_script_lt p₁) hnow₁ hbody
  rw [← Timed.instant_append, ← List.take_add] at hpayload hontime₂
  rw [List.drop_drop] at hontime₂
  have hok : Frame.declaredLength (littleEndian headLength payload.length) limit =
      .ok payload.length := by
    rw [Frame.declaredLength, Frame.ofLittleEndian_head hmost]
    exact if_neg (Nat.not_lt.mpr hlimit)
  exact ⟨p₂, by simp only [awaitFrame, hhead, hok, hpayload], hontime₂⟩

end Await

/-! ### Frame after frame -/

variable {σ : Type}

/-- What a session leaves, with what it has written and noted before. -/
def behind (written : List Bytes) (events : List AuditEvent) (t : Transcript σ) : Transcript σ :=
  { t with written := written ++ t.written, events := events ++ t.events }

theorem behind_behind (written more : List Bytes) (events later : List AuditEvent)
    (t : Transcript σ) :
    behind written events (behind more later t) = behind (written ++ more) (events ++ later) t := by
  simp only [behind, List.append_assoc]

/-- What a session does with bytes that arrive at their instants. Of these it sees those that are
there by its deadline, an idle timeout after it has begun to wait. If a frame is among them, it
handles the frame at the instant at which that is whole, and waits again from when the response has
been written; if none is, it ends at the deadline. -/
def paced [Desktop.Backend σ] (service : Service) (c : Connection) (moments : Moments)
    (start : Nat) (row : Timed) (session : Session) (server : Server σ) : Transcript σ :=
  let deadline := start + c.idleTimeout.toNanos
  match _h : Frame.split (row.within deadline).bytes c.maxFrame with
  | .error (.truncated ..) => ⟨[], [], .idleTimeout, deadline, session, server⟩
  | .error (.oversized declared most) =>
    ⟨[], [], .broken (.framing (.oversized declared most)),
      Timed.instant start (row.take headLength), session, server⟩
  | .ok (payload, _) =>
    let size := headLength + payload.length
    let instant := Timed.instant start (row.take size)
    let m := moments session.commands.issued.toNat instant
    let turn := Dispatch.handlePayload service m payload session server
    let done := instant + turn.waited.toNanos
    match turn.response.frame with
    | .error e => ⟨[], turn.events, .broken (.framing e), done, turn.session, turn.server⟩
    | .ok frame =>
      behind [frame] turn.events
        (paced service c moments done (row.drop size) turn.session turn.server)
termination_by row.length
decreasing_by exact length_behind_lt _h

section Paced

variable [Desktop.Backend σ] {service : Service} {c : Connection} {moments : Moments}
  {start : Nat} {row : Timed} {session : Session} {server : Server σ}

theorem paced_of_truncated {part : FrameSection} {expected received : Nat}
    (h : Frame.split (row.within (start + c.idleTimeout.toNanos)).bytes c.maxFrame =
      .error (.truncated part expected received)) :
    paced service c moments start row session server =
      ⟨[], [], .idleTimeout, start + c.idleTimeout.toNanos, session, server⟩ := by
  rw [paced]
  split
  · rfl
  · rename_i he
    cases he.symm.trans h
  · rename_i he
    cases he.symm.trans h

theorem paced_of_oversized {declared most : Nat}
    (h : Frame.split (row.within (start + c.idleTimeout.toNanos)).bytes c.maxFrame =
      .error (.oversized declared most)) :
    paced service c moments start row session server =
      ⟨[], [], .broken (.framing (.oversized declared most)),
        Timed.instant start (row.take headLength), session, server⟩ := by
  rw [paced]
  split
  · rename_i he
    cases he.symm.trans h
  · rename_i he
    cases he.symm.trans h
    rfl
  · rename_i he
    cases he.symm.trans h

theorem paced_of_ok {payload rest : Bytes}
    (h : Frame.split (row.within (start + c.idleTimeout.toNanos)).bytes c.maxFrame =
      .ok (payload, rest)) :
    paced service c moments start row session server =
      let instant := Timed.instant start (row.take (headLength + payload.length))
      let turn := Dispatch.handlePayload service
        (moments session.commands.issued.toNat instant) payload session server
      let done := instant + turn.waited.toNanos
      match turn.response.frame with
      | .error e => ⟨[], turn.events, .broken (.framing e), done, turn.session, turn.server⟩
      | .ok frame =>
        behind [frame] turn.events
          (paced service c moments done (row.drop (headLength + payload.length)) turn.session
            turn.server) := by
  rw [paced]
  split
  · rename_i he
    cases he.symm.trans h
  · rename_i he
    cases he.symm.trans h
  · rename_i he
    cases he.symm.trans h
    rfl

/-- A session that ends for idleness does so at a deadline, this one or a later one. -/
theorem le_endedAt (h : (paced service c moments start row session server).ended = .idleTimeout) :
    start + c.idleTimeout.toNanos ≤
      (paced service c moments start row session server).endedAt := by
  induction hn : row.length using Nat.strongRecOn generalizing start row session server with
  | ind n ih =>
    cases hsplit : Frame.split (row.within (start + c.idleTimeout.toNanos)).bytes c.maxFrame with
    | error e =>
      cases e with
      | truncated part expected received =>
        rw [paced_of_truncated hsplit]
      | oversized declared most =>
        rw [paced_of_oversized hsplit] at h
        cases h
    | ok front =>
      obtain ⟨payload, rest⟩ := front
      rw [paced_of_ok hsplit] at h ⊢
      dsimp only at h ⊢
      generalize hinstant : Timed.instant start (row.take (headLength + payload.length)) = instant
        at h ⊢
      generalize Dispatch.handlePayload service
        (moments session.commands.issued.toNat instant) payload session server = turn at h ⊢
      cases hframe : turn.response.frame with
      | error e =>
        rw [hframe] at h
        cases h
      | ok frame =>
        rw [hframe] at h
        have hlater : start ≤ instant := hinstant ▸ Timed.le_instant
        have hnext := ih _ (hn ▸ length_behind_lt hsplit) h rfl
        dsimp only [behind]
        omega

/-- A session that ends for idleness has not seen what comes behind its end. -/
theorem paced_congr {other : Timed}
    (hended : (paced service c moments start row session server).ended = .idleTimeout)
    (hsame : other.within (paced service c moments start row session server).endedAt =
      row.within (paced service c moments start row session server).endedAt) :
    paced service c moments start other session server =
      paced service c moments start row session server := by
  induction hn : row.length using Nat.strongRecOn generalizing start row other session server with
  | ind n ih =>
    have hdeadline := le_endedAt hended
    have hthere : other.within (start + c.idleTimeout.toNanos) =
        row.within (start + c.idleTimeout.toNanos) := by
      rw [← Timed.within_within hdeadline, hsame, Timed.within_within hdeadline]
    cases hsplit : Frame.split (row.within (start + c.idleTimeout.toNanos)).bytes c.maxFrame with
    | error e =>
      cases e with
      | truncated part expected received =>
        rw [paced_of_truncated hsplit, paced_of_truncated (hthere ▸ hsplit)]
      | oversized declared most =>
        rw [paced_of_oversized hsplit] at hended
        cases hended
    | ok front =>
      obtain ⟨payload, rest⟩ := front
      have hsize := length_le_of_split hsplit
      have hfront : other.take (headLength + payload.length) =
          row.take (headLength + payload.length) := by
        rw [← Timed.take_within hsize, ← Timed.take_within (hthere ▸ hsize), hthere]
      have hrest : ∀ {limit}, start + c.idleTimeout.toNanos ≤ limit →
          other.within limit = row.within limit →
          Timed.within limit (other.drop (headLength + payload.length)) =
            Timed.within limit (row.drop (headLength + payload.length)) := by
        intro limit hle hlimit
        have hmore := Timed.length_within_le (start + c.idleTimeout.toNanos) (row.within limit)
        rw [Timed.within_within hle] at hmore
        have hsize := Nat.le_trans hsize hmore
        rw [← Timed.drop_within hsize, ← Timed.drop_within (hlimit ▸ hsize), hlimit]
      have hsame := hrest hdeadline hsame
      rw [paced_of_ok hsplit] at hended hsame ⊢
      rw [paced_of_ok (hthere ▸ hsplit), hfront]
      dsimp only at hended hsame ⊢
      generalize Timed.instant start (row.take (headLength + payload.length)) = instant
        at hended hsame ⊢
      generalize Dispatch.handlePayload service
        (moments session.commands.issued.toNat instant) payload session server = turn
        at hended hsame ⊢
      cases hframe : turn.response.frame with
      | error e => rfl
      | ok frame =>
        rw [hframe] at hended hsame
        exact congrArg (behind [frame] turn.events)
          (ih _ (hn ▸ length_behind_lt hsplit) hended hsame rfl)

end Paced

/-- While a response is held back, the peer goes on sending. -/
theorem onTime_pause {row : Timed} {now later : Nat} {p : Peer} (h : OnTime row now p)
    (hle : now ≤ later) :
    OnTime row later (if now < later then (p.advance now).advance later else p) := by
  by_cases hlt : now < later
  · rw [if_pos hlt]
    have hnow := (h.toAhead.advance (Nat.le_refl now)).1
    exact (hnow.toAhead.advance hle).1
  · rw [if_neg hlt]
    obtain rfl : now = later := Nat.le_antisymm hle (Nat.not_lt.mp hlt)
    exact h

/-- What a session that stands between two frames does from there on. By induction on the frames
that it may still handle; the peer's side of each round is kept to its row of bytes. -/
theorem loop_paced [Desktop.Backend σ] (service : Service) {c : Connection} (moments : Moments)
    (hc : c.outgoing? = none) {limit : Nat} (st : Standing σ) {row : Timed}
    (h : OnTime row st.now st.peer) (hlimit : row.length < limit) :
    loop service c moments limit st =
      behind st.written.reverse st.events
        (paced service c moments st.now row st.session st.server) := by
  induction limit generalizing st row with
  | zero => exact absurd hlimit (Nat.not_lt_zero _)
  | succ limit ih =>
    have hnow : st.now ≤ st.now + c.idleTimeout.toNanos := Nat.le_add_right ..
    cases hsplit : Frame.split (row.within (st.now + c.idleTimeout.toNanos)).bytes c.maxFrame with
    | error e =>
      cases e with
      | truncated part expected received =>
        simp only [loop, awaitFrame_late h hnow hsplit, Standing.finish, paced_of_truncated hsplit,
          behind, List.append_nil]
      | oversized declared most =>
        simp only [loop, awaitFrame_oversized h hnow hsplit, Standing.finish,
          paced_of_oversized hsplit, behind, List.append_nil]
    | ok front =>
      obtain ⟨payload, rest⟩ := front
      obtain ⟨p', hawait, hontime⟩ := awaitFrame_whole h hnow hsplit
      rw [paced_of_ok hsplit]
      dsimp only
      generalize hinstant : Timed.instant st.now (row.take (headLength + payload.length)) = instant
        at hawait hontime ⊢
      generalize hturn : Dispatch.handlePayload service
        (moments st.session.commands.issued.toNat instant) payload st.session st.server = turn
      have hpause := onTime_pause hontime (Nat.le_add_right instant turn.waited.toNanos)
      cases hframe : turn.response.frame with
      | error e =>
        simp only [loop, hawait, hturn, write_of_reading hc, hframe, Standing.finish, behind,
          List.append_nil]
      | ok frame =>
        have hless := Nat.lt_of_lt_of_le (length_behind_lt hsplit) (Nat.le_of_lt_succ hlimit)
        simp only [loop, hawait, hturn, write_of_reading hc, hframe]
        rw [ih _ hpause hless, behind_behind, List.reverse_cons]

theorem run_eq_paced [Desktop.Backend σ] (service : Service) (c : Connection) (moments : Moments)
    (endpoint : Net.Endpoint) (server : Server σ) {script : List PeerStep} {capacity? : Option Nat}
    (hreads : c.outgoing? = none) (hopen : .close ∉ script)
    (hroom : capacity?.all ((sent script).length ≤ ·) = true) :
    run service c moments endpoint (.new script capacity?) server =
      paced service c moments 0 (arrivals 0 script) (.new endpoint) server := by
  have hnew : Ahead (arrivals 0 script) 0 (.new script capacity?) := by
    refine ⟨rfl, hopen, rfl, ?_, [], rfl, rfl, nofun⟩
    simpa only [Peer.new, List.length_nil, Nat.zero_add] using hroom
  have hlimit : (arrivals 0 script).length < (Peer.new script capacity?).size + 1 := by
    rw [size_eq, ← Timed.length_bytes, bytes_arrivals 0 hopen]
    simp only [Peer.new]
    omega
  have hstart := (hnew.advance (Nat.le_refl 0)).1
  exact loop_paced service moments hreads
    ⟨0, (Peer.new script capacity?).advance 0, [], [], .new endpoint, server⟩ hstart hlimit

/-- A session with a peer that keeps reading and does not close, on a connection with room for all
that it sends, is told by the instants at which the bytes of its script arrive. If it runs into the
idle timeout, whatever comes after that instant could as well have been anything else, or missing:
the session with any other such script of which the same bytes have arrived by then is the same. -/
theorem run_paced [Desktop.Backend σ] (service : Service) (c : Connection) (moments : Moments)
    (endpoint : Net.Endpoint) (server : Server σ) (script : List PeerStep) (capacity? : Option Nat)
    (hreads : c.outgoing? = none) (hopen : .close ∉ script)
    (hroom : capacity?.all ((sent script).length ≤ ·) = true) :
    let t := run service c moments endpoint (.new script capacity?) server
    t = paced service c moments 0 (arrivals 0 script) (.new endpoint) server ∧
    (t.ended = .idleTimeout → ∀ (other : List PeerStep) (otherCapacity? : Option Nat),
      .close ∉ other → otherCapacity?.all ((sent other).length ≤ ·) = true →
      (arrivals 0 other).within t.endedAt = (arrivals 0 script).within t.endedAt →
      run service c moments endpoint (.new other otherCapacity?) server = t) := by
  intro t
  have ht : t = paced service c moments 0 (arrivals 0 script) (.new endpoint) server :=
    run_eq_paced service c moments endpoint server hreads hopen hroom
  refine ⟨ht, fun hended other otherCapacity? hopen' hroom' hsame => ?_⟩
  rw [run_eq_paced service c moments endpoint server hreads hopen' hroom']
  rw [ht] at hended hsame ⊢
  exact paced_congr hended hsame

/-- The frame of an empty object after three seconds, half of the head of another four seconds
later, and more two seconds after that. -/
def dripping (more : List PeerStep) : List PeerStep :=
  [.pause 3000000000, .send [2, 0, 0, 0, 123, 125], .pause 4000000000, .send [2, 0],
    .pause 2000000000] ++ more

theorem lasting_dripping (bytes : Bytes) : .close ∉ dripping [.send bytes] := by
  simp [dripping]

/-- With a timeout of five seconds the first frame is answered after three, and eight seconds are
the end, although the rest of the second frame comes two seconds behind its beginning. -/
theorem run_paced_dripping :
    let script := dripping [.send [0, 0, 123, 125]]
    let t := run closedService connection stopped default (.new script none) crashing
    connection.outgoing? = none ∧ .close ∉ script ∧
    t = paced closedService connection stopped 0 (arrivals 0 script) (.new default) crashing ∧
    t.written.length = 1 ∧ t.ended = .idleTimeout ∧ t.endedAt = 8000000000 ∧
    run closedService connection stopped default (.new (dripping [.send [9]]) (some 64)) crashing =
      t := by
  intro script t
  have hopen := lasting_dripping [0, 0, 123, 125]
  obtain ⟨hpaced, hlater⟩ :=
    run_paced closedService connection stopped default crashing script none rfl hopen rfl
  have hended : t.ended = .idleTimeout := by decide +kernel
  have hendedAt : t.endedAt = 8000000000 := by decide +kernel
  have hsame : (arrivals 0 (dripping [.send [9]])).within t.endedAt =
      (arrivals 0 script).within t.endedAt := by
    rw [hendedAt]
    decide
  exact ⟨rfl, hopen, hpaced, by decide +kernel, hended, hendedAt,
    hlater hended _ (some 64) (lasting_dripping [9]) (by decide) hsame⟩

end RemoteDesk.Session
