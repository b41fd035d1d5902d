import RemoteDesk.Desktop.Crashing
import RemoteDesk.Proofs.Frame.Payloads
import RemoteDesk.Proofs.Session.Waiting
import RemoteDesk.Session.Run

/-!
What a session writes. The bytes that a peer sends come apart into frames, whatever pieces they
come in; the session answers these in turn, each with the frame of one response, and the bytes
behind them decide how it ends. For that, each frame has to be there before the idle timeout has
passed since the frame before it was.
-/
namespace RemoteDesk

open Script Peer

/-! ### Frames in time -/

theorem Script.pausedBefore_mono {m n : Nat} (script : List PeerStep) (h : m ≤ n) :
    pausedBefore m script ≤ pausedBefore n script := by
  induction script generalizing m n with
  | nil => cases m <;> exact Nat.zero_le _
  | cons step script ih =>
    cases m with
    | zero => exact Nat.zero_le _
    | succ m =>
      obtain ⟨k, rfl⟩ : ∃ k, n = k + 1 := ⟨n - 1, by omega⟩
      exact Nat.add_le_add_left (ih (by omega)) _

/-- How many bytes have to be there to tell the next frame: its head, and its payload unless the
head declares too much. -/
def Frame.reach (limit : Nat) (bytes : Bytes) : Nat :=
  if bytes.length < headLength then headLength
  else
    let declared := ofLittleEndian (bytes.take headLength)
    if limit < declared then headLength else headLength + declared

namespace Frame

variable {limit : Nat} {head body : Bytes}

theorem reach_of_lt {bytes : Bytes} (h : bytes.length < headLength) :
    reach limit bytes = headLength := if_pos h

theorem reach_of_head (limit : Nat) (body : Bytes) (hlen : head.length = headLength) :
    reach limit (head ++ body) =
      if limit < ofLittleEndian head then headLength else headLength + ofLittleEndian head := by
  have hlong : ¬ (head ++ body).length < headLength := by
    rw [List.length_append]
    omega
  rw [reach, if_neg hlong, List.take_left' hlen]

theorem headLength_le_reach (limit : Nat) (bytes : Bytes) : headLength ≤ reach limit bytes := by
  unfold reach
  dsimp only
  split
  · exact Nat.le_refl _
  · split <;> omega

end Frame

/-- Behind each row of whole frames that a script sends, it pauses for less than a time until it
has sent the next frame, or has closed. -/
def Script.Prompt (limit idle : Nat) (script : List PeerStep) : Prop :=
  ∀ (row : List Bytes) (rest : Bytes), (∀ payload ∈ row, payload.length ≤ min limit maxDeclared) →
    sent script = row.flatMap Frame.around ++ rest →
    pausedBefore ((row.flatMap Frame.around).length + Frame.reach limit rest) script <
      pausedBefore (row.flatMap Frame.around).length script + idle

/-- A script that pauses for less than a time altogether. -/
theorem Script.prompt_of_paused_lt {limit idle : Nat} {script : List PeerStep}
    (h : paused script < idle) : Prompt limit idle script := by
  intro row rest _ _
  have hle := pausedBefore_le ((row.flatMap Frame.around).length + Frame.reach limit rest) script
  omega

namespace Session

/-- How a session ends by the bytes behind the last frame. -/
def ending (limit : Nat) (left : Bytes) : SessionEnd :=
  if left = [] then .peerClosed
  else if left.length < headLength then
    .broken (.framing (.truncated .head headLength left.length))
  else
    let declared := ofLittleEndian (left.take headLength)
    if limit < declared then .broken (.framing (.oversized declared limit))
    else .broken (.framing (.truncated .payload declared (left.length - headLength)))

/-! ### Waiting for a frame -/

section Await

variable {script done : List PeerStep} {read rest payload : Bytes} {now limit deadline : Nat}
  {p : Peer}

/-- The head of a frame that comes before the deadline is read. -/
theorem await_head {head body : Bytes} (h : Follows script done read now p)
    (hlen : head.length = headLength) (hsent : sent script = read ++ (head ++ body))
    (hdue : now + pausedBefore (read.length + Frame.reach limit (head ++ body)) script <
      pausedBefore read.length script + deadline) :
    ∃ now' p' done', p.await deadline (p.size + 1) headLength now = .complete head now' p' ∧
      now ≤ now' ∧ Follows script done' (read ++ head) now' p' ∧
      Within script done' p' now' read.length now := by
  have hreach := Frame.headLength_le_reach limit (head ++ body)
  have hmono : pausedBefore (read.length + head.length) script ≤
      pausedBefore (read.length + Frame.reach limit (head ++ body)) script :=
    pausedBefore_mono script (by omega)
  have hhead : now + pausedBefore (read.length + head.length) script <
      pausedBefore read.length script + deadline := by omega
  have hcomplete := h.complete h.within (Nat.lt_succ_self _) hsent hhead
  rwa [hlen] at hcomplete

/-- A frame that comes before the deadline is read as a whole, and nothing behind it. -/
theorem awaitFrame_of_ok (h : Follows script done read now p)
    (hsent : sent script = read ++ rest) {rest' : Bytes}
    (hsplit : Frame.split rest limit = .ok (payload, rest'))
    (hdue : now + pausedBefore (read.length + Frame.reach limit rest) script <
      pausedBefore read.length script + deadline) :
    ∃ now' p' done', awaitFrame limit deadline now p = .payload payload now' p' ∧ now ≤ now' ∧
      Follows script done' (read ++ Frame.around payload) now' p' := by
  obtain ⟨hrest, hbound⟩ := Frame.split_eq_ok hsplit
  obtain ⟨hlimit, hmost⟩ := Nat.le_min.mp hbound
  have hlen : (littleEndian headLength payload.length).length = headLength :=
    length_littleEndian _ _
  have hdeclared := Frame.ofLittleEndian_head hmost
  rw [Frame.around, List.append_assoc] at hrest
  subst hrest
  obtain ⟨now₁, p₁, done₁, hhead, hnow₁, hf₁, hw₁⟩ := await_head h hlen hsent hdue
  have hreach := Frame.reach_of_head limit (payload ++ rest') hlen
  rw [hdeclared, if_neg (Nat.not_lt.mpr hlimit)] at hreach
  rw [hreach] at hdue
  have hdue₁ : now + pausedBefore
      ((read ++ littleEndian headLength payload.length).length + payload.length) script <
        pausedBefore read.length script + deadline := by
    rwa [List.length_append, hlen, Nat.add_assoc]
  have hsent₁ : sent script =
      (read ++ littleEndian headLength payload.length) ++ (payload ++ rest') := by
    rw [hsent, List.append_assoc]
  obtain ⟨now₂, p₂, done₂, hpayload, hnow₂, hf₂, -⟩ :=
    hf₁.complete hw₁ (Nat.lt_succ_self _) hsent₁ hdue₁
  refine ⟨now₂, p₂, done₂, ?_, Nat.le_trans hnow₁ hnow₂, ?_⟩
  · have hok : Frame.declaredLength (littleEndian headLength payload.length) limit =
        .ok payload.length := by
      rw [Frame.declaredLength, hdeclared]
      exact if_neg (Nat.not_lt.mpr hlimit)
    simp only [awaitFrame, hhead, hok, hpayload]
  · rwa [List.append_assoc] at hf₂

/-- Without another frame the session ends by what is left. -/
theorem awaitFrame_of_error (h : Follows script done read now p)
    (hsent : sent script = read ++ rest) {e : FramingError}
    (hsplit : Frame.split rest limit = .error e)
    (hdue : now + pausedBefore (read.length + Frame.reach limit rest) script <
      pausedBefore read.length script + deadline) :
    ∃ now', awaitFrame limit deadline now p = .nothing (ending limit rest) now' := by
  rcases Frame.split_cases rest limit with
    ⟨hshort, -⟩ | ⟨head, body, rfl, hlen, hcases⟩
  · rw [Frame.reach_of_lt hshort] at hdue
    obtain ⟨now', hended⟩ := h.ended h.within (Nat.lt_succ_self _) hsent hshort hdue
    refine ⟨now', ?_⟩
    cases rest with
    | nil => simp only [awaitFrame, hended, ending, if_true]
    | cons b rest =>
      simp only [awaitFrame, hended, ending, reduceCtorEq, if_false, if_pos hshort]
  · obtain ⟨now₁, p₁, done₁, hhead, -, hf₁, hw₁⟩ := await_head h hlen hsent hdue
    have hne : head ++ body ≠ [] := by
      intro hnil
      have hzero := congrArg List.length hnil
      rw [List.length_append, hlen, headLength, List.length_nil] at hzero
      omega
    have hlong : ¬ (head ++ body).length < headLength := by
      rw [List.length_append]
      omega
    rcases hcases with ⟨hover, -⟩ | ⟨hle, hpart, -⟩ | ⟨-, payload, rest', -, -, hok⟩
    · refine ⟨now₁, ?_⟩
      simp only [awaitFrame, hhead, Frame.declaredLength, if_pos hover, ending, if_neg hne,
        if_neg hlong, List.take_left' hlen]
    · have hreach := Frame.reach_of_head limit body hlen
      rw [if_neg (Nat.not_lt.mpr hle)] at hreach
      rw [hreach] at hdue
      have hdue₁ : now + pausedBefore ((read ++ head).length + ofLittleEndian head) script <
          pausedBefore read.length script + deadline := by
        rwa [List.length_append, hlen, Nat.add_assoc]
      have hsent₁ : sent script = (read ++ head) ++ body := by
        rw [hsent, List.append_assoc]
      obtain ⟨now₂, hended⟩ := hf₁.ended hw₁ (Nat.lt_succ_self _) hsent₁ hpart hdue₁
      refine ⟨now₂, ?_⟩
      have hbody : (head ++ body).length - headLength = body.length := by
        rw [List.length_append]
        omega
      simp only [awaitFrame, hhead, Frame.declaredLength, if_neg (Nat.not_lt.mpr hle), hended,
        ending, if_neg hne, if_neg hlong, List.take_left' hlen, hbody]
    · rw [hok] at hsplit
      contradiction

end Await

/-! ### Answering -/

variable {σ : Type}

/-- Handles payload after payload, each at its instant. -/
def replay [Desktop.Backend σ] (service : Service) (moments : Moments) :
    List (Bytes × Nat) → Session → Server σ → List (Turn σ)
  | [], _, _ => []
  | (payload, instant) :: rest, session, server =>
    let m := moments session.commands.issued.toNat instant
    let turn := Dispatch.handlePayload service m payload session server
    turn :: replay service moments rest turn.session turn.server

/-- The frames of responses, up to the first that has none, and why that has none. -/
def framesOf : List (Turn σ) → List Bytes × Option FramingError
  | [] => ([], none)
  | turn :: turns =>
    match turn.response.frame with
    | .error e => ([], some e)
    | .ok frame => (frame :: (framesOf turns).1, (framesOf turns).2)

theorem length_replay [Desktop.Backend σ] (service : Service) (moments : Moments)
    (payloads : List (Bytes × Nat)) (session : Session) (server : Server σ) :
    (replay service moments payloads session server).length = payloads.length := by
  induction payloads generalizing session server with
  | nil => rfl
  | cons payload payloads ih => exact congrArg (· + 1) (ih _ _)

/-- If all responses have frames, these are they. -/
theorem framesOf_eq {turns : List (Turn σ)}
    (h : ∀ turn ∈ turns, ∃ frame, turn.response.frame = .ok frame) :
    (framesOf turns).1.map .ok = turns.map (·.response.frame) ∧ (framesOf turns).2 = none := by
  induction turns with
  | nil => exact ⟨rfl, rfl⟩
  | cons turn turns ih =>
    obtain ⟨frame, hframe⟩ := h turn List.mem_cons_self
    obtain ⟨hframes, hnone⟩ := ih fun turn ht => h turn (List.mem_cons_of_mem _ ht)
    constructor
    · simp only [framesOf, hframe, List.map_cons, hframes]
    · simp only [framesOf, hframe, hnone]

/-- To a peer that reads, a response is written if it has a frame. -/
theorem write_of_reading {c : Connection} (hc : c.outgoing? = none) (r : Response)
    (st : Standing σ) :
    st.write c r = match r.frame with
      | .error e => .error (st.finish (.broken (.framing e)) st.now)
      | .ok frame => .ok { st with written := frame :: st.written } := by
  unfold Standing.write Standing.room?
  rw [hc]
  cases r.frame <;> rfl

/-- While a response is held back, the peer goes on with its script. -/
theorem follows_pause {script done : List PeerStep} {read : Bytes} {now later : Nat} {p : Peer}
    (h : Follows script done read now p) (hle : now ≤ later) :
    ∃ done', Follows script done' read later
      (if now < later then (p.advance now).advance later else p) := by
  by_cases hlt : now < later
  · rw [if_pos hlt]
    obtain ⟨done₁, hf₁, -⟩ := advance_follows h h.within
    have hlater := hf₁.later hle
    obtain ⟨done₂, hf₂, -⟩ := advance_follows hlater hlater.within
    exact ⟨done₂, hf₂⟩
  · rw [if_neg hlt]
    exact ⟨done, h.later hle⟩

/-- What a session that stands between two frames does from there on. -/
theorem loop_transcript [Desktop.Backend σ] (service : Service) {c : Connection}
    (moments : Moments) {script : List PeerStep} (hc : c.outgoing? = none)
    (hprompt : Prompt c.maxFrame c.idleTimeout.toNanos script) {limit : Nat} (st : Standing σ)
    {done : List PeerStep} {row : List Bytes} {rest : Bytes}
    (hrow : ∀ payload ∈ row, payload.length ≤ min c.maxFrame maxDeclared)
    (hsent : sent script = row.flatMap Frame.around ++ rest)
    (hf : Follows script done (row.flatMap Frame.around) st.now st.peer)
    (hlimit : rest.length < limit) :
    ∃ instants : List Nat, instants.length = (Frame.payloads c.maxFrame rest).1.length ∧
      (st.now :: instants).Pairwise (· ≤ ·) ∧
      let turns := replay service moments ((Frame.payloads c.maxFrame rest).1.zip instants)
        st.session st.server
      (loop service c moments limit st).written = st.written.reverse ++ (framesOf turns).1 ∧
      (loop service c moments limit st).ended =
        match (framesOf turns).2 with
        | some e => .broken (.framing e)
        | none => ending c.maxFrame (Frame.payloads c.maxFrame rest).2 := by
  induction limit generalizing st done row rest with
  | zero => exact absurd hlimit (Nat.not_lt_zero _)
  | succ limit ih =>
    have hdue := hprompt row rest hrow hsent
    have hdue : st.now + pausedBefore ((row.flatMap Frame.around).length +
        Frame.reach c.maxFrame rest) script <
          pausedBefore (row.flatMap Frame.around).length script +
            (st.now + c.idleTimeout.toNanos) := by omega
    cases hsplit : Frame.split rest c.maxFrame with
    | error e =>
      obtain ⟨now', hawait⟩ := awaitFrame_of_error hf hsent hsplit hdue
      refine ⟨[], ?_⟩
      rw [Frame.payloads_of_error hsplit]
      simp only [loop, hawait, Standing.finish, replay, framesOf, List.zip_nil_left,
        List.append_nil, List.length_nil, List.pairwise_singleton, and_self]
    | ok front =>
      obtain ⟨payload, rest'⟩ := front
      obtain ⟨now', p', done', hawait, hnow, hf'⟩ := awaitFrame_of_ok hf hsent hsplit hdue
      obtain ⟨hrest, hbound⟩ := Frame.split_eq_ok hsplit
      rw [Frame.payloads_of_ok hsplit]
      generalize hturn : Dispatch.handlePayload service
        (moments st.session.commands.issued.toNat now') payload st.session st.server = turn
      obtain ⟨done'', hf''⟩ := follows_pause hf' (Nat.le_add_right now' turn.waited.toNanos)
      have hread : row.flatMap Frame.around ++ Frame.around payload =
          (row ++ [payload]).flatMap Frame.around := by simp
      rw [hread] at hf''
      cases hframe : turn.response.frame with
      | error e =>
        refine ⟨List.replicate ((Frame.payloads c.maxFrame rest').1.length + 1) now',
          List.length_replicate, ?_, ?_, ?_⟩
        · exact List.pairwise_cons.mpr ⟨fun instant hi => List.eq_of_mem_replicate hi ▸ hnow,
            List.pairwise_replicate.mpr (.inr (Nat.le_refl _))⟩
        · simp only [loop, hawait, hturn, write_of_reading hc, hframe, Standing.finish,
            List.replicate_succ, List.zip_cons_cons, replay, framesOf, List.append_nil]
        · simp only [loop, hawait, hturn, write_of_reading hc, hframe, Standing.finish,
            List.replicate_succ, List.zip_cons_cons, replay, framesOf]
      | ok frame =>
        have hrow' : ∀ other ∈ row ++ [payload], other.length ≤ min c.maxFrame maxDeclared := by
          intro other hother
          rcases List.mem_append.mp hother with hother | hother
          · exact hrow other hother
          · rw [List.mem_singleton.mp hother]
            exact hbound
        have hsent' : sent script = (row ++ [payload]).flatMap Frame.around ++ rest' := by
          rw [hsent, hrest, ← hread, List.append_assoc]
        have hlimit' : rest'.length < limit := by
          rw [hrest, List.length_append, Frame.length_around, headLength] at hlimit
          omega
        let next : Standing σ :=
          { now := now' + turn.waited.toNanos
            peer := if now' < now' + turn.waited.toNanos then
              (p'.advance now').advance (now' + turn.waited.toNanos) else p'
            written := frame :: st.written
            events := st.events ++ turn.events
            session := turn.session
            server := turn.server }
        have hloop : loop service c moments (limit + 1) st = loop service c moments limit next := by
          simp only [loop, hawait, hturn, write_of_reading hc, hframe, next]
        obtain ⟨instants, hlen, hsorted, hwritten, hended⟩ := ih next hrow' hsent' hf'' hlimit'
        obtain ⟨hnext, hsorted⟩ := List.pairwise_cons.mp hsorted
        have hlater : ∀ instant ∈ instants, now' ≤ instant := fun instant hi =>
          Nat.le_trans (Nat.le_add_right ..) (hnext instant hi)
        refine ⟨now' :: instants, congrArg (· + 1) hlen, ?_, ?_, ?_⟩
        · refine List.pairwise_cons.mpr ⟨?_, List.pairwise_cons.mpr ⟨hlater, hsorted⟩⟩
          intro instant hi
          rcases List.mem_cons.mp hi with rfl | hi
          · exact hnow
          · exact Nat.le_trans hnow (hlater instant hi)
        · rw [hloop, hwritten]
          simp only [next, List.zip_cons_cons, replay, hturn, framesOf, hframe, List.reverse_cons,
            List.append_assoc, List.singleton_append]
        · rw [hloop, hended]
          simp only [next, List.zip_cons_cons, replay, hturn, framesOf, hframe]

/-! ### Whole sessions -/

/-- What a session writes to a peer that reads, and how it ends: the frames at the front of the
bytes are handled one after the other on a new session, none at an earlier instant than the one
before it, and each is answered with the frame of its response; the bytes behind them decide the
end. Only a response that has no frame ends the session before. -/
theorem run_transcript [Desktop.Backend σ] (service : Service) (c : Connection)
    (moments : Moments) (endpoint : Net.Endpoint) (server : Server σ) (script : List PeerStep)
    (capacity? : Option Nat) (hreads : c.outgoing? = none) (hroom : capacity? ≠ some 0)
    (hcloses : Closing script) (hprompt : Prompt c.maxFrame c.idleTimeout.toNanos script) :
    let payloads := (Frame.payloads c.maxFrame (sent script)).1
    let left := (Frame.payloads c.maxFrame (sent script)).2
    let t := run service c moments endpoint (.new script capacity?) server
    ∃ instants : List Nat, instants.length = payloads.length ∧ instants.Pairwise (· ≤ ·) ∧
      let turns := replay service moments (payloads.zip instants) (.new endpoint) server
      t.written = (framesOf turns).1 ∧
      (t.ended = match (framesOf turns).2 with
        | some e => .broken (.framing e)
        | none => ending c.maxFrame left) ∧
      ((∀ turn ∈ turns, ∃ frame, turn.response.frame = .ok frame) →
        t.written.map .ok = turns.map (·.response.frame) ∧
        t.written.length = payloads.length ∧ t.ended = ending c.maxFrame left) := by
  intro payloads left t
  have hnew : Follows script [] [] 0 (.new script capacity?) := by
    refine ⟨rfl, rfl, .inr ⟨rfl, hcloses⟩, hroom, ?_, fun _ _ => Nat.zero_le _⟩
    intro n hn
    obtain rfl : n = 0 := Nat.le_zero.mp hn
    simp [Peer.new]
  obtain ⟨done, hf, -⟩ := advance_follows hnew hnew.within
  have hlimit : (sent script).length < (Peer.new script capacity?).size + 1 := by
    rw [size_eq]
    simp only [Peer.new]
    omega
  have hsent : sent script = ([] : List Bytes).flatMap Frame.around ++ sent script := rfl
  have hrow : ∀ payload ∈ ([] : List Bytes), payload.length ≤ min c.maxFrame maxDeclared :=
    nofun
  obtain ⟨instants, hlen, hsorted, hwritten, hended⟩ :=
    loop_transcript service moments hreads hprompt
      ⟨0, (Peer.new script capacity?).advance 0, [], [], .new endpoint, server⟩
      hrow hsent hf hlimit
  refine ⟨instants, hlen, (List.pairwise_cons.mp hsorted).2, hwritten, hended, ?_⟩
  intro hall
  obtain ⟨hframes, hnone⟩ := framesOf_eq hall
  have hmap : t.written.map Except.ok =
      (replay service moments (payloads.zip instants) (.new endpoint) server).map
        (·.response.frame) := by
    rw [show t.written = _ from hwritten]
    exact hframes
  refine ⟨hmap, ?_, ?_⟩
  · have hcount := congrArg List.length hmap
    rw [List.length_map, List.length_map, length_replay, List.length_zip, hlen,
      Nat.min_self] at hcount
    exact hcount
  · rw [show t.ended = _ from hended, hnone]

/-- A service at which nobody can log in. -/
def closedService : Service :=
  ⟨⟨⟨fun _ _ => none, fun _ => .empty⟩, fun _ => none, .ofSecs 3600⟩, .standard⟩

def connection : Connection := ⟨1048576, .ofSecs 5, none⟩

def stopped : Moments := fun _ _ => ⟨default, default, 0, [], ""⟩

def crashing : Server Desktop.Crashing := ⟨[], .new ⟨⟩⟩

/-- The frame of an empty object in three pieces. -/
def pieces (nanos : Nat) : List PeerStep :=
  [.send [2, 0], .pause nanos, .send [0, 0], .pause nanos, .send [123, 125], .close]

theorem payloads_pieces (nanos : Nat) :
    Frame.payloads connection.maxFrame (sent (pieces nanos)) = ([[123, 125]], []) := by
  have hframe : Frame.split (sent (pieces nanos)) connection.maxFrame = .ok ([123, 125], []) := rfl
  have hend : Frame.split [] connection.maxFrame = .error (.truncated .head 4 0) := rfl
  rw [Frame.payloads_of_ok hframe, Frame.payloads_of_error hend]

theorem closing_pieces (nanos : Nat) : Closing (pieces nanos) :=
  .send _ (.pause _ (.send _ (.pause _ (.send _ .close))))

/-- Two pauses of two seconds within a frame are together less than a timeout of five. -/
theorem run_transcript_pieces :
    let script := pieces 2000000000
    let t := run closedService connection stopped default (.new script (some 1)) crashing
    connection.outgoing? = none ∧ Closing script ∧
    Prompt connection.maxFrame connection.idleTimeout.toNanos script ∧
    t.written.length = 1 ∧ t.ended = .peerClosed := by
  intro script t
  have hprompt : Prompt connection.maxFrame connection.idleTimeout.toNanos script :=
    prompt_of_paused_lt (by decide)
  refine ⟨rfl, closing_pieces _, hprompt, ?_⟩
  obtain ⟨instants, hlen, -, -, -, h⟩ := run_transcript closedService connection stopped default
    crashing script (some 1) rfl nofun (closing_pieces _) hprompt
  rw [payloads_pieces] at hlen h
  have hall : ∀ turn ∈ replay closedService stopped ([[123, 125]].zip instants) (.new default)
      crashing, ∃ frame, turn.response.frame = .ok frame := by
    obtain ⟨instant, rfl⟩ := List.length_eq_one_iff.mp hlen
    intro turn hturn
    obtain rfl := List.mem_singleton.mp hturn
    exact ⟨_, rfl⟩
  obtain ⟨-, hcount, hended⟩ := h hall
  exact ⟨hcount, hended⟩

/-- Two pauses of three seconds are each less than the timeout, but the frame is not there when it
passes; the session ends without a response. -/
theorem idle_of_two_pauses :
    let script := pieces 3000000000
    let t := run closedService connection stopped default (.new script none) crashing
    connection.outgoing? = none ∧ Closing script ∧
    (∀ step ∈ script, step.paused < connection.idleTimeout.toNanos) ∧
    Frame.payloads connection.maxFrame (sent script) = ([[123, 125]], []) ∧
    t.written = [] ∧ t.ended = .idleTimeout ∧ t.ended ≠ ending connection.maxFrame [] := by
  intro script t
  have hended : t.ended = .idleTimeout := by decide
  refine ⟨rfl, closing_pieces _, by decide, payloads_pieces _, by decide, hended, ?_⟩
  rw [hended]
  decide

end Session

end RemoteDesk
