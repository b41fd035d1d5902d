import Mathlib.Data.List.DropRight
import Mathlib.Data.List.Nodup
import RemoteDesk.Proofs.Session.Answer

/-!
The identifiers that a session remembers are exactly the last ones of its new commands, as many as
the window holds, so that a command is refused as repeated exactly if its identifier is among them.
Which identifiers are remembered depends on which commands were refused, and the other way round;
the two are settled together, frame by frame.
-/
namespace RemoteDesk

open Json Desktop

/-! ### What a repeated command is told -/

/-- Texts that begin differently are different. -/
theorem append_ne_append {front other : String} {c d : Char} (hc : front.toList.head? = some c)
    (hd : other.toList.head? = some d) (hne : c ≠ d) (rest more : String) :
    front ++ rest ≠ other ++ more := by
  intro h
  have hfirst := congrArg (fun s => s.toList.head?) h
  simp only [String.toList_append, List.head?_append, hc, hd, Option.some_or] at hfirst
  exact hne (Option.some.inj hfirst)

/-- Nothing but a repeated identifier is told as such. -/
theorem ProtocolError.eq_duplicateId {e : ProtocolError} {id : String}
    (h : e.message = (duplicateId id).message) : e = .duplicateId id := by
  have hd : (duplicateId id).message = "duplicate command id '" ++ (id ++ "'") :=
    String.append_assoc
  have hno : ∀ (front rest : String) (c : Char), e.message = front ++ rest →
      front.toList.head? = some c → c ≠ 'd' → False := by
    intro front rest c he hc hne
    rw [he, hd] at h
    exact append_ne_append hc (by decide) hne _ _ h
  cases e with
  | invalidJson e => exact (hno "invalid JSON: " _ 'i' rfl (by decide) (by decide)).elim
  | notAnObject kind =>
    exact (hno "frame payload must be a JSON object, got " _ 'f' rfl (by decide) (by decide)).elim
  | invalidCommand m => exact (hno "invalid command: " _ 'i' rfl (by decide) (by decide)).elim
  | invalidPayload command fault =>
    refine (hno "invalid payload for " (command.name ++ (": " ++ fault.message)) 'i' ?_ (by decide)
      (by decide)).elim
    show "invalid payload for " ++ command.name ++ ": " ++ fault.message = _
    rw [String.append_assoc, String.append_assoc]
  | duplicateId other =>
    rw [(String.append_right_inj _).mp ((String.append_left_inj _).mp h)]

theorem Request.parse_ne_duplicateId {kind : CommandKind} {ms : Members} {id : String} :
    parse kind ms ≠ .error (.duplicateId id) := by
  unfold parse
  split <;> simp

namespace Dispatch

variable {σ : Type} [Backend σ] {service : Service} {m : Moment} {frame : Members}
  {session : Session} {server : Server σ} {c : Command}

/-- The first check that finds a fault is that of the identifier if it finds one. -/
theorem findSome?_all_of_mem (hc : Command.ofObject frame = .ok c) (h : c.id ∈ session.seenIds) :
    Check.all.findSome? (fault service m frame session server) =
      some (.protocol (.duplicateId c.id)) := by
  have hall : Check.all = .envelope :: .fresh :: Check.all.drop 2 := by decide
  have henvelope : fault service m frame session server .envelope = none := by
    simp only [fault, hc]
  rw [hall, List.findSome?_cons, henvelope, List.findSome?_cons, fault_fresh hc, if_pos h]

/-- Only the check of the identifier finds a repeated one. -/
theorem mem_of_findSome?_all {r : Refusal} (hc : Command.ofObject frame = .ok c)
    (hfound : Check.all.findSome? (fault service m frame session server) = some r)
    (hcode : r.code = "ProtocolError")
    (htext : refusalText r = refusalText (.protocol (.duplicateId c.id))) :
    c.id ∈ session.seenIds := by
  obtain ⟨check, -, hcheck⟩ := List.exists_of_findSome?_eq_some hfound
  have hkind : check = .envelope ∨ check = .fresh ∨ check = .payload := by
    rw [code_of_fault hcheck] at hcode
    revert hcode
    cases check <;> decide
  rcases hkind with rfl | rfl | rfl
  · simp only [fault, hc] at hcheck
    contradiction
  · rw [fault_fresh hc] at hcheck
    exact (Option.ite_none_right_eq_some.mp hcheck).1
  · obtain ⟨c', -, hcheck⟩ := Option.bind_eq_some_iff.mp hcheck
    obtain ⟨kind, -, hcheck⟩ := Option.bind_eq_some_iff.mp hcheck
    split at hcheck
    · contradiction
    · rename_i e hparse
      obtain rfl := Option.some.inj hcheck
      rw [ProtocolError.eq_duplicateId ((String.append_right_inj _).mp htext)] at hparse
      exact absurd hparse Request.parse_ne_duplicateId

/-- A command is told that its identifier is repeated exactly if that is remembered. -/
theorem told_repeated_iff (service : Service) (m : Moment) (server : Server σ)
    (hc : Command.ofObject frame = .ok c) :
    let response := (dispatch service m frame session server).response
    response.errorCode? = some "ProtocolError" ∧
        response.error? = some (refusalText (.protocol (.duplicateId c.id))) ↔
      c.id ∈ session.seenIds := by
  obtain ⟨hcode, htext⟩ := error_eq service m frame session server
  dsimp only at hcode htext ⊢
  rw [hcode, htext]
  constructor
  · rintro ⟨hcode, htext⟩
    obtain ⟨r, hfound, hcode⟩ := Option.map_eq_some_iff.mp hcode
    rw [hfound] at htext
    exact mem_of_findSome?_all hc hfound hcode (Option.some.inj htext)
  · intro h
    rw [findSome?_all_of_mem hc h]
    exact ⟨rfl, rfl⟩

end Dispatch

/-! ### Repeated commands of a session -/

variable {σ : Type} [Backend σ] {service : Service} {past : List (Exchange σ)} {e : Exchange σ}

namespace Exchange

/-- The frame is a command that is refused because its identifier is repeated. -/
def repeated (service : Service) (e : Exchange σ) : Bool :=
  let response := (e.turn service).response
  e.command?.any fun c => response.errorCode? == some "ProtocolError" &&
    response.error? == some ("ProtocolError: " ++ (ProtocolError.duplicateId c.id).message)

/-- The identifier of the frame, if that is a command which is not refused as repeated, whatever
else becomes of it. -/
def newId? (service : Service) (e : Exchange σ) : Option String :=
  if e.repeated service then none else e.command?.map (·.id)

/-- A command is refused as repeated exactly if its identifier is remembered. -/
theorem repeated_iff (service : Service) (e : Exchange σ) :
    e.repeated service = true ↔ ∃ c, e.command? = some c ∧ c.id ∈ e.session.seenIds := by
  rw [repeated, Option.any_eq_true]
  refine exists_congr fun c => and_congr_right fun hcommand => ?_
  cases hframe : e.visit.frame with
  | error fault =>
    rw [command?, hframe] at hcommand
    contradiction
  | ok frame =>
    rw [command?_of_ok hframe] at hcommand
    rw [turn_of_ok service hframe, Bool.and_eq_true, beq_iff_eq, beq_iff_eq]
    exact Dispatch.told_repeated_iff _ _ _ (Dispatch.ofObject_of_command? hcommand)

theorem newId?_of_known (service : Service)
    (h : ∀ c, e.command? = some c → c.id ∈ e.session.seenIds) : e.newId? service = none := by
  unfold newId?
  split
  · rfl
  · rename_i hrepeated
    cases hc : e.command? with
    | none => rfl
    | some c => exact absurd ((e.repeated_iff service).mpr ⟨c, hc, h c hc⟩) hrepeated

theorem newId?_of_new (service : Service) {c : Command} (hc : e.command? = some c)
    (h : c.id ∉ e.session.seenIds) : e.newId? service = some c.id := by
  have hno : ¬ e.repeated service = true := by
    rw [e.repeated_iff service]
    rintro ⟨c', hc', hin⟩
    obtain rfl : c = c' := Option.some.inj (hc.symm.trans hc')
    exact h hin
  rw [newId?, if_neg hno, hc]
  rfl

/-- The identifiers that the session remembers after a frame. -/
theorem turn_ids (service : Service) (e : Exchange σ) :
    let window := service.limits.duplicateWindow
    let s := e.session
    let after := (e.turn service).session
    (e.newId? service = none ∧ after.recentIds = s.recentIds ∧ after.seenIds = s.seenIds) ∨
    ∃ id, e.newId? service = some id ∧ id ∉ s.seenIds ∧
      after.recentIds = (if window = 0 then s.recentIds else (s.recentIds ++ [id]).rtake window) ∧
      after.seenIds = if window = 0 then s.seenIds
        else id :: s.seenIds.diff (s.recentIds.take (s.recentIds.length + 1 - window)) := by
  dsimp only
  obtain ⟨context?, hsession⟩ := e.turn_session service
  rw [hsession]
  by_cases hnew : ∃ c, e.command? = some c ∧ c.id ∉ e.session.seenIds
  · obtain ⟨c, hc, hin⟩ := hnew
    obtain ⟨frame, hframe, hreceived⟩ := received_of_command service hc
    rw [hreceived, Dispatch.received_of_new service.limits e.visit.moment hframe hin]
    exact .inr ⟨c.id, newId?_of_new service hc hin, hin, rfl, rfl⟩
  · have hknown : ∀ c, e.command? = some c → c.id ∈ e.session.seenIds := by
      intro c hc
      by_contra hin
      exact hnew ⟨c, hc, hin⟩
    rw [received_of_known service hknown]
    exact .inl ⟨newId?_of_known service hknown, rfl, rfl⟩

end Exchange

/-! ### The window of identifiers -/

/-- The identifiers of the commands that were not refused as repeated, oldest first. -/
def newIds (service : Service) (past : List (Exchange σ)) : List String :=
  past.filterMap (·.newId? service)

theorem newIds_concat (service : Service) (past : List (Exchange σ)) (e : Exchange σ) :
    newIds service (past ++ [e]) = newIds service past ++ (e.newId? service).toList := by
  rw [newIds, List.filterMap_append]
  cases h : e.newId? service <;> simp [newIds, h]

/-- The last entries of a list of last entries. -/
theorem rtake_rtake {α : Type} (l : List α) {n k : Nat} (h : n ≤ k) :
    (l.rtake k).rtake n = l.rtake n := by
  simp [List.rtake_eq_reverse_take_reverse, List.take_take, Nat.min_eq_left h]

/-- The last entries with one more are those of the whole list with one more. -/
theorem rtake_concat_rtake {α : Type} (l : List α) (x : α) {k : Nat} (h : k ≠ 0) :
    (l.rtake k ++ [x]).rtake k = (l ++ [x]).rtake k := by
  obtain ⟨n, rfl⟩ := Nat.exists_eq_succ_of_ne_zero h
  rw [List.rtake_concat_succ, List.rtake_concat_succ, rtake_rtake l (Nat.le_succ n)]

/-- Of a list without repetition, what is behind its front is what is not in front. -/
theorem mem_drop_iff {α : Type} {l : List α} (h : l.Nodup) (n : Nat) {x : α} :
    x ∈ l.drop n ↔ x ∈ l ∧ x ∉ l.take n := by
  have hsplit := List.take_append_drop n l
  rw [← hsplit] at h
  have hapart := (List.nodup_append.mp h).2.2
  constructor
  · intro hx
    exact ⟨List.mem_of_mem_drop hx, fun hfront => hapart x hfront x hx rfl⟩
  · rintro ⟨hx, hfront⟩
    rw [← hsplit] at hx
    exact (List.mem_append.mp hx).resolve_left hfront

/-- A session remembers the last of its new identifiers, each once, and the set of them has these
and no others. -/
structure Tracks (service : Service) (past : List (Exchange σ)) (session : Session) : Prop where
  last : session.recentIds = (newIds service past).rtake service.limits.duplicateWindow
  once : session.recentIds.Nodup
  set : session.seenIds.Nodup
  same : ∀ id, id ∈ session.recentIds ↔ id ∈ session.seenIds

namespace Tracks

theorem new (service : Service) (peer : Net.Endpoint) :
    Tracks service ([] : List (Exchange σ)) (.new peer) :=
  ⟨(List.rtake_nil ..).symm, .nil, .nil, fun _ => .rfl⟩

theorem few {session : Session} (h : Tracks service past session) :
    session.recentIds.length ≤ service.limits.duplicateWindow := by
  rw [h.last, List.rtake, List.length_drop]
  omega

/-- Every frame keeps the identifiers as they should be. -/
theorem step (past : List (Exchange σ)) (e : Exchange σ) (h : Tracks service past e.session) :
    Tracks service (past ++ [e]) (e.turn service).session := by
  have hids := e.turn_ids service
  dsimp only at hids
  rcases hids with ⟨hnone, hrecent, hseen⟩ | ⟨id, hid, hnew, hrecent, hseen⟩
  · have hsame : newIds service (past ++ [e]) = newIds service past := by
      rw [newIds_concat, hnone, Option.toList_none, List.append_nil]
    exact ⟨by rw [hrecent, hsame, h.last], by rw [hrecent]; exact h.once,
      by rw [hseen]; exact h.set, by rw [hrecent, hseen]; exact h.same⟩
  have hmore : newIds service (past ++ [e]) = newIds service past ++ [id] := by
    rw [newIds_concat, hid, Option.toList_some]
  by_cases hw : service.limits.duplicateWindow = 0
  · rw [if_pos hw] at hrecent hseen
    refine ⟨?_, by rw [hrecent]; exact h.once, by rw [hseen]; exact h.set,
      by rw [hrecent, hseen]; exact h.same⟩
    rw [hrecent, h.last, hw, List.rtake_zero, List.rtake_zero]
  · rw [if_neg hw] at hrecent hseen
    have habsent : id ∉ e.session.recentIds := fun hin => hnew ((h.same id).mp hin)
    -- The identifiers before the frame come apart into those that make room and those that stay.
    let surplus := e.session.recentIds.length + 1 - service.limits.duplicateWindow
    have hstay : (e.session.recentIds ++ [id]).rtake service.limits.duplicateWindow =
        e.session.recentIds.drop surplus ++ [id] := by
      have hle : surplus ≤ e.session.recentIds.length := by omega
      rw [List.rtake, List.length_append, List.length_singleton,
        List.drop_append_of_le_length hle]
    refine ⟨?_, ?_, ?_, ?_⟩
    · rw [hrecent, hmore, h.last, rtake_concat_rtake _ _ hw]
    · rw [hrecent, hstay, ← List.concat_eq_append]
      exact (h.once.sublist (List.drop_sublist ..)).concat
        fun hin => habsent (List.mem_of_mem_drop hin)
    · rw [hseen]
      exact List.nodup_cons.mpr ⟨fun hin => hnew (List.diff_subset _ _ hin), h.set.diff⟩
    · intro other
      rw [hrecent, hseen, hstay, List.mem_append, List.mem_singleton, List.mem_cons,
        h.set.mem_sdiff_iff, mem_drop_iff h.once, h.same]
      exact or_comm

end Tracks

/-- The duplicate window is exact. A command is refused as repeated exactly if its identifier is
among the last ones, as many as the window holds, of the commands of its session before it that were
not refused as repeated; whatever else became of those does not matter. At each point of a session
no identifier is remembered twice, there are not more of them than the window holds, and the set
for looking one up has exactly these. Without a window no command is refused as repeated. -/
theorem duplicates_exact (service : Service) (peer : Net.Endpoint) (server : Server σ)
    (visits : List (Visit σ)) (past : List (Exchange σ)) (e : Exchange σ)
    (future : List (Exchange σ))
    (h : exchanges service visits (.new peer) server = past ++ e :: future) :
    let window := service.limits.duplicateWindow
    (e.repeated service = true ↔
      ∃ c, e.command? = some c ∧ c.id ∈ (newIds service past).rtake window) ∧
    (window = 0 → e.repeated service = false) ∧
    ∀ s ∈ [e.session, (e.turn service).session], s.recentIds.Nodup ∧
      s.recentIds.length ≤ window ∧ ∀ id, id ∈ s.recentIds ↔ id ∈ s.seenIds := by
  intro window
  have htracks : Tracks service past e.session :=
    exchanges_invariant (P := Tracks service) Tracks.step visits (Tracks.new service peer) h
  have hexact : e.repeated service = true ↔
      ∃ c, e.command? = some c ∧ c.id ∈ (newIds service past).rtake window := by
    rw [e.repeated_iff service, ← htracks.last]
    simp only [htracks.same]
  refine ⟨hexact, ?_, ?_⟩
  · intro hw
    rw [← Bool.not_eq_true, hexact, hw, List.rtake_zero]
    rintro ⟨c, -, hin⟩
    exact List.not_mem_nil hin
  · have hnext := htracks.step _ e
    refine List.forall_mem_cons.mpr ⟨⟨htracks.once, htracks.few, htracks.same⟩, ?_⟩
    exact List.forall_mem_singleton.mpr ⟨hnext.once, hnext.few, hnext.same⟩

/-- Two identifiers are remembered. -/
def forgetful : Service := { hourly with limits := { Limits.standard with duplicateWindow := 2 } }

/-- An identifier comes three times, the third time when two others have come since. The first of
these stands in a command of no known kind. -/
def recurring : List (Exchange Recording) :=
  exchanges forgetful
    [firstLogin.visit, commandAt 2 "2" "dance" [], commandAt 3 "1" "get_displays" [],
      commandAt 4 "3" "get_displays" [], commandAt 5 "1" "get_displays" []]
    (.new default) firstLogin.server

/-- Only the second time it is refused. -/
theorem duplicates_exact_recurring :
    let window := forgetful.limits.duplicateWindow
    let past := recurring.dropLast
    let e := recurring.getLast (List.cons_ne_nil _ _)
    recurring = past ++ e :: [] ∧
    past.map (·.repeated forgetful) = [false, false, true, false] ∧
    e.repeated forgetful = false ∧
    (e.repeated forgetful = true ↔
      ∃ c, e.command? = some c ∧ c.id ∈ (newIds forgetful past).rtake window) ∧
    (window = 0 → e.repeated forgetful = false) ∧
    ∀ s ∈ [e.session, (e.turn forgetful).session], s.recentIds.Nodup ∧
      s.recentIds.length ≤ window ∧ ∀ id, id ∈ s.recentIds ↔ id ∈ s.seenIds := by
  intro window past e
  have hrun : recurring = past ++ e :: [] := rfl
  exact ⟨hrun, by decide +kernel, by decide +kernel,
    duplicates_exact forgetful default firstLogin.server _ past e [] hrun⟩

end RemoteDesk
