import RemoteDesk.Proofs.Session.Checks

/-!
The way of a frame through the checks. The first early check that finds a fault stops it; if there
is none, its request is carried out. Either way the session has received the frame, which leaves
the login as it was.
-/
namespace RemoteDesk.Dispatch

open Json Desktop

variable {σ : Type} {service : Service} {m : Moment} {frame : Members} {session : Session}
  {server : Server σ} {c : Command}

/-- The session once a frame has been counted, remembered and let through, as far as it gets. -/
def received (limits : Limits) (m : Moment) (frame : Members) (session : Session) : Session :=
  match Command.ofObject frame with
  | .error _ => session.count
  | .ok c =>
    match session.count.remember c.id limits.duplicateWindow with
    | .error _ => session.count
    | .ok session => (session.letThrough limits m.instant).2

/-- A frame that is no command, or has a remembered identifier, is counted and that is all. -/
theorem received_of_known (limits : Limits) (m : Moment)
    (h : ∀ c, Command.ofObject frame = .ok c → c.id ∈ session.seenIds) :
    received limits m frame session = session.count := by
  unfold received
  cases hc : Command.ofObject frame with
  | error e => rfl
  | ok c =>
    have hold := Session.remember_of_mem (s := session.count) limits.duplicateWindow (h c hc)
    dsimp only
    rw [hold]

/-- A new command leaves its identifier as well, and its instant unless that is refused. -/
theorem received_of_new (limits : Limits) (m : Moment) (hc : Command.ofObject frame = .ok c)
    (h : c.id ∉ session.seenIds) :
    let window := limits.duplicateWindow
    received limits m frame session = { session.count with
      recentIds := if window = 0 then session.recentIds
        else (session.recentIds ++ [c.id]).rtake window
      seenIds := if window = 0 then session.seenIds
        else c.id :: session.seenIds.diff
          (session.recentIds.take (session.recentIds.length + 1 - window))
      recentCommands := (session.letThrough limits m.instant).2.recentCommands } := by
  have hnew := Session.remember_of_not_mem (s := session.count) limits.duplicateWindow h
  dsimp only
  unfold received
  rw [hc]
  dsimp only
  rw [hnew]
  dsimp only
  rw [Session.letThrough_session, Session.letThrough_session]
  rfl

/-- The login of a session is the same whatever is received. -/
theorem received_login (limits : Limits) (m : Moment) (frame : Members) (session : Session) :
    (received limits m frame session).peer = session.peer ∧
      (received limits m frame session).context? = session.context? := by
  by_cases h : ∃ c, Command.ofObject frame = .ok c ∧ c.id ∉ session.seenIds
  · obtain ⟨c, hc, hnew⟩ := h
    rw [received_of_new limits m hc hnew]
    exact ⟨rfl, rfl⟩
  · have hknown : ∀ c, Command.ofObject frame = .ok c → c.id ∈ session.seenIds := by
      intro c hc
      by_contra hnew
      exact h ⟨c, hc, hnew⟩
    rw [received_of_known limits m hknown]
    exact ⟨rfl, rfl⟩

/-- How a frame is dispatched: an early check stops it, or its request is carried out. -/
inductive Passage [Backend σ] (service : Service) (m : Moment) (frame : Members)
    (session : Session) (server : Server σ) : Turn σ → Prop where
  | stopped (r : Refusal)
      (fails : Check.early.findSome? (fault service m frame session server) = some r) :
      Passage service m frame session server
        (refuse m (Command.peekId frame) r (received service.limits m frame session) server)
  | passed (c : Command) (request : Request)
      (passes : Check.early.findSome? (fault service m frame session server) = none)
      (hc : Command.ofObject frame = .ok c) (hr : request? frame = some request) :
      Passage service m frame session server
        (perform service m c.id request (received service.limits m frame session) server)

/-- What is left to do for a command that the rate lets through. -/
def judge [Backend σ] (service : Service) (m : Moment) (c : Command) (session : Session)
    (server : Server σ) : Turn σ :=
  match session.authorize c m.now with
  | .error r => refuse m (some c.id) r session server
  | .ok kind =>
    match Request.parse kind c.payload with
    | .error e => refuse m (some c.id) (.protocol e) session server
    | .ok request => perform service m c.id request session server

/-- What is left to do for a command whose identifier is remembered. -/
def meter [Backend σ] (service : Service) (m : Moment) (c : Command) (session : Session)
    (server : Server σ) : Turn σ :=
  match session.letThrough service.limits m.instant with
  | (.error r, session) => refuse m (some c.id) r session server
  | (.ok (), session) => judge service m c session server

theorem handle_eq [Backend σ] (service : Service) (m : Moment) (c : Command) (session : Session)
    (server : Server σ) :
    handle service m c session server =
      match session.remember c.id service.limits.duplicateWindow with
      | .error r => refuse m (some c.id) r session server
      | .ok session => meter service m c session server := rfl

section Stages

variable [Backend σ]

theorem findSome?_early (service : Service) (m : Moment) (frame : Members) (session : Session)
    (server : Server σ) :
    Check.early.findSome? (fault service m frame session server) =
      (fault service m frame session server .envelope).or
        ((fault service m frame session server .fresh).or
          ((fault service m frame session server .rate).or
            ((Check.sender.findSome? (fault service m frame session server)).or
              (fault service m frame session server .payload)))) := by
  have he : Check.early = [.envelope] ++ ([.fresh] ++ ([.rate] ++ (Check.sender ++ [.payload]))) :=
    rfl
  rw [he]
  simp only [List.findSome?_append, List.findSome?_singleton]

theorem judge_passage (h : Command.ofObject frame = .ok c)
    (hearly : Check.early.findSome? (fault service m frame session server) =
      (Check.sender.findSome? (fault service m frame session server)).or
        (fault service m frame session server .payload)) :
    Passage service m frame session server
      (judge service m c (received service.limits m frame session) server) := by
  have hc := command?_of_ok h
  have hid := Command.peekId_of_ofObject h
  have ha := authorize_eq service m session server h
  unfold judge
  rw [authorize_congr (received_login service.limits m frame session).2]
  cases hsender : Check.sender.findSome? (fault service m frame session server) with
  | some r =>
    rw [hsender] at ha hearly
    rw [ha, ← hid]
    exact .stopped r hearly
  | none =>
    rw [hsender, Option.none_or] at hearly
    rw [hsender] at ha
    obtain ⟨kind, hk, hok⟩ := ha
    rw [hok]
    dsimp only
    have hrequest := request?_of_ok h hk
    cases hp : Request.parse kind c.payload with
    | error e =>
      have hf : fault service m frame session server .payload = some (.protocol e) := by
        simp [fault, hc, hk, hp]
      rw [hf] at hearly
      rw [← hid]
      exact .stopped _ hearly
    | ok request =>
      have hf : fault service m frame session server .payload = none := by
        simp [fault, hc, hk, hp]
      rw [hf] at hearly
      rw [hp] at hrequest
      exact .passed c request hearly h hrequest

theorem meter_passage (h : Command.ofObject frame = .ok c) {s : Session}
    (hs : session.count.remember c.id service.limits.duplicateWindow = .ok s)
    (hrecent : s.recentCommands = session.recentCommands)
    (hearly : Check.early.findSome? (fault service m frame session server) =
      (fault service m frame session server .rate).or
        ((Check.sender.findSome? (fault service m frame session server)).or
          (fault service m frame session server .payload))) :
    Passage service m frame session server (meter service m c s server) := by
  have hid := Command.peekId_of_ofObject h
  have hreceived : received service.limits m frame session =
      (s.letThrough service.limits m.instant).2 := by
    simp only [received, h, hs]
  have hresult := Session.letThrough_result (s := s) service.limits m.instant
  have hexpire : (s.expire service.limits.rateWindow m.instant).recentCommands =
      (session.expire service.limits.rateWindow m.instant).recentCommands := by
    unfold Session.expire
    rw [hrecent]
  rw [hexpire] at hresult
  unfold meter
  rcases hl : s.letThrough service.limits m.instant with ⟨result, s'⟩
  rw [hl] at hreceived hresult
  obtain rfl : s' = received service.limits m frame session := hreceived.symm
  by_cases hcrowd : service.limits.maxCommands ≠ 0 ∧ service.limits.maxCommands.toNat ≤
      (session.expire service.limits.rateWindow m.instant).recentCommands.length
  · have hr : fault service m frame session server .rate =
        some (.rateLimited service.limits.maxCommands service.limits.rateWindow.secs) :=
      if_pos hcrowd
    rw [hr, Option.some_or] at hearly
    obtain rfl : result = _ := hresult.trans (if_pos hcrowd)
    rw [← hid]
    exact .stopped _ hearly
  · have hr : fault service m frame session server .rate = none := if_neg hcrowd
    rw [hr, Option.none_or] at hearly
    obtain rfl : result = _ := hresult.trans (if_neg hcrowd)
    exact judge_passage h hearly

theorem handle_passage (h : Command.ofObject frame = .ok c) :
    Passage service m frame session server (handle service m c session.count server) := by
  have hc := command?_of_ok h
  have hid := Command.peekId_of_ofObject h
  have henvelope : fault service m frame session server .envelope = none := by
    simp only [fault, h]
  have hearly := findSome?_early service m frame session server
  rw [henvelope, Option.none_or] at hearly
  rw [handle_eq]
  by_cases hin : c.id ∈ session.seenIds
  · have hremember := Session.remember_of_mem (s := session.count)
      service.limits.duplicateWindow hin
    have hreceived : received service.limits m frame session = session.count := by
      simp only [received, h, hremember]
    have hf : fault service m frame session server .fresh =
        some (.protocol (.duplicateId c.id)) := by
      simp [fault, hc, hin]
    rw [hf, Option.some_or] at hearly
    rw [hremember, ← hid, ← hreceived]
    exact .stopped _ hearly
  · have hf : fault service m frame session server .fresh = none := by
      simp [fault, hc, hin]
    rw [hf, Option.none_or] at hearly
    have hnew := Session.remember_of_not_mem (s := session.count) service.limits.duplicateWindow hin
    rw [hnew]
    exact meter_passage h hnew rfl hearly

/-- Every frame is stopped by the first early check that finds a fault, or carried out. -/
theorem dispatch_passage (service : Service) (m : Moment) (frame : Members) (session : Session)
    (server : Server σ) :
    Passage service m frame session server (dispatch service m frame session server) := by
  unfold dispatch
  cases h : Command.ofObject frame with
  | ok c => exact handle_passage h
  | error e =>
    have hreceived : received service.limits m frame session = session.count := by
      simp only [received, h]
    have hf : fault service m frame session server .envelope = some (.protocol e) := by
      simp only [fault, h]
    have hearly := findSome?_early service m frame session server
    rw [hf, Option.some_or] at hearly
    dsimp only
    rw [← hreceived]
    exact .stopped _ hearly

end Stages

end RemoteDesk.Dispatch
