import RemoteDesk.Proofs.Auth.InTurn
import RemoteDesk.Proofs.Desktop.Steady
import RemoteDesk.Proofs.Session.Course
import RemoteDesk.Proofs.Session.Shared

/-!
Sessions at different addresses do not notice each other. Each is told, and has to wait, as if the
sessions at other addresses were not there. The failures on record do differ: others leave theirs
there, and drop what is stale. What counts against an address does not differ at any time at which
that will matter.
-/
namespace RemoteDesk

open Json Desktop

variable {σ : Type} [Backend σ]

/-! ### What a frame takes from the server, and what it leaves there -/

namespace Dispatch

variable (service : Service) (m : Moment) (id : String) (session : Session) (server : Server σ)

omit [Backend σ] in
theorem login_waited (c : Credentials) : (login service m id c session server).waited =
    (service.auth.policy (server.failures.prior session.peer.host m.now)).getD .zero := by
  unfold login
  dsimp only
  split <;> rfl

omit [Backend σ] in
theorem login_events (c : Credentials) : (login service m id c session server).events =
    [(Auth.Attempt.settle service.auth server.failures ⟨session.peer.host, c, m.random⟩
      m.settled).event] := by
  unfold login
  dsimp only
  split <;> rfl

omit [Backend σ] in
theorem login_failures (c : Credentials) : (login service m id c session server).server.failures =
    server.failures.note ⟨m.settled, session.peer.host,
      !service.auth.accounts.verify c.username c.password⟩ := by
  have hsettle := Auth.Attempt.settle_failures service.auth server.failures
    ⟨session.peer.host, c, m.random⟩ m.settled
  unfold login
  dsimp only
  split <;> exact hsettle

theorem call_waited (c : Call) : (call service m id c session server).waited = .zero := by
  unfold call
  rcases server.desktop.perform c with ⟨e | reply, desktop⟩ <;> rfl

variable {server} {server' : Server σ}

omit [Backend σ] in
/-- What a login is told depends on what counts against its address. -/
theorem login_congr (c : Credentials) (prior : server.failures.prior session.peer.host m.settled =
      server'.failures.prior session.peer.host m.settled) :
    let turn := login service m id c session server
    let turn' := login service m id c session server'
    turn.response = turn'.response ∧ turn.events = turn'.events ∧ turn.session = turn'.session := by
  let a : Auth.Attempt := ⟨session.peer.host, c, m.random⟩
  have hevents : (login service m id c session server).events =
      (login service m id c session server').events := by
    have hevent := (Auth.Attempt.settle_congr (s := service.auth) (a := a) prior).2
    rw [login_events, login_events, hevent]
  cases hwho : service.auth.accounts.identify c.username c.password with
  | some who =>
    obtain ⟨hresponse, hsession, -⟩ := login_of_some service m id session server hwho
    obtain ⟨hresponse', hsession', -⟩ := login_of_some service m id session server' hwho
    exact ⟨hresponse.trans hresponse'.symm, hevents, hsession.trans hsession'.symm⟩
  | none =>
    obtain ⟨hresponse, hsession, -⟩ := login_of_none service m id session server hwho
    obtain ⟨hresponse', hsession', -⟩ := login_of_none service m id session server' hwho
    exact ⟨hresponse.trans hresponse'.symm, hevents, hsession.trans hsession'.symm⟩

/-- What a call is told is what the desktop answers. -/
theorem call_congr (c : Call)
    (answer : (server.desktop.perform c).1 = (server'.desktop.perform c).1) :
    let turn := call service m id c session server
    let turn' := call service m id c session server'
    turn.response = turn'.response ∧ turn.events = turn'.events ∧ turn.session = turn'.session := by
  dsimp only
  unfold call
  rcases hp : server.desktop.perform c with ⟨reply, desktop⟩
  rcases hp' : server'.desktop.perform c with ⟨reply', desktop'⟩
  rw [hp, hp'] at answer
  obtain rfl : reply = reply' := answer
  cases reply <;> exact ⟨rfl, rfl, rfl⟩

end Dispatch

namespace Exchange

variable {service : Service} {e : Exchange σ} {turn : Server σ → Turn σ}
  {made : Server σ → List Call} {server server' : Server σ}

omit [Backend σ] in
/-- The address of the session. -/
abbrev source (e : Exchange σ) : Net.Address := e.session.peer.host

omit [Backend σ] in
theorem source_received (service : Service) (e : Exchange σ) :
    (e.received service).peer.host = e.source :=
  congrArg Net.Endpoint.host (e.received_login service).1

/-- How long a response is held back depends on what counts against the address when the frame
comes, if it is a login, and on nothing else that is shared. -/
theorem Course.waited_congr (h : e.Course service turn made)
    (prior : ∀ c, e.request? = some (.authenticate c) →
      server.failures.prior e.source e.visit.moment.now =
        server'.failures.prior e.source e.visit.moment.now) :
    (turn server).waited = (turn server').waited := by
  cases h with
  | stopped id? r => rfl
  | call c call => rw [Dispatch.call_waited, Dispatch.call_waited]
  | login c credentials hc hnew hr =>
    rw [Dispatch.login_waited, Dispatch.login_waited, e.source_received service,
      prior credentials hr]

/-- What a session is told, and what becomes of it, depends on what counts against its address when
the response is ready, if the frame is a login, and on the answers of the desktop. -/
theorem Course.told_congr (h : e.Course service turn made)
    (prior : ∀ c, e.request? = some (.authenticate c) →
      server.failures.prior e.source e.visit.moment.settled =
        server'.failures.prior e.source e.visit.moment.settled)
    (answers : ∀ c : Call, (server.desktop.perform c).1 = (server'.desktop.perform c).1) :
    (turn server).response = (turn server').response ∧
      (turn server).events = (turn server').events ∧
      (turn server).session = (turn server').session := by
  cases h with
  | stopped id? r => exact ⟨rfl, rfl, rfl⟩
  | call c call => exact Dispatch.call_congr _ _ _ _ call (answers call)
  | login c credentials hc hnew hr =>
    apply Dispatch.login_congr
    rw [e.source_received service]
    exact prior credentials hr

/-- A frame leaves the failures on record alone, or is a login and leaves its outcome. -/
theorem Course.failures (h : e.Course service turn made) :
    (∀ server, (turn server).server.failures = server.failures) ∨
    ∃ c failed, e.request? = some (.authenticate c) ∧ ∀ server,
      (turn server).server.failures =
        server.failures.note ⟨e.visit.moment.settled, e.source, failed⟩ := by
  cases h with
  | stopped id? r => exact .inl fun _ => rfl
  | call c call => exact .inl fun server => by rw [(Dispatch.call_eq ..).2.2]
  | login c credentials hc hnew hr =>
    refine .inr ⟨credentials, !e.visit.accounts.verify credentials.username credentials.password,
      hr, fun server => ?_⟩
    rw [Dispatch.login_failures, e.source_received service]
    rfl

/-- A frame leaves the desktop to calls. -/
theorem Course.desktop (h : e.Course service turn made) (server : Server σ) :
    ∃ calls, (turn server).server.desktop = server.desktop.after calls := by
  cases h with
  | stopped id? r => exact ⟨[], rfl⟩
  | login c credentials => exact ⟨[], Dispatch.login_desktop ..⟩
  | call c call => exact ⟨[call], by rw [(Dispatch.call_eq ..).2.2]; rfl⟩

/-- A frame does not change the address. -/
theorem Course.source (h : e.Course service turn made) (server : Server σ) :
    (turn server).session.peer.host = e.source := by
  obtain ⟨context?, hsession⟩ := h.session server
  rw [hsession]
  exact e.source_received service

end Exchange

/-! ### Sessions at other addresses -/

namespace Shared

variable {ι : Type} [DecidableEq ι]

/-- Two runs of a schedule, one with all sessions and one with those at an address only. The
sessions at the address are in step, and what counts against it is the same whenever it will matter. -/
structure Apart (address : ι → Net.Address) (source : Net.Address) (desktop : Guarded σ)
    (steps : List (Step ι)) (w alone : World ι σ) : Prop where
  addresses : ∀ i, (w.parties i).session.peer.host = address i
  parties : ∀ i, address i = source → alone.parties i = w.parties i
  single : w.server.failures.OnePerAddress
  plain : w.server.failures.Plain
  prior : ∀ s ∈ steps, s.delivery.IsLogin →
    w.server.failures.prior source s.reading = alone.server.failures.prior source s.reading
  reached : ∃ calls, w.server.desktop = desktop.after calls
  reached' : ∃ calls, alone.server.desktop = desktop.after calls

namespace Apart

variable {service : Service} {address : ι → Net.Address} {source : Net.Address}
  {desktop : Guarded σ} {s : Step ι} {steps : List (Step ι)} {w alone : World ι σ}

omit [DecidableEq ι] in
/-- In the two runs, a step of a session at the address meets different servers at most. -/
theorem exchange_eq (h : Apart address source desktop (s :: steps) w alone)
    (hs : address s.who = source) :
    alone.exchange s = (w.exchange s).withServer alone.server := by
  rw [World.exchange, h.parties s.who hs]
  rfl

omit [DecidableEq ι] in
/-- Both desktops answer as the first one did. -/
theorem answers_eq (h : Apart address source desktop steps w alone) (steady : desktop.Steady)
    (c : Call) : (w.server.desktop.perform c).1 = (alone.server.desktop.perform c).1 := by
  obtain ⟨calls, hw⟩ := h.reached
  obtain ⟨calls', halone⟩ := h.reached'
  rw [hw, halone, steady, steady]

/-- The sessions stay at their addresses. -/
theorem addresses_step (h : Apart address source desktop steps w alone) (s : Step ι) (i : ι) :
    ((w.step service s).parties i).session.peer.host = address i := by
  by_cases hi : i = s.who
  · subst hi
    rw [World.step_parties_self]
    cases s.stage with
    | arrival => exact h.addresses s.who
    | answer => exact (((w.exchange s).course service).source w.server).trans (h.addresses s.who)
  · rw [World.step_parties_of_ne service w hi]
    exact h.addresses i

omit [DecidableEq ι] in
/-- A step leaves the failures on record alone, or is part of a login and leaves its outcome,
whatever the server is. -/
theorem failures_step (service : Service) (w : World ι σ) (s : Step ι) :
    let after (server : Server σ) :=
      serverNext s.stage (((w.exchange s).withServer server).turn service) server
    (∀ server, (after server).failures = server.failures) ∨
    s.delivery.IsLogin ∧ ∃ failed, ∀ server, (after server).failures =
      server.failures.note ⟨s.reading, (w.parties s.who).session.peer.host, failed⟩ := by
  unfold Step.reading
  cases s.stage with
  | arrival => exact .inl fun _ => rfl
  | answer =>
    rcases ((w.exchange s).course service).failures with hsame | ⟨c, failed, hr, hnote⟩
    · exact .inl hsame
    · exact .inr ⟨⟨c, hr⟩, failed, hnote⟩

/-- The desktop comes along by calls. -/
theorem reached_step {w : World ι σ} (h : ∃ calls, w.server.desktop = desktop.after calls)
    (service : Service) (s : Step ι) :
    ∃ calls, (w.step service s).server.desktop = desktop.after calls := by
  obtain ⟨calls, hcalls⟩ := h
  rw [World.step_server]
  cases s.stage with
  | arrival => exact ⟨calls, hcalls⟩
  | answer =>
    obtain ⟨more, hmore⟩ := ((w.exchange s).course service).desktop w.server
    exact ⟨calls ++ more, by rw [Guarded.after_append, ← hcalls]; exact hmore⟩

/-- The failures on record are as they should be after a step. -/
theorem table_step (h : Apart address source desktop steps w alone) (service : Service) (s : Step ι)
    (plain : s.delivery.IsLogin → s.reading.isLeap = false) :
    (w.step service s).server.failures.OnePerAddress ∧
      (w.step service s).server.failures.Plain := by
  rcases failures_step service w s with hsame | ⟨hlogin, failed, hnote⟩
  · have hsame : (w.step service s).server.failures = w.server.failures := hsame w.server
    rw [hsame]
    exact ⟨h.single, h.plain⟩
  · have hnote : (w.step service s).server.failures = w.server.failures.note _ := hnote w.server
    rw [hnote]
    exact ⟨h.single.note _, h.plain.note h.single fun _ => plain hlogin⟩

omit [DecidableEq ι] in
/-- What becomes of a party at the address is the same in the two runs. -/
theorem next_eq (h : Apart address source desktop (s :: steps) w alone) (steady : desktop.Steady)
    (hs : address s.who = source) (service : Service) (p : Party) :
    p.next s.stage ((alone.exchange s).turn service) =
      p.next s.stage ((w.exchange s).turn service) := by
  have hsource : (w.exchange s).source = source := (h.addresses s.who).trans hs
  have hcourse := (w.exchange s).course service
  have hprior := h.prior s List.mem_cons_self
  rw [h.exchange_eq hs]
  unfold Step.reading at hprior
  cases hstage : s.stage with
  | arrival =>
    rw [hstage] at hprior
    have hwaited : (((w.exchange s).withServer w.server).turn service).waited =
        (((w.exchange s).withServer alone.server).turn service).waited := by
      refine hcourse.waited_congr fun c hr => ?_
      rw [hsource]
      exact hprior ⟨c, hr⟩
    exact congrArg (Party.mk p.session · p.answers) hwaited.symm
  | answer =>
    rw [hstage] at hprior
    have htold : let turn (server : Server σ) := ((w.exchange s).withServer server).turn service
        (turn w.server).response = (turn alone.server).response ∧
          (turn w.server).events = (turn alone.server).events ∧
          (turn w.server).session = (turn alone.server).session := by
      refine hcourse.told_congr (fun c hr => ?_) (h.answers_eq steady)
      rw [hsource]
      exact hprior ⟨c, hr⟩
    obtain ⟨hresponse, hevents, hsession⟩ := htold
    show Party.mk _ _ _ = Party.mk _ _ _
    rw [← hresponse, ← hevents, ← hsession]
    rfl

/-- A step of a session at the address is the same in the two runs. -/
theorem own (h : Apart address source desktop (s :: steps) w alone) (steady : desktop.Steady)
    (hs : address s.who = source) (service : Service)
    (plain : s.delivery.IsLogin → s.reading.isLeap = false) :
    Apart address source desktop steps (w.step service s) (alone.step service s) := by
  obtain ⟨hsingle, hplain⟩ := h.table_step service s plain
  refine ⟨h.addresses_step s, ?_, hsingle, hplain, ?_, reached_step h.reached service s,
    reached_step h.reached' service s⟩
  · intro i hi
    by_cases hwho : i = s.who
    · subst hwho
      rw [World.step_parties_self, World.step_parties_self, h.parties s.who hi]
      exact h.next_eq steady hs service _
    · rw [World.step_parties_of_ne service _ hwho, World.step_parties_of_ne service _ hwho]
      exact h.parties i hi
  · intro later hlater hlogin
    have hold := h.prior later (List.mem_cons_of_mem _ hlater) hlogin
    have halone : (alone.step service s).server = serverNext s.stage
        (((w.exchange s).withServer alone.server).turn service) alone.server := by
      rw [World.step_server, h.exchange_eq hs]
    have hsource := (h.addresses s.who).trans hs
    rw [halone]
    rcases failures_step service w s with hsame | ⟨hlogs, failed, hnote⟩
    · rw [hsame alone.server]
      exact (congrArg (Auth.Failures.prior · source later.reading) (hsame w.server)).trans hold
    · -- Both tables get the same outcome, at a time at which the same counted.
      rw [hnote alone.server]
      refine (congrArg (Auth.Failures.prior · source later.reading) (hnote w.server)).trans ?_
      rw [hsource]
      exact Auth.Failures.prior_note_congr (h.prior s List.mem_cons_self hlogs) later.reading

/-- A step of a session at another address is not noticed. -/
theorem other (h : Apart address source desktop (s :: steps) w alone)
    (hs : address s.who ≠ source) (service : Service)
    (plain : ∀ step ∈ s :: steps, step.delivery.IsLogin → step.reading.isLeap = false)
    (clock : ∀ later ∈ steps, s.reading ≤ later.reading) :
    Apart address source desktop steps (w.step service s) alone := by
  obtain ⟨hsingle, hplain⟩ := h.table_step service s (plain s List.mem_cons_self)
  refine ⟨h.addresses_step s, ?_, hsingle, hplain, ?_, reached_step h.reached service s, h.reached'⟩
  · intro i hi
    have hwho : i ≠ s.who := by
      rintro rfl
      exact hs hi
    rw [World.step_parties_of_ne service w hwho]
    exact h.parties i hi
  · intro later hlater hlogin
    have hold := h.prior later (List.mem_cons_of_mem _ hlater) hlogin
    rcases failures_step service w s with hsame | ⟨hlogs, failed, hnote⟩
    · exact (congrArg (Auth.Failures.prior · source later.reading) (hsame w.server)).trans hold
    · -- What the step drops is stale, and will still be when the next login reads the clock.
      refine (congrArg (Auth.Failures.prior · source later.reading) (hnote w.server)).trans ?_
      have hne : source ≠ (w.parties s.who).session.peer.host := by
        rw [h.addresses s.who]
        exact Ne.symm hs
      refine (Auth.Failures.prior_note_later h.single hne fun _ streak hl hstale => ?_).trans hold
      exact Auth.Streak.isStale_later (h.plain source streak hl)
        (plain s List.mem_cons_self hlogs)
        (plain later (List.mem_cons_of_mem _ hlater) hlogin) (clock later hlater) hstale

/-- What the two runs agree on is kept by a whole schedule. -/
theorem run (h : Apart address source desktop steps w alone) (steady : desktop.Steady)
    (service : Service)
    (plain : ∀ step ∈ steps, step.delivery.IsLogin → step.reading.isLeap = false)
    (clock : (steps.map (·.reading)).Pairwise (· ≤ ·)) :
    Apart address source desktop [] (w.run service steps)
      (alone.run service (steps.filter fun s => address s.who = source)) := by
  induction steps generalizing w alone with
  | nil => exact h
  | cons s steps ih =>
    obtain ⟨hfirst, hrest⟩ := List.pairwise_cons.mp clock
    have hplain := fun step hstep => plain step (List.mem_cons_of_mem s hstep)
    by_cases hs : address s.who = source
    · rw [List.filter_cons_of_pos (by simpa using hs)]
      exact ih (h.own steady hs service (plain s List.mem_cons_self)) hplain hrest
    · rw [List.filter_cons_of_neg (by simpa using hs)]
      refine ih (h.other hs service plain ?_) hplain hrest
      intro later hlater
      exact hfirst _ (List.mem_map_of_mem hlater)

end Apart

/-- Sessions at different addresses do not interfere. However the steps of sessions at one server
interleave, a session is answered as it is when the sessions at other addresses take no step: it
gets the same responses after the same delays, and ends up in the same state. The clock must not go
back, no login may read it within a leap second, nor may a failure on record lie in one; and what
the desktop answers must not depend on earlier calls. -/
theorem run_alone (service : Service) (w : World ι σ) (steps : List (Step ι)) (i : ι)
    (steady : w.server.desktop.Steady) (single : w.server.failures.OnePerAddress)
    (known : w.server.failures.Plain) (clock : (steps.map (·.reading)).Pairwise (· ≤ ·))
    (plain : ∀ s ∈ steps, s.delivery.IsLogin → s.reading.isLeap = false) :
    let address (i : ι) := (w.parties i).session.peer.host
    let own := steps.filter fun s => address s.who = address i
    (w.run service steps).parties i = (w.run service own).parties i := by
  intro address own
  have hstart : Apart address (address i) w.server.desktop steps w w :=
    ⟨fun _ => rfl, fun _ _ => rfl, single, known, fun _ _ _ => rfl, ⟨[], rfl⟩, ⟨[], rfl⟩⟩
  exact ((hstart.run steady service plain clock).parties i rfl).symm

/-- One password; a second for whoever has failed once. -/
def strict : Service :=
  ⟨⟨⟨fun username given => if given = "pw" then some ⟨username⟩ else none,
      fun _ => ⟨true, true, true⟩⟩,
    Auth.Backoff.delayFor ⟨1, .ofSecs 1, .ofSecs 60⟩, .ofSecs 3600⟩, .standard⟩

/-- Two new sessions, at different addresses. -/
def pair (desktop : σ) : World Bool σ :=
  ⟨fun i => ⟨.new ⟨if i then .v4 192 0 2 20 else .v4 192 0 2 10, 0, 50000⟩, .zero, []⟩,
    ⟨[], .new desktop⟩⟩

/-- A command of a session. -/
def commandOf (now settled : Time) (id kind : String) (payload : Members) : Delivery :=
  ⟨.ok [("id", .str id), ("payload", .obj payload), ("type", .str kind)],
    ⟨now, settled, 0, [1, 2, 3], ""⟩, strict.auth.accounts⟩

def loginOf (now settled : Time) (id password : String) : Delivery :=
  commandOf now settled id "authenticate" [("password", .str password), ("username", .str "ada")]

/-- One session fails and tries again a quarter of an hour later; while it waits, the other one
fails twice. -/
def meddling : List (Step Bool) :=
  let again := loginOf (.ofNanos 900000000000) (.ofNanos 901000000000) "2" "pw"
  let wrong (nanos : Int) (id : String) := loginOf (.ofNanos nanos) (.ofNanos nanos) id "no"
  atOnce false (wrong 0 "1") ++ [⟨false, again, .arrival⟩] ++
    atOnce true (wrong 900000000001 "1") ++ atOnce true (wrong 900500000000 "2") ++
    [⟨false, again, .answer⟩]

/-- The session waits a second, as by itself. By the time it is answered, its failure is no longer
on record. -/
theorem run_alone_meddling :
    let w := pair Recording.standard
    let address (i : Bool) := (w.parties i).session.peer.host
    let own := meddling.filter fun s => address s.who = address false
    w.server.desktop.Steady ∧ w.server.failures.OnePerAddress ∧ w.server.failures.Plain ∧
    (meddling.map (·.reading)).Pairwise (· ≤ ·) ∧
    (∀ s ∈ meddling, s.delivery.IsLogin → s.reading.isLeap = false) ∧
    ((w.run strict meddling).parties false).answers.map (·.waited) = [.zero, .ofSecs 1] ∧
    (w.run strict meddling).parties false = (w.run strict own).parties false := by
  intro w address own
  have steady : w.server.desktop.Steady := Recording.standard.steady
  have single : w.server.failures.OnePerAddress := Auth.Failures.onePerAddress_nil
  have known : w.server.failures.Plain := Auth.Failures.plain_nil
  have clock : (meddling.map (·.reading)).Pairwise (· ≤ ·) := by decide +kernel
  have even : ∀ s ∈ meddling, s.reading.isLeap = false := by decide +kernel
  have plain : ∀ s ∈ meddling, s.delivery.IsLogin → s.reading.isLeap = false :=
    fun s hs _ => even s hs
  exact ⟨steady, single, known, clock, plain, by decide +kernel,
    run_alone strict w meddling false steady single known clock plain⟩

/-- A failure just before midnight that is another session's, behind one within a leap second. -/
def midnight : List (Step Bool) :=
  let leap : Time := ⟨1714607099, 1500000000, by decide⟩
  let before : Time := ⟨1714607999, 700000000, by decide⟩
  let after : Time := ⟨1714608000, 100000000, by decide⟩
  atOnce false (loginOf leap leap "1" "no") ++ atOnce true (loginOf before before "1" "no") ++
    atOnce false (loginOf after after "2" "pw")

/-- A call of another session that crashes. -/
def crash : List (Step Bool) :=
  let now := Time.ofNanos 0
  atOnce false (loginOf now now "1" "pw") ++ atOnce true (loginOf now now "1" "pw") ++
    atOnce true (commandOf now now "2" "mouse_move" [("x", .nat 0), ("y", .nat 0)]) ++
    atOnce false (commandOf now now "2" "get_displays" [])

/-- Across a leap second, a session may be spared its delay by a failure of another one. And a desktop
that answers each call alike, but crashes at some, does answer differently after a crash: then the
session of another client is refused as well. -/
theorem noticed_by_others :
    let own (steps : List (Step Bool)) := steps.filter (!·.who)
    let delays (steps : List (Step Bool)) :=
      (((pair Recording.standard).run strict steps).parties false).answers.map (·.waited)
    let successes (steps : List (Step Bool)) :=
      (((pair Crashing.mk).run strict steps).parties false).answers.map (·.response.isSuccess)
    (midnight.map (·.reading)).Pairwise (· ≤ ·) ∧ (Guarded.new Recording.standard).Steady ∧
    delays midnight = [.zero, .zero] ∧ delays (own midnight) = [.zero, .ofSecs 1] ∧
    (crash.map (·.reading)).Pairwise (· ≤ ·) ∧
    successes crash = [true, false] ∧ successes (own crash) = [true, true] := by
  intro own delays successes
  exact ⟨by decide +kernel, Recording.standard.steady, by decide +kernel, by decide +kernel,
    by decide +kernel, by decide +kernel, by decide +kernel⟩

end Shared

end RemoteDesk
