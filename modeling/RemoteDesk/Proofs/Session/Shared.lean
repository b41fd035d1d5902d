import Mathlib.Logic.Function.Basic
import RemoteDesk.Proofs.Session.History

/-!
Sessions that share a server. A login meets what is shared twice: it reads the failures on record
when it comes, and leaves its own mark there once it has waited. In between, other sessions go on.
So a session goes on by two stages for each frame, and a schedule says which session takes the next
stage. Logins from one address also wait for each other at a gate; there are no fewer schedules here
for that.
-/
namespace RemoteDesk.Shared

open Json Desktop

variable {σ : Type}

/-- A frame that comes to a session, with what it meets there. -/
structure Delivery where
  frame : Except ProtocolError Members
  moment : Moment
  accounts : Accounts

namespace Delivery

def request? (d : Delivery) : Option Request :=
  match d.frame with
  | .ok frame => Dispatch.request? frame
  | .error _ => none

def IsLogin (d : Delivery) : Prop := ∃ c, d.request? = some (.authenticate c)

/-- The frame at a session and a server. -/
def exchange (d : Delivery) (session : Session) (server : Server σ) : Exchange σ :=
  ⟨⟨d.frame, d.moment, d.accounts, id⟩, session, server⟩

end Delivery

/-- When a frame has to do with what is shared. -/
inductive Stage where
  /-- The frame comes; how long it waits is decided. -/
  | arrival
  /-- It has waited, and is answered. -/
  | answer
  deriving DecidableEq, Repr

/-- A session goes one stage on with a frame. -/
structure Step (ι : Type) where
  who : ι
  delivery : Delivery
  stage : Stage

/-- What the clock says at a step. -/
def Step.reading {ι : Type} (s : Step ι) : Time :=
  match s.stage with
  | .arrival => s.delivery.moment.now
  | .answer => s.delivery.moment.settled

/-- Both stages of a frame. -/
def atOnce {ι : Type} (i : ι) (d : Delivery) : List (Step ι) :=
  [⟨i, d, .arrival⟩, ⟨i, d, .answer⟩]

/-- What a session is told. -/
structure Answer where
  response : Response
  events : List AuditEvent
  waited : Duration

/-- A session, with what it has been told so far. -/
structure Party where
  session : Session
  /-- How long the frame at hand waits. -/
  waits : Duration
  answers : List Answer

/-- Sessions and the server that they share. -/
structure World (ι σ : Type) where
  parties : ι → Party
  server : Server σ

/-- What becomes of a party at a stage. -/
def Party.next (stage : Stage) (turn : Turn σ) (p : Party) : Party :=
  match stage with
  | .arrival => { p with waits := turn.waited }
  | .answer => ⟨turn.session, .zero, p.answers ++ [⟨turn.response, turn.events, p.waits⟩]⟩

/-- What becomes of the server at a stage. -/
def serverNext (stage : Stage) (turn : Turn σ) (server : Server σ) : Server σ :=
  match stage with
  | .arrival => server
  | .answer => turn.server

namespace World

variable {ι : Type} [DecidableEq ι] [Backend σ] (service : Service) (w : World ι σ)

/-- The exchange that a step is part of. -/
def exchange (s : Step ι) : Exchange σ :=
  s.delivery.exchange (w.parties s.who).session w.server

def step (s : Step ι) : World ι σ :=
  let turn := (w.exchange s).turn service
  ⟨Function.update w.parties s.who ((w.parties s.who).next s.stage turn),
    serverNext s.stage turn w.server⟩

theorem step_parties_self (s : Step ι) : (w.step service s).parties s.who =
    (w.parties s.who).next s.stage ((w.exchange s).turn service) :=
  Function.update_self ..

theorem step_parties_of_ne {s : Step ι} {i : ι} (h : i ≠ s.who) :
    (w.step service s).parties i = w.parties i :=
  Function.update_of_ne h ..

theorem step_server (s : Step ι) : (w.step service s).server =
    serverNext s.stage ((w.exchange s).turn service) w.server := rfl

/-- Takes the steps of a schedule. -/
def run (steps : List (Step ι)) : World ι σ := steps.foldl (·.step service) w

/-- A frame that nothing comes between is handled as by a session that has the server to itself. -/
theorem run_atOnce (i : ι) (d : Delivery) :
    let turn := (d.exchange (w.parties i).session w.server).turn service
    w.run service (atOnce i d) =
      ⟨Function.update w.parties i ⟨turn.session, .zero, (w.parties i).answers ++
        [⟨turn.response, turn.events, turn.waited⟩]⟩, turn.server⟩ := by
  simp [run, atOnce, step, exchange, Party.next, serverNext]

end World

end RemoteDesk.Shared
