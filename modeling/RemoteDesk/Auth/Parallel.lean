import RemoteDesk.Auth.Attempt

/-!
Attempts that start together. Each source has a gate that lets one attempt in at a time, first
come first served; an attempt that is let in reads the failures on record, waits, and is settled.
Settling takes no time. What becomes ready at the same instant runs in the order in which it
became ready, and waits that began earlier end first.
-/
namespace RemoteDesk.Auth.Parallel

/-- What an attempt does when its turn comes. -/
inductive Stage where
  /-- It comes to the gate. -/
  | arriving
  /-- It has been let in. -/
  | entering
  /-- It has waited. -/
  | ripe
  deriving DecidableEq, Repr

/-- An attempt that has ended: its place in the list, when it ended, and how. -/
structure Finished where
  place : Nat
  endedAt : Nat
  result : Except Error Context
  event : AuditEvent

/-- Attempts are named by their places in the list. -/
structure State where
  /-- Nanoseconds since the start. -/
  elapsed : Nat
  ready : List (Nat × Stage)
  /-- Who sleeps until when, the earliest first. -/
  sleeping : List (Nat × Nat)
  /-- Who stands at a gate, in the order of coming. -/
  waiting : List Nat
  /-- The sources whose gate is taken. -/
  taken : List Net.Address
  failures : Failures
  /-- The last to end comes first. -/
  finished : List Finished

/-- Puts a sleeper behind those that wake no later. -/
def insertSleeper (wake place : Nat) : List (Nat × Nat) → List (Nat × Nat)
  | [] => [(wake, place)]
  | s :: ss => if wake < s.1 then (wake, place) :: s :: ss else s :: insertSleeper wake place ss

variable (s : Settings) (now : Time) (attempts : List Attempt)

/-- The first of those who wait for a source. -/
def nextWaiting? (source : Net.Address) (waiting : List Nat) : Option Nat :=
  waiting.find? fun place => (attempts[place]?).any (·.source = source)

/-- Settles an attempt and opens its gate for the next one. -/
def finish (place : Nat) (a : Attempt) (st : State) : State :=
  let settled := a.settle s st.failures now
  let st := { st with
    failures := settled.failures
    finished := ⟨place, st.elapsed, settled.result, settled.event⟩ :: st.finished }
  match nextWaiting? attempts a.source st.waiting with
  | some next =>
    { st with waiting := st.waiting.erase next, ready := st.ready ++ [(next, .entering)] }
  | none => { st with taken := st.taken.erase a.source }

/-- Lets an attempt in. Sleep is taken to be exact: an attempt wakes at the very nanosecond that its
delay ends, where a real timer may be up to a millisecond late. -/
def enter (place : Nat) (a : Attempt) (st : State) : State :=
  match Attempt.delay s st.failures a.source now with
  | none => finish s now attempts place a st
  | some d =>
    if d.toNanos = 0 then finish s now attempts place a st
    else { st with sleeping := insertSleeper (st.elapsed + d.toNanos) place st.sleeping }

/-- Runs one attempt that is ready. -/
def runOne (place : Nat) (stage : Stage) (a : Attempt) (st : State) : State :=
  match stage with
  | .arriving =>
    if st.taken.contains a.source then { st with waiting := st.waiting ++ [place] }
    else enter s now attempts place a { st with taken := a.source :: st.taken }
  | .entering => enter s now attempts place a st
  | .ripe => finish s now attempts place a st

/-- Lets time pass until the next sleepers wake. -/
def wake (st : State) : State :=
  match st.sleeping with
  | [] => st
  | (t, _) :: _ =>
    { st with
      elapsed := t
      ready := (st.sleeping.takeWhile (·.1 = t)).map fun w => (w.2, .ripe)
      sleeping := st.sleeping.dropWhile (·.1 = t) }

def step (st : State) : State :=
  match st.ready with
  | [] => wake st
  | (place, stage) :: ready =>
    match attempts[place]? with
    | none => { st with ready }
    | some a => runOne s now attempts place stage a { st with ready }

def run : Nat → State → State
  | 0, st => st
  | n + 1, st => run n (step s now attempts st)

/-- All attempts at the start. -/
def start (fs : Failures) : State :=
  ⟨0, (List.range attempts.length).map fun place => (place, .arriving), [], [], [], fs, []⟩

/-- Runs all attempts to their ends. Each takes at most three turns, and one wait. -/
def outcome (fs : Failures) : State :=
  run s now attempts (4 * attempts.length) (start attempts fs)

/-- How the attempt at a place ended. -/
def State.result? (st : State) (place : Nat) : Option Finished :=
  st.finished.find? (·.place = place)

/-- The audit log, oldest event first. -/
def State.events (st : State) : List AuditEvent := (st.finished.map (·.event)).reverse

end RemoteDesk.Auth.Parallel
