import Mathlib.Logic.Function.Basic
import RemoteDesk.Desktop.Recording
import RemoteDesk.Proofs.Schedule

/-!
Clients that share a recording desktop. A client asks for one call after the other. A call waits
for the lock, and anyone who waits may get it when it is free; with the lock, the call draws its
number, marks its beginning, is written down, is answered and marks its end, each in a step of its
own; the lock is given back in a last step. A client may go away at any time. Its call does not: it
waits on, or runs on, without anyone who hears the answer. The failure switch may be thrown at any
time.
-/
namespace RemoteDesk.Desktop

/-! ### The parts of a call -/

namespace Recording

/-- A number is drawn. -/
def number (r : Recording) : UInt64 × Recording := (r.ids.next.1, { r with ids := r.ids.next.2 })

/-- A mark is put behind the log. -/
def mark (b : Boundary) (r : Recording) : Recording := { r with log := r.log ++ [b] }

/-- A call is written down. -/
def note (c : Call) (r : Recording) : Recording := { r with calls := r.calls ++ [c] }

/-- What happens when a call begins, part by part. -/
theorem enter_eq (c : Call) (r : Recording) :
    r.enter c = (r.number.1, (r.number.2.mark (.enter r.number.1)).note c) := rfl

theorem exit_eq (id : UInt64) (r : Recording) : r.exit id = r.mark (.exit id) := rfl

end Recording

namespace Outcome

variable {α : Type}

def isCrashed : Outcome α → Bool
  | .crashed => true
  | _ => false

/-- What the client is told. -/
def told : Outcome α → Except Error α
  | .done a => .ok a
  | .failed e => .error e
  | .crashed => .error .taskLost

theorem isCrashed_eq_false {o : Outcome α} (h : o ≠ .crashed) : o.isCrashed = false := by
  cases o with
  | done | failed => rfl
  | crashed => contradiction

end Outcome

/-- A call through an open guard, part by part. -/
theorem Guarded.perform_recording (c : Call) {g : Guarded Recording} (h : g.poisoned = false) :
    g.perform c = (((g.backend.enter c).2.answer c).told,
      ⟨(g.backend.enter c).2.exit (g.backend.enter c).1,
        ((g.backend.enter c).2.answer c).isCrashed⟩) := by
  have hperform : Backend.perform c g.backend =
    ((g.backend.enter c).2.answer c, (g.backend.enter c).2.exit (g.backend.enter c).1) := rfl
  rw [Guarded.perform, hperform, if_neg (by rw [h]; decide)]
  cases (g.backend.enter c).2.answer c <;> rfl

/-! ### Clients -/

/-- How far a client has come with its call. -/
inductive Stage where
  | idle
  /-- Before the lock. -/
  | waiting (c : Call)
  | admitted (c : Call)
  | numbered (c : Call) (id : UInt64)
  /-- The beginning has been marked. -/
  | entered (c : Call) (id : UInt64)
  | noted (c : Call) (id : UInt64)
  | answered (c : Call) (id : UInt64) (o : Outcome c.Reply)
  /-- The end has been marked. -/
  | exited (c : Call) (o : Outcome c.Reply)

namespace Stage

/-- Whether a client has the lock. -/
def isHolding : Stage → Bool
  | .idle | .waiting _ => false
  | _ => true

/-- Whether a call has marked its beginning and not its end. -/
def isInside : Stage → Bool
  | .entered .. | .noted .. | .answered .. => true
  | _ => false

/-- The call that has been written down and has not come to its end. -/
def noted? : Stage → Option Call
  | .noted c _ | .answered c _ _ => some c
  | _ => none

/-- The call that has been asked for and not been written down. -/
def unnoted? : Stage → Option Call
  | .waiting c | .admitted c | .numbered c _ | .entered c _ => some c
  | _ => none

end Stage

/-- A call that has come to its end. -/
structure Ended (ι : Type) where
  client : ι
  call : Call
  answer : Except Error call.Reply

structure Crowd (ι : Type) where
  desktop : Guarded Recording
  /-- Who has the lock. -/
  lock : Option ι
  stage : ι → Stage
  gone : ι → Bool
  /-- The calls that have come to their ends, in the order of these. -/
  ended : List (Ended ι)

namespace Crowd

variable {ι : Type} [DecidableEq ι]

inductive Action (ι : Type) where
  /-- A client asks for a call. -/
  | ask (i : ι) (c : Call)
  /-- The call of a client takes its next step. -/
  | goOn (i : ι)
  /-- A client goes away. -/
  | leave (i : ι)
  /-- The failure switch is thrown. -/
  | throwSwitch (fail : Bool)

/-- Nobody has asked for anything. -/
def start (displays : List Display) (windows : List Window) : Crowd ι :=
  ⟨.new (.new displays windows), none, fun _ => .idle, fun _ => false, []⟩

/-- A client comes to a stage, and leaves the desktop like this. -/
def moved (i : ι) (stage : Stage) (r : Recording) (w : Crowd ι) : Crowd ι :=
  { w with desktop := { w.desktop with backend := r }, stage := Function.update w.stage i stage }

/-- A call gets the lock. A guard that is closed sends it away. -/
def letIn (i : ι) (c : Call) (w : Crowd ι) : Crowd ι :=
  if w.desktop.poisoned then
    { w with
      stage := Function.update w.stage i .idle
      ended := w.ended ++ [⟨i, c, .error .lockPoisoned⟩] }
  else { w.moved i (.admitted c) w.desktop.backend with lock := some i }

/-- The next step of a client's call. -/
def goOn (i : ι) (w : Crowd ι) : Option (Crowd ι) :=
  let r := w.desktop.backend
  match w.stage i with
  | .idle => none
  | .waiting c => if w.lock.isNone then some (w.letIn i c) else none
  | .admitted c => some (w.moved i (.numbered c r.number.1) r.number.2)
  | .numbered c id => some (w.moved i (.entered c id) (r.mark (.enter id)))
  | .entered c id => some (w.moved i (.noted c id) (r.note c))
  | .noted c id => some (w.moved i (.answered c id (r.answer c)) r)
  | .answered c id o =>
    some { w.moved i (.exited c o) (r.mark (.exit id)) with
      ended := w.ended ++ [⟨i, c, o.told⟩] }
  | .exited _ o =>
    some { w with
      desktop := ⟨r, o.isCrashed⟩, lock := none, stage := Function.update w.stage i .idle }

def step : Action ι → Crowd ι → Option (Crowd ι)
  | .ask i c, w =>
    match w.gone i, w.stage i with
    | false, .idle => some { w with stage := Function.update w.stage i (.waiting c) }
    | _, _ => none
  | .goOn i, w => w.goOn i
  | .leave i, w => some { w with gone := Function.update w.gone i true }
  | .throwSwitch fail, w =>
    some { w with desktop.backend.shouldFail := fail }

/-- A call that nobody disturbs is carried out as the desktop carries out calls. -/
theorem run_turn {w : Crowd ι} {i : ι} {c : Call} (hlock : w.lock = none)
    (hstage : w.stage i = .waiting c) (hopen : w.desktop.poisoned = false) :
    Schedule.run step (List.replicate 7 (.goOn i)) w = some { w with
      desktop := (w.desktop.perform c).2
      stage := Function.update w.stage i .idle
      ended := w.ended ++ [⟨i, c, (w.desktop.perform c).1⟩] } := by
  rw [Guarded.perform_recording c hopen]
  simp [Schedule.run, step, goOn, hstage, hlock, hopen, letIn, moved, Recording.enter_eq,
    Recording.exit_eq]

end Crowd

end RemoteDesk.Desktop
