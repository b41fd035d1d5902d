import Mathlib.Logic.Function.Basic
import RemoteDesk.Auth.Attempt
import RemoteDesk.Proofs.Auth.InTurn
import RemoteDesk.Proofs.Schedule

/-!
Attempts to log in that come and go at any time. Each source has a gate, which is made when it is
needed and forgotten when it is not. An attempt looks its gate up, or has it made, and refers to it
from then on; it gets in line at the gate, is let in when it is the first in line and nobody is
inside, reads the failures on record, waits, and is settled; it leaves the gate open, forgets it if
nobody else refers to it, and lets go of it. Whoever waits for something may give up instead. The
steps of different attempts come in any order, and the clock may show anything.
-/
namespace RemoteDesk.Auth

/-- How far an attempt has come, with its gate and the failures that it has read. -/
inductive Stage where
  | absent
  | arrived (gate : Nat)
  | lined (gate : Nat)
  | admitted (gate : Nat)
  | sleeping (gate : Nat) (count : UInt32)
  | checking (gate : Nat) (count : UInt32)
  /-- It has been settled or has given up, and is still inside. -/
  | judged (gate : Nat)
  | outside (gate : Nat)
  /-- It has seen whether anyone else refers to its gate. -/
  | parting (gate : Nat)
  | gone
  deriving DecidableEq

namespace Stage

/-- The gate that an attempt refers to. -/
def held? : Stage → Option Nat
  | .arrived g | .lined g | .admitted g | .sleeping g _ | .checking g _ | .judged g | .outside g
  | .parting g => some g
  | .absent | .gone => none

/-- The gate of an attempt that has not been through with it. -/
def live? : Stage → Option Nat
  | .parting _ => none
  | stage => stage.held?

/-- The gate that an attempt is inside of. -/
def inside? : Stage → Option Nat
  | .admitted g | .sleeping g _ | .checking g _ | .judged g => some g
  | _ => none

/-- The failures that an attempt has read and goes by. -/
def count? : Stage → Option UInt32
  | .sleeping _ count | .checking _ count => some count
  | _ => none

def isJudged : Stage → Bool
  | .judged _ => true
  | _ => false

end Stage

structure Gate (ι : Type) where
  inside : Option ι
  /-- First come, first served. -/
  line : List ι
  references : Nat

namespace Gate

variable {ι : Type}

/-- A new gate, to which nobody refers. -/
def new : Gate ι := ⟨none, [], 0⟩

def refer (gate : Gate ι) : Gate ι := { gate with references := gate.references + 1 }

def letGo (gate : Gate ι) : Gate ι := { gate with references := gate.references - 1 }

def lineUp (i : ι) (gate : Gate ι) : Gate ι := { gate with line := gate.line ++ [i] }

/-- The first in line goes inside. -/
def letIn (i : ι) (gate : Gate ι) : Gate ι :=
  { gate with inside := some i, line := gate.line.tail }

def letOut (gate : Gate ι) : Gate ι := { gate with inside := none }

def quit [DecidableEq ι] (i : ι) (gate : Gate ι) : Gate ι :=
  { gate with line := gate.line.erase i }

/-- Whether someone may go inside now. -/
def lets [DecidableEq ι] (i : ι) (gate : Gate ι) : Bool :=
  gate.inside.isNone && gate.line.head? = some i

end Gate

/-- Gates are named by numbers, in the order in which they are made. -/
structure Lobby (ι : Type) where
  gateOf : Net.Address → Option Nat
  gates : Nat → Gate ι
  made : Nat
  failures : Failures
  /-- How attempts were settled, in the order in which they were. -/
  settled : List (ι × Settlement)
  stage : ι → Stage

namespace Lobby

variable {ι : Type} [DecidableEq ι]

inductive Action (ι : Type) where
  | arrive (i : ι)
  | lineUp (i : ι)
  | enter (i : ι)
  | read (i : ι) (now : Time)
  | wake (i : ι)
  | settle (i : ι) (now : Time)
  | leave (i : ι)
  | part (i : ι)
  | letGo (i : ι)
  | giveUp (i : ι)
  deriving DecidableEq

namespace Action

/-- Whose step it is. -/
def client : Action ι → ι
  | .arrive i | .lineUp i | .enter i | .read i _ | .wake i | .settle i _ | .leave i | .part i
  | .letGo i | .giveUp i => i

end Action

/-- Nobody has come yet. -/
def start (fs : Failures) : Lobby ι :=
  ⟨fun _ => none, fun _ => .new, 0, fs, [], fun _ => .absent⟩

/-- An attempt comes to a stage. -/
def moved (i : ι) (stage : Stage) (w : Lobby ι) : Lobby ι :=
  { w with stage := Function.update w.stage i stage }

/-- A gate is changed. -/
def changed (g : Nat) (change : Gate ι → Gate ι) (w : Lobby ι) : Lobby ι :=
  { w with gates := Function.update w.gates g (change (w.gates g)) }

/-- The gate of a source is made. The lobby refers to it. -/
def make (source : Net.Address) (w : Lobby ι) : Lobby ι :=
  { w.changed w.made (fun _ => Gate.new.refer) with
    gateOf := Function.update w.gateOf source (some w.made), made := w.made + 1 }

/-- An attempt looks up the gate of its source, which is made if there is none. -/
def arrive (source : Net.Address) (i : ι) (w : Lobby ι) : Lobby ι :=
  match w.gateOf source with
  | some g => (w.changed g .refer).moved i (.arrived g)
  | none => ((w.make source).changed w.made .refer).moved i (.arrived w.made)

/-- The lobby lets go of the gate of a source. -/
def release (source : Net.Address) (w : Lobby ι) : Lobby ι :=
  match w.gateOf source with
  | some g =>
    { w.changed g .letGo with gateOf := Function.update w.gateOf source none }
  | none => w

/-- The gate of a source is forgotten if only the lobby and one attempt refer to it. -/
def forget (source : Net.Address) (g : Nat) (w : Lobby ι) : Lobby ι :=
  if (w.gates g).references = 2 then w.release source else w

section
variable {source : Net.Address} {g : Nat} {w : Lobby ι}

omit [DecidableEq ι] in
theorem release_of_some (h : w.gateOf source = some g) : w.release source =
    { w.changed g .letGo with gateOf := Function.update w.gateOf source none } := by
  rw [release, h]

omit [DecidableEq ι] in
theorem gateOf_release (source : Net.Address) (w : Lobby ι) :
    (w.release source).gateOf = Function.update w.gateOf source none := by
  unfold release
  split
  · rfl
  · rename_i hnone
    rw [← hnone, Function.update_eq_self]

omit [DecidableEq ι] in
@[simp] theorem stage_forget (source : Net.Address) (g : Nat) (w : Lobby ι) :
    (w.forget source g).stage = w.stage := by
  unfold forget release
  split
  · split <;> rfl
  · rfl

omit [DecidableEq ι] in
@[simp] theorem failures_forget (source : Net.Address) (g : Nat) (w : Lobby ι) :
    (w.forget source g).failures = w.failures := by
  unfold forget release
  split
  · split <;> rfl
  · rfl

end

variable (s : Settings) (attempts : ι → Attempt)

/-- What an attempt does that has been let in: it reads the failures on record, and has to wait or
not. -/
def read (i : ι) (g : Nat) (now : Time) (w : Lobby ι) : Lobby ι :=
  let count := w.failures.prior (attempts i).source now
  match s.policy count with
  | some _ => w.moved i (.sleeping g count)
  | none => w.moved i (.checking g count)

/-- An attempt is settled. -/
def settle (i : ι) (g : Nat) (now : Time) (w : Lobby ι) : Lobby ι :=
  let settled := (attempts i).settle s w.failures now
  { w.moved i (.judged g) with
    failures := settled.failures, settled := w.settled ++ [(i, settled)] }

def step : Action ι → Lobby ι → Option (Lobby ι)
  | .arrive i, w =>
    match w.stage i with
    | .absent => some (w.arrive (attempts i).source i)
    | _ => none
  | .lineUp i, w =>
    match w.stage i with
    | .arrived g => some ((w.changed g (.lineUp i)).moved i (.lined g))
    | _ => none
  | .enter i, w =>
    match w.stage i with
    | .lined g =>
      if (w.gates g).lets i then some ((w.changed g (.letIn i)).moved i (.admitted g)) else none
    | _ => none
  | .read i now, w =>
    match w.stage i with
    | .admitted g => some (w.read s attempts i g now)
    | _ => none
  | .wake i, w =>
    match w.stage i with
    | .sleeping g count => some (w.moved i (.checking g count))
    | _ => none
  | .settle i now, w =>
    match w.stage i with
    | .checking g _ => some (w.settle s attempts i g now)
    | _ => none
  | .leave i, w =>
    match w.stage i with
    | .judged g => some ((w.changed g .letOut).moved i (.outside g))
    | _ => none
  | .part i, w =>
    match w.stage i with
    | .outside g => some ((w.forget (attempts i).source g).moved i (.parting g))
    | _ => none
  | .letGo i, w =>
    match w.stage i with
    | .parting g => some ((w.changed g .letGo).moved i .gone)
    | _ => none
  | .giveUp i, w =>
    match w.stage i with
    | .lined g => some ((w.changed g (.quit i)).moved i (.outside g))
    | .sleeping g _ | .checking g _ => some (w.moved i (.judged g))
    | _ => none

/-- The steps of an attempt that nobody disturbs. It wakes if it has to wait. -/
def course (waits : Bool) (i : ι) (now later : Time) : List (Action ι) :=
  [.arrive i, .lineUp i, .enter i, .read i now] ++ (if waits then [.wake i] else []) ++
    [.settle i later, .leave i, .part i, .letGo i]

/-- An attempt that nobody disturbs is settled as attempts are, and leaves no gate behind. -/
theorem run_course {w : Lobby ι} {i : ι} (habsent : w.stage i = .absent)
    (hgate : w.gateOf (attempts i).source = none) (now later : Time) :
    ∃ w', Schedule.run (step s attempts)
        (course (Attempt.delay s w.failures (attempts i).source now).isSome i now later) w =
        some w' ∧
      w'.failures = ((attempts i).settle s w.failures later).failures ∧
      w'.settled = w.settled ++ [(i, (attempts i).settle s w.failures later)] ∧
      w'.gateOf = w.gateOf := by
  cases hdelay : Attempt.delay s w.failures (attempts i).source now <;>
  · rw [Attempt.delay] at hdelay
    simp [course, Schedule.run, step, arrive, make, read, settle, forget, release, changed, moved, Gate.new,
      Gate.refer, Gate.lineUp, Gate.lets, Gate.letIn, Gate.letOut, Gate.letGo, habsent, hgate,
      hdelay]

/-- The steps that can be taken, rule by rule. -/
inductive Taken (w : Lobby ι) : Action ι → Lobby ι → Prop
  | arrive {i} (absent : w.stage i = .absent) :
    Taken w (.arrive i) (w.arrive (attempts i).source i)
  | lineUp {i g} (arrived : w.stage i = .arrived g) :
    Taken w (.lineUp i) ((w.changed g (.lineUp i)).moved i (.lined g))
  | enter {i g} (lined : w.stage i = .lined g) (lets : (w.gates g).lets i = true) :
    Taken w (.enter i) ((w.changed g (.letIn i)).moved i (.admitted g))
  | read {i g now} (admitted : w.stage i = .admitted g) :
    Taken w (.read i now) (w.read s attempts i g now)
  | wake {i g count} (sleeping : w.stage i = .sleeping g count) :
    Taken w (.wake i) (w.moved i (.checking g count))
  | settle {i g count now} (checking : w.stage i = .checking g count) :
    Taken w (.settle i now) (w.settle s attempts i g now)
  | leave {i g} (judged : w.stage i = .judged g) :
    Taken w (.leave i) ((w.changed g .letOut).moved i (.outside g))
  | part {i g} (outside : w.stage i = .outside g) :
    Taken w (.part i) ((w.forget (attempts i).source g).moved i (.parting g))
  | letGo {i g} (parting : w.stage i = .parting g) :
    Taken w (.letGo i) ((w.changed g .letGo).moved i .gone)
  | quitLine {i g} (lined : w.stage i = .lined g) :
    Taken w (.giveUp i) ((w.changed g (.quit i)).moved i (.outside g))
  | quit {i g} (waiting : ∃ count, w.stage i = .sleeping g count ∨ w.stage i = .checking g count) :
    Taken w (.giveUp i) (w.moved i (.judged g))

variable {s attempts}

theorem taken_of_step {a : Action ι} {w w' : Lobby ι} (h : step s attempts a w = some w') :
    Taken s attempts w a w' := by
  cases a with
  | enter i =>
    rw [step] at h
    split at h
    · rename_i hlined
      split at h
      · rename_i hlets
        obtain rfl := Option.some.inj h
        exact .enter hlined hlets
      · contradiction
    · contradiction
  | giveUp i =>
    rw [step] at h
    split at h
    · rename_i hlined
      obtain rfl := Option.some.inj h
      exact .quitLine hlined
    · rename_i hsleeping
      obtain rfl := Option.some.inj h
      exact .quit ⟨_, .inl hsleeping⟩
    · rename_i hchecking
      obtain rfl := Option.some.inj h
      exact .quit ⟨_, .inr hchecking⟩
    · contradiction
  | _ =>
    rw [step] at h
    split at h
    · obtain rfl := Option.some.inj h
      constructor
      assumption
    · contradiction

/-! ### The course of one attempt -/

/-- The stages that follow each other. -/
inductive Follows : Action ι → Stage → Stage → Prop
  | arrive {i g} : Follows (.arrive i) .absent (.arrived g)
  | lineUp {i g} : Follows (.lineUp i) (.arrived g) (.lined g)
  | enter {i g} : Follows (.enter i) (.lined g) (.admitted g)
  | sleep {i g now count} : Follows (.read i now) (.admitted g) (.sleeping g count)
  | check {i g now count} : Follows (.read i now) (.admitted g) (.checking g count)
  | wake {i g count} : Follows (.wake i) (.sleeping g count) (.checking g count)
  | settle {i g now count} : Follows (.settle i now) (.checking g count) (.judged g)
  | leave {i g} : Follows (.leave i) (.judged g) (.outside g)
  | part {i g} : Follows (.part i) (.outside g) (.parting g)
  | letGo {i g} : Follows (.letGo i) (.parting g) .gone
  | quitLine {i g} : Follows (.giveUp i) (.lined g) (.outside g)
  | quitSleep {i g count} : Follows (.giveUp i) (.sleeping g count) (.judged g)
  | quitCheck {i g count} : Follows (.giveUp i) (.checking g count) (.judged g)

@[simp] theorem stage_moved (i : ι) (stage : Stage) (w : Lobby ι) :
    (w.moved i stage).stage i = stage := by
  simp [moved]

@[simp] theorem stage_settle (i : ι) (g : Nat) (now : Time) (w : Lobby ι) :
    (w.settle s attempts i g now).stage i = .judged g := by
  simp [settle, moved]

variable {a : Action ι} {w w' : Lobby ι}

/-- A step takes its attempt from one stage to the next. -/
theorem Taken.follows (h : Taken s attempts w a w') :
    Follows a (w.stage a.client) (w'.stage a.client) := by
  cases h with
  | arrive absent =>
    rw [Action.client, absent, Lobby.arrive]
    split <;> rw [stage_moved] <;> exact .arrive
  | lineUp arrived => rw [Action.client, arrived, stage_moved]; exact .lineUp
  | enter lined => rw [Action.client, lined, stage_moved]; exact .enter
  | read admitted =>
    rw [Action.client, admitted, Lobby.read]
    split <;> rw [stage_moved]
    · exact .sleep
    · exact .check
  | wake sleeping => rw [Action.client, sleeping, stage_moved]; exact .wake
  | settle checking => rw [Action.client, checking, stage_settle]; exact .settle
  | leave judged => rw [Action.client, judged, stage_moved]; exact .leave
  | part outside => rw [Action.client, outside, stage_moved]; exact .part
  | letGo parting => rw [Action.client, parting, stage_moved]; exact .letGo
  | quitLine lined => rw [Action.client, lined, stage_moved]; exact .quitLine
  | quit waiting =>
    rw [Action.client, stage_moved]
    obtain ⟨count, hstage | hstage⟩ := waiting <;> rw [hstage]
    · exact .quitSleep
    · exact .quitCheck

/-- A step leaves all other attempts where they are. -/
theorem Taken.stage_of_ne (h : Taken s attempts w a w') {j : ι} (hj : j ≠ a.client) :
    w'.stage j = w.stage j := by
  cases h with
  | arrive =>
    rw [Lobby.arrive]
    split <;> exact Function.update_of_ne hj _ _
  | read =>
    rw [Lobby.read]
    split <;> exact Function.update_of_ne hj _ _
  | part => exact (Function.update_of_ne hj _ _).trans (congrFun (stage_forget ..) j)
  | _ => exact Function.update_of_ne hj _ _

/-- What an attempt goes by is what it has read. -/
theorem count?_read (i : ι) (g : Nat) (now : Time) (w : Lobby ι) :
    ((w.read s attempts i g now).stage i).count? =
      some (w.failures.prior (attempts i).source now) := by
  rw [read]
  split <;> rw [stage_moved] <;> rfl

/-- Whoever goes by a count has just read it, or has just woken up with it. -/
theorem Taken.count? (h : Taken s attempts w a w') {count : UInt32}
    (hcount : (w'.stage a.client).count? = some count) :
    (∃ i g now, a = .read i now ∧ w.stage i = .admitted g ∧
      count = w.failures.prior (attempts i).source now) ∨
    ∃ i, a = .wake i ∧ (w.stage i).count? = some count := by
  cases h with
  | read admitted =>
    rw [Action.client, count?_read] at hcount
    exact .inl ⟨_, _, _, rfl, admitted, (Option.some.inj hcount).symm⟩
  | wake sleeping =>
    rw [Action.client, stage_moved] at hcount
    exact .inr ⟨_, rfl, by rw [sleeping]; exact hcount⟩
  | arrive absent =>
    rw [Lobby.arrive] at hcount
    split at hcount <;> rw [Action.client, stage_moved] at hcount <;> contradiction
  | settle checking =>
    rw [Action.client, stage_settle] at hcount
    contradiction
  | _ =>
    rw [Action.client, stage_moved] at hcount
    contradiction

end Lobby

end RemoteDesk.Auth
