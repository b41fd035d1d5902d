import RemoteDesk.Desktop.Backend
import RemoteDesk.Sequence

/-!
A desktop that writes down the calls it gets and answers them from fixed displays and windows.
Every call is marked in a log when it begins and when it ends; calls that never overlap leave
each beginning right before its end.
-/
namespace RemoteDesk.Desktop

/-- A mark in the log. -/
inductive Boundary where
  | enter (id : UInt64)
  | exit (id : UInt64)
  deriving DecidableEq, Repr, Inhabited

namespace Boundary

def isExit : Boundary → Bool
  | .enter _ => false
  | .exit _ => true

/-- Whether each mark of a beginning is followed at once by that of its end. -/
def serialized : List Boundary → Bool
  | [] => true
  | .enter a :: .exit b :: log => a == b && serialized log
  | _ => false

/-- How many calls have ended. -/
def completed (log : List Boundary) : Nat := log.countP isExit

end Boundary

structure Recording where
  calls : List Call
  log : List Boundary
  ids : Sequence
  shouldFail : Bool
  allDisplays : List Display
  allWindows : List Window
  deriving Inhabited

namespace Recording

/-- A fresh desktop with these displays and windows. -/
def new (displays : List Display) (windows : List Window) : Recording :=
  ⟨[], [], .start, false, displays, windows⟩

/-- One full display. -/
def standardDisplay : Display := ⟨0, "Recording Display", 1920, 1080, 0, 0, true⟩

/-- Two windows side by side. -/
def standardWindows : List Window :=
  [⟨1, "Terminal", 800, 600, ⟨0, 0⟩, "terminal"⟩, ⟨2, "Editor", 800, 600, ⟨800, 0⟩, "editor"⟩]

def standard : Recording := new [standardDisplay] standardWindows

/-- A call begins: its number, and the desktop with the call written down. -/
def enter (c : Call) (r : Recording) : UInt64 × Recording :=
  let (id, ids) := r.ids.next
  (id, { r with calls := r.calls ++ [c], log := r.log ++ [.enter id], ids })

/-- A call ends. -/
def exit (id : UInt64) (r : Recording) : Recording := { r with log := r.log ++ [.exit id] }

/-- What a call that does not fail replies. -/
def reply (r : Recording) : (c : Call) → Except Error c.Reply
  | .mouseMove _ | .mouseClick _ _ | .mouseScroll _ _ => .ok ()
  | .keyPress _ | .keyRelease _ | .typeText _ => .ok ()
  | .captureScreen id =>
    match r.allDisplays.find? (·.id == id) with
    | some d => .ok ⟨id, "raw", d.width, d.height, List.replicate 16 0xAB⟩
    | none => .error (.invalidDisplay id)
  | .displays => .ok r.allDisplays
  | .windows => .ok r.allWindows
  | .windowAt p => .ok (r.allWindows.find? (·.contains p))

/-- The answer to a call that is inside. -/
def answer (c : Call) (r : Recording) : Outcome c.Reply :=
  if r.shouldFail then .failed (.platform "simulated failure")
  else match r.reply c with
    | .ok a => .done a
    | .error e => .failed e

instance : Backend Recording where
  perform c r :=
    let (id, r) := r.enter c
    (r.answer c, r.exit id)

end Recording

end RemoteDesk.Desktop
