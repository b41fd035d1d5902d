import RemoteDesk.Desktop.Geometry

/-!
What a desktop can be asked to do, and what it replies to each call.
-/
namespace RemoteDesk.Desktop

inductive MouseButton where
  | left
  | right
  | middle
  deriving DecidableEq, Repr, Inhabited

namespace MouseButton

def name : MouseButton → String
  | .left => "Left"
  | .right => "Right"
  | .middle => "Middle"

/-- The accepted spellings. -/
def choices : List (String × MouseButton) :=
  [("LEFT", .left), ("Left", .left), ("left", .left), ("RIGHT", .right), ("Right", .right),
    ("right", .right), ("MIDDLE", .middle), ("Middle", .middle), ("middle", .middle)]

def ofName? (name : String) : Option MouseButton := choices.lookup name

end MouseButton

/-- An encoded picture of a display. -/
structure Capture where
  displayId : UInt32
  format : String
  width : UInt32
  height : UInt32
  data : Bytes
  deriving DecidableEq, Inhabited

inductive Call where
  | mouseMove (p : Point)
  | mouseClick (button : MouseButton) (p : Point)
  | mouseScroll (dx dy : Int32)
  | keyPress (key : String)
  | keyRelease (key : String)
  | typeText (text : String)
  | captureScreen (display : UInt32)
  | displays
  | windows
  | windowAt (p : Point)
  deriving DecidableEq, Repr, Inhabited

/-- What a call that succeeds replies. -/
abbrev Call.Reply : Call → Type
  | .captureScreen _ => Capture
  | .displays => List Display
  | .windows => List Window
  | .windowAt _ => Option Window
  | _ => Unit

/-- Why a desktop does not do what a call asks for. -/
inductive Error where
  | invalidDisplay (id : UInt32)
  | platform (reason : String)
  /-- An earlier call crashed, and no later one is let in. -/
  | lockPoisoned
  /-- This call crashed. -/
  | taskLost
  deriving DecidableEq, Repr, Inhabited

/-- What a response tells about an error. After a crash, `<task lost>` stands for the words in which
the runtime reports that the task of the call is lost. -/
def Error.message : Error → String
  | .invalidDisplay id => "invalid display id " ++ toString id.toNat
  | .platform reason => "platform error: " ++ reason
  | .lockPoisoned => "desktop backend unavailable: backend lock poisoned"
  | .taskLost => "desktop backend unavailable: <task lost>"

end RemoteDesk.Desktop
