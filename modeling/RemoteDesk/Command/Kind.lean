import RemoteDesk.Mismatch
import RemoteDesk.Permission

/-!
The kinds of commands that clients may send, and the permission that each of them needs. Only
`authenticate` needs none.
-/
namespace RemoteDesk

inductive CommandKind where
  | authenticate
  | mouseMove
  | mouseClick
  | mouseScroll
  | keyPress
  | keyRelease
  | typeText
  | captureScreen
  | getDisplays
  | listWindows
  | getWindowInfo
  deriving DecidableEq, Repr, Inhabited

namespace CommandKind

/-- All kinds, in their documented order. -/
def all : List CommandKind :=
  [.authenticate, .mouseMove, .mouseClick, .mouseScroll, .keyPress, .keyRelease, .typeText,
    .captureScreen, .getDisplays, .listWindows, .getWindowInfo]

/-- The name on the wire. -/
def name : CommandKind → String
  | .authenticate => "authenticate"
  | .mouseMove => "mouse_move"
  | .mouseClick => "mouse_click"
  | .mouseScroll => "mouse_scroll"
  | .keyPress => "key_press"
  | .keyRelease => "key_release"
  | .typeText => "type_text"
  | .captureScreen => "capture_screen"
  | .getDisplays => "get_displays"
  | .listWindows => "list_windows"
  | .getWindowInfo => "get_window_info"

def ofName? (name : String) : Option CommandKind := all.find? fun k => k.name == name

theorem mem_all (k : CommandKind) : k ∈ all := by cases k <;> decide

@[simp] theorem ofName?_name (k : CommandKind) : ofName? k.name = some k := by
  cases k <;> decide

/-- The kind of that name, or the complaint that there is none. -/
def named (name : String) : Except Mismatch CommandKind :=
  match ofName? name with
  | some k => .ok k
  | none => .error (.unknownVariant name (all.map (·.name)))

/-- The permission a command needs. -/
def permission? : CommandKind → Option Permission
  | .authenticate => none
  | .mouseMove | .mouseClick | .mouseScroll | .keyPress | .keyRelease | .typeText => some .input
  | .captureScreen => some .capture
  | .getDisplays | .listWindows | .getWindowInfo => some .query

@[simp] theorem permission?_eq_none_iff (k : CommandKind) :
    k.permission? = none ↔ k = .authenticate := by
  cases k <;> simp [permission?]

end CommandKind

end RemoteDesk
