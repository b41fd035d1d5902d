import RemoteDesk.Desktop.Backend
import RemoteDesk.Text.Quoted

/-!
A desktop that exists in memory only: the cursor, the keys held down, what was scrolled, and the
tail of what was typed. Keys and text are bounded. A capture is a binary pixmap in which the
cursor's square lies over the windows and the windows, front-most first, over a gradient. A pixmap
that would have more bytes than a buffer can count crashes the call; there is memory for all others.
-/
namespace RemoteDesk.Desktop

structure Headless where
  allDisplays : List Display
  /-- Front-most first. -/
  allWindows : List Window
  cursor : Point
  /-- In increasing order. -/
  pressedKeys : List String
  typedText : List Char
  typedChars : UInt64
  scrolledX : Int64
  scrolledY : Int64
  clicks : UInt64
  deriving Inhabited

namespace Headless

/-- Side of the square that marks the cursor. -/
def cursorSize : Int := 6

/-- How much of the typed text is kept. -/
def textTail : Nat := 4096

/-- How many keys may be held down at once. -/
def maxKeys : Nat := 32

/-- The cursor starts at the corner of the first primary display, or else of the first one. -/
def new (displays : List Display) (windows : List Window) : Headless :=
  let home := displays.find? (·.isPrimary) <|> displays.head?
  let cursor : Point := match home with
    | some d => ⟨d.x, d.y⟩
    | none => ⟨0, 0⟩
  ⟨displays, windows, cursor, [], [], 0, 0, 0, 0⟩

def standardDisplay : Display := ⟨0, "Headless Display", 1920, 1080, 0, 0, true⟩

def standardWindows : List Window :=
  [⟨1, "Terminal", 800, 600, ⟨0, 0⟩, "terminal"⟩, ⟨2, "Editor", 1120, 1080, ⟨800, 0⟩, "editor"⟩]

def standard : Headless := new [standardDisplay] standardWindows

/-! ### Input -/

/-- The text of a point in messages. -/
def pointText (p : Point) : String :=
  "(" ++ toString p.x.toInt ++ ", " ++ toString p.y.toInt ++ ")"

/-- Moves the cursor to a point of some display. -/
def moveCursor (p : Point) (h : Headless) : Except Error Headless :=
  if h.allDisplays.any (·.contains p) then .ok { h with cursor := p }
  else .error (.platform (pointText p ++ " is outside every display"))

/-- The sum, kept within 64 bits. -/
def addScroll (total : Int64) (d : Int32) : Int64 :=
  Int64.ofInt (max (-9223372036854775808) (min (total.toInt + d.toInt) 9223372036854775807))

/-- Puts a key in its place among others. -/
def insertKey (key : String) : List String → List String
  | [] => [key]
  | k :: ks =>
    if key < k then key :: k :: ks
    else if key = k then k :: ks
    else k :: insertKey key ks

def pressKey (key : String) (h : Headless) : Except Error Headless :=
  if !h.pressedKeys.contains key && maxKeys ≤ h.pressedKeys.length then
    .error (.platform ("cannot hold " ++ Text.quoted key ++ ": " ++ toString maxKeys ++
      " keys are already down"))
  else .ok { h with pressedKeys := insertKey key h.pressedKeys }

/-- The last so many items of a list. -/
def lastOf (count : Nat) (l : List α) : List α := l.drop (l.length - count)

/-- The sum, kept within 64 bits. -/
def addTyped (total : UInt64) (n : Nat) : UInt64 :=
  UInt64.ofNat (min (total.toNat + n) 18446744073709551615)

def typeText (text : String) (h : Headless) : Headless :=
  let typed := text.toList
  { h with
    typedText := lastOf textTail (h.typedText ++ typed)
    typedChars := addTyped h.typedChars typed.length }

/-! ### Captures -/

/-- The colour of a window. -/
def windowColour (id : UInt64) : Bytes :=
  let h := id * 0x9E3779B97F4A7C15
  [(h >>> 56).toUInt8 ||| 0x40, (h >>> 48).toUInt8 ||| 0x40, (h >>> 40).toUInt8 ||| 0x40]

/-- Whether a point lies in the square at the cursor. -/
def inCursor (h : Headless) (p : Point) : Bool :=
  let dx := p.x.toInt - h.cursor.x.toInt
  let dy := p.y.toInt - h.cursor.y.toInt
  0 ≤ dx && dx < cursorSize && 0 ≤ dy && dy < cursorSize

/-- The gradient at a pixel of a display. -/
def background (d : Display) (row col : Nat) : Bytes :=
  [UInt8.ofNat (col * 255 / d.width.toNat), UInt8.ofNat (row * 255 / d.height.toNat),
    d.id.toUInt8 * 64]

/-- The colour of a pixel of a display. Sums of coordinates are not checked and wrap around. -/
def pixel (h : Headless) (d : Display) (row col : Nat) : Bytes :=
  let p : Point := ⟨d.x + Int32.ofNat col, d.y + Int32.ofNat row⟩
  if h.inCursor p then [255, 255, 255]
  else match h.allWindows.find? (·.contains p) with
    | some w => windowColour w.id
    | none => background d row col

/-- The first lines of a pixmap. -/
def pixmapHeader (d : Display) : Bytes :=
  utf8 ("P6\n" ++ toString d.width.toNat ++ " " ++ toString d.height.toNat ++ "\n255\n")

/-- The pixmap of a display. -/
def pixmap (h : Headless) (d : Display) : Bytes :=
  pixmapHeader d ++ (List.range d.height.toNat).flatMap fun row =>
    (List.range d.width.toNat).flatMap fun col => h.pixel d row col

/-- The most bytes that a buffer can be made for. -/
def maxBuffer : Nat := 9223372036854775807

/-- How large a buffer is asked for before the pixmap of a display is drawn. -/
def pixmapSize (d : Display) : Nat :=
  (pixmapHeader d).length + d.width.toNat * d.height.toNat * 3

/-- A picture of the first display with an identifier. -/
def capture (id : UInt32) (h : Headless) : Outcome Capture :=
  match h.allDisplays.find? (·.id == id) with
  | none => .failed (.invalidDisplay id)
  | some d =>
    if pixmapSize d ≤ maxBuffer then .done ⟨id, "ppm", d.width, d.height, h.pixmap d⟩
    else .crashed

/-! ### Calls -/

/-- Goes over to another state, unless that failed. -/
def update (h : Headless) : Except Error Headless → Outcome Unit × Headless
  | .ok h' => (.done (), h')
  | .error e => (.failed e, h)

/-- Carries out a call. One that fails or crashes changes nothing. -/
def perform : (c : Call) → Headless → Outcome c.Reply × Headless
  | .mouseMove p, h => h.update (h.moveCursor p)
  | .mouseClick _ p, h =>
    h.update ((h.moveCursor p).map fun h => { h with clicks := h.clicks + 1 })
  | .mouseScroll dx dy, h =>
    (.done (), { h with
      scrolledX := addScroll h.scrolledX dx, scrolledY := addScroll h.scrolledY dy })
  | .keyPress key, h => h.update (h.pressKey key)
  | .keyRelease key, h => (.done (), { h with pressedKeys := h.pressedKeys.erase key })
  | .typeText text, h => (.done (), h.typeText text)
  | .captureScreen id, h => (h.capture id, h)
  | .displays, h => (.done h.allDisplays, h)
  | .windows, h => (.done h.allWindows, h)
  | .windowAt p, h => (.done (h.allWindows.find? (·.contains p)), h)

instance : Backend Headless := ⟨perform⟩

end Headless

end RemoteDesk.Desktop
