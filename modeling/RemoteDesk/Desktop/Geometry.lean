import RemoteDesk.Json.Record
import RemoteDesk.Json.Printer

/-!
Displays and windows: what a query of the desktop tells. All coordinates live in one space;
displays and windows may sit at negative offsets. A rectangle holds its left and top edges, not
its right and bottom ones.
-/
namespace RemoteDesk.Desktop

structure Point where
  x : Int32
  y : Int32
  deriving DecidableEq, Repr, Inhabited

/-- A connected monitor. -/
structure Display where
  id : UInt32
  name : String
  width : UInt32
  height : UInt32
  x : Int32
  y : Int32
  isPrimary : Bool
  deriving DecidableEq, Repr, Inhabited

/-- A top-level window. -/
structure Window where
  id : UInt64
  title : String
  width : UInt32
  height : UInt32
  position : Point
  /-- Empty when the owner is not known. -/
  processName : String
  deriving DecidableEq, Repr, Inhabited

/-- Whether a point lies in a rectangle. Edges are computed without bound. -/
def inRectangle (left top : Int32) (width height : UInt32) (p : Point) : Bool :=
  left.toInt ≤ p.x.toInt && p.x.toInt < left.toInt + width.toNat &&
  top.toInt ≤ p.y.toInt && p.y.toInt < top.toInt + height.toNat

def Display.contains (d : Display) (p : Point) : Bool := inRectangle d.x d.y d.width d.height p

def Window.contains (w : Window) (p : Point) : Bool :=
  inRectangle w.position.x w.position.y w.width w.height p

/-! ### Writing -/

/-- The fields by name, in their order. -/
def Point.members (p : Point) : List (String × Json) :=
  [("x", .int p.x.toInt), ("y", .int p.y.toInt)]

/-- The fields by name, in their order. -/
def Display.members (d : Display) : List (String × Json) :=
  [("id", .nat d.id.toNat), ("name", .str d.name), ("width", .nat d.width.toNat),
    ("height", .nat d.height.toNat), ("x", .int d.x.toInt), ("y", .int d.y.toInt),
    ("is_primary", .bool d.isPrimary)]

/-- The fields by name, in their order. -/
def Window.members (w : Window) : List (String × Json) :=
  [("id", .nat w.id.toNat), ("title", .str w.title), ("width", .nat w.width.toNat),
    ("height", .nat w.height.toNat), ("position", .obj w.position.members),
    ("process_name", .str w.processName)]

def Display.toJson (d : Display) : Json := .object d.members

def Window.toJson (w : Window) : Json := .object w.members

/-- The text with the fields in their order. -/
def Display.render (d : Display) : Bytes := Json.render (.obj d.members)

/-- The text with the fields in their order. -/
def Window.render (w : Window) : Bytes := Json.render (.obj w.members)

/-! ### Reading from data -/

section
open Data
variable {ν : Type} [Data ν]

def Point.ofData : ν → Except Mismatch Point :=
  let x := Field.needed "x" int32
  let y := Field.needed "y" int32
  record "Point" [x.test, y.test] fun ms => do return ⟨← x.of ms, ← y.of ms⟩

def Display.ofData : ν → Except Mismatch Display :=
  let id := Field.needed "id" uint32
  let name := Field.needed "name" string
  let width := Field.needed "width" uint32
  let height := Field.needed "height" uint32
  let x := Field.needed "x" int32
  let y := Field.needed "y" int32
  let isPrimary := Field.needed "is_primary" bool
  record "Display"
    [id.test, name.test, width.test, height.test, x.test, y.test, isPrimary.test] fun ms => do
      return ⟨← id.of ms, ← name.of ms, ← width.of ms, ← height.of ms, ← x.of ms, ← y.of ms,
        ← isPrimary.of ms⟩

def Window.ofData : ν → Except Mismatch Window :=
  let id := Field.needed "id" uint64
  let title := Field.needed "title" string
  let width := Field.needed "width" uint32
  let height := Field.needed "height" uint32
  let position := Field.needed "position" Point.ofData
  let process := Field.withDefault "process_name" string ""
  record "Window"
    [id.test, title.test, width.test, height.test, position.test, process.test] fun ms => do
      return ⟨← id.of ms, ← title.of ms, ← width.of ms, ← height.of ms, ← position.of ms,
        ← process.of ms⟩

end

/-! ### Reading from text -/

section
open Json

def readInt32 : Reader Int32 := readAs "i32" Data.int32
def readUInt32 : Reader UInt32 := readAs "u32" Data.uint32
def readUInt64 : Reader UInt64 := readAs "u64" Data.uint64

def Point.read : Nat → Reader Point :=
  readRecord "Point"
    (fun _ => [.of "x" readInt32 fun x p => { p with x },
      .of "y" readInt32 fun y p => { p with y }]) default

def Display.read : Nat → Reader Display :=
  readRecord "Display"
    (fun _ => [.of "id" readUInt32 fun id d => { d with id },
      .of "name" (readText "a string") fun name d => { d with name },
      .of "width" readUInt32 fun width d => { d with width },
      .of "height" readUInt32 fun height d => { d with height },
      .of "x" readInt32 fun x d => { d with x },
      .of "y" readInt32 fun y d => { d with y },
      .of "is_primary" readBool fun isPrimary d => { d with isPrimary }]) default

def Window.read : Nat → Reader Window :=
  readRecord "Window"
    (fun depth => [.of "id" readUInt64 fun id w => { w with id },
      .of "title" (readText "a string") fun title w => { w with title },
      .of "width" readUInt32 fun width w => { w with width },
      .of "height" readUInt32 fun height w => { w with height },
      .of "position" (Point.read depth) fun position w => { w with position },
      .free "process_name" (readText "a string") fun processName w => { w with processName }])
    ⟨0, "", 0, 0, ⟨0, 0⟩, ""⟩

/-- The display that a text spells. -/
def Display.parse (text : Bytes) : Except SyntaxError Display :=
  readAll (Display.read maxDepth) text

/-- The window that a text spells. -/
def Window.parse (text : Bytes) : Except SyntaxError Window :=
  readAll (Window.read maxDepth) text

end

end RemoteDesk.Desktop
