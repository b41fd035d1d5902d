import RemoteDesk.Bytes

/-!
Files by path, and computations that read some of them on their way. What such a computation
gives depends on the files alone, so it can be followed without a machine: a tree of files and
folders answers as a machine would that holds just these.
-/
namespace RemoteDesk

/-- Why a file cannot be read. -/
inductive FileFault where
  | notFound
  | denied
  | notADirectory
  | isADirectory
  /-- The bytes are no text. -/
  | notText
  | nameTooLong
  /-- A path holds the character that ends one. -/
  | brokenName
  | other (text : String)
  deriving DecidableEq, Repr, Inhabited

def FileFault.message : FileFault → String
  | .notFound => "No such file or directory (os error 2)"
  | .denied => "Permission denied (os error 13)"
  | .notADirectory => "Not a directory (os error 20)"
  | .isADirectory => "Is a directory (os error 21)"
  | .notText => "stream did not contain valid UTF-8"
  | .nameTooLong => "File name too long (os error 36)"
  | .brokenName => "file name contained an unexpected NUL byte"
  | .other text => text

/-- What reading a file gives. -/
abbrev FileResult := Except FileFault Bytes

/-! ### Trees -/

/-- What makes a path wrong before any folder is looked into. -/
def pathFault? (path : String) : Option FileFault :=
  if path.contains '\x00' then some .brokenName
  else if path = "" then some .notFound
  else if 4096 ≤ path.utf8ByteSize then some .nameTooLong
  else none

/-- Files and folders by the parts of their paths. -/
structure FileTree where
  files : List (List String × Bytes)
  folders : List (List String)
  /-- The folder that a path without a slash in front begins in. -/
  working : List String

namespace FileTree

/-- Where a part of a path leads to. Only folders lead anywhere. -/
def step (t : FileTree) (here : List String) (part : String) : Except FileFault (List String) :=
  if (t.files.lookup here).isSome then .error .notADirectory
  else if part = "" ∨ part = "." then .ok here
  else if part = ".." then .ok here.dropLast
  else if 255 < part.utf8ByteSize then .error .nameTooLong
  else
    let next := here ++ [part]
    if (t.files.lookup next).isSome ∨ next ∈ t.folders then .ok next else .error .notFound

/-- What reading at a path gives. -/
def read (t : FileTree) (path : String) : FileResult :=
  match pathFault? path with
  | some fault => .error fault
  | none => do
    let start := if path.startsWith "/" then [] else t.working
    let found ← (path.splitOn "/").foldlM t.step start
    match t.files.lookup found with
    | some bytes => .ok bytes
    | none => .error .isADirectory

end FileTree

/-! ### Reading -/

/-- A computation that reads files, one after the other. -/
inductive Reading (α : Type) where
  | done (a : α)
  | file (path : String) (next : FileResult → Reading α)

namespace Reading

variable {α β : Type}

def andThen : Reading α → (α → Reading β) → Reading β
  | .done a, f => f a
  | .file path next, f => .file path fun r => andThen (next r) f

instance : Monad Reading where
  pure := .done
  bind := andThen

/-- Reads a file. -/
def contents (path : String) : Reading FileResult := .file path .done

/-- The outcome of the computation among given files. -/
def run (files : String → FileResult) : Reading α → α
  | .done a => a
  | .file path next => run files (next (files path))

@[simp] theorem run_pure (files : String → FileResult) (a : α) :
    run files (pure a : Reading α) = a := rfl

@[simp] theorem run_contents (files : String → FileResult) (path : String) :
    run files (contents path) = files path := rfl

@[simp] theorem run_bind (files : String → FileResult) (x : Reading α) (f : α → Reading β) :
    run files (x >>= f) = run files (f (run files x)) := by
  show run files (andThen x f) = _
  induction x with
  | done a => rfl
  | file path next ih => exact ih (files path)

end Reading

end RemoteDesk
