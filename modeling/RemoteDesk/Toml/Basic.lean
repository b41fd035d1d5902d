import RemoteDesk.Mismatch

/-!
TOML values. A table keeps its entries in the order in which they were written, one to a key, and
how it came about, since that says what may still be added to it.
-/
namespace RemoteDesk

/-- How a table came about. -/
inductive Toml.Origin where
  /-- Written in braces, which is all there is of it. -/
  | braces
  /-- Under a heading of its own. -/
  | heading
  /-- On the way of a heading to a table inside it. -/
  | passage
  /-- By a key with dots. -/
  | dots
  deriving DecidableEq, Repr, Inhabited

inductive Toml where
  | text (s : String)
  | integer (n : Int)
  | float (x : Float)
  | boolean (b : Bool)
  /-- A date, a time of day, or both. -/
  | moment
  | list (items : List Toml)
  /-- The tables under one repeated heading. -/
  | rows (tables : List (List (String × Toml)))
  | table (origin : Toml.Origin) (entries : List (String × Toml))
  deriving Inhabited

namespace Toml

/-- The entries of a table. -/
abbrev Entries := List (String × Toml)

/-- Puts a value in the place of the one under a key. -/
def Entries.replace (key : String) (value : Toml) (entries : Entries) : Entries :=
  entries.map fun e => if e.1 = key then (key, value) else e

/-- Adds an entry under a new key. -/
def Entries.add (key : String) (value : Toml) (entries : Entries) : Option Entries :=
  if (entries.lookup key).isSome then none else some (entries ++ [(key, value)])

/-- Whether a path that opens tables as `opening` may go through a table. A key with dots stays
out of tables with a heading, and nothing goes into braces. -/
def Origin.open? (opening : Origin) : Origin → Bool
  | .braces => false
  | .heading => opening ≠ .dots
  | .passage | .dots => true

/-- Works on the entries of the table that a path leads to. Tables that are not there yet are
opened; of the tables under a repeated heading the last one counts. The work is told how the
table came about, `here` being the answer for the path without steps. -/
def within (opening : Origin) (work : Origin → Entries → Option Entries) :
    Origin → List String → Entries → Option Entries
  | here, [], entries => work here entries
  | _, key :: path, entries =>
    match entries.lookup key with
    | none => do
      let inner ← within opening work opening path []
      return entries ++ [(key, .table opening inner)]
    | some (.table origin inner) =>
      if opening.open? origin then do
        let inner ← within opening work origin path inner
        return entries.replace key (.table origin inner)
      else none
    | some (.rows tables) => do
      let last ← within opening work .heading path (tables.getLast?.getD [])
      return entries.replace key (.rows (tables.dropLast ++ [last]))
    | some _ => none

/-- A key with the dots in it parted, its last part apart. -/
structure Key where
  path : List String
  last : String
  deriving DecidableEq, Repr, Inhabited

/-- Adds the value under a key. Keys with dots only add to tables that such keys have opened. -/
def Entries.addKey (key : Key) (value : Toml) : Entries → Option Entries :=
  within .dots (fun here entries =>
    if key.path.isEmpty ∨ here = .dots then entries.add key.last value else none)
    .heading key.path

def Entries.addKeys (pairs : List (Key × Toml)) (entries : Entries) : Option Entries :=
  pairs.foldlM (fun entries p => entries.addKey p.1 p.2) entries

/-- What a heading announces. -/
inductive Heading where
  | table (key : Key)
  /-- One more of the tables under the same heading. -/
  | row (key : Key)
  deriving DecidableEq, Repr, Inhabited

/-- A heading, and the entries up to the next one. -/
structure Part where
  heading : Heading
  pairs : List (Key × Toml)
  deriving Inhabited

/-- Adds a part to a document. A table may be headed once; one that was only passed through moves
to the end. -/
def Entries.addPart (p : Part) : Entries → Option Entries :=
  match p.heading with
  | .table key =>
    within .passage (fun _ entries =>
      match entries.lookup key.last with
      | none => do return entries ++ [(key.last, .table .heading (← addKeys p.pairs []))]
      | some (.table .passage inner) => do
        let inner ← addKeys p.pairs inner
        return entries.filter (·.1 ≠ key.last) ++ [(key.last, .table .heading inner)]
      | some _ => none) .heading key.path
  | .row key =>
    within .passage (fun _ entries => do
      let new ← addKeys p.pairs []
      match entries.lookup key.last with
      | none => return entries ++ [(key.last, .rows [new])]
      | some (.rows tables) => return entries.replace key.last (.rows (tables ++ [new]))
      | some _ => none) .heading key.path

/-- The document of the entries before any heading and of the parts. -/
def Entries.ofParts (pairs : List (Key × Toml)) (parts : List Part) : Option Entries := do
  let entries ← addKeys pairs []
  parts.foldlM (fun entries p => entries.addPart p) entries

end Toml

end RemoteDesk
