import RemoteDesk.Toml.Text

/-!
Writing TOML strings. The plainest of the four forms that fits is taken: one line before several,
and escapes only where nothing else will do.
-/
namespace RemoteDesk.Toml

/-- The forms of a string. -/
inductive Form where
  | basic
  | literal
  | basicLines
  | literalLines
  deriving DecidableEq, Repr

/-- Length of the run of a character at the front. -/
def runOf (q : Char) (cs : List Char) : Nat := (cs.takeWhile (· = q)).length

/-- Length of the longest run of a character. -/
def longestRun (q : Char) : List Char → Nat
  | [] => 0
  | c :: cs => max (runOf q (c :: cs)) (longestRun q cs)

/-- Characters that can only be written as an escape. -/
def needsEscape (c : Char) : Bool := !isAllowed c && c ≠ '\n'

def Form.of (cs : List Char) : Form :=
  let lines := cs.contains '\n'
  if cs.any needsEscape then if lines then .basicLines else .basic
  else if !lines && !cs.contains '\\' && !cs.contains '"' then .basic
  else if !lines && !cs.contains '\'' then .literal
  else if !cs.contains '\\' && longestRun '"' cs ≤ 2 then .basicLines
  else if longestRun '\'' cs ≤ 2 then .literalLines
  else if lines then .basicLines
  else .basic

/-- Four hexadecimal digits. -/
def hexFour (n : Nat) : List Char :=
  let digit := fun d : Nat => if d < 10 then Char.ofNat (48 + d) else Char.ofNat (55 + d)
  [digit (n / 4096 % 16), digit (n / 256 % 16), digit (n / 16 % 16), digit (n % 16)]

/-- A character other than a quote, in a string with escapes. -/
def escaped (lines : Bool) (c : Char) : List Char :=
  if c = '\x08' then ['\\', 'b']
  else if c = '\t' then ['\\', 't']
  else if c = '\n' then if lines then ['\n'] else ['\\', 'n']
  else if c = '\x0C' then ['\\', 'f']
  else if c = '\r' then ['\\', 'r']
  else if c = '\\' then ['\\', '\\']
  else if needsEscape c then '\\' :: 'u' :: hexFour c.toNat
  else [c]

/-- The characters of a string with escapes. In a string of several lines two quotes in a row may
stand for themselves; `quotes` counts those right before. -/
def escapeAll (lines : Bool) : Nat → List Char → List Char
  | _, [] => []
  | quotes, c :: cs =>
    if c = '"' then
      if quotes < (if lines then 2 else 0) then '"' :: escapeAll lines (quotes + 1) cs
      else '\\' :: '"' :: escapeAll lines 0 cs
    else escaped lines c ++ escapeAll lines 0 cs

/-- A line end behind the opening quotes, where the string has lines. -/
def firstLine (cs : List Char) : List Char := if cs.contains '\n' then ['\n'] else []

def Form.write (f : Form) (cs : List Char) : List Char :=
  match f with
  | .basic => '"' :: escapeAll false 0 cs ++ ['"']
  | .literal => '\'' :: cs ++ ['\'']
  | .basicLines => ['"', '"', '"'] ++ firstLine cs ++ escapeAll true 0 cs ++ ['"', '"', '"']
  | .literalLines => ['\'', '\'', '\''] ++ firstLine cs ++ cs ++ ['\'', '\'', '\'']

/-- The written form of a text. -/
def renderText (s : String) : String := String.ofList ((Form.of s.toList).write s.toList)

end RemoteDesk.Toml
