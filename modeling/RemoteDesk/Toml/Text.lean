import RemoteDesk.Bytes

/-!
Text in TOML: blanks, line ends and comments, and the four forms of strings. Readers take
characters off the front; `none` stands for what TOML does not allow. A carriage return counts
only before a line feed, and with it makes one line end.
-/
namespace RemoteDesk.Toml

abbrev Reader (α : Type) := List Char → Option (α × List Char)

/-- The text with line feeds for line ends. -/
def unifyLines : List Char → List Char
  | [] => []
  | '\r' :: '\n' :: r => '\n' :: unifyLines r
  | c :: r => c :: unifyLines r

def isBlank (c : Char) : Bool := c = ' ' || c = '\t'

def skipBlank (cs : List Char) : List Char := cs.dropWhile isBlank

/-- Controls other than the tab may stand nowhere within a line. -/
def isAllowed (c : Char) : Bool := c = '\t' || (0x20 ≤ c.toNat && c.toNat ≠ 0x7F)

def skipComment : List Char → List Char
  | '#' :: r => r.dropWhile isAllowed
  | cs => cs

/-- Takes what may follow a statement on its line. -/
def takeLineEnd (cs : List Char) : Option (List Char) :=
  match skipComment (skipBlank cs) with
  | [] => some []
  | '\n' :: r => some r
  | _ => none

/-- Passes over blanks, line ends and comments; `comment` while inside a comment. -/
def skipLines (comment : Bool) : List Char → List Char
  | [] => []
  | c :: r =>
    if c = '\n' then skipLines false r
    else if comment then if isAllowed c then skipLines true r else c :: r
    else if isBlank c then skipLines false r
    else if c = '#' then skipLines true r
    else c :: r

/-! ### Strings -/

/-- The character that a one-letter escape stands for. -/
def shortEscape? (c : Char) : Option Char :=
  if c = 'b' then some '\x08'
  else if c = 't' then some '\t'
  else if c = 'n' then some '\n'
  else if c = 'f' then some '\x0C'
  else if c = 'r' then some '\r'
  else if c = '"' then some '"'
  else if c = '\\' then some '\\'
  else none

/-- Where in a string with escapes a reader stands. -/
inductive Place where
  | plain
  /-- Behind a backslash. -/
  | escape
  /-- So many more digits belong to a code point. -/
  | digits (left value : Nat)
  /-- Behind a backslash and blanks, which only a line end may follow. -/
  | foldStart
  /-- Behind a backslash and a line end, where blanks and line ends are passed over. -/
  | folded
  deriving DecidableEq, Repr

/-- The string that three quotes end, and what follows: up to two more quotes belong to the
string. `out` is the string so far, last first. -/
def finishLines (quote : Char) (out rest : List Char) : String × List Char :=
  let extra := ((rest.take 2).takeWhile (· = quote)).length
  (String.ofList (out.reverse ++ List.replicate extra quote), rest.drop extra)

/-- Reads up to the closing quote, or three of them when the string may have `lines`. -/
def readEscaped (lines : Bool) : Place → List Char → Reader String
  | _, _, [] => none
  | .escape, out, c :: r =>
    if c = 'u' then readEscaped lines (.digits 4 0) out r
    else if c = 'U' then readEscaped lines (.digits 8 0) out r
    else match shortEscape? c with
      | some e => readEscaped lines .plain (e :: out) r
      | none =>
        if !lines then none
        else if isBlank c then readEscaped lines .foldStart out r
        else if c = '\n' then readEscaped lines .folded out r
        else none
  | .digits left value, out, c :: r =>
    match digitValue? 16 c with
    | none => none
    | some d =>
      let n := value * 16 + d
      if 1 < left then readEscaped lines (.digits (left - 1) n) out r
      else if n.isValidChar then readEscaped lines .plain (Char.ofNat n :: out) r
      else none
  | .foldStart, out, c :: r =>
    if isBlank c then readEscaped lines .foldStart out r
    else if c = '\n' then readEscaped lines .folded out r
    else none
  | place, out, c :: r =>
    if place = .folded ∧ (isBlank c ∨ c = '\n') then readEscaped lines .folded out r
    else if c = '\\' then readEscaped lines .escape out r
    else if c = '"' then
      if !lines then some (String.ofList out.reverse, r)
      else match r with
        | '"' :: '"' :: r => some (finishLines '"' out r)
        | _ => readEscaped lines .plain ('"' :: out) r
    else if isAllowed c ∨ (lines ∧ c = '\n') then readEscaped lines .plain (c :: out) r
    else none

/-- Reads up to the closing quote of a string without escapes. -/
def readLiteral (cs : List Char) : Option (String × List Char) :=
  let body := cs.takeWhile fun c => isAllowed c && c ≠ '\''
  match cs.drop body.length with
  | '\'' :: r => some (String.ofList body, r)
  | _ => none

/-- Reads up to the three closing quotes of a string without escapes. -/
def readLiteralLines : List Char → Reader String
  | _, [] => none
  | out, c :: r =>
    if c = '\'' then
      match r with
      | '\'' :: '\'' :: r => some (finishLines '\'' out r)
      | _ => readLiteralLines ('\'' :: out) r
    else if isAllowed c ∨ c = '\n' then readLiteralLines (c :: out) r
    else none

/-- A line end right behind the opening quotes does not belong to the string. -/
def skipFirstLine : List Char → List Char
  | '\n' :: r => r
  | cs => cs

/-- Reads a string that must not have line ends. -/
def readLine : Reader String
  | '"' :: r => readEscaped false .plain [] r
  | '\'' :: r => readLiteral r
  | _ => none

def readString : Reader String
  | '"' :: '"' :: '"' :: r => readEscaped true .plain [] (skipFirstLine r)
  | '\'' :: '\'' :: '\'' :: r => readLiteralLines [] (skipFirstLine r)
  | cs => readLine cs

end RemoteDesk.Toml
