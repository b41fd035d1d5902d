import RemoteDesk.Time.Calendar
import RemoteDesk.Toml.Basic
import RemoteDesk.Toml.Text

/-!
Numbers, dates and times in TOML. Integers take 64 bits and may be written in four bases; single
underscores may part digits. Of a date or a time only that it is one is kept.
-/
namespace RemoteDesk.Toml

/-! ### Digits -/

/-- The digits at the front, without underscores, and what follows them. -/
def moreDigits (base : Nat) : List Char → List Nat × List Char
  | [] => ([], [])
  | '_' :: r =>
    match r with
    | [] => ([], ['_'])
    | c :: _ =>
      if (digitValue? base c).isSome then moreDigits base r else ([], '_' :: r)
  | c :: r =>
    match digitValue? base c with
    | some d =>
      let (ds, r) := moreDigits base r
      (d :: ds, r)
    | none => ([], c :: r)

/-- At least one digit. -/
def readDigits (base : Nat) : Reader (List Nat) := fun cs =>
  match cs with
  | c :: _ => if (digitValue? base c).isSome then some (moreDigits base cs) else none
  | [] => none

/-- The number that digits spell. -/
def spelled (base : Nat) (digits : List Nat) : Nat := digits.foldl (fun n d => n * base + d) 0

/-! ### Integers and floats -/

/-- Takes a sign; tells whether it is a minus. -/
def takeSign : List Char → Bool × List Char
  | '+' :: r => (false, r)
  | '-' :: r => (true, r)
  | cs => (false, cs)

/-- Reads digits without leading zeros. -/
def readWhole : Reader (List Nat)
  | '0' :: r => some ([0], r)
  | cs => readDigits 10 cs

/-- The base that a mark announces. -/
def base? : List Char → Option (Nat × List Char)
  | '0' :: 'x' :: r => some (16, r)
  | '0' :: 'o' :: r => some (8, r)
  | '0' :: 'b' :: r => some (2, r)
  | _ => none

def integer? (negative : Bool) (n : Nat) : Option Toml :=
  if negative then if n ≤ 1 <<< 63 then some (.integer (-n)) else none
  else if n < 1 <<< 63 then some (.integer n) else none

/-- The fraction behind a point, if there is one. -/
def readFraction : Reader (Option (List Nat))
  | '.' :: r => (readDigits 10 r).map fun (ds, r) => (some ds, r)
  | cs => some (none, cs)

/-- The exponent behind its letter, if there is one. -/
def readExponent : Reader (Option Int)
  | c :: r =>
    if c = 'e' ∨ c = 'E' then do
      let (negative, r) := takeSign r
      let (ds, r) ← readDigits 10 r
      let n : Int := spelled 10 ds
      return (some (if negative then -n else n), r)
    else some (none, c :: r)
  | [] => some (none, [])

/-- The double nearest to `significand · 10 ^ e`. -/
def nearest (significand : Nat) (e : Int) : Float :=
  if significand = 0 then 0.0
  else
    -- far outside the range of doubles the exact exponent does not matter
    let digits : Int := (Nat.toDigits 10 significand).length
    if 400 < e + digits then 1.0 / 0.0
    else if e + digits < -400 then 0.0
    else Float.ofScientific significand (e < 0) e.natAbs

/-- A number above the range of floats is none, one below it is negative infinity. -/
def float? (negative : Bool) (significand : Nat) (e : Int) : Option Toml :=
  let x := nearest significand e
  if negative then some (.float (-x))
  else if x.isInf then none
  else some (.float x)

/-- Infinity and not-a-number. -/
def special? : List Char → Option (Float × List Char)
  | 'i' :: 'n' :: 'f' :: r => some (1.0 / 0.0, r)
  | 'n' :: 'a' :: 'n' :: r => some (0.0 / 0.0, r)
  | _ => none

def readNumber : Reader Toml := fun cs =>
  match base? cs with
  | some (base, r) => do
    let (ds, r) ← readDigits base r
    return (← integer? false (spelled base ds), r)
  | none =>
    let (negative, r) := takeSign cs
    match special? r with
    | some (x, r) => some (.float (if negative then -x else x), r)
    | none => do
      let (whole, r) ← readWhole r
      let (fraction, r) ← readFraction r
      let (exponent, r) ← readExponent r
      match fraction, exponent with
      | none, none => return (← integer? negative (spelled 10 whole), r)
      | fraction, exponent =>
        let places := fraction.getD []
        return (← float? negative (spelled 10 (whole ++ places))
          (exponent.getD 0 - places.length), r)

/-! ### Dates and times -/

/-- Reads exactly so many digits. -/
def readFixed (count : Nat) : Reader Nat := fun cs =>
  match (cs.take count).mapM (digitValue? 10) with
  | some ds => if ds.length = count then some (spelled 10 ds, cs.drop count) else none
  | none => none

/-- Reads two digits of a number within bounds. -/
def readTwo (least most : Nat) : Reader Nat := fun cs => do
  let (n, r) ← readFixed 2 cs
  if least ≤ n ∧ n ≤ most then some (n, r) else none

def takeChar (wanted : Char) : List Char → Option (List Char)
  | c :: r => if c = wanted then some r else none
  | [] => none

/-- Takes a date of the calendar. -/
def takeDate (cs : List Char) : Option (List Char) := do
  let (year, r) ← readFixed 4 cs
  let (month, r) ← readTwo 1 12 (← takeChar '-' r)
  let (_, r) ← readTwo 1 (Date.monthLength year month) (← takeChar '-' r)
  return r

/-- Takes a time of day; its last minute may have one more second. -/
def takeClock (cs : List Char) : Option (List Char) := do
  let (_, r) ← readTwo 0 23 cs
  let (_, r) ← readTwo 0 59 (← takeChar ':' r)
  let (_, r) ← readTwo 0 60 (← takeChar ':' r)
  match r with
  | '.' :: c :: r => if c.isDigit then return r.dropWhile Char.isDigit else return '.' :: c :: r
  | r => return r

/-- Takes the distance from universal time, if it is there. -/
def takeOffset (cs : List Char) : Option (List Char) :=
  match cs with
  | [] => some []
  | c :: r =>
    if c = 'Z' ∨ c = 'z' then some r
    else if c = '+' ∨ c = '-' then do
      let (_, r) ← readTwo 0 23 r
      let (_, r) ← readTwo 0 59 (← takeChar ':' r)
      return r
    else some cs

/-- Takes the time of day behind a date, if it is there. -/
def takeClockAfter (cs : List Char) : Option (List Char) :=
  match cs with
  | [] => some []
  | c :: r =>
    if c = 'T' ∨ c = 't' ∨ c = ' ' then
      match takeClock r with
      | some r => takeOffset r
      | none => some cs
    else some cs

def readMoment : Reader Toml := fun cs =>
  match takeDate cs with
  | some r => do return (.moment, ← takeClockAfter r)
  | none => do return (.moment, ← takeClock cs)

end RemoteDesk.Toml
