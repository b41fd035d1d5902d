import RemoteDesk.Time.Duration

/-!
Points in time, counted in seconds from the start of 1970, and their dates in the Gregorian
calendar, which is taken to hold for all years. A leap second has no number of its own: it makes
the second before it last two seconds. The last point in time is the end of the year 262142; times
do not go beyond it.
-/
namespace RemoteDesk

/-- A day of the calendar. -/
structure Date where
  year : Int
  month : Nat
  day : Nat
  deriving DecidableEq, Repr, Inhabited

namespace Date

/-- Days from the start of 1970. Years are counted from March on, so that a leap day ends one. -/
def toDays (d : Date) : Int :=
  let y := if d.month ≤ 2 then d.year - 1 else d.year
  let era := y / 400
  let yearOfEra := y % 400
  let month := if d.month > 2 then d.month - 3 else d.month + 9
  let dayOfYear := (153 * month + 2) / 5 + d.day - 1
  era * 146097 + (yearOfEra * 365 + yearOfEra / 4 - yearOfEra / 100 + dayOfYear) - 719468

/-- The day so many days after the start of 1970. -/
def ofDays (days : Int) : Date :=
  let z := days + 719468
  let era := z / 146097
  let dayOfEra := (z % 146097).toNat
  let yearOfEra := (dayOfEra - dayOfEra / 1460 + dayOfEra / 36524 - dayOfEra / 146096) / 365
  let dayOfYear := dayOfEra - (365 * yearOfEra + yearOfEra / 4 - yearOfEra / 100)
  let month := (5 * dayOfYear + 2) / 153
  let day := dayOfYear - (153 * month + 2) / 5 + 1
  let y := era * 400 + yearOfEra
  if month < 10 then ⟨y, month + 3, day⟩ else ⟨y + 1, month - 9, day⟩

def isLeap (year : Int) : Bool := year % 4 = 0 ∧ (year % 100 ≠ 0 ∨ year % 400 = 0)

def monthLength (year : Int) (month : Nat) : Nat :=
  match month with
  | 4 | 6 | 9 | 11 => 30
  | 2 => if isLeap year then 29 else 28
  | _ => 31

end Date

/-- A point in time: a second, and the nanoseconds since it began. From the thousand millionth on
they are those of a leap second. -/
structure Time where
  secs : Int
  nanos : Nat
  nanos_lt : nanos < 2000000000
  deriving DecidableEq, Repr

namespace Time

instance : Inhabited Time := ⟨⟨0, 0, by decide⟩⟩

/-- Puts points in time in their order. -/
def rank (t : Time) : Int := t.secs * 2000000000 + t.nanos

instance : LE Time := ⟨fun a b => a.rank ≤ b.rank⟩
instance : LT Time := ⟨fun a b => a.rank < b.rank⟩
instance (a b : Time) : Decidable (a ≤ b) := inferInstanceAs (Decidable (a.rank ≤ b.rank))
instance (a b : Time) : Decidable (a < b) := inferInstanceAs (Decidable (a.rank < b.rank))

/-- Seconds in a day. -/
def daySecs : Int := 86400

/-- The last point in time. -/
def last : Time := ⟨((Date.mk 262142 12 31).toDays + 1) * daySecs - 1, 999999999, by decide⟩

/-- The point so many nanoseconds after the start of 1970, but not beyond the last one. No point
within a leap second is meant. -/
def ofNanos (n : Int) : Time :=
  if last.secs < n / 1000000000 then last
  else ⟨n / 1000000000, (n % 1000000000).toNat, by omega⟩

def isLeap (t : Time) : Bool := 1000000000 ≤ t.nanos

/-- The point so long after another, but not beyond the last one. From within a leap second it may
lead to a later point of it; from its end on, the leap second does not count. -/
def after (t : Time) (d : Duration) : Time :=
  let nanos := t.nanos + d.toNanos
  if !t.isLeap then ofNanos (t.secs * 1000000000 + nanos)
  else if h : nanos < 2000000000 then ⟨t.secs, nanos, h⟩
  else ofNanos ((t.secs - 1) * 1000000000 + nanos)

/-- Nanoseconds from one point to another. A leap second that the earlier time of the day lies in
counts as well. -/
def since (t s : Time) : Int :=
  let leaps : Int :=
    if s.secs % daySecs < t.secs % daySecs ∧ s.isLeap then 1
    else if t.secs % daySecs < s.secs % daySecs ∧ t.isLeap then -1
    else 0
  (t.secs - s.secs + leaps) * 1000000000 + (t.nanos - s.nanos)

@[simp] theorem since_self (t : Time) : t.since t = 0 := by simp [since]

/-- A point of the day: hours, minutes, seconds and nanoseconds. The sixtieth second is a leap
second. -/
structure Clock where
  hour : Nat
  minute : Nat
  second : Nat
  nano : Nat
  deriving DecidableEq, Repr

def date (t : Time) : Date := .ofDays (t.secs / daySecs)

def clock (t : Time) : Clock :=
  let s := (t.secs % daySecs).toNat
  ⟨s / 3600, s / 60 % 60, s % 60 + t.nanos / 1000000000, t.nanos % 1000000000⟩

/-! ### Text -/

/-- A number in at least so many digits. -/
def padded (width n : Nat) : String :=
  let digits := Nat.toDigits 10 n
  String.ofList (List.replicate (width - digits.length) '0' ++ digits)

/-- Years of more than four digits have their sign. -/
def yearText (year : Int) : String :=
  if 0 ≤ year ∧ year ≤ 9999 then padded 4 year.toNat
  else (if year < 0 then "-" else "+") ++ padded 4 year.natAbs

def dateText (d : Date) : String :=
  yearText d.year ++ "-" ++ padded 2 d.month ++ "-" ++ padded 2 d.day

def clockText (c : Clock) : String :=
  padded 2 c.hour ++ ":" ++ padded 2 c.minute ++ ":" ++ padded 2 c.second

/-- The fraction of a second, in as many groups of three digits as it needs. -/
def fractionText (nano : Nat) : String :=
  if nano = 0 then ""
  else if nano % 1000000 = 0 then "." ++ padded 3 (nano / 1000000)
  else if nano % 1000 = 0 then "." ++ padded 6 (nano / 1000)
  else "." ++ padded 9 nano

/-- Internet text, to the second. -/
def secondsText (t : Time) : String := dateText t.date ++ "T" ++ clockText t.clock ++ "Z"

/-- Internet text, to the millisecond. -/
def millisText (t : Time) : String :=
  dateText t.date ++ "T" ++ clockText t.clock ++ "." ++ padded 3 (t.clock.nano / 1000000) ++ "Z"

/-- Internet text, with the fraction there is. -/
def fullText (t : Time) : String :=
  dateText t.date ++ "T" ++ clockText t.clock ++ fractionText t.clock.nano ++ "Z"

/-- The text in the audit log. -/
def logText (t : Time) : String :=
  dateText t.date ++ " " ++ clockText t.clock ++ fractionText t.clock.nano ++ " UTC"

/-! ### Reading -/

/-- The number of so many digits, and what follows. -/
def takeNumber (count : Nat) (cs : List Char) : Option (Nat × List Char) :=
  let digits := cs.take count
  if digits.length = count ∧ digits.all (·.isDigit) then
    some (digits.foldl (fun n c => n * 10 + (c.toNat - 48)) 0, cs.drop count)
  else none

/-- What follows a character. -/
def takeChar (wanted : Char) : List Char → Option (List Char)
  | c :: cs => if c = wanted then some cs else none
  | [] => none

/-- A year: four digits, or a sign and four or more. -/
def takeYear : List Char → Option (Int × List Char)
  | '+' :: cs => signed cs 1
  | '-' :: cs => signed cs (-1)
  | cs => (takeNumber 4 cs).map fun (y, r) => (y, r)
where
  signed (cs : List Char) (sign : Int) : Option (Int × List Char) :=
    let count := (cs.takeWhile (·.isDigit)).length
    if count < 4 then none
    else (takeNumber count cs).map fun (y, r) => (sign * y, r)

/-- The nanoseconds of a fraction, if there is one. Digits after the ninth do not count. -/
def takeFraction : List Char → Option (Nat × List Char)
  | '.' :: cs =>
    let digits := cs.takeWhile (·.isDigit)
    if digits.isEmpty then none
    else
      let nine := (digits ++ List.replicate 9 '0').take 9
      (takeNumber 9 nine).map fun (n, _) => (n, cs.dropWhile (·.isDigit))
  | cs => some (0, cs)

/-- The minutes by which a time's text is ahead. -/
def takeOffset : List Char → Option Int
  | ['Z'] => some 0
  | ['z'] => some 0
  | '+' :: cs => minutes cs
  | '-' :: cs => (minutes cs).map (-·)
  | _ => none
where
  minutes (cs : List Char) : Option Int := do
    let (h, cs) ← takeNumber 2 cs
    let cs ← takeChar ':' cs
    let (m, cs) ← takeNumber 2 cs
    if cs.isEmpty ∧ h < 24 ∧ m < 60 then some (h * 60 + m : Nat) else none

/-- The point in time that an internet text names. -/
def parse (text : String) : Option Time := do
  let (year, cs) ← takeYear text.toList
  let cs ← takeChar '-' cs
  let (month, cs) ← takeNumber 2 cs
  let cs ← takeChar '-' cs
  let (day, cs) ← takeNumber 2 cs
  let cs ← takeChar 'T' cs <|> takeChar 't' cs <|> takeChar ' ' cs
  let (hour, cs) ← takeNumber 2 cs
  let cs ← takeChar ':' cs
  let (minute, cs) ← takeNumber 2 cs
  let cs ← takeChar ':' cs
  let (second, cs) ← takeNumber 2 cs
  let (nano, cs) ← takeFraction cs
  let offset ← takeOffset cs
  let leap := second / 60
  let nanos := leap * 1000000000 + nano
  if h : 1 ≤ month ∧ month ≤ 12 ∧ 1 ≤ day ∧ day ≤ Date.monthLength year month ∧
      hour < 24 ∧ minute < 60 ∧ second ≤ 60 ∧ nanos < 2000000000 then
    let shown : Nat := hour * 3600 + minute * 60 + second - leap
    let days := (Date.mk year month day).toDays
    some ⟨days * daySecs + shown - offset * 60, nanos, h.2.2.2.2.2.2.2⟩
  else none

end Time

end RemoteDesk
