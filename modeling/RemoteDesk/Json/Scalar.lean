import RemoteDesk.Json.Fault

/-!
Readers for the parts of JSON text without structure: blanks, words, strings and numbers.
-/
namespace RemoteDesk.Json

def isBlank (b : UInt8) : Bool := b = 0x20 || b = 0x0A || b = 0x09 || b = 0x0D

def skipBlank (bs : Bytes) : Bytes := bs.dropWhile isBlank

/-- Takes the letters that complete a word. -/
def readWord : Bytes → Bytes → Except Halt Bytes
  | [], bs => .ok bs
  | _ :: _, [] => haltBefore .endInValue []
  | w :: ws, b :: bs => if b = w then readWord ws bs else haltBefore .wantedIdent bs

/-! ### Strings -/

/-- The bytes from the first one on that does not continue well-formed UTF-8. -/
def dropWellFormed : Bytes → Bytes
  | [] => []
  | a :: r =>
    if a < 0x80 then dropWellFormed r
    else match r with
      | [] => a :: r
      | b :: r =>
        let tail := fun x : UInt8 => 0x80 ≤ x && x ≤ 0xBF
        if 0xC2 ≤ a && a ≤ 0xDF && tail b then dropWellFormed r
        else match r with
          | [] => a :: b :: r
          | c :: r =>
            let second :=
              if a = 0xE0 then 0xA0 ≤ b && b ≤ 0xBF
              else if a = 0xED then 0x80 ≤ b && b ≤ 0x9F
              else 0xE1 ≤ a && a ≤ 0xEF && tail b
            if second && tail c then dropWellFormed r
            else match r with
              | [] => a :: b :: c :: r
              | d :: r =>
                let second :=
                  if a = 0xF0 then 0x90 ≤ b && b ≤ 0xBF
                  else if a = 0xF4 then 0x80 ≤ b && b ≤ 0x8F
                  else 0xF1 ≤ a && a ≤ 0xF3 && tail b
                if second && tail c && tail d then dropWellFormed r
                else a :: b :: c :: d :: r

/-- The number that four hexadecimal digits spell. -/
def hex4? (a b c d : UInt8) : Option Nat := do
  let a ← hexValue? a
  let b ← hexValue? b
  let c ← hexValue? c
  let d ← hexValue? d
  return ((a * 16 + b) * 16 + c) * 16 + d

def isLeading (n : Nat) : Bool := 0xD800 ≤ n && n ≤ 0xDBFF

def isTrailing (n : Nat) : Bool := 0xDC00 ≤ n && n ≤ 0xDFFF

/-- The byte that a one-letter escape stands for. -/
def shortEscape? (b : UInt8) : Option UInt8 :=
  if b = 0x22 then some 0x22
  else if b = 0x5C then some 0x5C
  else if b = 0x2F then some 0x2F
  else if b = 0x62 then some 0x08
  else if b = 0x66 then some 0x0C
  else if b = 0x6E then some 0x0A
  else if b = 0x72 then some 0x0D
  else if b = 0x74 then some 0x09
  else none

/-- The UTF-8 bytes of a code point, last first, put before others. -/
def pushCodePoint (n : Nat) (out : Bytes) : Bytes :=
  (String.utf8EncodeChar (Char.ofNat n)).reverse ++ out

/-- Reads up to the closing quote. The bytes of the string come last first in `out`. -/
def readStringBytes : Bytes → Bytes → Except Halt (Bytes × Bytes)
  | _, [] => haltBefore .endInString []
  | out, 0x22 :: r => .ok (out.reverse, r)
  | out, 0x5C :: 0x75 :: r =>
    match r with
    | a :: b :: c :: d :: r =>
      match hex4? a b c d with
      | none => haltBefore .badEscape r
      | some n =>
        if isTrailing n then haltBefore .loneSurrogate r
        else if !isLeading n then readStringBytes (pushCodePoint n out) r
        else match r with
          | 0x5C :: 0x75 :: r =>
            match r with
            | a :: b :: c :: d :: r =>
              match hex4? a b c d with
              | none => haltBefore .badEscape r
              | some m =>
                if isTrailing m then
                  readStringBytes (pushCodePoint (0x10000 + (n - 0xD800) * 0x400 + (m - 0xDC00)) out) r
                else haltBefore .loneSurrogate r
            | _ => haltBefore .endInString []
          | 0x5C :: r => if r.isEmpty then haltBefore .endInString [] else haltAt .brokenSurrogate r
          | r => if r.isEmpty then haltBefore .endInString [] else haltAt .brokenSurrogate r
    | _ => haltBefore .endInString []
  | out, 0x5C :: e :: r =>
    match shortEscape? e with
    | some b => readStringBytes (b :: out) r
    | none => haltBefore .badEscape r
  | _, [0x5C] => haltBefore .endInString []
  | out, b :: r => if b < 0x20 then haltBefore .controlCharacter r else readStringBytes (b :: out) r

/-- Reads a string whose opening quote has been taken. Content that is no text is reported where
its ill-formed part would begin if it stood, without escapes, up to the closing quote. -/
def readString : Reader String := fun bs => do
  let (content, r) ← readStringBytes [] bs
  match text? content with
  | some s => .ok (s, r)
  | none =>
    let illFormed := (dropWellFormed content).length
    haltBefore .badCodePoint (bs.drop (bs.length - r.length - illFormed))

/-- Passes over a string whose opening quote has been taken; escapes are not paired up. -/
def skipString : Bytes → Except Halt Bytes
  | [] => haltBefore .endInString []
  | 0x22 :: r => .ok r
  | 0x5C :: 0x75 :: r =>
    match r with
    | a :: b :: c :: d :: r =>
      if (hex4? a b c d).isSome then skipString r else haltBefore .badEscape r
    | _ => haltBefore .endInString []
  | 0x5C :: e :: r => if (shortEscape? e).isSome then skipString r else haltBefore .badEscape r
  | [0x5C] => haltBefore .endInString []
  | b :: r => if b < 0x20 then haltBefore .controlCharacter (b :: r) else skipString r

/-! ### Numbers -/

def digit? (b : UInt8) : Option Nat :=
  if 0x30 ≤ b ∧ b ≤ 0x39 then some (b.toNat - 0x30) else none

def isDigit (b : UInt8) : Bool := 0x30 ≤ b && b ≤ 0x39

/-- Takes digits while the number they spell stays below `bound`; gives their number and how
many there were. -/
def readDigits (bound : Nat) : Nat → Nat → Bytes → Nat × Nat × Bytes
  | n, count, [] => (n, count, [])
  | n, count, b :: bs =>
    match digit? b with
    | some d =>
      if n * 10 + d < bound then readDigits bound (n * 10 + d) (count + 1) bs
      else (n, count, b :: bs)
    | none => (n, count, b :: bs)

def startsWithDigit : Bytes → Bool
  | [] => false
  | b :: _ => isDigit b

/-- `f · 10 ^ e` in double arithmetic, one power of the table up to `10³⁰⁸` at a time; `none`
when it leaves the range. -/
def scale : Nat → Float → Int → Option Float
  | 0, f, _ => some f
  | fuel + 1, f, e =>
    if e.natAbs ≤ 308 then
      let power := Float.ofScientific 1 false e.natAbs
      if e < 0 then some (f / power)
      else if (f * power).isInf then none else some (f * power)
    else if f == 0.0 then some f
    else if e < 0 then scale fuel (f / Float.ofScientific 1 false 308) (e + 308)
    else none

/-- The double written as `significand · 10 ^ e`. -/
def readParts (negative : Bool) (significand : Nat) (e : Int) : Reader Number.Value := fun bs =>
  match scale (e.natAbs + 1) significand.toUInt64.toFloat e with
  | some f => .ok (.float (if negative then -f else f), bs)
  | none => haltBefore .numberRange bs

/-- Exponents saturate at the ends of the 32-bit range. -/
def clampExponent (e : Int) : Int := max (-2147483648) (min e 2147483647)

/-- Reads what follows the letter of an exponent. -/
def readExponent (negative : Bool) (significand : Nat) (start : Int) : Reader Number.Value :=
  fun bs =>
    let (up, bs) := match bs with
      | 0x2B :: r => (true, r)
      | 0x2D :: r => (false, r)
      | r => (true, r)
    match bs with
    | [] => haltBefore .endInValue []
    | b :: r =>
      match digit? b with
      | none => haltBefore .badNumber r
      | some d =>
        let (e, _, r) := readDigits (1 <<< 31) d 0 r
        if startsWithDigit r then
          if significand ≠ 0 ∧ up then haltAt .numberRange r
          else .ok (.float (if negative then -0.0 else 0.0), r.dropWhile isDigit)
        else readParts negative significand (clampExponent (if up then start + e else start - e)) r

/-- Reads an exponent if there is one. -/
def readScaled (negative : Bool) (significand : Nat) (e : Int) : Reader Number.Value
  | 0x65 :: r => readExponent negative significand e r
  | 0x45 :: r => readExponent negative significand e r
  | bs => readParts negative significand e bs

/-- Reads what follows a decimal point. Digits that no longer fit the significand are dropped. -/
def readFraction (negative : Bool) (significand : Nat) (e : Int) : Reader Number.Value :=
  fun bs =>
    let (n, count, r) := readDigits (1 <<< 64) significand 0 bs
    if startsWithDigit r then readScaled negative n (e - count) (r.dropWhile isDigit)
    else if count = 0 then
      if r.isEmpty then haltBefore .endInValue [] else haltAt .badNumber r
    else readScaled negative n (e - count) r

/-- Reads what follows the digits of an integer that fits 64 bits. -/
def readAfterInteger (negative : Bool) (n : Nat) : Reader Number.Value
  | 0x2E :: r => readFraction negative n 0 r
  | 0x65 :: r => readExponent negative n 0 r
  | 0x45 :: r => readExponent negative n 0 r
  | bs =>
    if !negative then .ok (.int n, bs)
    else if n = 0 ∨ 1 <<< 63 < n then .ok (.float (-n.toUInt64.toFloat), bs)
    else .ok (.int (-n), bs)

/-- Reads a number whose minus sign, if any, has been taken. -/
def readNumber (negative : Bool) : Reader Number.Value
  | [] => haltBefore .endInValue []
  | b :: r =>
    match digit? b with
    | none => haltBefore .badNumber r
    | some 0 => if startsWithDigit r then haltAt .badNumber r else readAfterInteger negative 0 r
    | some d =>
      let (n, _, r) := readDigits (1 <<< 64) d 0 r
      if startsWithDigit r then
        let extra := (r.takeWhile isDigit).length
        match r.dropWhile isDigit with
        | 0x2E :: r => readFraction negative n extra r
        | r => readScaled negative n extra r
      else readAfterInteger negative n r

/-- Passes over a number whose minus sign, if any, has been taken. -/
def skipNumber : Bytes → Except Halt Bytes
  | [] => haltBefore .badNumber []
  | b :: r =>
    match digit? b with
    | none => haltBefore .badNumber r
    | some 0 => if startsWithDigit r then haltAt .badNumber r else afterInteger r
    | some _ => afterInteger (r.dropWhile isDigit)
where
  afterInteger : Bytes → Except Halt Bytes
    | 0x2E :: r =>
      if startsWithDigit r then
        match r.dropWhile isDigit with
        | 0x65 :: r => exponent r
        | 0x45 :: r => exponent r
        | r => .ok r
      else haltAt .badNumber r
    | 0x65 :: r => exponent r
    | 0x45 :: r => exponent r
    | r => .ok r
  exponent (bs : Bytes) : Except Halt Bytes :=
    let digits := match bs with
      | 0x2B :: r => r
      | 0x2D :: r => r
      | r => r
    if startsWithDigit digits then .ok (digits.dropWhile isDigit) else haltAt .badNumber digits

end RemoteDesk.Json
