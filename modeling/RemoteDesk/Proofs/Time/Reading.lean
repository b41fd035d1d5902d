import Mathlib.Data.List.Basic
import RemoteDesk.Proofs.Time.Dates
import RemoteDesk.Proofs.Time.Elapsed

/-!
The text of a time, read back. A text to the second names the start of the second that the time
lies in, so that what is read is less than a second earlier, and never later. The text of a leap
second names that, if it comes at the end of a minute.
-/
namespace RemoteDesk.Time

/-! ### Numbers -/

theorem toList_padded (width n : Nat) : (padded width n).toList =
    List.replicate (width - (Nat.toDigits 10 n).length) '0' ++ Nat.toDigits 10 n :=
  String.toList_ofList

theorem isDigit_of_mem_padded {width n : Nat} {c : Char} (h : c ∈ (padded width n).toList) :
    c.isDigit = true := by
  rw [toList_padded] at h
  rcases List.mem_append.mp h with hzero | hdigit
  · rw [List.eq_of_mem_replicate hzero]
    rfl
  · exact Nat.isDigit_of_mem_toDigits (by decide) (by decide) hdigit

theorem le_length_padded (width n : Nat) : width ≤ (padded width n).toList.length := by
  rw [toList_padded, List.length_append, List.length_replicate]
  omega

theorem length_padded {width n : Nat} (hwidth : 0 < width) (h : n < Nat.pow 10 width) :
    (padded width n).toList.length = width := by
  have hle := (Nat.length_toDigits_le_iff (b := 10) (by decide) hwidth).mpr h
  rw [toList_padded, List.length_append, List.length_replicate]
  omega

/-- The number that digits make. -/
def value (digits : List Char) : Nat := digits.foldl (fun n c => n * 10 + (c.toNat - 48)) 0

theorem value_zeros (count : Nat) (digits : List Char) :
    value (List.replicate count '0' ++ digits) = value digits := by
  induction count with
  | zero => rfl
  | succ count ih => exact ih

theorem value_padded (width n : Nat) : value (padded width n).toList = n := by
  rw [toList_padded, value_zeros, value]
  simp only [Nat.mul_comm _ 10]
  exact Nat.ofDigitChars_eq_foldl.symm.trans Nat.ofDigitChars_ten_toDigits

/-- Digits are read as their number, whatever follows. -/
theorem takeNumber_append {digits : List Char} (h : ∀ c ∈ digits, c.isDigit = true)
    (rest : List Char) :
    takeNumber digits.length (digits ++ rest) = some (value digits, rest) := by
  have htake : (digits ++ rest).take digits.length = digits := List.take_left' rfl
  have hdrop : (digits ++ rest).drop digits.length = rest := List.drop_left' rfl
  rw [takeNumber, htake, hdrop]
  exact if_pos ⟨rfl, List.all_eq_true.mpr h⟩

theorem takeNumber_padded {width n : Nat} (hwidth : 0 < width) (h : n < Nat.pow 10 width)
    (rest : List Char) :
    takeNumber width ((padded width n).toList ++ rest) = some (n, rest) := by
  have htake := takeNumber_append (fun c => @isDigit_of_mem_padded width n c) rest
  rwa [length_padded hwidth h, value_padded] at htake

/-! ### Years -/

theorem takeYear_signed (n : Nat) (sign : Int) {rest : List Char}
    (hrest : rest.takeWhile (·.isDigit) = []) :
    takeYear.signed ((padded 4 n).toList ++ rest) sign = some (sign * n, rest) := by
  have hdigits : ∀ c ∈ (padded 4 n).toList, c.isDigit = true := fun _ => isDigit_of_mem_padded
  have hcount : (((padded 4 n).toList ++ rest).takeWhile (·.isDigit)).length =
      (padded 4 n).toList.length := by
    rw [List.takeWhile_append_of_pos hdigits, hrest, List.append_nil]
  have hfour : ¬ (padded 4 n).toList.length < 4 := Nat.not_lt.mpr (le_length_padded 4 n)
  rw [takeYear.signed]
  simp only [hcount, if_neg hfour, takeNumber_append hdigits, value_padded, Option.map_some]

/-- A year that starts with a digit has four. -/
theorem takeYear_of_digit {c : Char} (cs : List Char) (h : c.isDigit = true) :
    takeYear (c :: cs) = (takeNumber 4 (c :: cs)).map fun (y, r) => ((y : Int), r) := by
  unfold takeYear
  split
  · rename_i heq
    rw [(List.cons.inj heq).1] at h
    contradiction
  · rename_i heq
    rw [(List.cons.inj heq).1] at h
    contradiction
  · rfl

theorem takeWhile_dash (cs : List Char) : ('-' :: cs).takeWhile (·.isDigit) = [] := rfl

theorem takeYear_plus (cs : List Char) : takeYear ('+' :: cs) = takeYear.signed cs 1 := rfl

theorem takeYear_minus (cs : List Char) : takeYear ('-' :: cs) = takeYear.signed cs (-1) := rfl

theorem takeYear_yearText (year : Int) {rest : List Char}
    (hrest : rest.takeWhile (·.isDigit) = []) :
    takeYear ((yearText year).toList ++ rest) = some (year, rest) := by
  rw [yearText]
  split
  · rename_i hrange
    have hfour : year.toNat < 10000 := by omega
    have htake := takeNumber_padded (show 0 < 4 by decide) hfour rest
    have hlength := length_padded (show 0 < 4 by decide) hfour
    cases hdigits : (padded 4 year.toNat).toList with
    | nil =>
      rw [hdigits] at hlength
      exact absurd hlength (by decide)
    | cons c cs =>
      have hc : c.isDigit = true :=
        @isDigit_of_mem_padded 4 year.toNat c (hdigits ▸ List.mem_cons_self)
      rw [hdigits] at htake
      rw [List.cons_append, takeYear_of_digit _ hc, ← List.cons_append, htake, Option.map_some]
      dsimp only
      rw [Int.toNat_of_nonneg hrange.1]
  · rw [String.toList_append, List.append_assoc]
    split
    · have hsigned : -1 * (year.natAbs : Int) = year := by omega
      rw [show "-".toList = ['-'] from rfl, List.singleton_append, takeYear_minus,
        takeYear_signed year.natAbs (-1) hrest, hsigned]
    · have hsigned : 1 * (year.natAbs : Int) = year := by omega
      rw [show "+".toList = ['+'] from rfl, List.singleton_append, takeYear_plus,
        takeYear_signed year.natAbs 1 hrest, hsigned]

theorem takeChar_self (c : Char) (cs : List Char) : takeChar c (c :: cs) = some cs := if_pos rfl

/-- What a reading step finds is what the next step starts from. -/
theorem bind_of_some {α β : Type} {x : Option α} {a : α} (h : x = some a) {f : α → Option β} :
    (x >>= f) = f a := by
  rw [h]
  rfl

/-! ### Whole seconds -/

/-- The characters of a text to the second. -/
def spelled (year : Int) (month day hour minute second : Nat) : List Char :=
  (yearText year).toList ++ '-' :: ((padded 2 month).toList ++ '-' :: ((padded 2 day).toList ++
    'T' :: ((padded 2 hour).toList ++ ':' :: ((padded 2 minute).toList ++
      ':' :: ((padded 2 second).toList ++ ['Z'])))))

theorem toList_secondsText (t : Time) :
    t.secondsText.toList = spelled t.date.year t.date.month t.date.day t.clock.hour t.clock.minute
      t.clock.second := by
  have hdash : "-".toList = ['-'] := rfl
  have hcolon : ":".toList = [':'] := rfl
  have ht : "T".toList = ['T'] := rfl
  have hz : "Z".toList = ['Z'] := rfl
  simp only [secondsText, dateText, clockText, spelled, String.toList_append, hdash, hcolon, ht, hz,
    List.append_assoc, List.cons_append, List.nil_append]

/-- What a text names: a date, and a point of the day to the second. -/
theorem parse_of_spelled {text : String} {year : Int} {month day hour minute second : Nat}
    (htext : text.toList = spelled year month day hour minute second)
    (hdate : (Date.mk year month day).Valid) (hday : day < 100) (hhour : hour < 24)
    (hminute : minute < 60) (hsecond : second ≤ 60) :
    ∃ h, parse text = some ⟨(Date.mk year month day).toDays * daySecs +
      (hour * 3600 + minute * 60 + second - second / 60 : Nat), second / 60 * 1000000000, h⟩ := by
  have htwo : 0 < 2 := by decide
  have hmonth : month < 100 := Nat.lt_of_le_of_lt hdate.month.2 (by decide)
  have hhours : hour < 100 := Nat.lt_trans hhour (by decide)
  have hminutes : minute < 100 := Nat.lt_trans hminute (by decide)
  have hseconds : second < 100 := Nat.lt_of_le_of_lt hsecond (by decide)
  have hfraction : takeFraction ['Z'] = some (0, ['Z']) := rfl
  have hoffset : takeOffset ['Z'] = some 0 := rfl
  have hnanos : second / 60 * 1000000000 < 2000000000 := by omega
  have hleap : second / 60 * 1000000000 + 0 < 2000000000 := by
    rw [Nat.add_zero]
    exact hnanos
  have hall : 1 ≤ month ∧ month ≤ 12 ∧ 1 ≤ day ∧ day ≤ Date.monthLength year month ∧
      hour < 24 ∧ minute < 60 ∧ second ≤ 60 ∧ second / 60 * 1000000000 + 0 < 2000000000 :=
    ⟨hdate.month.1, hdate.month.2, hdate.day.1, hdate.day.2, hhour, hminute, hsecond, hleap⟩
  refine ⟨hnanos, ?_⟩
  unfold parse
  rw [htext, spelled]
  refine (bind_of_some (takeYear_yearText year (takeWhile_dash _))).trans ?_
  refine (bind_of_some (takeChar_self _ _)).trans ?_
  refine (bind_of_some (takeNumber_padded htwo hmonth _)).trans ?_
  refine (bind_of_some (takeChar_self _ _)).trans ?_
  refine (bind_of_some (takeNumber_padded htwo hday _)).trans ?_
  refine (bind_of_some (congrArg (· <|> _) (takeChar_self _ _))).trans ?_
  refine (bind_of_some (takeNumber_padded htwo hhours _)).trans ?_
  refine (bind_of_some (takeChar_self _ _)).trans ?_
  refine (bind_of_some (takeNumber_padded htwo hminutes _)).trans ?_
  refine (bind_of_some (takeChar_self _ _)).trans ?_
  refine (bind_of_some (takeNumber_padded htwo hseconds _)).trans ?_
  refine (bind_of_some hfraction).trans ?_
  refine (bind_of_some hoffset).trans ?_
  refine (dif_pos hall).trans ?_
  simp only [Nat.add_zero, Int.zero_mul, Int.sub_zero]

/-- The second that a time lies in, from its start. -/
def wholeSecond (t : Time) : Time :=
  ⟨t.secs, if t.isLeap then 1000000000 else 0, by split <;> decide⟩

theorem wholeSecond_le (t : Time) : t.wholeSecond ≤ t := by
  change t.secs * 2000000000 + (if t.isLeap then 1000000000 else 0 : Nat) ≤
    t.secs * 2000000000 + t.nanos
  split
  · rename_i hleap
    have hleap : 1000000000 ≤ t.nanos := of_decide_eq_true hleap
    omega
  · omega

theorem since_wholeSecond_lt (t : Time) : t.since t.wholeSecond < 1000000000 := by
  have hlt := t.nanos_lt
  simp only [since, wholeSecond, Int.lt_irrefl, false_and, if_false]
  split
  · omega
  · rename_i hleap
    have hlt := nanos_lt_of_not_leap (Bool.eq_false_iff.mpr hleap)
    omega

/-- A leap second, if it is one, ends a minute. -/
def EndsMinute (t : Time) : Prop := t.isLeap = true → t.secs % 60 = 59

theorem clock_second (t : Time) : t.clock.second = (t.secs % daySecs).toNat % 60 +
    if t.isLeap then 1 else 0 := by
  have hlt := t.nanos_lt
  change (t.secs % daySecs).toNat % 60 + t.nanos / 1000000000 = _
  split
  · rename_i hleap
    have hleap : 1000000000 ≤ t.nanos := of_decide_eq_true hleap
    omega
  · rename_i hleap
    have hlt := nanos_lt_of_not_leap (Bool.eq_false_iff.mpr hleap)
    omega

/-- The text to the second names the second. -/
theorem parse_secondsText {t : Time} (h : t.EndsMinute) :
    parse t.secondsText = some t.wholeSecond := by
  have hvalid := Date.valid_ofDays (t.secs / daySecs)
  have hsecond := t.clock_second
  have hday : t.secs % daySecs = ((t.secs % daySecs).toNat : Int) := by
    rw [daySecs]
    omega
  have hlt : (t.secs % daySecs).toNat < 86400 := by
    rw [daySecs]
    omega
  have hleap : t.isLeap = true → (t.secs % daySecs).toNat % 60 = 59 := by
    intro hl
    have hend := h hl
    rw [daySecs]
    omega
  have hsplit : t.secs = t.secs / daySecs * daySecs + t.secs % daySecs :=
    (Int.ediv_mul_add_emod t.secs daySecs).symm
  have hhour : t.clock.hour = (t.secs % daySecs).toNat / 3600 := rfl
  have hminute : t.clock.minute = (t.secs % daySecs).toNat / 60 % 60 := rfl
  generalize (t.secs % daySecs).toNat = s at *
  have hmonth : t.date.day < 100 :=
    Nat.lt_of_le_of_lt (Nat.le_trans hvalid.day.2 (Date.monthLength_le _ _)) (by decide)
  obtain ⟨hnanos, hparse⟩ := parse_of_spelled t.toList_secondsText hvalid hmonth (by omega)
    (by omega) (by rw [hsecond]; split <;> omega)
  rw [hparse]
  simp only [wholeSecond, Option.some.injEq, Time.mk.injEq]
  constructor
  · have hdate : (Date.mk t.date.year t.date.month t.date.day).toDays = t.secs / daySecs :=
      Date.toDays_ofDays (t.secs / daySecs)
    have hshown : t.clock.hour * 3600 + t.clock.minute * 60 + t.clock.second -
        t.clock.second / 60 = s := by
      rw [hsecond, hhour, hminute]
      split
      · rename_i hl
        have hend := hleap hl
        omega
      · omega
    rw [hdate, hshown, ← hday]
    exact hsplit.symm
  · rw [hsecond]
    split
    · rename_i hl
      rw [hleap hl]
    · omega

end RemoteDesk.Time
