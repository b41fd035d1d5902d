import RemoteDesk.Time.Calendar

/-!
Every day has a date, and the date tells the day. An era of 400 years, from March on, has as many
days as any other. Within an era, a day tells its century, the century its year, and the year's day
its month.
-/
namespace RemoteDesk.Date

/-! ### Days of an era -/

/-- The year of an era that a day of it is in. -/
def yearOf (dayOfEra : Nat) : Nat :=
  (dayOfEra - dayOfEra / 1460 + dayOfEra / 36524 - dayOfEra / 146096) / 365

/-- The days of an era before a year of it. -/
def daysBefore (year : Nat) : Nat := 365 * year + year / 4 - year / 100

/-- The month, from March on, that a day of a year is in. -/
def monthOf (dayOfYear : Nat) : Nat := (5 * dayOfYear + 2) / 153

/-- What the number of a day says about its century and its year, if it is not the last of its
era, which is a leap day of its own. -/
structure Placed (day century year : Nat) : Prop where
  century_eq : day / 36524 = century
  century_le : century ≤ 3
  year_eq : year = (day - day / 1460 + century) / 365
  hundred_eq : year / 100 = century

theorem placed {day : Nat} (h : day < 146096) : Placed day (day / 36524) (yearOf day) := by
  have hera : day / 146096 = 0 := by omega
  have hyear : yearOf day = (day - day / 1460 + day / 36524) / 365 := by
    rw [yearOf, hera, Nat.sub_zero]
  refine ⟨rfl, by omega, hyear, ?_⟩
  have hcentury : day / 36524 = 0 ∨ day / 36524 = 1 ∨ day / 36524 = 2 ∨ day / 36524 = 3 := by
    omega
  rcases hcentury with hc | hc | hc | hc <;> rw [hc] at hyear ⊢ <;> omega

namespace Placed

variable {day century year : Nat} (h : Placed day century year)
include h

theorem daysBefore_eq : daysBefore year = 365 * year + year / 4 - century := by
  rw [daysBefore, h.hundred_eq]

theorem daysBefore_le : daysBefore year ≤ day := by
  obtain ⟨hcentury, hle, hyear, hhundred⟩ := h
  rw [daysBefore, hhundred]
  omega

theorem dayOfYear_le : day - daysBefore year ≤ 365 := by
  obtain ⟨hcentury, hle, hyear, hhundred⟩ := h
  rw [daysBefore, hhundred]
  omega

/-- Only the year before a leap day has 366 days. -/
theorem leap (hlast : day - daysBefore year = 365) :
    (year + 1) % 4 = 0 ∧ (year + 1) % 100 ≠ 0 := by
  rw [h.daysBefore_eq] at hlast
  obtain ⟨hcentury, hle, hyear, hhundred⟩ := h
  have hday : day = 365 * year + year / 4 - century + 365 := by omega
  refine ⟨?_, by omega⟩
  by_cases hthree : year % 4 = 3
  · omega
  · have hquarter : day / 1460 = year / 4 := by omega
    omega

end Placed

/-- A day of an era lies in a year of it, which has 365 days, and one more only if there is a leap
day at its end. -/
theorem yearOf_spec {day : Nat} (h : day < 146097) :
    yearOf day < 400 ∧ daysBefore (yearOf day) ≤ day ∧ day - daysBefore (yearOf day) ≤ 365 ∧
      (day - daysBefore (yearOf day) = 365 → (yearOf day + 1) % 4 = 0 ∧
        ((yearOf day + 1) % 100 ≠ 0 ∨ (yearOf day + 1) % 400 = 0)) := by
  rcases Nat.lt_or_eq_of_le (Nat.le_of_lt_succ h) with h | rfl
  · have hplaced := placed h
    refine ⟨?_, hplaced.daysBefore_le, hplaced.dayOfYear_le, fun hlast => ?_⟩
    · have := hplaced.hundred_eq
      have := hplaced.century_le
      omega
    · obtain ⟨hfour, hhundred⟩ := hplaced.leap hlast
      exact ⟨hfour, .inl hhundred⟩
  · decide

/-! ### Days of a year -/

/-- A day of a year lies in the month that its number tells. -/
theorem monthOf_spec {day : Nat} (h : day ≤ 365) :
    monthOf day ≤ 11 ∧ (153 * monthOf day + 2) / 5 ≤ day ∧
      day < (153 * (monthOf day + 1) + 2) / 5 := by
  unfold monthOf
  omega

/-! ### Dates -/

/-- What a date of the calendar is. -/
structure Valid (d : Date) : Prop where
  month : 1 ≤ d.month ∧ d.month ≤ 12
  day : 1 ≤ d.day ∧ d.day ≤ monthLength d.year d.month

/-- A day of a month, where months and years begin with March. -/
def fromMarch (era : Int) (year month day : Nat) : Date :=
  if month < 10 then ⟨era * 400 + year, month + 3, day⟩ else ⟨era * 400 + year + 1, month - 9, day⟩

theorem toDays_fromMarch (era : Int) {year month day : Nat} (hyear : year < 400)
    (hmonth : month ≤ 11) (hday : 1 ≤ day) :
    (fromMarch era year month day).toDays =
      era * 146097 + (daysBefore year + ((153 * month + 2) / 5 + (day - 1) : Nat)) - 719468 := by
  have hera : (era * 400 + year) / 400 = era := by omega
  have hrest : (era * 400 + year) % 400 = year := by omega
  have hbefore : (daysBefore year : Int) = (year : Int) * 365 + year / 4 - year / 100 := by
    rw [daysBefore]
    omega
  unfold fromMarch toDays
  split
  · have hlate : ¬ month + 3 ≤ 2 := by omega
    simp only [hlate, if_false, hera, hrest, hbefore]
    split <;> omega
  · have hearly : month - 9 ≤ 2 := by omega
    simp only [hearly, if_true, Int.add_sub_cancel, hera, hrest, hbefore]
    split <;> omega

theorem monthLength_le (year : Int) (month : Nat) : monthLength year month ≤ 31 := by
  unfold monthLength
  split
  · decide
  · decide
  · decide
  · decide
  · split <;> decide
  · decide

theorem ofDays_eq (days : Int) :
    let day := ((days + 719468) % 146097).toNat
    let dayOfYear := day - daysBefore (yearOf day)
    ofDays days = fromMarch ((days + 719468) / 146097) (yearOf day) (monthOf dayOfYear)
      (dayOfYear - (153 * monthOf dayOfYear + 2) / 5 + 1) := rfl

theorem dayOfEra_lt (z : Int) : (z % 146097).toNat < 146097 := by omega

/-- The number of days up to a date tells the date. -/
theorem toDays_ofDays (days : Int) : (ofDays days).toDays = days := by
  obtain ⟨hyear, hbefore, hday, -⟩ := yearOf_spec (dayOfEra_lt (days + 719468))
  obtain ⟨hmonth, hfirst, -⟩ := monthOf_spec hday
  rw [ofDays_eq, toDays_fromMarch _ hyear hmonth (Nat.le_add_left 1 _)]
  omega

theorem isLeap_of_era {era : Int} {year : Nat} (hfour : (year + 1) % 4 = 0)
    (hhundred : (year + 1) % 100 ≠ 0 ∨ (year + 1) % 400 = 0) :
    isLeap (era * 400 + year + 1) = true := by
  refine decide_eq_true ⟨by omega, hhundred.imp ?_ ?_⟩ <;> omega

theorem month_fromMarch (era : Int) (year day : Nat) {month : Nat} (h : month ≤ 11) :
    1 ≤ (fromMarch era year month day).month ∧ (fromMarch era year month day).month ≤ 12 := by
  unfold fromMarch
  split <;> dsimp only <;> omega

/-- February is the last month, and has a 29th day only at the end of a longer year. -/
theorem valid_fromMarch (era : Int) {year month day : Nat} (hmonth : month ≤ 11) (hday : 1 ≤ day)
    (hlength : day ≤ (153 * (month + 1) + 2) / 5 - (153 * month + 2) / 5)
    (hfebruary : month = 11 → day ≤ 28 ∨
      day = 29 ∧ isLeap (era * 400 + year + 1) = true) :
    (fromMarch era year month day).Valid := by
  have hmonths : month = 0 ∨ month = 1 ∨ month = 2 ∨ month = 3 ∨ month = 4 ∨ month = 5 ∨
      month = 6 ∨ month = 7 ∨ month = 8 ∨ month = 9 ∨ month = 10 ∨ month = 11 := by omega
  rcases hmonths with rfl | rfl | rfl | rfl | rfl | rfl | rfl | rfl | rfl | rfl | rfl | rfl
  case inr.inr.inr.inr.inr.inr.inr.inr.inr.inr.inr =>
    refine ⟨month_fromMarch era year day hmonth, hday, ?_⟩
    change day ≤ if isLeap (era * 400 + year + 1) then 29 else 28
    rcases hfebruary rfl with hshort | ⟨rfl, hleap⟩
    · split <;> omega
    · exact Nat.le_of_eq (if_pos hleap).symm
  all_goals exact ⟨month_fromMarch era year day hmonth, hday, hlength⟩

/-- Dates are dates of the calendar. -/
theorem valid_ofDays (days : Int) : (ofDays days).Valid := by
  obtain ⟨-, -, hday, hleap⟩ := yearOf_spec (dayOfEra_lt (days + 719468))
  obtain ⟨hmonth, hfirst, hnext⟩ := monthOf_spec hday
  rw [ofDays_eq]
  refine valid_fromMarch _ hmonth (Nat.le_add_left 1 _) (by omega) fun hlast => ?_
  rw [hlast] at hfirst ⊢
  rcases Nat.lt_or_eq_of_le hday with hshort | hlong
  · omega
  · obtain ⟨hfour, hhundred⟩ := hleap hlong
    exact .inr ⟨by omega, isLeap_of_era hfour hhundred⟩

end RemoteDesk.Date
