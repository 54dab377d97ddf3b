import FormExpr.Calendar.Date
import Mathlib.Algebra.BigOperators.Group.List.Basic
import Mathlib.Algebra.GroupWithZero.Nat
import Mathlib.Data.List.TakeDrop

/-!
# Day numbers and dates

The days of a year are those of its months, and a day number belongs to the one year whose days
surround it. So the date of a day number exists and has that number.
-/

namespace FormExpr.Date

/-! ### Months -/

theorem daysBeforeMonth_eq_sum (year : Int) (month : Nat) :
    daysBeforeMonth year month = ((monthLengths year).take (month - 1)).sum := rfl

theorem length_monthLengths (year : Int) : (monthLengths year).length = 12 := rfl

/-- No month is longer than 31 days. -/
theorem daysInMonth_le (year : Int) (month : Nat) : daysInMonth year month ≤ 31 := by
  have hlengths : ∀ length ∈ monthLengths year, length ≤ 31 := by
    unfold monthLengths
    split <;> decide
  unfold daysInMonth
  cases hmonth : (monthLengths year)[month - 1]? with
  | none => exact Nat.zero_le _
  | some length => exact hlengths length (List.mem_of_getElem? hmonth)

/-- The months before the one found take up the days that come before its own. -/
theorem monthOf_spec {lengths : List Nat} {days : Nat} (hdays : days < lengths.sum) (first : Nat) :
    ∃ i, ∃ h : i < lengths.length, (monthOf lengths first days).1 = first + i ∧
      1 ≤ (monthOf lengths first days).2 ∧ (monthOf lengths first days).2 ≤ lengths[i] ∧
      (lengths.take i).sum + (monthOf lengths first days).2 = days + 1 := by
  induction lengths generalizing first days with
  | nil => simp at hdays
  | cons length rest ih =>
    rw [monthOf]
    by_cases hfirst : days < length
    · rw [if_pos hfirst]
      exact ⟨0, by simp, by simp, by simp, hfirst, by simp⟩
    · rw [if_neg hfirst]
      rw [List.sum_cons] at hdays
      obtain ⟨i, hi, hmonth, hlow, hhigh, hsum⟩ := 
        ih (show days - length < rest.sum by omega) (first + 1)
      refine ⟨i + 1, by simpa using hi, by omega, hlow, by simpa using hhigh, ?_⟩
      rw [List.take_succ_cons, List.sum_cons]
      omega

/-! ### Years -/

/-- The Gregorian rule. -/
theorem isLeapYear_iff (year : Int) :
    isLeapYear year = true ↔ year % 4 = 0 ∧ (year % 100 ≠ 0 ∨ year % 400 = 0) := by
  simp [isLeapYear]

/-- The months of a year fill it. -/
theorem sum_monthLengths (year : Int) :
    ((monthLengths year).sum : Int) = daysBeforeYear (year + 1) - daysBeforeYear year := by
  have hleap := isLeapYear_iff year
  unfold daysBeforeYear
  by_cases hyear : isLeapYear year = true
  · have hsum : (monthLengths year).sum = 366 := by simp [monthLengths, hyear]
    have hdivides := hleap.1 hyear
    rw [hsum]
    dsimp only
    omega
  · have hsum : (monthLengths year).sum = 365 := by simp [monthLengths, hyear]
    have hdivides := mt hleap.2 hyear
    rw [hsum]
    dsimp only
    omega

/-- The year of a day begins no later than the day, and the next one begins after it. -/
theorem yearOf_spec (days : Int) :
    daysBeforeYear (yearOf days) ≤ days ∧ days < daysBeforeYear (yearOf days + 1) := by
  unfold yearOf daysBeforeYear
  dsimp only
  split
  · omega
  · split <;> omega

/-- Later years begin later. -/
theorem daysBeforeYear_mono {a b : Int} (hab : a ≤ b) : daysBeforeYear a ≤ daysBeforeYear b := by
  unfold daysBeforeYear
  dsimp only
  omega

/-- No other year has the day. -/
theorem yearOf_eq {days year : Int} (hlow : daysBeforeYear year ≤ days)
    (hhigh : days < daysBeforeYear (year + 1)) : yearOf days = year := by
  obtain ⟨hlow', hhigh'⟩ := yearOf_spec days
  rcases Int.lt_trichotomy (yearOf days) year with hlt | heq | hgt
  · have hmono := daysBeforeYear_mono (show yearOf days + 1 ≤ year by omega)
    omega
  · exact heq
  · have hmono := daysBeforeYear_mono (show year + 1 ≤ yearOf days by omega)
    omega

/-! ### Dates and day numbers -/

theorem daysInMonth_eq {year : Int} {i : Nat} (hi : i < (monthLengths year).length) :
    daysInMonth year (i + 1) = (monthLengths year)[i] := by
  rw [daysInMonth, Nat.add_sub_cancel, List.getElem?_eq_getElem hi, Option.getD_some]

/-- The day of a date lies between the ends of its year. -/
theorem toDayNumber_bounds {d : Date} (hd : d.Exists) :
    daysBeforeYear d.year ≤ d.toDayNumber + epochDay ∧
    d.toDayNumber + epochDay < daysBeforeYear (d.year + 1) := by
  obtain ⟨hmonth, hmonth', hday, hday'⟩ := hd
  have hsum := sum_monthLengths d.year
  have hi : d.month - 1 < (monthLengths d.year).length := by
    rw [length_monthLengths]
    omega
  have hlength := daysInMonth_eq hi
  rw [Nat.sub_add_cancel hmonth] at hlength
  have hsplit := List.sum_take_add_sum_drop (monthLengths d.year) (d.month - 1)
  rw [List.drop_eq_getElem_cons hi, List.sum_cons] at hsplit
  have hbefore := daysBeforeMonth_eq_sum d.year d.month
  unfold toDayNumber
  omega

theorem year_ofDayNumber (number : Int) : (ofDayNumber number).year = yearOf (number + epochDay) :=
  rfl

/-- Every day number is that of a date of the calendar. -/
theorem ofDayNumber_spec (number : Int) :
    (ofDayNumber number).Exists ∧ (ofDayNumber number).toDayNumber = number := by
  obtain ⟨hlow, hhigh⟩ := yearOf_spec (number + epochDay)
  have hsum := sum_monthLengths (yearOf (number + epochDay))
  obtain ⟨days, hdays⟩ : ∃ days,
      days = (number + epochDay - daysBeforeYear (yearOf (number + epochDay))).toNat := ⟨_, rfl⟩
  have hwithin : days < (monthLengths (yearOf (number + epochDay))).sum := by omega
  obtain ⟨i, hi, hmonth, hday, hday', htotal⟩ := monthOf_spec hwithin 1
  have hdate : ofDayNumber number = ⟨yearOf (number + epochDay),
      (monthOf (monthLengths (yearOf (number + epochDay))) 1 days).1,
      (monthOf (monthLengths (yearOf (number + epochDay))) 1 days).2⟩ := by
    rw [hdays]
    rfl
  rw [Nat.add_comm] at hmonth
  rw [hdate, hmonth]
  constructor
  · refine ⟨Nat.le_add_left 1 i, hi, hday, ?_⟩
    rw [daysInMonth_eq hi]
    exact hday'
  · unfold toDayNumber
    dsimp only
    rw [daysBeforeMonth_eq_sum, Nat.add_sub_cancel]
    omega

theorem exists_ofDayNumber (number : Int) : (ofDayNumber number).Exists :=
  (ofDayNumber_spec number).1

@[simp]
theorem toDayNumber_ofDayNumber (number : Int) : (ofDayNumber number).toDayNumber = number :=
  (ofDayNumber_spec number).2

theorem year_ofDayNumber_toDayNumber {d : Date} (hd : d.Exists) :
    (ofDayNumber d.toDayNumber).year = d.year := by
  obtain ⟨hlow, hhigh⟩ := toDayNumber_bounds hd
  rw [year_ofDayNumber]
  exact yearOf_eq hlow hhigh

theorem daysBeforeMonth_succ (year : Int) {month : Nat} (hmonth : 1 ≤ month) :
    daysBeforeMonth year (month + 1) = daysBeforeMonth year month + daysInMonth year month := by
  obtain ⟨i, rfl⟩ : ∃ i, month = i + 1 := ⟨month - 1, by omega⟩
  rw [daysBeforeMonth_eq_sum, daysBeforeMonth_eq_sum, daysInMonth, Nat.add_sub_cancel,
    Nat.add_sub_cancel, List.take_add_one, List.sum_append]
  cases (monthLengths year)[i]? <;> simp

/-- A month is over before a later one begins. -/
theorem daysBeforeMonth_add_le (year : Int) {month later : Nat} (hmonth : 1 ≤ month)
    (hlater : month < later) :
    daysBeforeMonth year month + daysInMonth year month ≤ daysBeforeMonth year later := by
  induction hlater with
  | refl => exact Nat.le_of_eq (daysBeforeMonth_succ year hmonth).symm
  | step hlater ih =>
    rw [Nat.succ_eq_add_one, daysBeforeMonth_succ year (Nat.one_le_of_lt hlater)]
    exact Nat.le_add_right_of_le ih

/-- Two dates that exist have different day numbers. -/
theorem eq_of_toDayNumber_eq {d e : Date} (hd : d.Exists) (he : e.Exists)
    (hnumber : d.toDayNumber = e.toDayNumber) : d = e := by
  have hyear : d.year = e.year := by
    rw [← year_ofDayNumber_toDayNumber hd, hnumber, year_ofDayNumber_toDayNumber he]
  obtain ⟨year, month, day⟩ := d
  obtain ⟨year', month', day'⟩ := e
  dsimp only at hyear
  subst hyear
  obtain ⟨hmonth, -, hday, hlast⟩ := hd
  obtain ⟨hmonth', -, hday', hlast'⟩ := he
  unfold toDayNumber at hnumber
  dsimp only at hmonth hday hlast hmonth' hday' hlast' hnumber
  rcases Nat.lt_trichotomy month month' with hlt | rfl | hlt
  · have hbefore := daysBeforeMonth_add_le year hmonth hlt
    omega
  · rw [Date.mk.injEq]
    omega
  · have hbefore := daysBeforeMonth_add_le year hmonth' hlt
    omega

/-- A date of the calendar is found again by its number. -/
theorem ofDayNumber_toDayNumber {d : Date} (hd : d.Exists) : ofDayNumber d.toDayNumber = d :=
  eq_of_toDayNumber_eq (exists_ofDayNumber _) hd (toDayNumber_ofDayNumber _)

end FormExpr.Date
