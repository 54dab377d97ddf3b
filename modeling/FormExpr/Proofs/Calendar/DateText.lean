import FormExpr.Calendar.MomentText
import FormExpr.Proofs.Text.Scan
import FormExpr.Value.Basic
import Mathlib.Data.List.TakeDrop

/-!
# Date texts among other texts

A date text opens with four digits and a dash. So it is neither empty nor a day count, and every way
to read it, as a moment or as a number, reads it as a date text.
-/

namespace FormExpr

open Text

theorem isDecimalDigit_dash : isDecimalDigit '-' = false := by decide

theorem exists_year_of_isDateText {s : List Char} (hdate : isDateText s = true) :
    ∃ year rest, s = year ++ '-' :: rest ∧ (∀ c ∈ year, isDecimalDigit c = true) ∧
      year.length = 4 := by
  obtain ⟨t, htext⟩ := Option.isSome_iff_exists.1 hdate
  simp only [DateText.ofText?, bind, Option.bind_eq_some_iff] at htext
  obtain ⟨⟨year, afterYear⟩, hyear, rest, hdash, -⟩ := htext
  obtain ⟨hsplit, hdigits, hleast, hmost⟩ := eq_append_of_run? hyear
  have hrest : afterYear = '-' :: rest := eq_cons_of_char? hdash
  rw [hrest] at hsplit
  exact ⟨year, rest, hsplit, hdigits, Nat.le_antisymm hmost hleast⟩

theorem ne_nil_of_isDateText {s : List Char} (hdate : isDateText s = true) : s ≠ [] := by
  obtain ⟨year, rest, rfl, -, -⟩ := exists_year_of_isDateText hdate
  simp

/-- No sign stands before the digits of the year, and a dash after them. -/
theorem dash_of_isDateText {s : List Char} (hdate : isDateText s = true) :
    (∃ c rest, s = c :: rest ∧ c ≠ '-') ∧
    ∃ rest, s.dropWhile isDecimalDigit = '-' :: rest := by
  obtain ⟨year, rest, rfl, hdigits, hlength⟩ := exists_year_of_isDateText hdate
  refine ⟨?_, rest, ?_⟩
  · cases year with
    | nil => cases hlength
    | cons c year =>
      refine ⟨c, year ++ '-' :: rest, rfl, ?_⟩
      rintro rfl
      exact absurd (hdigits '-' List.mem_cons_self) (by rw [isDecimalDigit_dash]; decide)
  · rw [List.dropWhile_append_of_pos hdigits, List.dropWhile_cons, isDecimalDigit_dash]
    rfl

/-- After the digits of its year a date text has a dash, where a day count has nothing or a point.
-/
theorem not_isDayCount_of_isDateText {s : List Char} (hdate : isDateText s = true) :
    isDayCount s = false := by
  obtain ⟨⟨c, rest, rfl, hsign⟩, after, hafter⟩ := dash_of_isDateText hdate
  simp [isDayCount, hsign, List.span_eq_takeWhile_dropWhile, hafter]

namespace Moment

/-- A date text is none of the other forms that texts of moments have. -/
theorem ofText_of_isDateText (z : Zone) {s : List Char} (hdate : isDateText (trim s) = true) :
    ofText z s = ofDateText z (trim s) := by
  have hempty : (trim s).isEmpty = false := by
    rw [List.isEmpty_eq_false_iff]
    exact ne_nil_of_isDateText hdate
  rw [ofText, hempty, not_isDayCount_of_isDateText hdate, hdate]
  rfl

end Moment

/-- Its number is the day count of its moment. -/
theorem Number.ofText_of_isDateText (z : Zone) {s : List Char}
    (hdate : isDateText (trim s) = true) : Number.ofText z s = (Moment.ofText z s).toDays := by
  rw [Number.ofText, if_pos hdate, Moment.ofText_of_isDateText z hdate]

end FormExpr
