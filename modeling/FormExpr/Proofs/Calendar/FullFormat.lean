import FormExpr.Proofs.Calendar.Format
import FormExpr.Proofs.Calendar.LocalOffset
import FormExpr.Proofs.Calendar.MomentText
import Mathlib.Data.List.Basic

/-!
# The format of the full text

The format that names every field of the full text gives that text, the offset aside, for all
moments outside leap seconds. In a leap second the full text shows the second 60, and the format
shows the second before it and a thousand milliseconds or more. Day counts and date texts have no
leap seconds.
-/

namespace FormExpr

open Text

namespace Moment

/-! ### Moments outside leap seconds -/

def IsRegular (m : Moment) : Prop :=
  ∀ t, m = valid t → t.nanos < 1000000000

theorem isRegular_of_isValid_false {m : Moment} (hm : m.isValid = false) : m.IsRegular := by
  rintro t rfl
  cases hm

end Moment

theorem Zone.nanos_of_ofWall? {z : Zone} {w : WallClock} {t : ZonedTime}
    (h : z.ofWall? w = some t) :
    t.nanos = w.nanos ∨ t.nanos = w.nanos % 1000000000 := by
  cases z with
  | fixed offset =>
    rw [Zone.eq_of_withOffset? h]
    exact Or.inl rfl
  | summerTime =>
    rcases Option.or_eq_some_iff.1 h with hshown | ⟨-, hlater⟩
    · exact Or.inl (congrArg ZonedTime.nanos (Zone.eq_of_shown? hshown))
    · exact Or.inr (congrArg ZonedTime.nanos (Zone.eq_of_shown? hlater))

theorem ClockText.nanos_timeOfDay_lt (c : ClockText) : c.timeOfDay.nanos < 1000000000 := by
  have hmillis : (natural? (milliDigits c.fraction)).getD 0 < 1000 := by
    cases hnatural : natural? (milliDigits c.fraction) with
    | none => exact Nat.zero_lt_succ _
    | some n =>
      obtain ⟨-, hdigits, rfl⟩ := natural?_eq_some_iff.1 hnatural
      have hlength : (milliDigits c.fraction).length ≤ 3 := List.length_take_le _ _
      exact (naturalOf_lt hdigits).trans_le (Nat.pow_le_pow_right (by decide) hlength)
  unfold timeOfDay
  dsimp only
  omega

theorem WallClock.nanos_of_lt {d : Date} {time : TimeOfDay} (htime : time.Exists)
    (hnanos : time.nanos < 1000000000) : (WallClock.of d time).nanos < 1000000000 := by
  have hsecond := htime.2.2
  have hleap : time.second ≠ 60 := by omega
  rw [WallClock.of]
  dsimp only
  rwa [if_neg hleap]

theorem DateText.nanos_lt_of_wall? {text : DateText} {w : WallClock} (h : text.wall? = some w) :
    w.nanos < 1000000000 := by
  simp only [DateText.wall?, Option.bind_eq_bind, Option.bind_eq_some_iff, Option.pure_def,
    Option.some_inj] at h
  obtain ⟨date, -, time, htime, rfl⟩ := h
  rw [timeOfDay?, Option.ite_none_right_eq_some, Option.some_inj] at htime
  obtain ⟨hexists, rfl⟩ := htime
  refine WallClock.nanos_of_lt hexists ?_
  split
  · exact ClockText.nanos_timeOfDay_lt _
  · decide

namespace Moment

variable {z : Zone}

/-- A clock outside leap seconds stays outside when a zone moves it. -/
theorem isRegular_ofWall {w : WallClock} (hw : w.nanos < 1000000000) : (ofWall z w).IsRegular := by
  intro t ht
  unfold ofWall at ht
  split at ht
  · rename_i hwall
    cases ht
    have hnanos := Zone.nanos_of_ofWall? hwall
    omega
  · cases ht

theorem isRegular_ofDays (days : Float) : (ofDays z days).IsRegular := by
  unfold ofDays
  dsimp only
  split
  · exact isRegular_of_isValid_false rfl
  · split
    · apply isRegular_ofWall
      unfold WallClock.ofMillis
      dsimp only
      omega
    · exact isRegular_of_isValid_false rfl

/-- Date texts cannot name leap seconds. -/
theorem isRegular_ofDateText (s : List Char) : (ofDateText z s).IsRegular := by
  unfold ofDateText
  split
  · unfold DateText.toMoment
    split
    · exact isRegular_of_isValid_false rfl
    · rename_i hwall
      have hnanos := DateText.nanos_lt_of_wall? hwall
      split
      · exact isRegular_ofWall hnanos
      · split
        · rename_i time hinstant
          obtain ⟨offset, -, htime⟩ := Option.bind_eq_some_iff.1 hinstant
          rintro _ ⟨⟩
          rw [Zone.eq_of_withOffset? htime]
          exact hnanos
        · exact isRegular_of_isValid_false rfl
  · exact isRegular_of_isValid_false rfl

/-- A leap second can be read only from a message date or a plain date. -/
theorem isRegular_ofText {s : List Char}
    (hs : isDayCount (trim s) = true ∨ isDateText (trim s) = true) : (ofText z s).IsRegular := by
  unfold ofText
  dsimp only
  split
  · exact isRegular_of_isValid_false rfl
  split
  · exact isRegular_ofDays _
  split
  · exact isRegular_ofDateText _
  · rename_i hcount hdate
    exact absurd hs (by simp [hcount, hdate])

/-! ### The two texts -/

def fullFormat : List Char :=
  "%Y-%m-%dT%H:%M:%S.%3".toList

/-- Between 1000 and 9999 there is no difference between the two ways to write a year. -/
theorem integerText_eq_yearText {year : Int} (hlow : 1000 ≤ year) (hhigh : year ≤ 9999) :
    integerText year = Date.yearText year := by
  obtain ⟨n, rfl⟩ := Int.eq_ofNat_of_zero_le (show 0 ≤ year by omega)
  rw [integerText, if_neg (by omega), Date.yearText, if_pos ⟨by omega, hhigh⟩, Int.natAbs_natCast,
    Int.toNat_natCast, padded_eq_toDigits (show 10 ^ 3 ≤ n by omega)]

def clockFormatted (w : WallClock) : List Char :=
  'T' :: (padded 2 w.hour ++ ':' :: (padded 2 w.minute ++
    ':' :: (padded 2 w.second ++ '.' :: padded 3 w.milli)))

/-- The format writes the same date, and the clock in its own way. -/
theorem formatWall_fullFormat {w : WallClock} (hlow : 1000 ≤ w.date.year)
    (hhigh : w.date.year ≤ 9999) :
    formatWall w fullFormat = .ok (w.date.text ++ clockFormatted w) := by
  have hformat : formatWall w fullFormat = .ok (integerText w.date.year ++
      '-' :: (padded 2 w.date.month ++ '-' :: (padded 2 w.date.day ++ 'T' :: (padded 2 w.hour ++
        ':' :: (padded 2 w.minute ++ ':' :: (padded 2 w.second ++ '.' ::
          (padded 3 w.milli ++ []))))))) := rfl
  rw [hformat, List.append_nil, integerText_eq_yearText hlow hhigh, Date.text, clockFormatted]
  simp only [List.append_assoc, List.cons_append]

/-- The point behind the seconds is the first that either clock has, so the seconds are equal. -/
theorem clockFormatted_eq_clockText_iff {w : WallClock} :
    clockFormatted w = w.clockText ↔ w.nanos < 1000000000 := by
  have hpoint : ∀ width n, '.' ∉ padded width n := by
    intro width n hmem
    have hdigit := isDigit_of_mem_padded hmem
    cases hdigit
  unfold clockFormatted WallClock.clockText WallClock.shownSecond WallClock.milli
  simp only [List.cons.injEq, List.append_cancel_left_eq, true_and]
  rw [List.append_cons_inj_of_notMem (hpoint _ _) (hpoint _ _), padded_inj, padded_inj]
  simp only [true_and]
  omega

/-- The text that a format gives with every field of the full text is the full text up to its offset
unless the moment is in a leap second, which no day count and no date text names. -/
theorem format_fullFormat (z : Zone) (s : List Char) (t : ZonedTime) (ht : ofText z s = valid t)
    (hlow : 1000 ≤ t.wall.date.year) (hhigh : t.wall.date.year ≤ 9999) :
    (∃ out, (valid t).format fullFormat = .ok out ∧
      (out ++ (valid t).offset = (valid t).fullText ↔ t.nanos < 1000000000)) ∧
    (isDayCount (trim s) = true ∨ isDateText (trim s) = true → t.nanos < 1000000000) := by
  refine ⟨⟨_, formatWall_fullFormat hlow hhigh, ?_⟩, fun hs => isRegular_ofText hs t ht⟩
  rw [fullText_valid, List.append_assoc, List.append_cancel_left_eq, offset,
    List.append_cancel_right_eq]
  exact clockFormatted_eq_clockText_iff

theorem format_fullFormat_fraction :
    let s := "2018-01-02T03:04:05.006+02:00".toList
    let t : ZonedTime := ⟨1514855045, 6000000, 7200⟩
    ofText (.fixed 7200) s = valid t ∧ 1000 ≤ t.wall.date.year ∧ t.wall.date.year ≤ 9999 ∧
    isDateText (trim s) = true ∧
    ∃ out, (valid t).format fullFormat = .ok out ∧
      out ++ (valid t).offset = (valid t).fullText := by
  intro s t
  have hread : ofText (.fixed 7200) s = valid t := by decide
  have hlow : 1000 ≤ t.wall.date.year := by decide
  have hhigh : t.wall.date.year ≤ 9999 := by decide
  have hdate : isDateText (trim s) = true := by decide
  obtain ⟨⟨out, hout, hiff⟩, hregular⟩ := format_fullFormat (.fixed 7200) s t hread hlow hhigh
  exact ⟨hread, hlow, hhigh, hdate, out, hout, hiff.2 (hregular (Or.inr hdate))⟩

/-- The last second of 2016 was a leap second. -/
theorem not_forall_format_fullFormat :
    ¬ ∀ (z : Zone) (s : List Char) (t : ZonedTime), ofText z s = valid t →
      1000 ≤ t.wall.date.year → t.wall.date.year ≤ 9999 →
        ∃ out, (valid t).format fullFormat = .ok out ∧
          out ++ (valid t).offset = (valid t).fullText := by
  intro hall
  obtain ⟨out, hout, htext⟩ := hall (.fixed 0) "2016-12-31 23:59:60Z".toList
    ⟨1483228799, 1000000000, 0⟩ (by decide) (by decide) (by decide)
  have hshown : (valid ⟨1483228799, 1000000000, 0⟩).format fullFormat =
      .ok "2016-12-31T23:59:59.1000".toList := by decide
  rw [hshown] at hout
  cases hout
  revert htext
  decide

end Moment

end FormExpr
