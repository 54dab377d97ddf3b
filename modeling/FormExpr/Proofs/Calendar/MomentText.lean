import FormExpr.Proofs.Calendar.DateGrammar
import FormExpr.Proofs.Calendar.DateText
import FormExpr.Proofs.Text.Blank

/-!
# A written moment is read back

Both texts of a moment are date texts whose fields exist: the full one names the instant by its
offset, and the date alone stands for a local midnight, which no switch of the zone skips or
repeats. So reading either text in the zone of the moment gives the moment back.
-/

namespace FormExpr

open Text

/-! ### Texts without blanks -/

namespace Text

theorem Denotes.noBlank {least most n : Nat} {digits : List Char}
    (h : Denotes least most digits n) : NoBlank digits :=
  noBlank_of_isDigit h.isDigit

theorem isBlank_marks : ∀ c ∈ ['T', 'Z', ':', '.', '+', '-'], isBlank c = false := by
  simp [isBlank]

end Text

theorem ClockForm.noBlank {s : List Char} {time : TimeOfDay} (h : ClockForm s time) :
    NoBlank s := by
  cases h with
  | absent => exact noBlank_nil
  | minute hour minute => simp [isBlank_marks, hour.noBlank, minute.noBlank]
  | second hour minute second =>
    simp [isBlank_marks, hour.noBlank, minute.noBlank, second.noBlank]
  | fraction hour minute second fraction =>
    simp [isBlank_marks, hour.noBlank, minute.noBlank, second.noBlank, fraction.noBlank]

theorem OffsetMinuteForm.noBlank {s : List Char} {m : Nat} (h : OffsetMinuteForm s m) :
    NoBlank s := by
  cases h with
  | absent => exact noBlank_nil
  | plain minute => exact minute.noBlank
  | colon minute => exact noBlank_cons.2 ⟨isBlank_marks ':' (by decide), minute.noBlank⟩

theorem OffsetForm.noBlank {s : List Char} {offset : Option Int} (h : OffsetForm s offset) :
    NoBlank s := by
  cases h with
  | absent => exact noBlank_nil
  | zulu => simp [isBlank_marks]
  | plus hour minute => simp [isBlank_marks, hour.noBlank, minute.noBlank]
  | minus hour minute => simp [isBlank_marks, hour.noBlank, minute.noBlank]

theorem DateForm.noBlank {s : List Char} {date : Date} {time : TimeOfDay} {offset : Option Int}
    (h : DateForm s date time offset) : NoBlank s := by
  cases h with
  | intro year month day clock zone =>
    simp [isBlank_marks, year.noBlank, month.noBlank, day.noBlank, clock.noBlank, zone.noBlank]

/-! ### Reading a text in a form of the grammar -/

/-- Trimmed or not, a text of the grammar is a date text. -/
theorem DateForm.isDateText_trim {s : List Char} {date : Date} {time : TimeOfDay}
    {offset : Option Int} (h : DateForm s date time offset) : isDateText (trim s) = true := by
  obtain ⟨t, htext, -⟩ := h.ofText?_eq
  rw [trim_eq_self h.noBlank, isDateText, htext]
  rfl

/-- Among all forms of texts, one of the grammar means what the grammar says. -/
theorem Moment.ofText_of_dateForm (z : Zone) {s : List Char} {date : Date} {time : TimeOfDay}
    {offset : Option Int} (h : DateForm s date time offset) (hdate : date.Exists)
    (htime : time.Exists) : ofText z s = ofWritten z (WallClock.of date time) offset := by
  rw [ofText_of_isDateText z h.isDateText_trim, trim_eq_self h.noBlank,
    ofDateText_of_dateForm z h hdate htime]

/-! ### The forms of the two texts -/

theorem WallClock.of_date (w : WallClock) :
    WallClock.of w.date ⟨w.hour, w.minute, w.second, w.nanos⟩ = w := by
  obtain ⟨seconds, nanos⟩ := w
  have hday : (WallClock.date ⟨seconds, nanos⟩).toDayNumber = seconds / 86400 :=
    Date.toDayNumber_ofDayNumber _
  have hleap : WallClock.second ⟨seconds, nanos⟩ ≠ 60 := by
    unfold second
    omega
  rw [WallClock.of, hday]
  simp only [hleap, if_false]
  unfold hour minute second secondOfDay
  rw [WallClock.mk.injEq]
  dsimp only
  omega

theorem WallClock.exists_time (w : WallClock) :
    TimeOfDay.Exists ⟨w.hour, w.minute, w.second, w.nanos⟩ := by
  unfold TimeOfDay.Exists hour minute second secondOfDay
  dsimp only
  omega

/-- The fields of the text of a day in a year of four digits. -/
theorem Date.exists_fields_text {d : Date} (hlow : 0 ≤ d.year) (hhigh : d.year ≤ 9999)
    (hd : d.Exists) :
    ∃ year ys ms ds, d = ⟨(year : Nat), d.month, d.day⟩ ∧ d.text = ys ++ '-' :: (ms ++ '-' :: ds) ∧
      Denotes 4 4 ys year ∧ Denotes 2 2 ms d.month ∧ Denotes 2 2 ds d.day := by
  obtain ⟨year, month, day⟩ := d
  dsimp only at hlow hhigh
  obtain ⟨y, rfl⟩ := Int.eq_ofNat_of_zero_le hlow
  obtain ⟨-, hmonth, -, hday⟩ := hd
  dsimp only at hmonth hday
  have hlength := Date.daysInMonth_le y month
  refine ⟨y, padded 4 y, padded 2 month, padded 2 day, rfl, ?_,
    denotes_padded four_pos (by omega), denotes_padded two_pos (by omega),
    denotes_padded two_pos (by omega)⟩
  rw [Date.text, Date.yearText, if_pos ⟨hlow, hhigh⟩, Int.toNat_natCast, List.append_assoc,
    List.cons_append]

theorem dateForm_text {d : Date} (hlow : 0 ≤ d.year) (hhigh : d.year ≤ 9999) (hd : d.Exists)
    {cs os : List Char} {time : TimeOfDay} {offset : Option Int} (clock : ClockForm cs time)
    (zone : OffsetForm os offset) : DateForm (d.text ++ (cs ++ os)) d time offset := by
  obtain ⟨y, ys, ms, ds, heq, htext, year, month, day⟩ := Date.exists_fields_text hlow hhigh hd
  rw [htext, List.append_assoc, List.cons_append, List.append_assoc, List.cons_append, heq]
  exact .intro year (month.of_le one_le_two month.le_most) (day.of_le one_le_two day.le_most) clock
    zone

def WallClock.clockText (w : WallClock) : List Char :=
  'T' :: (padded 2 w.hour ++ ':' :: (padded 2 w.minute ++
    ':' :: (padded 2 w.shownSecond ++ '.' :: padded 3 (w.nanos % 1000000000 / 1000000))))

theorem WallClock.text_eq (w : WallClock) : w.text = w.date.text ++ w.clockText := by
  simp only [text, clockText, List.append_assoc, List.cons_append]

theorem clockForm_clockText {w : WallClock} (hnanos : w.nanos < 1000000000)
    (hmillis : w.nanos % 1000000 = 0) :
    ClockForm w.clockText ⟨w.hour, w.minute, w.second, w.nanos⟩ := by
  have hshown : w.shownSecond = w.second := by
    unfold WallClock.shownSecond
    omega
  obtain ⟨hhour, hminute, hsecond⟩ := w.exists_time
  dsimp only at hhour hminute hsecond
  have hfraction : Denotes 3 3 (padded 3 (w.nanos % 1000000000 / 1000000))
      (w.nanos % 1000000000 / 1000000) := denotes_padded three_pos (by omega)
  have form := ClockForm.fraction (denotes_padded two_pos (show w.hour < 10 ^ 2 by omega))
    (denotes_padded two_pos (show w.minute < 10 ^ 2 by omega))
    (denotes_padded two_pos (show w.second < 10 ^ 2 by omega))
    (hfraction.of_le (Nat.le_add_left 1 2) le_rfl)
  have hvalue : w.nanos % 1000000000 / 1000000 * 1000 / 10 ^ 3 * 1000000 = w.nanos := by omega
  rw [hfraction.length_eq, hvalue] at form
  rw [WallClock.clockText, hshown]
  exact form

/-- Whole minutes of less than a day are written as an offset of the grammar. -/
theorem offsetForm_offsetText {offset : Int} (hminutes : offset % 60 = 0) (hlow : -86400 < offset)
    (hhigh : offset < 86400) : OffsetForm (offsetText offset) (some offset) := by
  have hhour := denotes_padded two_pos (show offset.natAbs / 60 / 60 < 10 ^ 2 by omega)
  have hminute := denotes_padded two_pos (show offset.natAbs / 60 % 60 < 10 ^ 2 by omega)
  unfold offsetText
  dsimp only
  by_cases hnegative : offset < 0
  · have heq : offset = -(offset.natAbs / 60 / 60 * 3600 + offset.natAbs / 60 % 60 * 60 : Nat) := by
      omega
    rw [if_pos hnegative]
    nth_rewrite 3 [heq]
    exact .minus hhour (.colon hminute) (by omega) (by omega)
  · have heq : offset = (offset.natAbs / 60 / 60 * 3600 + offset.natAbs / 60 % 60 * 60 : Nat) := by
      omega
    rw [if_neg hnegative]
    nth_rewrite 3 [heq]
    exact .plus hhour (.colon hminute) (by omega) (by omega)

/-! ### Reading a moment back -/

namespace Zone

def WholeMinutes : Zone → Prop
  | fixed offset => offset % 60 = 0
  | summerTime => True

theorem WholeMinutes.offsetAt {z : Zone} (hz : z.WholeMinutes) (seconds : Int) :
    z.offsetAt seconds % 60 = 0 := by
  cases z with
  | fixed offset => exact hz
  | summerTime =>
    dsimp only [Zone.offsetAt]
    split <;> decide

/-- The repeated hour is shown from two to three, so no local midnight falls in it. -/
theorem not_isRepeated_of_midnight {t : ZonedTime}
    (hoffset : t.offset = summerTime.offsetAt t.seconds) (hmidnight : t.wall.seconds % 86400 = 0) :
    ¬ IsRepeated t.seconds := by
  have hswitch : t.offset = 3600 ∨ t.offset = 7200 := by
    rw [hoffset]
    dsimp only [Zone.offsetAt]
    split
    · exact Or.inr rfl
    · exact Or.inl rfl
  rintro ⟨year, hlow, hhigh⟩
  unfold ZonedTime.wall at hmidnight
  unfold autumnDay at hlow hhigh
  dsimp only at hmidnight
  omega

end Zone

/-- A moment of a zone that its text shows in full: it is in whole milliseconds outside a leap
second and falls on a year of four digits. -/
structure ZonedTime.Shown (z : Zone) (t : ZonedTime) : Prop where
  offset : t.offset = z.offsetAt t.seconds
  year : t.wall.FourDigitYear
  nanos : t.nanos < 1000000000
  millis : t.nanos % 1000000 = 0

namespace Moment

variable {z : Zone} {t : ZonedTime}

theorem fullText_valid :
    (valid t).fullText = t.wall.date.text ++ (t.wall.clockText ++ offsetText t.offset) := by
  have htext : (valid t).fullText = t.wall.text ++ offsetText t.offset := rfl
  rw [htext, WallClock.text_eq, List.append_assoc]

/-- The full text of a moment that is shown is one of the grammar. -/
theorem dateForm_fullText (hz : z.WithinDay) (hminutes : z.WholeMinutes) (ht : t.Shown z) :
    DateForm (valid t).fullText t.wall.date
      ⟨t.wall.hour, t.wall.minute, t.wall.second, t.wall.nanos⟩ (some t.offset) := by
  have hday := hz.offsetAt t.seconds
  have hwhole := hminutes.offsetAt t.seconds
  rw [← ht.offset] at hday hwhole
  have hnanos : t.wall.nanos < 1000000000 := ht.nanos
  have hmillis : t.wall.nanos % 1000000 = 0 := ht.millis
  have hclock := clockForm_clockText hnanos hmillis
  have hoffset := offsetForm_offsetText hwhole hday.1 hday.2
  rw [fullText_valid]
  exact dateForm_text ht.year.1 ht.year.2 (Date.exists_ofDayNumber _) hclock hoffset

/-- The full text is read back. -/
theorem ofText_fullText (hz : z.WithinDay) (hminutes : z.WholeMinutes) (ht : t.Shown z) :
    ofText z (valid t).fullText = valid t := by
  have hinstant : z.toLocal ⟨t.wall.seconds - t.offset, t.wall.nanos, t.offset⟩ = t := by
    have hseconds : t.wall.seconds - t.offset = t.seconds := Int.add_sub_cancel _ _
    rw [hseconds, Zone.toLocal, ← ht.offset]
    rfl
  rw [ofText_of_dateForm z (dateForm_fullText hz hminutes ht) (Date.exists_ofDayNumber _)
    t.wall.exists_time, WallClock.of_date, ofWritten, hinstant]

theorem dateForm_dateText (ht : t.Shown z) :
    DateForm t.wall.date.text t.wall.date .midnight none := by
  have form := dateForm_text ht.year.1 ht.year.2 (Date.exists_ofDayNumber _) .absent .absent
  rwa [List.append_nil, List.append_nil] at form

/-- At midnight the date alone is read back. -/
theorem ofText_dateText (hz : z.WithinDay) (ht : t.Shown z) (hmidnight : t.wall.isMidnight = true) :
    ofText z t.wall.date.text = valid t := by
  simp only [WallClock.isMidnight, Bool.and_eq_true, beq_iff_eq] at hmidnight
  obtain ⟨hsecond, hnanos⟩ := hmidnight
  have hwall : WallClock.of t.wall.date .midnight = t.wall := by
    have htime : TimeOfDay.midnight = ⟨t.wall.hour, t.wall.minute, t.wall.second, t.wall.nanos⟩ := by
      unfold WallClock.hour WallClock.minute WallClock.second
      rw [hsecond, hnanos]
      rfl
    rw [htime, WallClock.of_date]
  have honce : z = .summerTime → ¬ Zone.IsRepeated t.seconds := by
    rintro rfl
    unfold WallClock.secondOfDay at hsecond
    exact Zone.not_isRepeated_of_midnight ht.offset (by omega)
  have hrange : WallClock.InRange t.seconds := by
    obtain ⟨hlow, hhigh⟩ := hz.offsetAt t.seconds
    rw [← ht.offset] at hlow hhigh
    have hseconds : t.wall.seconds = t.seconds + t.offset := rfl
    exact ht.year.inRange (by omega) (by omega)
  rw [ofText_of_dateForm z (dateForm_dateText ht) (Date.exists_ofDayNumber _) (by decide), ofWritten,
    hwall, ofWall, Zone.ofWall?_wall ht.offset hrange honce]

/-- The string value is read back, and is a date text. -/
theorem ofText_stringValue (hz : z.WithinDay) (hminutes : z.WholeMinutes) (ht : t.Shown z) :
    isDateText (trim (valid t).text) = true ∧ ofText z (valid t).text = valid t := by
  unfold text
  dsimp only
  by_cases hmidnight : t.wall.isMidnight = true
  · rw [if_pos hmidnight]
    exact ⟨(dateForm_dateText ht).isDateText_trim, ofText_dateText hz ht hmidnight⟩
  · rw [if_neg hmidnight]
    exact ⟨(dateForm_fullText hz hminutes ht).isDateText_trim, ofText_fullText hz hminutes ht⟩

/-- Both texts of a moment are read back as the moment, so its text is the number that it is. -/
theorem ofText_inverse {F : Forest} (z : Zone) (hz : z.WithinDay) (hminutes : z.WholeMinutes)
    (t : ZonedTime) (ht : t.Shown z) :
    ofText z (valid t).fullText = valid t ∧ ofText z (valid t).text = valid t ∧
    (Value.string (String.ofList (valid t).text) : Value F).toNumber z =
      (Value.date (valid t) : Value F).toNumber z := by
  obtain ⟨hdate, htext⟩ := ofText_stringValue hz hminutes ht
  refine ⟨ofText_fullText hz hminutes ht, htext, ?_⟩
  rw [Value.toNumber, Value.toNumber, String.toList_ofList, Number.ofText_of_isDateText z hdate, htext]

/-- Both passes of the repeated hour show half past two, and the offset tells them apart. -/
theorem ofText_inverse_repeated :
    let first : ZonedTime := ⟨1540686600, 0, 7200⟩
    let second : ZonedTime := ⟨1540690200, 0, 3600⟩
    Zone.summerTime.WithinDay ∧ Zone.summerTime.WholeMinutes ∧
    first.Shown .summerTime ∧ second.Shown .summerTime ∧ first.wall = second.wall ∧
    ofText .summerTime (valid first).fullText = valid first ∧
    ofText .summerTime (valid second).fullText = valid second := by
  intro first second
  have hfirst : first.Shown .summerTime := by constructor <;> decide
  have hsecond : second.Shown .summerTime := by constructor <;> decide
  have hreadFirst := ofText_inverse (F := ⟨[]⟩) .summerTime trivial trivial first hfirst
  have hreadSecond := ofText_inverse (F := ⟨[]⟩) .summerTime trivial trivial second hsecond
  exact ⟨trivial, trivial, hfirst, hsecond, rfl, hreadFirst.1, hreadSecond.1⟩

end Moment

end FormExpr
