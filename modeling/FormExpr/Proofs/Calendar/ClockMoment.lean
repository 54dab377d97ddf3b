import FormExpr.Proofs.Calendar.ClockShare
import FormExpr.Proofs.Calendar.MomentText
import FormExpr.Proofs.Number.NonNegative

/-!
# Clock times as moments of a day

A clock text behind the text of a day is a date text. In ASCII both readers find the same fields in
it, so the clock has a share of the day exactly when the date text is a moment, and it is the share
that this moment shows. In a zone with one offset every day gives the same share.
-/

namespace FormExpr

open Text

theorem Text.DigitRun.denotes {least most : Nat} {digits : List Char}
    (h : DigitRun least most digits) (hascii : IsAscii digits) :
    Denotes least most digits (naturalOf digits) := by
  refine ⟨?_, h.least_le, h.le_most, rfl⟩
  intro c hc
  rw [← isDecimalDigit_of_ascii (hascii c hc)]
  exact h.isDecimalDigit c hc

structure Date.FourDigitYear (d : Date) : Prop where
  inCalendar : d.Exists
  low : 0 ≤ d.year
  high : d.year ≤ 9999

/-! ### The shown share of a day -/

namespace WallClock

/-- The share of the day goes by the time of day alone. -/
theorem share_congr {w w' : WallClock} (hseconds : w.seconds % 86400 = w'.seconds % 86400)
    (hnanos : w.nanos = w'.nanos) : w.share = w'.share := by
  have hsecond : w.secondOfDay = w'.secondOfDay := by
    rw [secondOfDay, secondOfDay, hseconds]
  unfold share milli second minute hour
  rw [hsecond, hnanos]

/-- Parts that are not negative, added and divided by positive numbers, give a number. -/
theorem isNaN_share (w : WallClock) : w.share.isNaN = false := by
  have hthousand : (1000.0 : Float) = Float.ofNat 1000 := by decide
  have hsixty : (60.0 : Float) = Float.ofNat 60 := by decide
  have htwentyFour : (24.0 : Float) = Float.ofNat 24 := by decide
  have hmilli := (Binary64.nonNegative_ofNat w.milli).div_ofNat (n := 1000) (by norm_num) (by decide)
  have hseconds := (hmilli.add (Binary64.nonNegative_ofNat w.second)).div_ofNat (n := 60)
    (by norm_num) (by decide)
  have hminutes := (hseconds.add (Binary64.nonNegative_ofNat w.minute)).div_ofNat (n := 60)
    (by norm_num) (by decide)
  have hhours := (hminutes.add (Binary64.nonNegative_ofNat w.hour)).div_ofNat (n := 24)
    (by norm_num) (by decide)
  unfold share
  rw [hthousand, hsixty, htwentyFour]
  exact hhours.isNaN

end WallClock

namespace OffsetClockText

/-- The texts `hh:mm:ss`, with up to three decimals, and a signed offset `hh:mm`. -/
def IsText (s : List Char) : Prop :=
  ∃ t : OffsetClockText, t.WellFormed ∧ s = t.text

variable {t : OffsetClockText}

/-! ### The fields in a date text -/

def clock (t : OffsetClockText) : ClockText :=
  ⟨t.hour, t.minute, t.second, t.fraction⟩

def offsetPart (t : OffsetClockText) : OffsetText :=
  .signed t.negative (t.offsetHour ++ t.offsetMinute)

theorem clockFraction?_eq {fraction : List Char} (hfraction : DigitRun 0 3 fraction)
    (negative : Bool) (rest : List Char) :
    ClockText.fraction? (pointed fraction ++ sign negative :: rest) =
      some (fraction, sign negative :: rest) := by
  have hsign : isDecimalDigit (sign negative) = false ∧ sign negative ≠ '.' := by
    cases negative <;> decide
  cases fraction with
  | nil =>
    rw [pointed, List.isEmpty_nil, if_pos rfl, List.nil_append, ClockText.fraction?]
    intro after heq
    exact hsign.2 (List.cons.inj heq).1
  | cons c digits =>
    have hlength : (c :: digits).length ≤ (c :: digits ++ sign negative :: rest).length := by simp
    refine run?_append _ hfraction.isDecimalDigit (Nat.le_add_left 1 _) hlength (Or.inr ?_)
    rintro d ⟨⟩
    exact hsign.1

theorem clock?_text (h : t.WellFormed) :
    DateText.clock? ('T' :: t.text) =
      some (some t.clock, sign t.negative :: (t.offsetHour ++ ':' :: t.offsetMinute)) := by
  simp only [DateText.clock?, ClockText.ofText?, ClockText.second?, text, clock, h.hour.run?_eq,
    h.minute.run?_eq, h.second.run?_eq, clockFraction?_eq h.fraction, char?_cons_self, bind,
    Option.bind_some, pure, Option.map_some]

theorem offset?_text (h : t.WellFormed) :
    OffsetText.ofText? (sign t.negative :: (t.offsetHour ++ ':' :: t.offsetMinute)) =
      some (some t.offsetPart) := by
  have hminute := h.offsetMinute.run?_eq []
  rw [List.append_nil] at hminute
  have hsigned : OffsetText.signed? t.negative (t.offsetHour ++ ':' :: t.offsetMinute) =
      some t.offsetPart := by
    simp only [OffsetText.signed?, OffsetText.minutes?, h.offsetHour.run?_eq, hminute, bind,
      Option.bind_some, List.isEmpty_nil, if_true, pure, offsetPart]
  unfold sign
  cases hnegative : t.negative with
  | false =>
    rw [hnegative] at hsigned
    rw [if_neg Bool.false_ne_true, OffsetText.ofText?, hsigned, Option.map_some]
  | true =>
    rw [hnegative] at hsigned
    rw [if_pos rfl, OffsetText.ofText?, hsigned, Option.map_some]

/-! ### The fields of a clock in ASCII -/

structure Fields (t : OffsetClockText) : Prop where
  hour : Denotes 2 2 t.hour (naturalOf t.hour)
  minute : Denotes 2 2 t.minute (naturalOf t.minute)
  second : Denotes 2 2 t.second (naturalOf t.second)
  offsetHour : Denotes 2 2 t.offsetHour (naturalOf t.offsetHour)
  offsetMinute : Denotes 2 2 t.offsetMinute (naturalOf t.offsetMinute)

/-- In ASCII every field of a clock text denotes a number. -/
theorem WellFormed.fields (h : t.WellFormed) (hascii : IsAscii t.text) : t.Fields := by
  simp only [text, isAscii_append, isAscii_cons] at hascii
  obtain ⟨hhour, -, hminute, -, hsecond, -, -, hoffsetHour, -, hoffsetMinute⟩ := hascii
  exact ⟨h.hour.denotes hhour, h.minute.denotes hminute, h.second.denotes hsecond,
    h.offsetHour.denotes hoffsetHour, h.offsetMinute.denotes hoffsetMinute⟩

namespace Fields

theorem timeOfDay?_eq (h : t.Fields) :
    t.timeOfDay? = if t.clock.timeOfDay.Exists then some t.clock.timeOfDay else none := by
  simp only [timeOfDay?, ClockText.timeOfDay, clock, h.hour.natural?_eq two_pos,
    h.minute.natural?_eq two_pos, h.second.natural?_eq two_pos, bind, Option.bind_some,
    Option.getD_some]

theorem offset?_eq (h : t.Fields) : t.offset? = t.offsetPart.seconds? := by
  rw [offsetPart, OffsetText.seconds?_signed t.negative h.offsetHour h.offsetMinute.isDigit]
  simp only [offset?, h.offsetHour.natural?_eq two_pos, h.offsetMinute.natural?_eq two_pos, bind,
    Option.bind_some]
  by_cases hexists : naturalOf t.offsetHour ≤ 23 ∧ naturalOf t.offsetMinute ≤ 59
  · have hnot : ¬ (23 < naturalOf t.offsetHour ∨ 59 < naturalOf t.offsetMinute) := by omega
    rw [if_pos hexists, if_neg hnot]
  · rw [if_neg hexists, if_pos (by omega)]

end Fields

/-- Every offset that is read is less than a day. -/
theorem withinDay_of_offset? {seconds : Int} (hoffset : t.offset? = some seconds) :
    -86400 < seconds ∧ seconds < 86400 := by
  simp only [offset?, bind, Option.bind_eq_some_iff, Option.ite_none_right_eq_some] at hoffset
  obtain ⟨hour, -, minute, -, ⟨hhour, hminute⟩, heq⟩ := hoffset
  cases heq
  cases t.negative <;> simp only [if_true, if_false, Bool.false_eq_true] <;> omega

theorem exists_of_timeOfDay? {time : TimeOfDay} (htime : t.timeOfDay? = some time) :
    time.Exists := by
  simp only [timeOfDay?, bind, Option.bind_eq_some_iff, Option.ite_none_right_eq_some] at htime
  obtain ⟨hour, -, minute, -, second, -, hexists, heq⟩ := htime
  cases heq
  exact hexists

/-! ### A clock text behind a day -/

/-- Behind a date of four digits a clock text makes a date text, read into the same parts. -/
theorem dateText_ofText? {today : Date} (htoday : today.FourDigitYear) (h : t.WellFormed) :
    ∃ d : DateText, DateText.ofText? (today.text ++ 'T' :: t.text) = some d ∧
      d.date? = some today ∧ d.clock = some t.clock ∧ d.offset = some t.offsetPart := by
  obtain ⟨y, ys, ms, ds, heq, htext, year, month, day⟩ :=
    Date.exists_fields_text htoday.low htoday.high htoday.inCalendar
  have hdash : isDecimalDigit '-' = false := by decide
  have hmark : isDecimalDigit 'T' = false := by decide
  have hmonth := run?_append ('-' :: (ds ++ 'T' :: t.text)) month.isDecimalDigit
    (one_le_two.trans month.least_le) month.le_most (Or.inr fun c hc => by cases hc; exact hdash)
  have hday := run?_append ('T' :: t.text) day.isDecimalDigit (one_le_two.trans day.least_le)
    day.le_most (Or.inr fun c hc => by cases hc; exact hmark)
  refine ⟨⟨ys, ms, ds, some t.clock, some t.offsetPart⟩, ?_, ?_, rfl, rfl⟩
  · rw [htext, List.append_assoc, List.cons_append, List.append_assoc, List.cons_append]
    simp only [DateText.ofText?, year.run?_eq, hmonth, hday, char?_cons_self, clock?_text h,
      offset?_text h, bind, Option.bind_some, pure]
  · rw [DateText.date?_eq year (month.of_le one_le_two month.le_most)
      (day.of_le one_le_two day.le_most), ← heq, if_pos htoday.inCalendar]

/-- In ASCII the date text is the instant at which the clock shows its time on that day. -/
theorem ofDateText_text (z : Zone) {today : Date} (htoday : today.FourDigitYear)
    (h : t.WellFormed) (hascii : IsAscii t.text) :
    Moment.ofDateText z (today.text ++ 'T' :: t.text) =
      match t.on? today with
      | some time => .valid (z.toLocal time)
      | none => .invalid := by
  obtain ⟨d, htext, hdate, hclock, hoffset⟩ := dateText_ofText? htoday h
  have hfields := h.fields hascii
  have htime : d.timeOfDay? = t.timeOfDay? := by
    rw [DateText.timeOfDay?_eq, hclock, hfields.timeOfDay?_eq]
    rfl
  rw [Moment.ofDateText, htext]
  dsimp only
  rw [DateText.toMoment, DateText.wall?, hdate, htime, hoffset, on?]
  cases t.timeOfDay? with
  | none => rfl
  | some time =>
    cases hseconds : t.offsetPart.seconds? with
    | none =>
      simp only [bind, Option.bind_some, Option.bind_none, pure, hfields.offset?_eq, hseconds]
    | some seconds =>
      cases hread : (WallClock.of today time).withOffset? seconds <;>
        simp only [bind, Option.bind_some, pure, hfields.offset?_eq, hseconds, hread]

/-- A day moves the instant of a clock by whole days. -/
theorem on?_eq {today : Date} (htoday : today.FourDigitYear) {time : TimeOfDay} {seconds : Int}
    (htime : t.timeOfDay? = some time) (hoffset : t.offset? = some seconds) :
    t.on? today = some ⟨(WallClock.of today time).seconds - seconds,
      (WallClock.of today time).nanos, seconds⟩ := by
  obtain ⟨hlow, hhigh⟩ := withinDay_of_offset? hoffset
  have hyear := WallClock.fourDigitYear_of htoday.inCalendar (exists_of_timeOfDay? htime) htoday.low
    htoday.high
  simp only [on?, htime, hoffset, bind, Option.bind_some, hyear.withOffset?_eq hlow hhigh]

end OffsetClockText

/-! ### The share of the day -/

open OffsetClockText

theorem clockShare_text (z : Zone) (today : Date) {t : OffsetClockText} (h : t.WellFormed) :
    clockShare z today t.text =
      match t.on? today with
      | some time => (z.toLocal time).wall.share
      | none => Binary64.nan := by
  have htext : ofText? t.text = some t := ofText?_eq_some_iff.2 ⟨h, rfl⟩
  rw [clockShare, htext]
  rfl

/-- Only clock texts have a share of the day. -/
theorem clockShare_of_not_isText (z : Zone) (today : Date) {s : List Char} (htext : ¬ IsText s) :
    clockShare z today s = Binary64.nan := by
  have hnone : ofText? s = none := by
    rw [Option.eq_none_iff_forall_ne_some]
    intro t ht
    exact htext ⟨t, ofText?_eq_some_iff.1 ht⟩
  rw [clockShare, hnone]
  rfl

/-- In a zone with one offset the local clock shows the same time on every day. -/
theorem clockShare_fixed_eq (offset : Int) {today other : Date} (htoday : today.FourDigitYear)
    (hother : other.FourDigitYear) (s : List Char) :
    clockShare (.fixed offset) other s = clockShare (.fixed offset) today s := by
  by_cases htext : IsText s
  · obtain ⟨t, h, rfl⟩ := htext
    rw [clockShare_text _ _ h, clockShare_text _ _ h]
    cases htime : t.timeOfDay? with
    | none => simp only [on?, htime, bind, Option.bind_none]
    | some time =>
      cases hoffset : t.offset? with
      | none => simp only [on?, htime, hoffset, bind, Option.bind_some, Option.bind_none]
      | some seconds =>
        rw [on?_eq htoday htime hoffset, on?_eq hother htime hoffset]
        apply WallClock.share_congr
        · simp only [ZonedTime.wall, Zone.toLocal, Zone.offsetAt, WallClock.of]
          omega
        · rfl
  · rw [clockShare_of_not_isText _ _ htext, clockShare_of_not_isText _ _ htext]

/-- The hour, minute and second that the wall shows make up the seconds of its day. -/
theorem ZonedTime.exists_share_wall (t : ZonedTime) :
    ∃ hour minute second : Nat, hour < 24 ∧ minute < 60 ∧ second < 60 ∧
      (t.seconds + t.offset) % 86400 = (hour * 3600 + minute * 60 + second : Nat) ∧
      t.wall.share = (((Float.ofNat (t.nanos / 1000000) / 1000.0 + Float.ofNat second) / 60.0 +
        Float.ofNat minute) / 60.0 + Float.ofNat hour) / 24.0 := by
  refine ⟨t.wall.hour, t.wall.minute, t.wall.second, ?_, ?_, ?_, ?_, rfl⟩
  all_goals
    simp only [WallClock.hour, WallClock.minute, WallClock.second, WallClock.secondOfDay,
      ZonedTime.wall]
    omega

/-- A clock in ASCII agrees with the date text that a day makes of it: both are read or neither is,
and the share is that of the hour, minute, second and millisecond on the wall at the moment of the
date text. Any other text in ASCII has no share. -/
theorem clockShare_eq_ofDateText (z : Zone) (today : Date) (htoday : today.FourDigitYear)
    (s : List Char) (hascii : IsAscii s) :
    (IsText s →
      ((clockShare z today s).isNaN = true ↔
        (Moment.ofDateText z (today.text ++ 'T' :: s)).isValid = false) ∧
      ∀ time, Moment.ofDateText z (today.text ++ 'T' :: s) = .valid time →
        ∃ hour minute second : Nat, hour < 24 ∧ minute < 60 ∧ second < 60 ∧
          (time.seconds + time.offset) % 86400 = (hour * 3600 + minute * 60 + second : Nat) ∧
          clockShare z today s =
            (((Float.ofNat (time.nanos / 1000000) / 1000.0 + Float.ofNat second) / 60.0 +
              Float.ofNat minute) / 60.0 + Float.ofNat hour) / 24.0) ∧
    (¬ IsText s → (clockShare z today s).isNaN = true) ∧
    ∀ offset, z = .fixed offset → ∀ other : Date, other.FourDigitYear →
      clockShare z other s = clockShare z today s := by
  refine ⟨?_, ?_, ?_⟩
  · rintro ⟨t, h, rfl⟩
    rw [ofDateText_text z htoday h hascii, clockShare_text z today h]
    cases t.on? today with
    | none =>
      refine ⟨iff_of_true Binary64.isNaN_nan rfl, ?_⟩
      rintro time ⟨⟩
    | some instant =>
      have hnumber := WallClock.isNaN_share (z.toLocal instant).wall
      refine ⟨iff_of_false (ne_true_of_eq_false hnumber) Bool.noConfusion, ?_⟩
      rintro time ⟨⟩
      exact ZonedTime.exists_share_wall (z.toLocal instant)
  · intro htext
    rw [clockShare_of_not_isText z today htext]
    exact Binary64.isNaN_nan
  · rintro offset rfl other hother
    exact clockShare_fixed_eq offset htoday hother s

/-- On the day of the spring switch half past two, an hour east of UTC, is half past three on the
wall. -/
theorem clockShare_eq_ofDateText_spring :
    let today : Date := ⟨2018, 3, 25⟩
    let s := "02:30:00.5+01:00".toList
    today.FourDigitYear ∧ IsAscii s ∧ IsText s ∧
    Moment.ofDateText .summerTime (today.text ++ 'T' :: s) =
      .valid ⟨1521941400, 500000000, 7200⟩ ∧
    clockShare .summerTime today s =
      (((Float.ofNat 500 / 1000.0 + Float.ofNat 0) / 60.0 + Float.ofNat 30) / 60.0 +
        Float.ofNat 3) / 24.0 := by
  intro today s
  have htoday : today.FourDigitYear := ⟨by decide, by decide, by decide⟩
  have hascii : IsAscii s := by decide
  have htext : IsText s :=
    ⟨⟨"02".toList, "30".toList, "00".toList, "5".toList, false, "01".toList, "00".toList⟩,
      ofText?_eq_some_iff.1 (by rfl)⟩
  have hmoment : Moment.ofDateText .summerTime (today.text ++ 'T' :: s) =
      .valid ⟨1521941400, 500000000, 7200⟩ := by decide
  obtain ⟨-, hshare⟩ := (clockShare_eq_ofDateText .summerTime today htoday s hascii).1 htext
  obtain ⟨hour, minute, second, hhour, hminute, hsecond, hday, hvalue⟩ := hshare _ hmoment
  obtain ⟨rfl, rfl, rfl⟩ : hour = 3 ∧ minute = 30 ∧ second = 0 := by
    dsimp only at hday
    omega
  exact ⟨htoday, hascii, htext, hmoment, hvalue⟩

end FormExpr
