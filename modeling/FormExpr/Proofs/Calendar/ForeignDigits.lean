import FormExpr.Proofs.Calendar.ClockShare
import FormExpr.Proofs.Calendar.DateGrammar

/-!
# Digits of other scripts

The grammars of dates and times admit the decimal digits of every script, but only those of ASCII
have a value. In the year, the month and the day of a date text, and in every field of a clock text
but the fraction, a digit of another script leaves the text without a value. Elsewhere it does not:
in the clock of a date text such a field counts as zero, in the offset the digit is passed over, and
the fraction of a clock text counts as zero with all its digits.
-/

namespace FormExpr

open Text

namespace Text

/-- What a field counts as where zero stands in for a number that cannot be read. -/
def countedAs (digits : List Char) : Nat :=
  if digits.all Char.isDigit then naturalOf digits else 0

/-- What cannot be read counts as zero. -/
theorem natural?_getD (digits : List Char) : (natural? digits).getD 0 = countedAs digits := by
  unfold natural? countedAs
  cases digits with
  | nil => rfl
  | cons c rest => cases (c :: rest).all Char.isDigit <;> rfl

end Text

/-! ### The fields of a date text -/

def ClockText.digits (c : ClockText) : List Char :=
  c.hour ++ c.minute ++ c.second ++ c.fraction

namespace OffsetText

def digits : OffsetText → List Char
  | zulu => []
  | signed _ digits => digits

def clock (digits : List Char) : Nat × Nat :=
  let kept := digits.filter Char.isDigit
  (naturalOf (kept.take 2), naturalOf (kept.drop 2))

/-- At least two digits are in ASCII, and the hours and minutes in them exist. -/
def Readable : OffsetText → Prop
  | zulu => True
  | signed _ digits =>
    2 ≤ (digits.filter Char.isDigit).length ∧ (clock digits).1 ≤ 23 ∧ (clock digits).2 ≤ 59

def read : OffsetText → Int
  | zulu => 0
  | signed negative digits =>
    let seconds : Int := ((clock digits).1 * 3600 + (clock digits).2 * 60 : Nat)
    if negative then -seconds else seconds

/-- An offset is read if enough of its digits are in ASCII and give an offset that exists. -/
theorem seconds?_eq_some_iff {o : OffsetText} {seconds : Int} :
    o.seconds? = some seconds ↔ o.Readable ∧ o.read = seconds := by
  cases o with
  | zulu => simp [seconds?, Readable, read]
  | signed negative digits =>
    have hreadable : (signed negative digits).Readable ↔
        ¬ ((digits.filter Char.isDigit).length < 2 ∨ 23 < (clock digits).1 ∨
          59 < (clock digits).2) := by
      unfold Readable
      omega
    rw [hreadable]
    unfold seconds? read clock
    dsimp only
    split <;> simp_all

theorem written?_eq_some_iff {o : Option OffsetText} {offset : Option Int} :
    written? o = some offset ↔ (∀ text ∈ o, text.Readable) ∧ o.map read = offset := by
  cases o with
  | none => simp [written?]
  | some text => simp [written?, Option.map_eq_some_iff, seconds?_eq_some_iff]

theorem withinDay_read {o : OffsetText} (ho : o.Readable) : -86400 < o.read ∧ o.read < 86400 := by
  cases o with
  | zulu => decide
  | signed negative digits =>
    obtain ⟨-, hhour, hminute⟩ := ho
    unfold read
    dsimp only
    split <;> omega

end OffsetText

namespace DateText

def dateDigits (t : DateText) : List Char :=
  t.year ++ t.month ++ t.day

def timeDigits (t : DateText) : List Char :=
  (t.clock.map ClockText.digits).getD [] ++ (t.offset.map OffsetText.digits).getD []

def readDate (t : DateText) : Date :=
  ⟨naturalOf t.year, naturalOf t.month, naturalOf t.day⟩

def readTime (t : DateText) : TimeOfDay :=
  match t.clock with
  | none => .midnight
  | some c => ⟨countedAs c.hour, countedAs c.minute, countedAs c.second,
      countedAs (ClockText.milliDigits c.fraction) * 1000000⟩

structure DateFields (t : DateText) : Prop where
  year : DigitRun 4 4 t.year
  month : DigitRun 1 2 t.month
  day : DigitRun 1 2 t.day

/-- The date is written in ASCII digits, and what is read of date, clock and offset exists. -/
structure Readable (t : DateText) : Prop where
  isDigit : ∀ c ∈ t.dateDigits, c.isDigit = true
  date : t.readDate.Exists
  time : t.readTime.Exists
  offset : ∀ text ∈ t.offset, text.Readable

/-! ### What a date text means -/

theorem shown_eq_readTime (t : DateText) : ClockText.shown t.clock = t.readTime := by
  unfold ClockText.shown readTime
  cases t.clock with
  | none => rfl
  | some c => simp only [ClockText.timeOfDay, natural?_getD]

theorem dateFields_of_ofText? {s : List Char} {t : DateText} (htext : ofText? s = some t) :
    t.DateFields := by
  simp only [ofText?, bind, Option.bind_eq_some_iff, pure, Option.some.injEq] at htext
  obtain ⟨⟨ys, s₁⟩, hyear, s₂, -, ⟨ms, s₃⟩, hmonth, s₄, -, ⟨ds, s₅⟩, hday, -, -, -, -, rfl⟩ := htext
  exact ⟨(DigitRun.of_run? hyear).2, (DigitRun.of_run? hmonth).2, (DigitRun.of_run? hday).2⟩

namespace DateFields

variable {t : DateText}

theorem date?_eq_some_iff (h : t.DateFields) {d : Date} :
    t.date? = some d ↔
      (∀ c ∈ t.dateDigits, c.isDigit = true) ∧ t.readDate.Exists ∧ t.readDate = d := by
  have hdigits : (∀ c ∈ t.dateDigits, c.isDigit = true) ↔
      (∀ c ∈ t.year, c.isDigit = true) ∧ (∀ c ∈ t.month, c.isDigit = true) ∧
      ∀ c ∈ t.day, c.isDigit = true := by
    simp only [dateDigits, List.mem_append, or_imp, forall_and, and_assoc]
  simp only [date?, bind, Option.bind_eq_some_iff, natural?_eq_some_iff, h.year.ne_nil four_pos,
    h.month.ne_nil one_pos, h.day.ne_nil one_pos, hdigits, ne_eq, not_false_eq_true, true_and,
    Option.ite_none_right_eq_some, Option.some.injEq]
  constructor
  · rintro ⟨y, ⟨hy, rfl⟩, m, ⟨hm, rfl⟩, n, ⟨hn, rfl⟩, hexists, rfl⟩
    exact ⟨⟨hy, hm, hn⟩, hexists, rfl⟩
  · rintro ⟨⟨hy, hm, hn⟩, hexists, rfl⟩
    exact ⟨_, ⟨hy, rfl⟩, _, ⟨hm, rfl⟩, _, ⟨hn, rfl⟩, hexists, rfl⟩

/-- A wall clock is read if its date is in ASCII and date and time exist. -/
theorem wall?_eq_some_iff (h : t.DateFields) {w : WallClock} :
    t.wall? = some w ↔
      (∀ c ∈ t.dateDigits, c.isDigit = true) ∧ t.readDate.Exists ∧ t.readTime.Exists ∧
      WallClock.of t.readDate t.readTime = w := by
  simp only [wall?, bind, Option.bind_eq_some_iff, h.date?_eq_some_iff, timeOfDay?_eq,
    shown_eq_readTime, Option.ite_none_right_eq_some, Option.some.injEq, pure]
  constructor
  · rintro ⟨_, ⟨hdigits, hdate, rfl⟩, _, ⟨htime, rfl⟩, rfl⟩
    exact ⟨hdigits, hdate, htime, rfl⟩
  · rintro ⟨hdigits, hdate, htime, rfl⟩
    exact ⟨_, ⟨hdigits, hdate, rfl⟩, _, ⟨htime, rfl⟩, rfl⟩

/-- Every text with a moment is readable. -/
theorem readable_of_isValid (h : t.DateFields) {z : Zone}
    (hvalid : (t.toMoment z).isValid = true) : t.Readable := by
  obtain ⟨⟨w, hwall⟩, offset, hwritten⟩ := Moment.wall_and_offset_of_isValid hvalid
  obtain ⟨hdigits, hdate, htime, -⟩ := h.wall?_eq_some_iff.1 hwall
  exact ⟨hdigits, hdate, htime, (OffsetText.written?_eq_some_iff.1 hwritten).1⟩

end DateFields

namespace Readable

variable {t : DateText}

theorem fourDigitYear (h : t.Readable) (hfields : t.DateFields) :
    (WallClock.of t.readDate t.readTime).FourDigitYear := by
  have hdigits : ∀ c ∈ t.year, c.isDigit = true := by
    intro c hc
    exact h.isDigit c (List.mem_append_left _ (List.mem_append_left _ hc))
  have hlt := naturalOf_lt hdigits
  rw [hfields.year.length_eq] at hlt
  exact WallClock.fourDigitYear_of h.date h.time (Int.natCast_nonneg _)
    (by unfold readDate; dsimp only; omega)

/-- A readable text has the moment of what is read of it. -/
theorem toMoment_eq (h : t.Readable) (hfields : t.DateFields) (z : Zone) :
    t.toMoment z = Moment.ofWritten z (WallClock.of t.readDate t.readTime)
      (t.offset.map OffsetText.read) := by
  have hwall := hfields.wall?_eq_some_iff.2 ⟨h.isDigit, h.date, h.time, rfl⟩
  have hwritten := OffsetText.written?_eq_some_iff.2 ⟨h.offset, rfl⟩
  refine Moment.toMoment_eq_ofWritten z hwall (h.fourDigitYear hfields) hwritten ?_
  intro seconds hseconds
  obtain ⟨text, htext, rfl⟩ := Option.map_eq_some_iff.1 hseconds
  exact OffsetText.withinDay_read (h.offset text htext)

end Readable

end DateText

/-! ### Where a text can leave ASCII -/

theorem isAscii_iff_of_run? {p : Char → Bool} {least most : Nat} {s digits rest : List Char}
    (hrun : run? p least most s = some (digits, rest)) :
    IsAscii s ↔ IsAscii digits ∧ IsAscii rest := by
  rw [(eq_append_of_run? hrun).1, isAscii_append]

theorem isAscii_iff_of_char? {c : Char} {s rest : List Char} (hchar : char? c s = some rest) :
    IsAscii s ↔ c.toNat < 128 ∧ IsAscii rest := by
  rw [eq_cons_of_char? hchar, isAscii_cons]

theorem isAscii_of_whole_run? {p : Char → Bool} {least most : Nat} {s digits : List Char}
    (hrun : ((run? p least most s).bind fun (digits, rest) =>
      if rest.isEmpty then some digits else none) = some digits) (hdigits : IsAscii digits) :
    IsAscii s := by
  exact (isAscii_iff_of_run? (run?_eq_of_whole hrun)).2 ⟨hdigits, isAscii_nil⟩

namespace OffsetText

theorem isAscii_of_minutes? {s digits : List Char} (hminutes : minutes? s = some digits)
    (hdigits : IsAscii digits) : IsAscii s := by
  unfold minutes? at hminutes
  split at hminutes
  · exact isAscii_nil
  · exact isAscii_cons.2 ⟨by decide, isAscii_of_whole_run? hminutes hdigits⟩
  · exact isAscii_of_whole_run? hminutes hdigits

theorem isAscii_of_signed? {negative : Bool} {s : List Char} {o : OffsetText}
    (hsigned : signed? negative s = some o) (ho : IsAscii o.digits) : IsAscii s := by
  simp only [signed?, bind, Option.bind_eq_some_iff, pure, Option.some.injEq] at hsigned
  obtain ⟨⟨hours, rest⟩, hrun, minutes, hminutes, rfl⟩ := hsigned
  obtain ⟨hhours, hrest⟩ := isAscii_append.1 ho
  exact (isAscii_iff_of_run? hrun).2 ⟨hhours, isAscii_of_minutes? hminutes hrest⟩

theorem isAscii_of_ofText? {s : List Char} {o : Option OffsetText} (htext : ofText? s = some o)
    (ho : IsAscii ((o.map digits).getD [])) : IsAscii s := by
  unfold ofText? at htext
  split at htext
  · exact isAscii_nil
  · decide
  · obtain ⟨text, hsigned, rfl⟩ := Option.map_eq_some_iff.1 htext
    exact isAscii_cons.2 ⟨by decide, isAscii_of_signed? hsigned ho⟩
  · obtain ⟨text, hsigned, rfl⟩ := Option.map_eq_some_iff.1 htext
    exact isAscii_cons.2 ⟨by decide, isAscii_of_signed? hsigned ho⟩
  · cases htext

end OffsetText

namespace ClockText

theorem isAscii_of_fraction? {s fraction rest : List Char}
    (hfraction : fraction? s = some (fraction, rest)) (hdigits : IsAscii fraction)
    (hrest : IsAscii rest) : IsAscii s := by
  unfold fraction? at hfraction
  split at hfraction
  · exact isAscii_cons.2 ⟨by decide, (isAscii_iff_of_run? hfraction).2 ⟨hdigits, hrest⟩⟩
  · cases hfraction
    exact hrest

theorem isAscii_of_second? {s second fraction rest : List Char}
    (hsecond : second? s = some (second, fraction, rest)) (hdigits : IsAscii (second ++ fraction))
    (hrest : IsAscii rest) : IsAscii s := by
  unfold second? at hsecond
  split at hsecond
  · simp only [bind, Option.bind_eq_some_iff, pure, Option.some.injEq, Prod.mk.injEq] at hsecond
    obtain ⟨⟨second', after⟩, hrun, ⟨fraction', rest'⟩, hfraction, rfl, rfl, rfl⟩ := hsecond
    obtain ⟨hsecond', hfraction'⟩ := isAscii_append.1 hdigits
    have hafter := isAscii_of_fraction? hfraction hfraction' hrest
    exact isAscii_cons.2 ⟨by decide, (isAscii_iff_of_run? hrun).2 ⟨hsecond', hafter⟩⟩
  · cases hsecond
    exact hrest

theorem isAscii_of_ofText? {s rest : List Char} {c : ClockText}
    (htext : ofText? s = some (c, rest)) (hdigits : IsAscii c.digits) (hrest : IsAscii rest) :
    IsAscii s := by
  simp only [ofText?, bind, Option.bind_eq_some_iff, pure, Option.some.injEq, Prod.mk.injEq] at htext
  obtain ⟨⟨hour, s₁⟩, hhour, s₂, hcolon, ⟨minute, s₃⟩, hminute, ⟨second, fraction, s₄⟩, hsecond, rfl,
    rfl⟩ := htext
  unfold digits at hdigits
  simp only [isAscii_append] at hdigits
  obtain ⟨⟨⟨hhour', hminute'⟩, hsecond'⟩, hfraction'⟩ := hdigits
  have hafter := isAscii_of_second? hsecond (isAscii_append.2 ⟨hsecond', hfraction'⟩) hrest
  have hrest' := (isAscii_iff_of_run? hminute).2 ⟨hminute', hafter⟩
  exact (isAscii_iff_of_run? hhour).2 ⟨hhour', (isAscii_iff_of_char? hcolon).2 ⟨by decide, hrest'⟩⟩

end ClockText

namespace DateText

theorem isAscii_of_clock? {s rest : List Char} {clock : Option ClockText}
    (hclock : clock? s = some (clock, rest))
    (hdigits : IsAscii ((clock.map ClockText.digits).getD [])) (hrest : IsAscii rest) :
    IsAscii s := by
  unfold clock? at hclock
  split at hclock
  · obtain ⟨⟨c, rest'⟩, htext, heq⟩ := Option.map_eq_some_iff.1 hclock
    cases heq
    exact isAscii_cons.2 ⟨by decide, ClockText.isAscii_of_ofText? htext hdigits hrest⟩
  · cases hclock
    exact hrest

/-- The marks between the fields are in ASCII, so a date text leaves it in a digit. -/
theorem isAscii_of_ofText? {s : List Char} {t : DateText} (htext : ofText? s = some t)
    (hdate : IsAscii t.dateDigits) (htime : IsAscii t.timeDigits) : IsAscii s := by
  simp only [ofText?, bind, Option.bind_eq_some_iff, pure, Option.some.injEq] at htext
  obtain ⟨⟨year, s₁⟩, hyear, s₂, hdash, ⟨month, s₃⟩, hmonth, s₄, hdash', ⟨day, s₅⟩, hday, ⟨clock, s₆⟩,
    hclock, offset, hoffset, rfl⟩ := htext
  unfold dateDigits at hdate
  simp only [isAscii_append] at hdate
  obtain ⟨⟨hyear', hmonth'⟩, hday'⟩ := hdate
  obtain ⟨hclock', hoffset'⟩ := isAscii_append.1 htime
  have hzone := OffsetText.isAscii_of_ofText? hoffset hoffset'
  have hafter := isAscii_of_clock? hclock hclock' hzone
  have hrest := (isAscii_iff_of_run? hday).2 ⟨hday', hafter⟩
  have hrest' := (isAscii_iff_of_run? hmonth).2
    ⟨hmonth', (isAscii_iff_of_char? hdash').2 ⟨by decide, hrest⟩⟩
  exact (isAscii_iff_of_run? hyear).2
    ⟨hyear', (isAscii_iff_of_char? hdash).2 ⟨by decide, hrest'⟩⟩

/-- In a readable text foreign digits stand behind the date. -/
theorem Readable.not_isAscii_timeDigits {s : List Char} {t : DateText} (h : t.Readable)
    (htext : ofText? s = some t) (hforeign : ¬ IsAscii s) : ¬ IsAscii t.timeDigits :=
  fun htime => hforeign (isAscii_of_ofText? htext (isAscii_of_isDigit h.isDigit) htime)

end DateText

/-! ### Clock texts -/

namespace OffsetClockText

variable {t : OffsetClockText}

def whole (t : OffsetClockText) : OffsetClockText :=
  { t with fraction := [] }

theorem WellFormed.whole (h : t.WellFormed) : t.whole.WellFormed :=
  { h with fraction := ⟨by simp [OffsetClockText.whole], Nat.zero_le 0, Nat.zero_le 3⟩ }

theorem isAscii_sign (negative : Bool) : (sign negative).toNat < 128 := by
  cases negative <;> decide

theorem isAscii_pointed {fraction : List Char} : IsAscii (pointed fraction) ↔ IsAscii fraction := by
  cases fraction with
  | nil => rfl
  | cons c digits =>
    have hpoint : '.'.toNat < 128 := by decide
    exact isAscii_cons.trans (and_iff_right hpoint)

theorem isAscii_text_iff (t : OffsetClockText) :
    IsAscii t.text ↔ IsAscii t.fraction ∧ IsAscii t.whole.text := by
  simp only [text, OffsetClockText.whole, isAscii_append, isAscii_cons, isAscii_pointed,
    isAscii_sign, isAscii_nil]
  tauto

theorem isAscii_of_natural? {digits : List Char} {n : Nat} (h : natural? digits = some n) :
    IsAscii digits :=
  isAscii_of_isDigit (natural?_eq_some_iff.1 h).2.1

/-- Outside the fraction a clock with an instant has only digits of ASCII. -/
theorem isAscii_whole_of_on? {today : Date} {time : ZonedTime} (h : t.on? today = some time) :
    IsAscii t.whole.text := by
  simp only [on?, bind, Option.bind_eq_some_iff] at h
  obtain ⟨clock, hclock, offset, hoffset, -⟩ := h
  simp only [timeOfDay?, bind, Option.bind_eq_some_iff] at hclock
  obtain ⟨hour, hhour, minute, hminute, second, hsecond, -⟩ := hclock
  simp only [offset?, bind, Option.bind_eq_some_iff] at hoffset
  obtain ⟨offsetHour, hoffsetHour, offsetMinute, hoffsetMinute, -⟩ := hoffset
  have hcolon : ':'.toNat < 128 := by decide
  simp only [text, OffsetClockText.whole, isAscii_append, isAscii_cons, isAscii_pointed,
    isAscii_sign, isAscii_nil, hcolon, isAscii_of_natural? hhour, isAscii_of_natural? hminute,
    isAscii_of_natural? hsecond, isAscii_of_natural? hoffsetHour,
    isAscii_of_natural? hoffsetMinute, and_self]

/-- One foreign digit is enough for a fraction to count as zero. -/
theorem millis_of_not_isAscii {fraction : List Char} (hlength : fraction.length ≤ 3)
    (hforeign : ¬ IsAscii fraction) : (natural? (ClockText.milliDigits fraction)).getD 0 = 0 := by
  have hsplit : ClockText.milliDigits fraction =
      fraction ++ "000".toList.take (3 - fraction.length) := by
    rw [ClockText.milliDigits, List.take_append, List.take_of_length_le hlength]
  cases hvalue : natural? (ClockText.milliDigits fraction) with
  | none => rfl
  | some n =>
    have hascii := isAscii_of_natural? hvalue
    rw [hsplit, isAscii_append] at hascii
    exact absurd hascii.1 hforeign

/-- So the clock stands for the same instant without that fraction. -/
theorem on?_whole (h : t.WellFormed) (hforeign : ¬ IsAscii t.fraction) (today : Date) :
    t.whole.on? today = t.on? today := by
  -- the fraction enters through its milliseconds alone, and without one they are zero as well
  have hzero : (natural? (ClockText.milliDigits [])).getD 0 = 0 := by decide
  have hclock : t.whole.timeOfDay? = t.timeOfDay? := by
    unfold timeOfDay?
    rw [millis_of_not_isAscii h.fraction.le_most hforeign]
    simp only [OffsetClockText.whole, hzero]
  have hoffset : t.whole.offset? = t.offset? := rfl
  rw [on?, on?, hclock, hoffset]

/-- A fraction with a digit of another script does not count. -/
theorem clockShare_text_whole (h : t.WellFormed) (hforeign : ¬ IsAscii t.fraction) (z : Zone)
    (today : Date) : clockShare z today t.text = clockShare z today t.whole.text := by
  have htext : ofText? t.text = some t := ofText?_eq_some_iff.2 ⟨h, rfl⟩
  have hwhole : ofText? t.whole.text = some t.whole := ofText?_eq_some_iff.2 ⟨h.whole, rfl⟩
  rw [clockShare, clockShare, htext, hwhole, Option.bind_some, Option.bind_some,
    on?_whole h hforeign today]

end OffsetClockText

theorem clockShare_eq_nan {z : Zone} {today : Date} {s : List Char}
    (hforeign : ∀ t, OffsetClockText.ofText? s = some t → ¬ IsAscii t.whole.text) :
    clockShare z today s = Binary64.nan := by
  unfold clockShare
  split
  · rename_i time htime
    obtain ⟨t, htext, hon⟩ := Option.bind_eq_some_iff.1 htime
    exact absurd (OffsetClockText.isAscii_whole_of_on? hon) (hforeign t htext)
  · rfl

namespace Moment

theorem toDays_of_isValid_false {m : Moment} (hinvalid : m.isValid = false) :
    m.toDays = Binary64.nan := by
  cases m with
  | blank | invalid => rfl
  | valid t => cases hinvalid

/-- The moment of a readable text is that of its fields with zeros for what is foreign. -/
theorem ofDateText_of_readable {z : Zone} {s : List Char} {t : DateText}
    (htext : DateText.ofText? s = some t) (h : t.Readable) :
    ofDateText z s =
      ofWritten z (WallClock.of t.readDate t.readTime) (t.offset.map OffsetText.read) := by
  rw [ofDateText, htext]
  exact h.toMoment_eq (DateText.dateFields_of_ofText? htext) z

/-- The texts with a moment are the readable ones. -/
theorem isValid_ofDateText_iff {z : Zone} (hz : z.WithinDay) (s : List Char) :
    (ofDateText z s).isValid = true ↔ ∃ t, DateText.ofText? s = some t ∧ t.Readable := by
  constructor
  · intro hvalid
    unfold ofDateText at hvalid
    split at hvalid
    · rename_i t htext
      exact ⟨t, htext, (DateText.dateFields_of_ofText? htext).readable_of_isValid hvalid⟩
    · cases hvalid
  · rintro ⟨t, htext, h⟩
    rw [ofDateText_of_readable htext h]
    exact isValid_ofWritten hz (h.fourDigitYear (DateText.dateFields_of_ofText? htext)) _

end Moment

/-- A text outside ASCII is still a date when its year, month and day are in ASCII and its clock and
offset exist as they are read, and it is still a clock when only its fraction leaves ASCII, which
then does not count. In every other case it has no value. -/
theorem ofDateText_and_clockShare_of_not_isAscii (z : Zone) (hz : z.WithinDay) (s : List Char)
    (hforeign : ¬ IsAscii s) :
    ((Moment.ofDateText z s).isValid = true ↔ ∃ t, DateText.ofText? s = some t ∧ t.Readable) ∧
    (∀ t, DateText.ofText? s = some t → t.Readable → ¬ IsAscii t.timeDigits ∧
      Moment.ofDateText z s = Moment.ofWritten z (WallClock.of t.readDate t.readTime)
        (t.offset.map OffsetText.read)) ∧
    ((Moment.ofDateText z s).isValid = false →
      (Moment.ofDateText z s).toDays = Binary64.nan) ∧
    ∀ today,
      (∀ t, OffsetClockText.ofText? s = some t → IsAscii t.whole.text →
        clockShare z today s = clockShare z today t.whole.text) ∧
      ((∀ t, OffsetClockText.ofText? s = some t → ¬ IsAscii t.whole.text) →
        clockShare z today s = Binary64.nan) := by
  refine ⟨Moment.isValid_ofDateText_iff hz s, ?_, Moment.toDays_of_isValid_false, ?_⟩
  · intro t htext h
    exact ⟨h.not_isAscii_timeDigits htext hforeign, Moment.ofDateText_of_readable htext h⟩
  · intro today
    refine ⟨?_, clockShare_eq_nan⟩
    intro t htext hwhole
    obtain ⟨hwellFormed, rfl⟩ := OffsetClockText.ofText?_eq_some_iff.1 htext
    have hfraction : ¬ IsAscii t.fraction :=
      fun hascii => hforeign ((OffsetClockText.isAscii_text_iff t).2 ⟨hascii, hwhole⟩)
    exact OffsetClockText.clockShare_text_whole hwellFormed hfraction z today

/-- An Arabic digit in the hour makes it zero, one in the offset is passed over, and one in the
fraction of a clock takes its other digits with it. -/
theorem ofDateText_and_clockShare_of_not_isAscii_arabic :
    let z : Zone := .fixed 7200
    let date := "2018-01-01T1٠:20:30.٣+02:0٠".toList
    let clock := "10:20:30.1٣+02:00".toList
    z.WithinDay ∧ ¬ IsAscii date ∧ ¬ IsAscii clock ∧
    Moment.ofDateText z date = .valid ⟨1514758830, 0, 7200⟩ ∧
    clockShare z ⟨2018, 6, 15⟩ clock = clockShare z ⟨2018, 6, 15⟩ "10:20:30+02:00".toList := by
  intro z date clock
  have hzone : z.WithinDay := ⟨by decide, by decide⟩
  have hdate : ¬ IsAscii date := by decide
  have hclock : ¬ IsAscii clock := by decide
  have hreadable : DateText.Readable ⟨"2018".toList, "01".toList, "01".toList,
      some ⟨"1٠".toList, "20".toList, "30".toList, "٣".toList⟩,
      some (.signed false "020٠".toList)⟩ := by
    refine ⟨List.all_eq_true.1 (by rfl), by decide, by decide, ?_⟩
    rintro _ ⟨⟩
    exact ⟨by decide, by decide, by decide⟩
  obtain ⟨-, hmoment, -, -⟩ := ofDateText_and_clockShare_of_not_isAscii z hzone date hdate
  obtain ⟨-, -, -, hshare⟩ := ofDateText_and_clockShare_of_not_isAscii z hzone clock hclock
  refine ⟨hzone, hdate, hclock, ?_, ?_⟩
  · rw [(hmoment _ (by rfl) hreadable).2]
    decide
  · exact (hshare ⟨2018, 6, 15⟩).1 _ (by rfl) (by decide)

/-- Neither reader refuses every text with a digit of another script. -/
theorem not_forall_isValid_false_of_not_isAscii :
    (¬ ∀ (z : Zone) (s : List Char), ¬ IsAscii s → (Moment.ofDateText z s).isValid = false) ∧
    ¬ ∀ (z : Zone) (today : Date) (s : List Char), ¬ IsAscii s →
      (clockShare z today s).isNaN = true := by
  constructor
  · intro hall
    have hinvalid := hall (.fixed 7200) "2018-01-01T1٠:20:30".toList (by decide)
    revert hinvalid
    decide
  · intro hall
    have hnan := hall (.fixed 7200) ⟨2018, 6, 15⟩ "10:20:30.٣+02:00".toList (by decide)
    revert hnan
    decide +kernel

end FormExpr
