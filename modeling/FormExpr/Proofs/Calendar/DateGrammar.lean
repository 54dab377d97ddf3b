import FormExpr.Calendar.DateText
import FormExpr.Proofs.Calendar.Zone
import FormExpr.Proofs.Text.Digit
import FormExpr.Proofs.Text.Scan

/-!
# The grammar of date texts

The forms of a date text say which texts are read, and as which date, time of day and offset. Each
part is read back from its form, and in ASCII a part that is read has its form; digits of other
scripts pass the grammar too, but a field that has one has no value.
-/

namespace FormExpr

open Text

/-- `Thh:mm`, `Thh:mm:ss` or `Thh:mm:ss.f`; without a clock it is midnight. A fraction counts in
whole milliseconds. -/
inductive ClockForm : List Char → TimeOfDay → Prop
  | absent : ClockForm [] .midnight
  | minute {hs ms : List Char} {h m : Nat} (hour : Denotes 2 2 hs h) (minute : Denotes 2 2 ms m) :
    ClockForm ('T' :: (hs ++ ':' :: ms)) ⟨h, m, 0, 0⟩
  | second {hs ms ss : List Char} {h m s : Nat} (hour : Denotes 2 2 hs h)
    (minute : Denotes 2 2 ms m) (second : Denotes 2 2 ss s) :
    ClockForm ('T' :: (hs ++ ':' :: (ms ++ ':' :: ss))) ⟨h, m, s, 0⟩
  | fraction {hs ms ss fs : List Char} {h m s f : Nat} (hour : Denotes 2 2 hs h)
    (minute : Denotes 2 2 ms m) (second : Denotes 2 2 ss s) (fraction : Denotes 1 fs.length fs f) :
    ClockForm ('T' :: (hs ++ ':' :: (ms ++ ':' :: (ss ++ '.' :: fs))))
      ⟨h, m, s, f * 1000 / 10 ^ fs.length * 1000000⟩

inductive OffsetMinuteForm : List Char → Nat → Prop
  | absent : OffsetMinuteForm [] 0
  | plain {ms : List Char} {m : Nat} (minute : Denotes 2 2 ms m) : OffsetMinuteForm ms m
  | colon {ms : List Char} {m : Nat} (minute : Denotes 2 2 ms m) : OffsetMinuteForm (':' :: ms) m

/-- `Z`, or a sign with hours and minutes that exist, or no offset. -/
inductive OffsetForm : List Char → Option Int → Prop
  | absent : OffsetForm [] none
  | zulu : OffsetForm ['Z'] (some 0)
  | plus {hs ms : List Char} {h m : Nat} (hour : Denotes 2 2 hs h) (minute : OffsetMinuteForm ms m)
    (hours : h ≤ 23) (minutes : m ≤ 59) :
    OffsetForm ('+' :: (hs ++ ms)) (some (h * 3600 + m * 60 : Nat))
  | minus {hs ms : List Char} {h m : Nat} (hour : Denotes 2 2 hs h) (minute : OffsetMinuteForm ms m)
    (hours : h ≤ 23) (minutes : m ≤ 59) :
    OffsetForm ('-' :: (hs ++ ms)) (some (-(h * 3600 + m * 60 : Nat)))

/-- `YYYY-M-D` with one or two digits for month and day, then a clock and an offset. -/
inductive DateForm : List Char → Date → TimeOfDay → Option Int → Prop
  | intro {ys ms ds cs os : List Char} {y m d : Nat} {time : TimeOfDay} {offset : Option Int}
    (year : Denotes 4 4 ys y) (month : Denotes 1 2 ms m) (day : Denotes 1 2 ds d)
    (clock : ClockForm cs time) (zone : OffsetForm os offset) :
    DateForm (ys ++ '-' :: (ms ++ '-' :: (ds ++ (cs ++ os)))) ⟨y, m, d⟩ time offset

def IsAscii (s : List Char) : Prop :=
  ∀ c ∈ s, c.toNat < 128

instance (s : List Char) : Decidable (IsAscii s) :=
  decidable_of_iff (s.all (·.toNat < 128) = true) (by simp [IsAscii])

@[simp]
theorem isAscii_nil : IsAscii [] := by
  simp [IsAscii]

@[simp]
theorem isAscii_cons {c : Char} {s : List Char} : IsAscii (c :: s) ↔ c.toNat < 128 ∧ IsAscii s := by
  simp [IsAscii]

@[simp]
theorem isAscii_append {s t : List Char} : IsAscii (s ++ t) ↔ IsAscii s ∧ IsAscii t := by
  simp [IsAscii, or_imp, forall_and]

theorem isAscii_of_isDigit {digits : List Char} (hdigits : ∀ c ∈ digits, c.isDigit = true) :
    IsAscii digits := by
  intro c hc
  have hle := ((isDigit_iff c).1 (hdigits c hc)).2
  omega

theorem IsAscii.of_append_right {xs ys : List Char} (h : IsAscii (xs ++ ys)) : IsAscii ys :=
  (isAscii_append.1 h).2

theorem IsAscii.of_cons {c : Char} {s : List Char} (h : IsAscii (c :: s)) : IsAscii s :=
  (isAscii_cons.1 h).2

/-! ### Runs of digits -/

namespace Text

variable {least most width n : Nat} {s digits rest : List Char}

theorem Denotes.digitRun (h : Denotes least most digits n) : DigitRun least most digits :=
  ⟨h.isDecimalDigit, h.least_le, h.le_most⟩

theorem Denotes.run?_eq (h : Denotes width width digits n) (rest : List Char) :
    run? Text.isDecimalDigit width width (digits ++ rest) = some (digits, rest) :=
  h.digitRun.run?_eq rest

/-- In ASCII a run of decimal digits denotes its number. -/
theorem denotes_of_run? (hascii : IsAscii s)
    (hrun : run? isDecimalDigit least most s = some (digits, rest)) :
    s = digits ++ rest ∧ Denotes least most digits (naturalOf digits) ∧ IsAscii rest := by
  obtain ⟨hsplit, digitRun⟩ := DigitRun.of_run? hrun
  rw [hsplit] at hascii
  refine ⟨hsplit, ⟨?_, digitRun.least_le, digitRun.le_most, rfl⟩, hascii.of_append_right⟩
  intro c hc
  rw [← isDecimalDigit_of_ascii (hascii c (List.mem_append_left rest hc))]
  exact digitRun.isDecimalDigit c hc

end Text

/-! ### Offsets -/

theorem OffsetMinuteForm.minutes?_eq {s : List Char} {m : Nat} (h : OffsetMinuteForm s m) :
    ∃ digits, OffsetText.minutes? s = some digits ∧ (∀ c ∈ digits, c.isDigit = true) ∧
      naturalOf digits = m := by
  cases h with
  | absent => exact ⟨[], rfl, by simp, rfl⟩
  | plain minute =>
    have hrun := minute.run?_eq []
    rw [List.append_nil] at hrun
    refine ⟨s, ?_, minute.isDigit, minute.value⟩
    unfold OffsetText.minutes?
    split
    · rfl
    · have hcolon := minute.isDigit ':' List.mem_cons_self
      cases hcolon
    · rw [hrun]
      rfl
  | @colon ms m minute =>
    have hrun := minute.run?_eq []
    rw [List.append_nil] at hrun
    refine ⟨ms, ?_, minute.isDigit, minute.value⟩
    rw [OffsetText.minutes?, hrun]
    rfl

theorem denotes_of_whole_run? {least most : Nat} {s digits : List Char} (hascii : IsAscii s)
    (hrun : ((run? isDecimalDigit least most s).bind fun (digits, rest) =>
      if rest.isEmpty then some digits else none) = some digits) :
    s = digits ∧ Denotes least most digits (naturalOf digits) := by
  obtain ⟨hsplit, hdenotes, -⟩ := denotes_of_run? hascii (run?_eq_of_whole hrun)
  rw [List.append_nil] at hsplit
  exact ⟨hsplit, hdenotes⟩

theorem offsetMinuteForm_of_minutes? {s digits : List Char} (hascii : IsAscii s)
    (hminutes : OffsetText.minutes? s = some digits) :
    OffsetMinuteForm s (naturalOf digits) ∧ ∀ c ∈ digits, c.isDigit = true := by
  unfold OffsetText.minutes? at hminutes
  split at hminutes
  · cases hminutes
    exact ⟨.absent, by simp⟩
  · obtain ⟨rfl, minute⟩ := denotes_of_whole_run? hascii.of_cons hminutes
    exact ⟨.colon minute, minute.isDigit⟩
  · obtain ⟨rfl, minute⟩ := denotes_of_whole_run? hascii hminutes
    exact ⟨.plain minute, minute.isDigit⟩

theorem OffsetText.seconds?_signed (negative : Bool) {hs ms : List Char} {h : Nat}
    (hour : Denotes 2 2 hs h) (hms : ∀ c ∈ ms, c.isDigit = true) :
    (OffsetText.signed negative (hs ++ ms)).seconds? =
      if 23 < h ∨ 59 < naturalOf ms then none
      else
        let seconds : Int := (h * 3600 + naturalOf ms * 60 : Nat)
        some (if negative then -seconds else seconds) := by
  have hlength : hs.length = 2 := hour.length_eq
  have hall : ∀ c ∈ hs ++ ms, c.isDigit = true := by
    intro c hc
    rcases List.mem_append.1 hc with hc | hc
    · exact hour.isDigit c hc
    · exact hms c hc
  have htake : (hs ++ ms).take 2 = hs := by rw [← hlength, List.take_left]
  have hdrop : (hs ++ ms).drop 2 = ms := by rw [← hlength, List.drop_left]
  have hlong : ¬ (hs ++ ms).length < 2 := by
    rw [List.length_append]
    omega
  rw [OffsetText.seconds?, List.filter_eq_self.2 hall, htake, hdrop, hour.value]
  simp only [hlong, false_or]

theorem OffsetText.signed?_eq (negative : Bool) {hs ms : List Char} {h m : Nat}
    (hour : Denotes 2 2 hs h) (minute : OffsetMinuteForm ms m) (hours : h ≤ 23) (minutes : m ≤ 59) :
    ∃ t, OffsetText.signed? negative (hs ++ ms) = some t ∧
      let seconds : Int := (h * 3600 + m * 60 : Nat)
      t.seconds? = some (if negative then -seconds else seconds) := by
  obtain ⟨digits, hminutes, hdigits, hvalue⟩ := minute.minutes?_eq
  refine ⟨.signed negative (hs ++ digits), ?_, ?_⟩
  · simp only [OffsetText.signed?, hour.run?_eq, hminutes, bind, Option.bind_some, pure]
  · rw [OffsetText.seconds?_signed negative hour hdigits, hvalue, if_neg (by omega)]

def OffsetText.written? : Option OffsetText → Option (Option Int)
  | none => some none
  | some t => t.seconds?.map some

/-- What the grammar calls an offset is read as one, with the seconds that it has there. -/
theorem OffsetForm.ofText?_eq {s : List Char} {offset : Option Int} (h : OffsetForm s offset) :
    ∃ t, OffsetText.ofText? s = some t ∧ OffsetText.written? t = some offset := by
  cases h with
  | absent => exact ⟨none, rfl, rfl⟩
  | zulu => exact ⟨some .zulu, rfl, rfl⟩
  | plus hour minute hours minutes =>
    obtain ⟨t, htext, hseconds⟩ := OffsetText.signed?_eq false hour minute hours minutes
    refine ⟨some t, ?_, ?_⟩
    · rw [OffsetText.ofText?, htext]
      rfl
    · rw [OffsetText.written?, hseconds]
      rfl
  | minus hour minute hours minutes =>
    obtain ⟨t, htext, hseconds⟩ := OffsetText.signed?_eq true hour minute hours minutes
    refine ⟨some t, ?_, ?_⟩
    · rw [OffsetText.ofText?, htext]
      rfl
    · rw [OffsetText.written?, hseconds]
      rfl

theorem offsetForm_of_signed? {negative : Bool} {s : List Char} {t : OffsetText} {offset : Int}
    (hascii : IsAscii s) (htext : OffsetText.signed? negative s = some t)
    (hseconds : t.seconds? = some offset) :
    OffsetForm ((if negative then '-' else '+') :: s) (some offset) := by
  simp only [OffsetText.signed?, bind, Option.bind_eq_some_iff, pure, Option.some.injEq] at htext
  obtain ⟨⟨hs, after⟩, hrun, digits, hminutes, rfl⟩ := htext
  obtain ⟨rfl, hour, hascii'⟩ := denotes_of_run? hascii hrun
  obtain ⟨minute, hdigits⟩ := offsetMinuteForm_of_minutes? hascii' hminutes
  rw [OffsetText.seconds?_signed negative hour hdigits] at hseconds
  split at hseconds
  · cases hseconds
  · cases hseconds
    cases negative with
    | false => exact .plus hour minute (by omega) (by omega)
    | true => exact .minus hour minute (by omega) (by omega)

/-- And every offset that is read in ASCII is one of the grammar. -/
theorem offsetForm_of_ofText? {s : List Char} {t : Option OffsetText} {offset : Option Int}
    (hascii : IsAscii s) (htext : OffsetText.ofText? s = some t)
    (hwritten : OffsetText.written? t = some offset) : OffsetForm s offset := by
  unfold OffsetText.ofText? at htext
  split at htext
  · cases htext
    cases hwritten
    exact .absent
  · cases htext
    cases hwritten
    exact .zulu
  · obtain ⟨text, hsigned, rfl⟩ := Option.map_eq_some_iff.1 htext
    obtain ⟨seconds, hseconds, rfl⟩ := Option.map_eq_some_iff.1 hwritten
    exact offsetForm_of_signed? hascii.of_cons hsigned hseconds
  · obtain ⟨text, hsigned, rfl⟩ := Option.map_eq_some_iff.1 htext
    obtain ⟨seconds, hseconds, rfl⟩ := Option.map_eq_some_iff.1 hwritten
    exact offsetForm_of_signed? hascii.of_cons hsigned hseconds
  · cases htext

theorem OffsetForm.head {s : List Char} {offset : Option Int} (h : OffsetForm s offset) :
    ∀ c ∈ s.head?, c = 'Z' ∨ c = '+' ∨ c = '-' := by
  cases h <;> simp

/-! ### Clocks -/

namespace ClockText

def shown : Option ClockText → TimeOfDay
  | none => .midnight
  | some clock => clock.timeOfDay

/-- The decimals of a fraction beyond the third are cut off. -/
theorem millis_eq {fs : List Char} (hfs : ∀ c ∈ fs, c.isDigit = true) :
    (natural? (milliDigits fs)).getD 0 = naturalOf fs * 1000 / 10 ^ fs.length := by
  have hdigits : Denotes 3 3 (milliDigits fs) (naturalOf fs * 10 ^ 3 / 10 ^ fs.length) := by
    refine ⟨?_, ?_, ?_, naturalOf_take_append_replicate hfs 3⟩
    · intro c hc
      rcases List.mem_append.1 (List.mem_of_mem_take hc) with hdigit | hzero
      · exact hfs c hdigit
      · exact isDigit_of_mem_replicate (n := 3) hzero
    · simp [milliDigits]
    · simp [milliDigits]
  rw [hdigits.natural?_eq three_pos, Option.getD_some]
  rfl

theorem fraction?_eq {os : List Char} {offset : Option Int} (zone : OffsetForm os offset) :
    fraction? os = some ([], os) := by
  unfold fraction?
  split
  · exact absurd (zone.head '.' rfl) (by decide)
  · rfl

theorem fraction?_point {fs os : List Char} {f : Nat} {offset : Option Int}
    (fraction : Denotes 1 fs.length fs f) (zone : OffsetForm os offset) :
    fraction? ('.' :: (fs ++ os)) = some (fs, os) := by
  have hlength : fs.length ≤ (fs ++ os).length := by simp
  refine run?_append os fraction.isDecimalDigit fraction.least_le hlength (Or.inr ?_)
  intro c hc
  rcases zone.head c hc with rfl | rfl | rfl <;> decide

theorem second?_eq {os : List Char} {offset : Option Int} (zone : OffsetForm os offset) :
    second? os = some ([], [], os) := by
  unfold second?
  split
  · exact absurd (zone.head ':' rfl) (by decide)
  · rfl

theorem second?_colon {ss rest fs os : List Char} {s : Nat} (second : Denotes 2 2 ss s)
    (hfraction : fraction? rest = some (fs, os)) :
    second? (':' :: (ss ++ rest)) = some (ss, fs, os) := by
  simp only [second?, second.run?_eq, hfraction, bind, Option.bind_some, pure]

theorem ofText?_eq {hs ms rest ss fs os : List Char} {h m : Nat} (hour : Denotes 2 2 hs h)
    (minute : Denotes 2 2 ms m) (hsecond : second? rest = some (ss, fs, os)) :
    ofText? (hs ++ ':' :: (ms ++ rest)) = some (⟨hs, ms, ss, fs⟩, os) := by
  simp only [ofText?, hour.run?_eq, minute.run?_eq, char?_cons_self, hsecond, bind, Option.bind_some,
    pure]

theorem timeOfDay_eq {hs ms fs : List Char} {h m : Nat} (ss : List Char) (hour : Denotes 2 2 hs h)
    (minute : Denotes 2 2 ms m) (hfs : ∀ c ∈ fs, c.isDigit = true) :
    timeOfDay ⟨hs, ms, ss, fs⟩ =
      ⟨h, m, (natural? ss).getD 0, naturalOf fs * 1000 / 10 ^ fs.length * 1000000⟩ := by
  rw [timeOfDay, millis_eq hfs, hour.natural?_eq two_pos, minute.natural?_eq two_pos]
  rfl

theorem timeOfDay_whole {hs ms : List Char} {h m : Nat} (ss : List Char) (hour : Denotes 2 2 hs h)
    (minute : Denotes 2 2 ms m) :
    timeOfDay ⟨hs, ms, ss, []⟩ = ⟨h, m, (natural? ss).getD 0, 0⟩ := by
  rw [timeOfDay_eq ss hour minute (by simp)]
  simp [naturalOf]

end ClockText

/-- A clock of the grammar is read, and shows the time that it has there. -/
theorem ClockForm.clock?_eq {cs os : List Char} {time : TimeOfDay} {offset : Option Int}
    (h : ClockForm cs time) (zone : OffsetForm os offset) :
    ∃ clock, DateText.clock? (cs ++ os) = some (clock, os) ∧ ClockText.shown clock = time := by
  cases h with
  | absent =>
    refine ⟨none, ?_, rfl⟩
    rw [List.nil_append]
    unfold DateText.clock?
    split
    · exact absurd (zone.head 'T' rfl) (by decide)
    · rfl
  | @minute hs ms h m hour minute =>
    refine ⟨some ⟨hs, ms, [], []⟩, ?_, ClockText.timeOfDay_whole [] hour minute⟩
    rw [List.cons_append, List.append_assoc, List.cons_append, DateText.clock?,
      ClockText.ofText?_eq hour minute (ClockText.second?_eq zone)]
    rfl
  | @second hs ms ss h m s hour minute second =>
    refine ⟨some ⟨hs, ms, ss, []⟩, ?_, ?_⟩
    · have hsecond := ClockText.second?_colon second (ClockText.fraction?_eq zone)
      simp only [List.cons_append, List.append_assoc, DateText.clock?,
        ClockText.ofText?_eq hour minute hsecond, Option.map_some]
    · rw [ClockText.shown, ClockText.timeOfDay_whole ss hour minute, second.natural?_eq two_pos]
      rfl
  | @fraction hs ms ss fs h m s f hour minute second fraction =>
    refine ⟨some ⟨hs, ms, ss, fs⟩, ?_, ?_⟩
    · have hsecond := ClockText.second?_colon second (ClockText.fraction?_point fraction zone)
      simp only [List.cons_append, List.append_assoc, DateText.clock?,
        ClockText.ofText?_eq hour minute hsecond, Option.map_some]
    · rw [ClockText.shown, ClockText.timeOfDay_eq ss hour minute fraction.isDigit,
        second.natural?_eq two_pos, fraction.value]
      rfl

theorem point_of_fraction? {s fs rest : List Char} (hascii : IsAscii s)
    (hfraction : ClockText.fraction? s = some (fs, rest)) :
    (fs = [] ∧ s = rest) ∨
      (s = '.' :: (fs ++ rest) ∧ Denotes 1 fs.length fs (naturalOf fs)) := by
  unfold ClockText.fraction? at hfraction
  split at hfraction
  · obtain ⟨rfl, hdenotes, -⟩ := denotes_of_run? hascii.of_cons hfraction
    exact Or.inr ⟨rfl, hdenotes.of_le le_rfl le_rfl⟩
  · cases hfraction
    exact Or.inl ⟨rfl, rfl⟩

/-- After hour and minute the text goes on with the second, if at all. -/
theorem clockForm_of_second? {hs ms s ss fs rest : List Char} {h m : Nat} (hascii : IsAscii s)
    (hour : Denotes 2 2 hs h) (minute : Denotes 2 2 ms m)
    (hsecond : ClockText.second? s = some (ss, fs, rest)) :
    ∃ cs, 'T' :: (hs ++ ':' :: (ms ++ s)) = cs ++ rest ∧
      ClockForm cs (ClockText.timeOfDay ⟨hs, ms, ss, fs⟩) := by
  unfold ClockText.second? at hsecond
  split at hsecond
  · simp only [bind, Option.bind_eq_some_iff, pure, Option.some.injEq, Prod.mk.injEq] at hsecond
    obtain ⟨⟨ss', after⟩, hrun, ⟨fs', rest'⟩, hfraction, rfl, rfl, rfl⟩ := hsecond
    obtain ⟨rfl, second, hascii'⟩ := denotes_of_run? hascii.of_cons hrun
    rcases point_of_fraction? hascii' hfraction with ⟨rfl, rfl⟩ | ⟨rfl, fraction⟩
    · refine ⟨'T' :: (hs ++ ':' :: (ms ++ ':' :: ss')), by simp, ?_⟩
      rw [ClockText.timeOfDay_whole ss' hour minute, second.natural?_eq two_pos]
      exact .second hour minute second
    · refine ⟨'T' :: (hs ++ ':' :: (ms ++ ':' :: (ss' ++ '.' :: fs'))), by simp, ?_⟩
      rw [ClockText.timeOfDay_eq ss' hour minute fraction.isDigit, second.natural?_eq two_pos]
      exact .fraction hour minute second fraction
  · cases hsecond
    refine ⟨'T' :: (hs ++ ':' :: ms), by simp, ?_⟩
    rw [ClockText.timeOfDay_whole [] hour minute]
    exact .minute hour minute

/-- A clock that is read in ASCII is one of the grammar. -/
theorem clockForm_of_clock? {s rest : List Char} {clock : Option ClockText} (hascii : IsAscii s)
    (hclock : DateText.clock? s = some (clock, rest)) :
    ∃ cs, s = cs ++ rest ∧ ClockForm cs (ClockText.shown clock) := by
  unfold DateText.clock? at hclock
  split at hclock
  · obtain ⟨⟨c, rest'⟩, htext, heq⟩ := Option.map_eq_some_iff.1 hclock
    cases heq
    simp only [ClockText.ofText?, bind, Option.bind_eq_some_iff, pure, Option.some.injEq,
      Prod.mk.injEq] at htext
    obtain ⟨⟨hs, s₁⟩, hhour, s₂, hcolon, ⟨ms, s₃⟩, hminute, ⟨ss, fs, s₄⟩, hsecond, rfl, rfl⟩ := htext
    obtain ⟨rfl, hour, hascii₁⟩ := denotes_of_run? hascii.of_cons hhour
    obtain rfl := eq_cons_of_char? hcolon
    obtain ⟨rfl, minute, hascii₂⟩ := denotes_of_run? hascii₁.of_cons hminute
    exact clockForm_of_second? hascii₂ hour minute hsecond
  · cases hclock
    exact ⟨[], rfl, .absent⟩

/-- Behind the date stands no digit, so the day ends where the grammar ends it. -/
theorem ClockForm.head_append {cs os : List Char} {time : TimeOfDay} {offset : Option Int}
    (h : ClockForm cs time) (zone : OffsetForm os offset) :
    ∀ c ∈ (cs ++ os).head?, isDecimalDigit c = false := by
  have hmark : isDecimalDigit 'T' = false := by decide
  intro c hc
  cases h with
  | absent => rcases zone.head c hc with rfl | rfl | rfl <;> decide
  | minute | second | fraction =>
    cases hc
    exact hmark

/-! ### Date texts -/

namespace DateText

/-- The date of a text is its fields, if the calendar has that date. -/
theorem date?_eq {t : DateText} {y m d : Nat} (year : Denotes 4 4 t.year y)
    (month : Denotes 1 2 t.month m) (day : Denotes 1 2 t.day d) :
    t.date? = if Date.Exists ⟨y, m, d⟩ then some ⟨y, m, d⟩ else none := by
  simp only [date?, year.natural?_eq four_pos, month.natural?_eq one_pos, day.natural?_eq one_pos,
    bind, Option.bind_some]

theorem timeOfDay?_eq (t : DateText) :
    t.timeOfDay? = if (ClockText.shown t.clock).Exists then some (ClockText.shown t.clock)
      else none := by
  unfold timeOfDay? ClockText.shown
  cases t.clock <;> rfl

end DateText

/-- A text of the grammar is read, its date and its time as far as these exist. -/
theorem DateForm.ofText?_eq {s : List Char} {date : Date} {time : TimeOfDay} {offset : Option Int}
    (h : DateForm s date time offset) :
    ∃ t, DateText.ofText? s = some t ∧ t.date? = (if date.Exists then some date else none) ∧
      t.timeOfDay? = (if time.Exists then some time else none) ∧
      OffsetText.written? t.offset = some offset := by
  have hdash : isDecimalDigit '-' = false := by decide
  cases h with
  | @intro ys ms ds cs os y m d _ _ year month day clock zone =>
    obtain ⟨c, hclock, hshown⟩ := clock.clock?_eq zone
    obtain ⟨o, hoffset, hwritten⟩ := zone.ofText?_eq
    have hmonth := run?_append ('-' :: (ds ++ (cs ++ os))) month.isDecimalDigit month.least_le
      month.le_most (Or.inr fun c hc => by cases hc; exact hdash)
    have hday := run?_append (cs ++ os) day.isDecimalDigit day.least_le day.le_most
      (Or.inr (clock.head_append zone))
    refine ⟨⟨ys, ms, ds, c, o⟩, ?_, DateText.date?_eq year month day, ?_, hwritten⟩
    · simp only [DateText.ofText?, year.run?_eq, hmonth, hday, char?_cons_self, hclock, hoffset, bind,
        Option.bind_some, pure]
    · rw [DateText.timeOfDay?_eq, hshown]

/-- A text that is read in ASCII with an existing offset is one of the grammar. -/
theorem dateForm_of_ofText? {s : List Char} {t : DateText} {offset : Option Int} (hascii : IsAscii s)
    (htext : DateText.ofText? s = some t) (hwritten : OffsetText.written? t.offset = some offset) :
    DateForm s ⟨naturalOf t.year, naturalOf t.month, naturalOf t.day⟩ (ClockText.shown t.clock)
      offset ∧
    t.date? = if Date.Exists ⟨naturalOf t.year, naturalOf t.month, naturalOf t.day⟩ then
      some ⟨naturalOf t.year, naturalOf t.month, naturalOf t.day⟩ else none := by
  simp only [DateText.ofText?, bind, Option.bind_eq_some_iff, pure, Option.some.injEq] at htext
  obtain ⟨⟨ys, s₁⟩, hyear, s₂, hdash, ⟨ms, s₃⟩, hmonth, s₄, hdash', ⟨ds, s₅⟩, hday, ⟨clock, s₆⟩,
    hclock, o, hoffset, rfl⟩ := htext
  obtain ⟨rfl, year, hascii₁⟩ := denotes_of_run? hascii hyear
  obtain rfl := eq_cons_of_char? hdash
  obtain ⟨rfl, month, hascii₃⟩ := denotes_of_run? hascii₁.of_cons hmonth
  obtain rfl := eq_cons_of_char? hdash'
  obtain ⟨rfl, day, hascii₅⟩ := denotes_of_run? hascii₃.of_cons hday
  obtain ⟨cs, rfl, form⟩ := clockForm_of_clock? hascii₅ hclock
  have zone := offsetForm_of_ofText? hascii₅.of_append_right hoffset hwritten
  exact ⟨.intro year month day form zone, DateText.date?_eq year month day⟩

/-! ### Moments -/

/-- A time that exists stays within its day. -/
theorem WallClock.dayNumber_of (date : Date) {time : TimeOfDay} (htime : time.Exists) :
    (WallClock.of date time).dayNumber = date.toDayNumber := by
  obtain ⟨hhour, hminute, hsecond⟩ := htime
  have hleap : time.second ≠ 60 := by omega
  unfold WallClock.dayNumber WallClock.of
  simp only [hleap, if_false]
  omega

theorem WallClock.fourDigitYear_of {date : Date} {time : TimeOfDay} (hdate : date.Exists)
    (htime : time.Exists) (hlow : 0 ≤ date.year) (hhigh : date.year ≤ 9999) :
    (WallClock.of date time).FourDigitYear := by
  unfold WallClock.FourDigitYear WallClock.date
  rw [WallClock.dayNumber_of date htime, Date.year_ofDayNumber_toDayNumber hdate]
  exact ⟨hlow, hhigh⟩

theorem OffsetForm.withinDay {s : List Char} {offset : Int} (h : OffsetForm s (some offset)) :
    -86400 < offset ∧ offset < 86400 := by
  cases h <;> omega

namespace DateForm

variable {s : List Char} {date : Date} {time : TimeOfDay} {offset : Option Int}

theorem fourDigitYear (h : DateForm s date time offset) (hdate : date.Exists)
    (htime : time.Exists) : (WallClock.of date time).FourDigitYear := by
  cases h with
  | intro year =>
    have hlt := year.lt
    exact WallClock.fourDigitYear_of hdate htime (Int.natCast_nonneg _) (by dsimp only; omega)

theorem withinDay (h : DateForm s date time offset) :
    ∀ seconds ∈ offset, -86400 < seconds ∧ seconds < 86400 := by
  cases h with
  | intro _ _ _ _ zone =>
    rintro seconds rfl
    exact zone.withinDay

end DateForm

namespace Moment

/-- What a wall clock with a written offset means: an instant, at the offset of the zone. Without
one it is the wall clock of the zone. -/
def ofWritten (z : Zone) (w : WallClock) : Option Int → Moment
  | none => ofWall z w
  | some offset => valid (z.toLocal ⟨w.seconds - offset, w.nanos, offset⟩)

/-- A wall clock of a year with four digits means a moment in every zone. -/
theorem isValid_ofWritten {z : Zone} (hz : z.WithinDay) {w : WallClock} (hw : w.FourDigitYear)
    (offset : Option Int) : (ofWritten z w offset).isValid = true := by
  cases offset with
  | none =>
    obtain ⟨t, ht⟩ := Option.isSome_iff_exists.1 (hz.isSome_ofWall? hw)
    rw [ofWritten, ofWall, ht]
    rfl
  | some offset => rfl

/-- What is read goes to the moment that its wall clock and offset mean. -/
theorem toMoment_eq_ofWritten (z : Zone) {t : DateText} {w : WallClock} {offset : Option Int}
    (hwall : t.wall? = some w) (hw : w.FourDigitYear)
    (hwritten : OffsetText.written? t.offset = some offset)
    (hoffset : ∀ seconds ∈ offset, -86400 < seconds ∧ seconds < 86400) :
    t.toMoment z = ofWritten z w offset := by
  rw [DateText.toMoment, hwall]
  dsimp only
  cases htext : t.offset with
  | none =>
    rw [htext] at hwritten
    cases hwritten
    rfl
  | some text =>
    rw [htext] at hwritten
    obtain ⟨seconds, hseconds, rfl⟩ := Option.map_eq_some_iff.1 hwritten
    obtain ⟨hlow, hhigh⟩ := hoffset seconds rfl
    dsimp only
    rw [hseconds, Option.bind_some, hw.withOffset?_eq hlow hhigh]
    rfl

/-- A text of the grammar with an existing date and time is the moment that it means. -/
theorem ofDateText_of_dateForm (z : Zone) {s : List Char} {date : Date} {time : TimeOfDay}
    {offset : Option Int} (h : DateForm s date time offset) (hdate : date.Exists)
    (htime : time.Exists) : ofDateText z s = ofWritten z (WallClock.of date time) offset := by
  obtain ⟨t, htext, hdate?, htime?, hwritten⟩ := h.ofText?_eq
  have hwall : t.wall? = some (WallClock.of date time) := by
    rw [DateText.wall?, hdate?, htime?, if_pos hdate, if_pos htime]
    rfl
  rw [ofDateText, htext]
  exact toMoment_eq_ofWritten z hwall (h.fourDigitYear hdate htime) hwritten h.withinDay

/-- A moment needs a wall clock, and an offset that exists where one is written. -/
theorem wall_and_offset_of_isValid {z : Zone} {t : DateText}
    (hvalid : (t.toMoment z).isValid = true) :
    (∃ w, t.wall? = some w) ∧ ∃ offset, OffsetText.written? t.offset = some offset := by
  unfold DateText.toMoment at hvalid
  split at hvalid
  · cases hvalid
  · rename_i w hwall
    refine ⟨⟨w, hwall⟩, ?_⟩
    split at hvalid
    · rename_i hoffset
      exact ⟨none, by rw [hoffset, OffsetText.written?]⟩
    · rename_i text hoffset
      cases hseconds : text.seconds? with
      | none =>
        rw [hseconds] at hvalid
        cases hvalid
      | some seconds =>
        refine ⟨some seconds, ?_⟩
        rw [hoffset, OffsetText.written?, hseconds, Option.map_some]

/-- A text in ASCII with a moment is one of the grammar, its date and time existing. -/
theorem exists_dateForm_of_isValid {z : Zone} {s : List Char} (hascii : IsAscii s)
    (hvalid : (ofDateText z s).isValid = true) :
    ∃ date time offset, DateForm s date time offset ∧ date.Exists ∧ time.Exists := by
  unfold ofDateText at hvalid
  split at hvalid
  · rename_i t htext
    obtain ⟨⟨w, hwall⟩, offset, hwritten⟩ := wall_and_offset_of_isValid hvalid
    obtain ⟨hform, hdate⟩ := dateForm_of_ofText? hascii htext hwritten
    simp only [DateText.wall?, bind, Option.bind_eq_some_iff] at hwall
    obtain ⟨date, hdate?, time, htime?, -⟩ := hwall
    rw [hdate, Option.ite_none_right_eq_some] at hdate?
    rw [DateText.timeOfDay?_eq, Option.ite_none_right_eq_some] at htime?
    exact ⟨_, _, offset, hform, hdate?.1, htime?.1⟩
  · cases hvalid

/-- In ASCII the date texts with a moment are those of the grammar whose fields exist, and the
moment is the one written. -/
theorem ofDateText_grammar (z : Zone) (hz : z.WithinDay) (s : List Char) (hascii : IsAscii s) :
    ((ofDateText z s).isValid = true ↔
      ∃ date time offset, DateForm s date time offset ∧ date.Exists ∧ time.Exists) ∧
    ∀ date time offset, DateForm s date time offset → date.Exists → time.Exists →
      ofDateText z s = ofWritten z (WallClock.of date time) offset := by
  refine ⟨⟨exists_dateForm_of_isValid hascii, ?_⟩, ?_⟩
  · rintro ⟨date, time, offset, hform, hdate, htime⟩
    rw [ofDateText_of_dateForm z hform hdate htime]
    exact isValid_ofWritten hz (hform.fourDigitYear hdate htime) offset
  · intro date time offset hform hdate htime
    exact ofDateText_of_dateForm z hform hdate htime

theorem ofDateText_grammar_fraction :
    let s := "2018-3-25T02:30:00.98765-0330".toList
    Zone.summerTime.WithinDay ∧ IsAscii s ∧
    DateForm s ⟨2018, 3, 25⟩ ⟨2, 30, 0, 987000000⟩ (some (-12600)) ∧
    ofDateText .summerTime s = valid ⟨1521957600, 987000000, 7200⟩ := by
  intro s
  have hascii : IsAscii s := by decide
  have hclock : ClockForm "T02:30:00.98765".toList ⟨2, 30, 0, 987000000⟩ :=
    @ClockForm.fraction "02".toList "30".toList "00".toList "98765".toList 2 30 0 98765
      (by decide) (by decide) (by decide) (by decide)
  have hoffset : OffsetForm "-0330".toList (some (-12600)) :=
    @OffsetForm.minus "03".toList "30".toList 3 30 (by decide) (.plain (by decide)) (by decide)
      (by decide)
  have hform : DateForm s ⟨2018, 3, 25⟩ ⟨2, 30, 0, 987000000⟩ (some (-12600)) :=
    @DateForm.intro "2018".toList "3".toList "25".toList _ _ 2018 3 25 _ _ (by decide) (by decide)
      (by decide) hclock hoffset
  refine ⟨trivial, hascii, hform, ?_⟩
  rw [(ofDateText_grammar .summerTime trivial s hascii).2 _ _ _ hform (by decide) (by decide)]
  decide

end Moment

end FormExpr
