import FormExpr.Proofs.Calendar.Zone

/-!
# Instants and their wall clocks

The wall clock of an instant is read back as the instant, but for the hour before the autumn switch,
whose clock shows again and is read as the second time. A clock in the hour that the spring switch
skips is moved one hour forward. Both switches fall on a last Sunday.
-/

namespace FormExpr

namespace Date

def IsLastSunday (d : Date) : Prop :=
  weekday d.toDayNumber = 0 ∧ daysInMonth d.year d.month < d.day + 7

instance (d : Date) : Decidable d.IsLastSunday :=
  inferInstanceAs (Decidable (_ ∧ _))

section

variable {month : Nat} (hmonth : month = 3 ∨ month = 10)

include hmonth

theorem daysInMonth_of_switch (year : Int) : daysInMonth year month = 31 := by
  rcases hmonth with rfl | rfl <;> rfl

/-- The last Sunday is among the last seven days of its month. -/
theorem ofDayNumber_lastSunday (year : Int) :
    ∃ day, ofDayNumber (lastSunday year month) = ⟨year, month, day⟩ ∧ 25 ≤ day := by
  have hlength := daysInMonth_of_switch hmonth year
  obtain ⟨back, hback⟩ : ∃ back, back = weekday (toDayNumber ⟨year, month, 31⟩) := ⟨_, rfl⟩
  have hweek : back ≤ 6 := by
    unfold weekday at hback
    omega
  have hexists : Exists ⟨year, month, 31 - back⟩ := by
    unfold Exists
    dsimp only
    omega
  have hnumber : lastSunday year month = toDayNumber ⟨year, month, 31 - back⟩ := by
    unfold lastSunday
    dsimp only
    rw [← hback]
    unfold toDayNumber
    dsimp only
    omega
  rw [hnumber]
  exact ⟨31 - back, ofDayNumber_toDayNumber hexists, by omega⟩

/-- No other day is a Sunday without another one behind it in its month. -/
theorem isLastSunday_iff (number : Int) :
    (ofDayNumber number).month = month ∧ (ofDayNumber number).IsLastSunday ↔
      ∃ year, number = lastSunday year month := by
  constructor
  · rintro ⟨hin, hsunday, hlast⟩
    obtain ⟨-, -, -, hday⟩ := exists_ofDayNumber number
    have hnumber := toDayNumber_ofDayNumber number
    generalize ofDayNumber number = d at hin hsunday hlast hday hnumber
    obtain ⟨year, m, day⟩ := d
    dsimp only at hin hlast hday
    subst hin
    rw [daysInMonth_of_switch hmonth] at hlast hday
    have hend : toDayNumber ⟨year, m, 31⟩ = number + (31 - day) := by
      rw [← hnumber]
      unfold toDayNumber
      dsimp only
      omega
    refine ⟨year, ?_⟩
    rw [hnumber] at hsunday
    unfold lastSunday
    dsimp only
    rw [hend]
    unfold weekday at hsunday ⊢
    omega
  · rintro ⟨year, rfl⟩
    obtain ⟨day, hdate, hday⟩ := ofDayNumber_lastSunday hmonth year
    have hnumber := toDayNumber_ofDayNumber (lastSunday year month)
    rw [hdate] at hnumber ⊢
    refine ⟨rfl, ?_, ?_⟩
    · rw [hnumber]
      unfold lastSunday weekday
      dsimp only
      omega
    · have hlength := daysInMonth_of_switch hmonth year
      dsimp only
      omega

end

end Date

/-- After two and before three o'clock on the last Sunday of March, fractions of a second aside. -/
def WallClock.IsSkipped (w : WallClock) : Prop :=
  w.date.month = 3 ∧ w.date.IsLastSunday ∧ w.hour = 2 ∧ ¬ (w.minute = 0 ∧ w.second = 0)

namespace ZonedTime

def utc (t : ZonedTime) : WallClock :=
  { seconds := t.seconds, nanos := t.nanos }

/-- In UTC the instant falls into the first hour of the last Sunday of October. -/
def PrecedesAutumnSwitch (t : ZonedTime) : Prop :=
  t.utc.date.month = 10 ∧ t.utc.date.IsLastSunday ∧ t.utc.hour = 0

end ZonedTime

namespace Zone

open WallClock

/-- The skipped clocks in seconds. -/
theorem isSkipped_iff (w : WallClock) :
    w.IsSkipped ↔
      ∃ year, springDay year + 7200 < w.seconds ∧ w.seconds < springDay year + 10800 := by
  have hdate := Date.isLastSunday_iff (Or.inl rfl : 3 = 3 ∨ 3 = 10) w.dayNumber
  unfold IsSkipped WallClock.date
  rw [← and_assoc, hdate]
  unfold springDay hour minute second secondOfDay dayNumber
  constructor
  · rintro ⟨⟨year, hday⟩, hclock⟩
    exact ⟨year, by omega, by omega⟩
  · rintro ⟨year, hlow, hhigh⟩
    exact ⟨⟨year, by omega⟩, by omega⟩

theorem precedesAutumnSwitch_iff (t : ZonedTime) :
    t.PrecedesAutumnSwitch ↔ IsRepeated t.seconds := by
  have hdate := Date.isLastSunday_iff (Or.inr rfl : 10 = 3 ∨ 10 = 10) t.utc.dayNumber
  unfold ZonedTime.PrecedesAutumnSwitch WallClock.date
  rw [← and_assoc, hdate]
  unfold IsRepeated autumnDay hour secondOfDay dayNumber ZonedTime.utc
  dsimp only
  constructor
  · rintro ⟨⟨year, hday⟩, hclock⟩
    exact ⟨year, by omega, by omega⟩
  · rintro ⟨year, hlow, hhigh⟩
    exact ⟨⟨year, by omega⟩, by omega⟩

/-! ### The two hours -/

/-- A clock of the repeated hour is read as standard time. -/
theorem reading_repeated {seconds : Int} (hrepeated : IsRepeated seconds) :
    reading (seconds + summerOffset) = .standard := by
  obtain ⟨year, hlow, hhigh⟩ := hrepeated
  have hbounds := switch_bounds year
  unfold reading summerOffset
  rw [(year_eq_iff (seconds + 7200) year).2 (by omega)]
  dsimp only
  rw [if_neg (by omega), if_neg (by omega)]

/-- The rule finds a skipped clock skipped. -/
theorem reading_skipped {w : WallClock} (hskipped : w.IsSkipped) :
    reading w.seconds = .skipped := by
  obtain ⟨year, hlow, hhigh⟩ := (isSkipped_iff w).1 hskipped
  have hbounds := switch_bounds year
  unfold reading
  rw [(year_eq_iff w.seconds year).2 (by omega)]
  dsimp only
  rw [if_pos ⟨hlow, hhigh⟩]

theorem isSummer_of_isRepeated {seconds : Int} (hrepeated : IsRepeated seconds) :
    isSummer seconds = true := by
  obtain ⟨year, hlow, hhigh⟩ := hrepeated
  have hbounds := switch_bounds year
  exact (isSummer_iff seconds).2 ⟨year, by omega, by omega⟩

/-- The first showing of a clock is read as the second, one hour later. -/
theorem ofWall?_toLocal_of_isRepeated {t : ZonedTime} (hrange : InRange t.seconds)
    (hrepeated : IsRepeated t.seconds) :
    summerTime.ofWall? (summerTime.toLocal t).wall =
      some ⟨t.seconds + 3600, t.nanos, standardOffset⟩ := by
  have hoffset : (summerTime.toLocal t).wall.seconds = t.seconds + summerOffset := by
    unfold toLocal ZonedTime.wall offsetAt
    dsimp only
    rw [if_pos (isSummer_of_isRepeated hrepeated)]
  have hlater : InRange (t.seconds + summerOffset - standardOffset) := by
    obtain ⟨year, hlow, hhigh⟩ := hrepeated
    have hmax : maxSeconds % 86400 = 86399 := by decide
    unfold InRange summerOffset standardOffset at *
    unfold autumnDay at hlow hhigh
    omega
  have hseconds : t.seconds + summerOffset - standardOffset = t.seconds + 3600 := by
    unfold summerOffset standardOffset
    omega
  refine ofWall?_of_shown? (shown?_eq_some_iff.2 (Or.inl ⟨?_, ?_⟩))
  · rw [hoffset, reading_repeated hrepeated]
  · rw [withOffset?, hoffset, if_pos hlater, hseconds]
    rfl

/-- A clock in the skipped hour is moved one hour forward, where summer time has begun. -/
theorem ofWall?_of_isSkipped {w : WallClock} (hrange : InRange w.seconds)
    (hskipped : w.IsSkipped) :
    summerTime.ofWall? w =
      some ⟨w.seconds + 3600 - summerOffset, w.nanos % 1000000000, summerOffset⟩ := by
  have hmoved : InRange (w.seconds + 3600 - summerOffset) := by
    obtain ⟨year, hlow, hhigh⟩ := (isSkipped_iff w).1 hskipped
    have hmin : minSeconds % 86400 = 0 := by decide
    unfold InRange summerOffset at *
    unfold springDay at hlow hhigh
    omega
  rw [ofWall?_of_reading_skipped (reading_skipped hskipped)]
  exact if_pos hmoved

/-- An instant is given back by its wall clock, except in the hour before the autumn switch, where
the instant one hour later is. A clock that the spring switch skips means one hour later as well. -/
theorem ofWall?_toLocal (z : Zone) {t : ZonedTime} (hrange : InRange t.seconds) :
    (¬ (z = summerTime ∧ t.PrecedesAutumnSwitch) →
      z.ofWall? (z.toLocal t).wall = some (z.toLocal t)) ∧
    (z = summerTime ∧ t.PrecedesAutumnSwitch →
      z.ofWall? (z.toLocal t).wall = some ⟨t.seconds + 3600, t.nanos, standardOffset⟩) ∧
    (z = summerTime → ∀ w : WallClock, InRange w.seconds → w.IsSkipped →
      z.ofWall? w =
        some ⟨w.seconds + 3600 - summerOffset, w.nanos % 1000000000, summerOffset⟩) := by
  refine ⟨?_, ?_, ?_⟩
  · intro honce
    refine ofWall?_wall (t := z.toLocal t) rfl hrange ?_
    intro hz hrepeated
    exact honce ⟨hz, (precedesAutumnSwitch_iff t).2 hrepeated⟩
  · rintro ⟨rfl, hswitch⟩
    exact ofWall?_toLocal_of_isRepeated hrange ((precedesAutumnSwitch_iff t).1 hswitch)
  · rintro rfl w hwall hskipped
    exact ofWall?_of_isSkipped hwall hskipped

/-- Half past midnight in UTC before the switch of 2018, and a clock skipped in the same year. -/
theorem ofWall?_toLocal_october :
    let t : ZonedTime := ⟨1540686600, 0, 0⟩
    let w : WallClock := ⟨1521945000, 250000000⟩
    InRange t.seconds ∧ t.PrecedesAutumnSwitch ∧ InRange w.seconds ∧ w.IsSkipped ∧
    summerTime.ofWall? (summerTime.toLocal t).wall = some ⟨1540690200, 0, 3600⟩ ∧
    summerTime.ofWall? w = some ⟨1521941400, 250000000, 7200⟩ := by
  intro t w
  have hrange : InRange t.seconds := by decide
  have hswitch : t.PrecedesAutumnSwitch := by
    unfold ZonedTime.PrecedesAutumnSwitch
    decide
  have hwall : InRange w.seconds := by decide
  have hskipped : w.IsSkipped := by
    unfold IsSkipped
    decide
  obtain ⟨-, hrepeated, hmoved⟩ := ofWall?_toLocal summerTime hrange
  exact ⟨hrange, hswitch, hwall, hskipped, hrepeated ⟨rfl, hswitch⟩, hmoved rfl w hwall hskipped⟩

end Zone

end FormExpr
