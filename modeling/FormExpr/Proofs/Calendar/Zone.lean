import FormExpr.Calendar.Zone
import FormExpr.Proofs.Calendar.Date

/-!
# Wall clocks and instants of a zone

The two switches of the summer-time rule lie well inside a year, so it does not matter whether an
instant or its wall clock tells the year. Outside the repeated hour the wall clock of an instant is
read back as that instant.
-/

namespace FormExpr

/-! ### Wall clocks -/

namespace WallClock

def FourDigitYear (w : WallClock) : Prop :=
  0 ≤ w.date.year ∧ w.date.year ≤ 9999

instance (w : WallClock) : Decidable w.FourDigitYear :=
  inferInstanceAs (Decidable (_ ∧ _))

theorem FourDigitYear.seconds_bounds {w : WallClock} (hw : w.FourDigitYear) :
    -62167219200 ≤ w.seconds ∧ w.seconds < 253402300800 := by
  obtain ⟨hlow, hhigh⟩ := Date.yearOf_spec (w.seconds / 86400 + Date.epochDay)
  have hyear : w.date.year = Date.yearOf (w.seconds / 86400 + Date.epochDay) := rfl
  obtain ⟨hfirst, hlast⟩ := hw
  have hstart := Date.daysBeforeYear_mono (hyear ▸ hfirst)
  have hend := Date.daysBeforeYear_mono
    (show Date.yearOf (w.seconds / 86400 + Date.epochDay) + 1 ≤ 10000 by omega)
  have hzero : Date.daysBeforeYear 0 = -366 := by decide
  have hthousand : Date.daysBeforeYear 10000 = 3652059 := by decide
  have hepoch : Date.epochDay = 719162 := rfl
  omega

/-- Years of four digits stay in range by days, let alone by an offset. -/
theorem FourDigitYear.inRange {w : WallClock} (hw : w.FourDigitYear) {seconds : Int}
    (hlow : w.seconds - 172800 ≤ seconds) (hhigh : seconds ≤ w.seconds + 172800) :
    InRange seconds := by
  have hbounds := hw.seconds_bounds
  have hmin : minSeconds = -8334601228800 := by decide
  have hmax : maxSeconds = 8210266876799 := by decide
  unfold InRange
  omega

theorem FourDigitYear.withOffset?_eq {w : WallClock} (hw : w.FourDigitYear) {offset : Int}
    (hlow : -86400 < offset) (hhigh : offset < 86400) :
    w.withOffset? offset = some ⟨w.seconds - offset, w.nanos, offset⟩ :=
  if_pos (hw.inRange (by omega) (by omega))

end WallClock

namespace Zone

def WithinDay : Zone → Prop
  | fixed offset => -86400 < offset ∧ offset < 86400
  | summerTime => True

theorem WithinDay.offsetAt {z : Zone} (hz : z.WithinDay) (seconds : Int) :
    -86400 < z.offsetAt seconds ∧ z.offsetAt seconds < 86400 := by
  cases z with
  | fixed offset => exact hz
  | summerTime =>
    unfold Zone.offsetAt summerOffset standardOffset
    dsimp only
    split <;> omega

/-! ### The switches of a year -/

def startOfYear (year : Int) : Int :=
  (Date.daysBeforeYear year - Date.epochDay) * 86400

theorem daysBeforeMonth_october (year : Int) :
    Date.daysBeforeMonth year 10 = Date.daysBeforeMonth year 3 + 214 := by
  simp only [Date.daysBeforeMonth, Date.monthLengths]
  split <;> rfl

theorem daysBeforeMonth_march (year : Int) :
    59 ≤ Date.daysBeforeMonth year 3 ∧ Date.daysBeforeMonth year 3 ≤ 60 := by
  simp only [Date.daysBeforeMonth, Date.monthLengths]
  split <;> decide

/-- The last of a month with 31 days is at most six days after its last Sunday. -/
theorem lastSunday_bounds (year : Int) (month : Nat) :
    Date.daysBeforeYear year + Date.daysBeforeMonth year month + 24 - Date.epochDay ≤
      Date.lastSunday year month ∧
    Date.lastSunday year month ≤
      Date.daysBeforeYear year + Date.daysBeforeMonth year month + 30 - Date.epochDay := by
  unfold Date.lastSunday Date.weekday Date.toDayNumber
  dsimp only
  omega

/-- Both switches lie well inside their year. -/
theorem switch_bounds (year : Int) :
    startOfYear year + 86400 ≤ springDay year ∧ springDay year + 86400 ≤ autumnDay year ∧
    autumnDay year + 172800 ≤ startOfYear (year + 1) := by
  have hmarch := daysBeforeMonth_march year
  have hoctober := daysBeforeMonth_october year
  have hspring := lastSunday_bounds year 3
  have hautumn := lastSunday_bounds year 10
  have hnext : Date.daysBeforeYear year + 365 ≤ Date.daysBeforeYear (year + 1) := by
    unfold Date.daysBeforeYear
    dsimp only
    omega
  unfold startOfYear springDay autumnDay
  omega

theorem year_eq_iff (seconds year : Int) :
    (Date.ofDayNumber (seconds / 86400)).year = year ↔
      startOfYear year ≤ seconds ∧ seconds < startOfYear (year + 1) := by
  have hspec := Date.yearOf_spec (seconds / 86400 + Date.epochDay)
  rw [Date.year_ofDayNumber]
  unfold startOfYear
  constructor
  · rintro rfl
    omega
  · rintro ⟨hlow, hhigh⟩
    exact Date.yearOf_eq (by omega) (by omega)

/-- Summer time lasts from one switch to the next. -/
theorem isSummer_iff (seconds : Int) :
    isSummer seconds = true ↔
      ∃ year, springDay year + 3600 ≤ seconds ∧ seconds < autumnDay year + 3600 := by
  unfold isSummer
  simp only [Bool.and_eq_true, decide_eq_true_eq]
  constructor
  · intro hsummer
    exact ⟨_, hsummer⟩
  · rintro ⟨year, hlow, hhigh⟩
    have hbounds := switch_bounds year
    rw [(year_eq_iff seconds year).2 (by omega)]
    exact ⟨hlow, hhigh⟩

/-- The hour before the autumn switch, whose wall clock shows twice. -/
def IsRepeated (seconds : Int) : Prop :=
  ∃ year, autumnDay year ≤ seconds ∧ seconds < autumnDay year + 3600

/-- In summer a wall clock is read as summer time, the repeated hour aside. -/
theorem reading_summer {seconds : Int} (hsummer : isSummer seconds = true)
    (honce : ¬ IsRepeated seconds) : reading (seconds + summerOffset) = .summer := by
  obtain ⟨year, hlow, hhigh⟩ := (isSummer_iff seconds).1 hsummer
  have hbounds := switch_bounds year
  have hbefore : seconds < autumnDay year := by
    by_contra hafter
    exact honce ⟨year, by omega, hhigh⟩
  unfold reading summerOffset
  rw [(year_eq_iff (seconds + 7200) year).2 (by omega)]
  dsimp only
  rw [if_neg (by omega), if_pos (by omega)]

/-- At standard time a wall clock is read as such. -/
theorem reading_standard {seconds : Int} (hstandard : isSummer seconds = false) :
    reading (seconds + standardOffset) = .standard := by
  have hnever := mt (isSummer_iff seconds).2 (by simp [hstandard])
  unfold reading standardOffset
  generalize (Date.ofDayNumber ((seconds + 3600) / 86400)).year = year
  have hbounds := switch_bounds year
  have houtside : ¬ (springDay year + 3600 ≤ seconds ∧ seconds < autumnDay year + 3600) :=
    fun hsummer => hnever ⟨year, hsummer⟩
  dsimp only
  rw [if_neg (by omega), if_neg (by omega)]

/-- An hour after a skipped clock it is summer. -/
theorem reading_add_hour_of_skipped {seconds : Int} (hskipped : reading seconds = .skipped) :
    reading (seconds + 3600) = .summer := by
  unfold reading at hskipped ⊢
  dsimp only at hskipped ⊢
  split_ifs at hskipped with hgap
  generalize (Date.ofDayNumber (seconds / 86400)).year = year at hgap
  have hbounds := switch_bounds year
  rw [(year_eq_iff (seconds + 3600) year).2 (by omega), if_neg (by omega), if_pos (by omega)]

/-- A clock that is shown is read at one of the two offsets. -/
theorem shown?_eq_some_iff {w : WallClock} {t : ZonedTime} :
    shown? w = some t ↔
      reading w.seconds = .standard ∧ w.withOffset? standardOffset = some t ∨
      reading w.seconds = .summer ∧ w.withOffset? summerOffset = some t := by
  unfold shown?
  cases reading w.seconds <;> simp

theorem ofWall?_of_shown? {w : WallClock} {t : ZonedTime} (h : shown? w = some t) :
    summerTime.ofWall? w = some t := by
  rw [ofWall?, h, Option.some_or]

/-- A skipped clock means the instant an hour forward, in summer time. -/
theorem ofWall?_of_reading_skipped {w : WallClock} (hskipped : reading w.seconds = .skipped) :
    summerTime.ofWall? w = w.hourLater.withOffset? summerOffset := by
  have hnone : shown? w = none := by rw [shown?, hskipped]
  have hreading : reading w.hourLater.seconds = .summer := reading_add_hour_of_skipped hskipped
  rw [ofWall?, hnone, Option.none_or, shown?, hreading]

/-- Clocks of years with four digits have a meaning in every zone. -/
theorem WithinDay.isSome_ofWall? {z : Zone} (hz : z.WithinDay) {w : WallClock}
    (hw : w.FourDigitYear) : (z.ofWall? w).isSome = true := by
  cases z with
  | fixed offset => exact Option.isSome_of_eq_some (hw.withOffset?_eq hz.1 hz.2)
  | summerTime =>
    have hstandard := hw.withOffset?_eq (show -86400 < standardOffset by decide) (by decide)
    have hsummer := hw.withOffset?_eq (show -86400 < summerOffset by decide) (by decide)
    cases hreading : reading w.seconds with
    | standard =>
      exact Option.isSome_of_eq_some
        (ofWall?_of_shown? (shown?_eq_some_iff.2 (Or.inl ⟨hreading, hstandard⟩)))
    | summer =>
      exact Option.isSome_of_eq_some
        (ofWall?_of_shown? (shown?_eq_some_iff.2 (Or.inr ⟨hreading, hsummer⟩)))
    | skipped =>
      rw [ofWall?_of_reading_skipped hreading]
      have hrange : WallClock.InRange (w.seconds + 3600 - summerOffset) :=
        hw.inRange (by unfold summerOffset; omega) (by unfold summerOffset; omega)
      exact Option.isSome_of_eq_some (if_pos hrange)

theorem withOffset?_wall {t : ZonedTime} (hrange : WallClock.InRange t.seconds) :
    t.wall.withOffset? t.offset = some t := by
  have hseconds : t.wall.seconds - t.offset = t.seconds := Int.add_sub_cancel _ _
  rw [WallClock.withOffset?, hseconds, if_pos hrange]
  rfl

/-- Outside the repeated hour the wall clock of an instant means that instant. -/
theorem ofWall?_wall {z : Zone} {t : ZonedTime} (hoffset : t.offset = z.offsetAt t.seconds)
    (hrange : WallClock.InRange t.seconds) (honce : z = summerTime → ¬ IsRepeated t.seconds) :
    z.ofWall? t.wall = some t := by
  have hread := withOffset?_wall hrange
  cases z with
  | fixed offset =>
    rw [hoffset] at hread
    exact hread
  | summerTime =>
    unfold offsetAt at hoffset
    dsimp only at hoffset
    refine ofWall?_of_shown? (shown?_eq_some_iff.2 ?_)
    by_cases hsummer : isSummer t.seconds = true
    · rw [if_pos hsummer] at hoffset
      have hreading : reading t.wall.seconds = .summer := by
        rw [ZonedTime.wall, hoffset]
        exact reading_summer hsummer (honce rfl)
      exact Or.inr ⟨hreading, hoffset ▸ hread⟩
    · rw [if_neg hsummer] at hoffset
      have hreading : reading t.wall.seconds = .standard := by
        rw [ZonedTime.wall, hoffset]
        exact reading_standard (Bool.eq_false_iff.2 hsummer)
      exact Or.inl ⟨hreading, hoffset ▸ hread⟩

end Zone

end FormExpr
