import FormExpr.Calendar.Moment
import FormExpr.Proofs.Calendar.LocalTime
import FormExpr.Proofs.Number.Rounding

/-!
# Day counts

The milliseconds of a wall clock are fewer than `2 ^ 48`, so dividing them by those of a day and
multiplying back moves them by less than a half. A day count therefore gives its wall clock back, in
every zone that shows this clock, and no two wall clocks share one; as rounding keeps the order, day
counts are ordered as the wall clocks are.
-/

namespace FormExpr

open Binary64

namespace WallClock

def dayCount (w : WallClock) : Float :=
  Float.ofInt w.millis / Moment.millisPerDay

/-- A time in whole milliseconds and a year of four digits. A leap second is none: its milliseconds
are those of the second after it. -/
structure IsCounted (w : WallClock) : Prop where
  year : w.FourDigitYear
  nanos_lt : w.nanos < 1000000000
  whole : w.nanos % 1000000 = 0

def Precedes (w w' : WallClock) : Prop :=
  w.seconds < w'.seconds ∨ w.seconds = w'.seconds ∧ w.nanos < w'.nanos

namespace IsCounted

variable {w w' : WallClock}

/-- A counted clock is found again by its milliseconds. -/
theorem ofMillis_millis (hw : w.IsCounted) : ofMillis w.millis = w := by
  obtain ⟨-, hlt, hwhole⟩ := hw
  obtain ⟨seconds, nanos⟩ := w
  unfold ofMillis millis milli
  dsimp only at hlt hwhole ⊢
  rw [WallClock.mk.injEq]
  omega

/-- The milliseconds of four-digit years are far from where doubles skip integers. -/
theorem natAbs_millis_lt (hw : w.IsCounted) : w.millis.natAbs < 2 ^ 50 := by
  have hbounds := hw.year.seconds_bounds
  have hlt := hw.nanos_lt
  unfold millis milli
  omega

theorem precedes_iff (hw : w.IsCounted) (hw' : w'.IsCounted) :
    w.Precedes w' ↔ w.millis < w'.millis := by
  obtain ⟨-, hlt, hwhole⟩ := hw
  obtain ⟨-, hlt', hwhole'⟩ := hw'
  unfold Precedes millis milli
  omega

theorem eq_iff (hw : w.IsCounted) (hw' : w'.IsCounted) : w = w' ↔ w.millis = w'.millis := by
  constructor
  · rintro rfl
    rfl
  · intro hmillis
    rw [← hw.ofMillis_millis, hmillis, hw'.ofMillis_millis]

end IsCounted

theorem millisPerDay_eq : Moment.millisPerDay = Float.ofNat 86400000 := by
  decide

/-- The day count is the double nearest to the exact quotient. -/
theorem dayCount_eq {w : WallClock} (hw : w.IsCounted) :
    w.dayCount = ofMagnitude (w.millis < 0) (nearest w.millis.natAbs 86400000) := by
  rw [dayCount, millisPerDay_eq,
    ofInt_div_ofNat (by norm_num) (by norm_num) (hw.natAbs_millis_lt.trans (by norm_num))]

theorem magnitude_dayCount {w : WallClock} (hw : w.IsCounted) :
    magnitude w.dayCount = nearest w.millis.natAbs 86400000 := by
  rw [dayCount_eq hw, magnitude_ofMagnitude _ (nearest_le_infinityBits _ _)]

theorem magnitude_dayCount_le {w : WallClock} (hw : w.IsCounted) :
    magnitude w.dayCount ≤ infinityBits := by
  rw [magnitude_dayCount hw]
  exact nearest_le_infinityBits _ _

theorem magnitude_dayCount_eq_zero_iff {w : WallClock} (hw : w.IsCounted) :
    magnitude w.dayCount = 0 ↔ w.millis = 0 := by
  rw [magnitude_dayCount hw]
  constructor
  · intro hzero
    have hfirst : 0 < nearest 1 86400000 := by decide
    by_contra hne
    have hmono : nearest 1 86400000 ≤ nearest w.millis.natAbs 86400000 := by
      apply nearest_mono (by norm_num) (by norm_num)
      gcongr
      omega
    omega
  · intro hzero
    rw [hzero]
    rfl

theorem place_dayCount {w : WallClock} (hw : w.IsCounted) :
    place w.dayCount = if w.millis < 0 then -(nearest w.millis.natAbs 86400000 : Int)
      else nearest w.millis.natAbs 86400000 := by
  rw [dayCount_eq hw, place_ofMagnitude _ (nearest_le_infinityBits _ _)]
  simp only [decide_eq_true_eq]

/-- Counting back from a day count gives the milliseconds. -/
theorem round_dayCount {w : WallClock} (hw : w.IsCounted) :
    (w.dayCount * Moment.millisPerDay).isFinite = true ∧
    roundHalfAwayInt (w.dayCount * Moment.millisPerDay) = w.millis := by
  unfold dayCount
  rw [millisPerDay_eq]
  exact roundHalfAwayInt_div_mul_ofNat (by norm_num) (by norm_num) hw.natAbs_millis_lt

/-- Different milliseconds have different day counts. -/
theorem dayCount_injective {w w' : WallClock} (hw : w.IsCounted) (hw' : w'.IsCounted)
    (heq : w.dayCount = w'.dayCount) : w = w' := by
  rw [hw.eq_iff hw', ← (round_dayCount hw).2, heq, (round_dayCount hw').2]

section

variable {w w' : WallClock} (hw : w.IsCounted) (hw' : w'.IsCounted)

include hw hw'

/-- Day counts go up with the clock. -/
theorem place_dayCount_mono (hle : w.millis ≤ w'.millis) :
    place w.dayCount ≤ place w'.dayCount := by
  have hmono : ∀ a b : Nat, a ≤ b → nearest a 86400000 ≤ nearest b 86400000 := by
    intro a b hab
    apply nearest_mono (by norm_num) (by norm_num)
    gcongr
  rw [place_dayCount hw, place_dayCount hw']
  split_ifs with hneg hneg' hneg'
  · have hbits := hmono w'.millis.natAbs w.millis.natAbs (by omega)
    omega
  · omega
  · omega
  · have hbits := hmono w.millis.natAbs w'.millis.natAbs (by omega)
    omega

theorem place_dayCount_eq_iff : place w.dayCount = place w'.dayCount ↔ w = w' := by
  constructor
  · intro hplace
    rcases Nat.eq_zero_or_pos (magnitude w.dayCount) with hzero | hpos
    · have hzero' : magnitude w'.dayCount = 0 := by
        unfold place at hplace
        split_ifs at hplace <;> omega
      rw [hw.eq_iff hw', (magnitude_dayCount_eq_zero_iff hw).1 hzero,
        (magnitude_dayCount_eq_zero_iff hw').1 hzero']
    · exact dayCount_injective hw hw' (eq_of_place_eq (magnitude_dayCount_le hw)
        (magnitude_dayCount_le hw') hpos hplace)
  · rintro rfl
    rfl

theorem dayCount_beq_iff : (w.dayCount == w'.dayCount) = true ↔ w = w' := by
  rw [beq_iff_place_eq (magnitude_dayCount_le hw) (magnitude_dayCount_le hw'),
    place_dayCount_eq_iff hw hw']

/-- Day counts are ordered as the wall clocks. -/
theorem dayCount_lt_iff : w.dayCount < w'.dayCount ↔ w.Precedes w' := by
  rw [lt_iff_place_lt (magnitude_dayCount_le hw) (magnitude_dayCount_le hw'), hw.precedes_iff hw']
  constructor
  · intro hlt
    by_contra hge
    exact absurd (place_dayCount_mono hw' hw (not_lt.1 hge)) hlt.not_ge
  · intro hlt
    refine lt_of_le_of_ne (place_dayCount_mono hw hw' hlt.le) ?_
    rw [ne_eq, place_dayCount_eq_iff hw hw', hw.eq_iff hw']
    exact hlt.ne

end

end WallClock

def ZonedTime.Precedes (t t' : ZonedTime) : Prop :=
  t.seconds < t'.seconds ∨ t.seconds = t'.seconds ∧ t.nanos < t'.nanos

namespace Zone

open WallClock

theorem isSkipped_of_reading {w : WallClock} (hreading : reading w.seconds = .skipped) :
    w.IsSkipped := by
  unfold reading at hreading
  dsimp only at hreading
  split_ifs at hreading with hskipped
  exact (isSkipped_iff w).2 ⟨_, hskipped⟩

/-- A wall clock that the zone shows is that of the time it means. -/
theorem exists_ofWall? {z : Zone} (hz : z.WithinDay) {w : WallClock} (hw : w.FourDigitYear)
    (hshown : ¬ (z = summerTime ∧ w.IsSkipped)) :
    ∃ offset, z.ofWall? w = some ⟨w.seconds - offset, w.nanos, offset⟩ ∧
      ∀ fixedOffset, z = fixed fixedOffset → offset = fixedOffset := by
  cases z with
  | fixed offset =>
    refine ⟨offset, hw.withOffset?_eq hz.1 hz.2, ?_⟩
    rintro _ ⟨⟩
    rfl
  | summerTime =>
    have hread {offset : Int} (hlow : -86400 < offset) (hhigh : offset < 86400) :=
      hw.withOffset?_eq hlow hhigh
    cases hreading : reading w.seconds with
    | standard =>
      have hshown := shown?_eq_some_iff.2 (Or.inl ⟨hreading, hread (by decide) (by decide)⟩)
      exact ⟨_, ofWall?_of_shown? hshown, by simp⟩
    | summer =>
      have hshown := shown?_eq_some_iff.2 (Or.inr ⟨hreading, hread (by decide) (by decide)⟩)
      exact ⟨_, ofWall?_of_shown? hshown, by simp⟩
    | skipped => exact absurd ⟨rfl, isSkipped_of_reading hreading⟩ hshown

end Zone

namespace Moment

/-- A day count means the clock that it was taken from, unless the zone skips that clock. -/
theorem exists_ofDays_dayCount {z : Zone} (hz : z.WithinDay) {w : WallClock} (hw : w.IsCounted)
    (hshown : ¬ (z = .summerTime ∧ w.IsSkipped)) :
    ∃ offset, ofDays z w.dayCount = valid ⟨w.seconds - offset, w.nanos, offset⟩ ∧
      ∀ fixedOffset, z = .fixed fixedOffset → offset = fixedOffset := by
  obtain ⟨hfinite, hround⟩ := WallClock.round_dayCount hw
  obtain ⟨offset, hwall, hfixed⟩ := Zone.exists_ofWall? hz hw.year hshown
  refine ⟨offset, ?_, hfixed⟩
  unfold ofDays
  dsimp only
  rw [hfinite, hround, hw.ofMillis_millis, Bool.not_true, if_neg Bool.false_ne_true,
    if_pos (hw.year.inRange (by omega) (by omega)), ofWall, hwall]

theorem wall_sub_offset (w : WallClock) (offset : Int) :
    ZonedTime.wall ⟨w.seconds - offset, w.nanos, offset⟩ = w := by
  unfold ZonedTime.wall
  dsimp only
  rw [Int.sub_add_cancel]

theorem toDays_sub_offset (w : WallClock) (offset : Int) :
    (valid ⟨w.seconds - offset, w.nanos, offset⟩).toDays = w.dayCount := by
  rw [toDays, wall_sub_offset]
  rfl

/-- Times of one offset are ordered as their wall clocks. -/
theorem toDays_compare {w w' : WallClock} (hw : w.IsCounted) (hw' : w'.IsCounted) (offset : Int) :
    let t : ZonedTime := ⟨w.seconds - offset, w.nanos, offset⟩
    let t' : ZonedTime := ⟨w'.seconds - offset, w'.nanos, offset⟩
    ((valid t).toDays == (valid t').toDays) = (valid t).same (valid t') ∧
    ((valid t).toDays < (valid t').toDays ↔ t.Precedes t') := by
  intro t t'
  rw [toDays_sub_offset w offset, toDays_sub_offset w' offset]
  constructor
  · rw [Bool.eq_iff_iff, WallClock.dayCount_beq_iff hw hw', same, Bool.and_eq_true, beq_iff_eq,
      beq_iff_eq]
    obtain ⟨seconds, nanos⟩ := w
    obtain ⟨seconds', nanos'⟩ := w'
    rw [WallClock.mk.injEq]
    dsimp only [t, t']
    omega
  · rw [WallClock.dayCount_lt_iff hw hw']
    unfold WallClock.Precedes ZonedTime.Precedes
    dsimp only [t, t']
    omega

/-- A day count gives back the wall clock that it was made from, and is the day count of what it
gives. Day counts go up with the wall clock, and so in a fixed zone with the instant. -/
theorem ofDays_dayCount (z : Zone) (hz : z.WithinDay) {w : WallClock} (hw : w.IsCounted)
    (hshown : ¬ (z = .summerTime ∧ w.IsSkipped)) :
    (∃ t, ofDays z w.dayCount = valid t ∧ t.wall = w ∧ (valid t).toDays = w.dayCount) ∧
    (∀ w' : WallClock, w'.IsCounted → (w.dayCount < w'.dayCount ↔ w.Precedes w')) ∧
    (∀ offset, z = .fixed offset → ∀ w' : WallClock, w'.IsCounted → ∀ t t',
      ofDays z w.dayCount = valid t → ofDays z w'.dayCount = valid t' →
      ((valid t).toDays == (valid t').toDays) = (valid t).same (valid t') ∧
      ((valid t).toDays < (valid t').toDays ↔ t.Precedes t')) := by
  obtain ⟨offset, hdays, hfixed⟩ := exists_ofDays_dayCount hz hw hshown
  refine ⟨⟨_, hdays, wall_sub_offset w offset, toDays_sub_offset w offset⟩, ?_, ?_⟩
  · intro w' hw'
    exact WallClock.dayCount_lt_iff hw hw'
  · rintro _ rfl w' hw' t t' ht ht'
    obtain ⟨offset', hdays', hfixed'⟩ := exists_ofDays_dayCount hz hw' (by simp)
    rw [hdays, hfixed _ rfl, valid.injEq] at ht
    rw [hdays', hfixed' _ rfl, valid.injEq] at ht'
    obtain rfl := ht
    obtain rfl := ht'
    exact toDays_compare hw hw' _

/-- One millisecond before 1970, three and a half hours west of UTC. -/
theorem ofDays_dayCount_lastMillisecond :
    let z : Zone := .fixed (-12600)
    let w : WallClock := ⟨-1, 999000000⟩
    z.WithinDay ∧ w.IsCounted ∧ ¬ (z = .summerTime ∧ w.IsSkipped) ∧
    w.dayCount < WallClock.dayCount ⟨0, 0⟩ ∧
    ∃ t, ofDays z w.dayCount = valid t ∧ t.wall = w ∧ (valid t).toDays = w.dayCount := by
  intro z w
  have hz : z.WithinDay := by
    unfold Zone.WithinDay
    decide
  have hw : w.IsCounted := ⟨by decide, by decide, by decide⟩
  have hepoch : WallClock.IsCounted ⟨0, 0⟩ := ⟨by decide, by decide, by decide⟩
  have hshown : ¬ (z = .summerTime ∧ w.IsSkipped) := by
    rintro ⟨hzone, -⟩
    exact Zone.noConfusion hzone
  obtain ⟨hback, hincreasing, -⟩ := ofDays_dayCount z hz hw hshown
  exact ⟨hz, hw, hshown, (hincreasing _ hepoch).2 (Or.inl (by decide)), hback⟩

end Moment

end FormExpr
