import FormExpr.Host
import FormExpr.Proofs.Calendar.Zone

/-!
# The offset of a moment

A moment made from an instant has the offset of the zone at that instant. So has one made from a
wall clock, unless the clock shows two sharp on the day of the spring switch: that reading is the
start of the skipped hour, it counts as standard time, and at its instant summer time has begun.
-/

namespace FormExpr

namespace ZonedTime

def IsLocal (z : Zone) (t : ZonedTime) : Prop :=
  t.offset = z.offsetAt t.seconds

instance (z : Zone) (t : ZonedTime) : Decidable (t.IsLocal z) :=
  inferInstanceAs (Decidable (_ = _))

/-- The wall clock shows the start of the hour that the zone skips; a fraction may follow. -/
def ShowsSkippedStart (z : Zone) (t : ZonedTime) : Prop :=
  z = .summerTime ∧ ∃ year, t.wall.seconds = Zone.springDay year + 7200

end ZonedTime

namespace Zone

open ZonedTime

/-- An instant that is brought into the zone is local there. -/
theorem isLocal_toLocal (z : Zone) (t : ZonedTime) : (z.toLocal t).IsLocal z := rfl

/-! ### What a reading says about the instant -/

/-- The year that a reading looks at is the one in which the wall clock falls. -/
theorem exists_reading_eq (seconds : Int) :
    ∃ year, startOfYear year ≤ seconds ∧ seconds < startOfYear (year + 1) ∧
      reading seconds =
        if springDay year + 7200 < seconds ∧ seconds < springDay year + 10800 then .skipped
        else if springDay year + 10800 ≤ seconds ∧ seconds < autumnDay year + 7200 then .summer
        else .standard := by
  obtain ⟨hlow, hhigh⟩ := (year_eq_iff seconds _).1 rfl
  exact ⟨_, hlow, hhigh, rfl⟩

theorem isSummer_of_reading_summer {seconds : Int} (hreading : reading seconds = .summer) :
    isSummer (seconds - 7200) = true := by
  obtain ⟨year, -, -, heq⟩ := exists_reading_eq seconds
  rw [hreading] at heq
  rw [isSummer_iff]
  split_ifs at heq
  exact ⟨year, by omega, by omega⟩

/-- A clock that is read as standard time shows an instant of summer time only at the switch. -/
theorem isSummer_iff_of_reading_standard {seconds : Int} (hreading : reading seconds = .standard) :
    isSummer (seconds - 3600) = true ↔ ∃ year, seconds = springDay year + 7200 := by
  rw [isSummer_iff]
  constructor
  · rintro ⟨year, hlow, hhigh⟩
    obtain ⟨other, hstart, hend, heq⟩ := exists_reading_eq seconds
    have hbounds := switch_bounds year
    have hyear : other = year := by
      rw [← (year_eq_iff seconds other).2 ⟨hstart, hend⟩]
      exact (year_eq_iff seconds year).2 (by omega)
    rw [hreading, hyear] at heq
    split_ifs at heq
    exact ⟨year, by omega⟩
  · rintro ⟨year, rfl⟩
    have hbounds := switch_bounds year
    exact ⟨year, by omega, by omega⟩

/-! ### Moments made from a wall clock -/

theorem eq_of_withOffset? {w : WallClock} {offset : Int} {t : ZonedTime}
    (h : w.withOffset? offset = some t) : t = ⟨w.seconds - offset, w.nanos, offset⟩ := by
  rw [WallClock.withOffset?, Option.ite_none_right_eq_some] at h
  exact (Option.some.inj h.2).symm

theorem isLocal_summerTime {t : ZonedTime} (hsummer : isSummer t.seconds = true)
    (hoffset : t.offset = summerOffset) : t.IsLocal summerTime := by
  rw [IsLocal, hoffset, offsetAt, if_pos hsummer]

theorem eq_of_shown? {w : WallClock} {t : ZonedTime} (h : shown? w = some t) :
    t = ⟨w.seconds - t.offset, w.nanos, t.offset⟩ := by
  rcases shown?_eq_some_iff.1 h with ⟨-, hread⟩ | ⟨-, hread⟩
  all_goals
    rw [eq_of_withOffset? hread]

/-- A wall clock is kept or moved one hour forward. -/
theorem seconds_or_of_ofWall? {z : Zone} {w : WallClock} {t : ZonedTime}
    (h : z.ofWall? w = some t) :
    t.wall.seconds = w.seconds ∨ t.wall.seconds = w.seconds + 3600 := by
  have hkept {w : WallClock} (hw : shown? w = some t) : t.wall.seconds = w.seconds := by
    rw [eq_of_shown? hw]
    exact Int.sub_add_cancel w.seconds t.offset
  cases z with
  | fixed offset =>
    rw [eq_of_withOffset? h]
    exact Or.inl (Int.sub_add_cancel w.seconds offset)
  | summerTime =>
    rcases Option.or_eq_some_iff.1 h with hshown | ⟨-, hlater⟩
    · exact Or.inl (hkept hshown)
    · exact Or.inr (hkept hlater)

/-- A local moment never shows the start of the skipped hour, as the zone skips it. -/
theorem not_showsSkippedStart_of_isLocal {z : Zone} {t : ZonedTime} (ht : t.IsLocal z) :
    ¬ t.ShowsSkippedStart z := by
  rintro ⟨rfl, year, hwall⟩
  have hbounds := switch_bounds year
  have hseconds : t.seconds + t.offset = springDay year + 7200 := hwall
  dsimp only [IsLocal, offsetAt, summerOffset, standardOffset] at ht
  by_cases hsummer : isSummer t.seconds = true
  · rw [if_pos hsummer] at ht
    obtain ⟨other, hlow, hhigh⟩ := (isSummer_iff t.seconds).1 hsummer
    have hother := switch_bounds other
    have hyear : other = year := by
      rw [← (year_eq_iff t.seconds other).2 (by omega)]
      exact (year_eq_iff t.seconds year).2 (by omega)
    rw [hyear] at hlow
    omega
  · rw [if_neg hsummer] at ht
    exact hsummer ((isSummer_iff t.seconds).2 ⟨year, by omega, by omega⟩)

/-- A wall clock that is shown is read at the offset in effect, but for the start of the skipped
hour. -/
theorem isLocal_of_shown? {w : WallClock} {t : ZonedTime} (h : shown? w = some t)
    (hshown : ¬ t.ShowsSkippedStart summerTime) : t.IsLocal summerTime := by
  rcases shown?_eq_some_iff.1 h with ⟨hreading, hread⟩ | ⟨hreading, hread⟩
  · rw [eq_of_withOffset? hread] at hshown ⊢
    have hstandard : isSummer (w.seconds - 3600) = false := by
      rw [Bool.eq_false_iff, Ne, isSummer_iff_of_reading_standard hreading]
      rintro ⟨year, hyear⟩
      exact hshown ⟨rfl, year, (Int.sub_add_cancel _ _).trans hyear⟩
    dsimp only [IsLocal, offsetAt]
    rw [standardOffset, hstandard]
    rfl
  · rw [eq_of_withOffset? hread]
    exact isLocal_summerTime (isSummer_of_reading_summer hreading) rfl

/-- The time that a wall clock means has the offset of its instant, but not at the start of the
skipped hour. -/
theorem isLocal_iff_of_ofWall? {z : Zone} {w : WallClock} {t : ZonedTime}
    (h : z.ofWall? w = some t) : t.IsLocal z ↔ ¬ t.ShowsSkippedStart z := by
  refine ⟨not_showsSkippedStart_of_isLocal, ?_⟩
  intro hshown
  cases z with
  | fixed offset =>
    rw [eq_of_withOffset? h]
    rfl
  | summerTime =>
    rcases Option.or_eq_some_iff.1 h with hread | ⟨-, hlater⟩
    · exact isLocal_of_shown? hread hshown
    · exact isLocal_of_shown? hlater hshown

end Zone

namespace Moment

open ZonedTime

variable {z : Zone}

/-- If the moment is valid, its offset is that of its instant, or it shows the start of the skipped
hour, where it is not. -/
def Settled (z : Zone) (m : Moment) : Prop :=
  ∀ t, m = valid t → (t.IsLocal z ↔ ¬ t.ShowsSkippedStart z)

theorem settled_of_isValid_false {m : Moment} (hm : m.isValid = false) : m.Settled z := by
  rintro t rfl
  cases hm

theorem settled_valid_toLocal (t : ZonedTime) : (valid (z.toLocal t)).Settled z := by
  rintro _ ⟨⟩
  have hlocal := Zone.isLocal_toLocal z t
  exact iff_of_true hlocal (Zone.not_showsSkippedStart_of_isLocal hlocal)

/-- What a wall clock means is settled in every zone. -/
theorem settled_ofWall (w : WallClock) : (ofWall z w).Settled z := by
  intro t ht
  unfold ofWall at ht
  split at ht
  · rename_i hwall
    cases ht
    exact Zone.isLocal_iff_of_ofWall? hwall
  · cases ht

/-- And so is what a date text means, -/
theorem settled_ofDateText (s : List Char) : (ofDateText z s).Settled z := by
  unfold ofDateText
  split
  · unfold DateText.toMoment
    split
    · exact settled_of_isValid_false rfl
    · split
      · exact settled_ofWall _
      · split
        · exact settled_valid_toLocal _
        · exact settled_of_isValid_false rfl
  · exact settled_of_isValid_false rfl

/-- what a day count means, -/
theorem settled_ofDays (days : Float) : (ofDays z days).Settled z := by
  unfold ofDays
  dsimp only
  split
  · exact settled_of_isValid_false rfl
  · split
    · exact settled_ofWall _
    · exact settled_of_isValid_false rfl

/-- what an internet or mail date means, -/
theorem settled_of_ofMessageDate? {s : List Char} {m : Moment} (hm : ofMessageDate? z s = some m) :
    m.Settled z := by
  obtain ⟨t, -, rfl⟩ := Option.map_eq_some_iff.1 hm
  exact settled_valid_toLocal t

theorem settled_ofPlainDate (s : List Char) :
    (((PlainDate.ofText? s).map (ofWall z)).getD invalid).Settled z := by
  cases PlainDate.ofText? s with
  | none => exact settled_of_isValid_false rfl
  | some w => exact settled_ofWall w

/-- and so what any text means. -/
theorem settled_ofText (s : List Char) : (ofText z s).Settled z := by
  unfold ofText
  dsimp only
  split
  · exact settled_of_isValid_false rfl
  split
  · exact settled_ofDays _
  split
  · exact settled_ofDateText _
  split
  · rename_i hmessage
    exact settled_of_ofMessageDate? hmessage
  · exact settled_ofPlainDate _

/-- The skipped hour does not start at midnight. -/
theorem isLocal_of_startOfDay {now t : ZonedTime} (h : startOfDay z now = valid t) :
    t.IsLocal z := by
  unfold startOfDay ofWall at h
  split at h
  · rename_i hwall
    cases h
    rw [Zone.isLocal_iff_of_ofWall? hwall]
    rintro ⟨-, year, hyear⟩
    have hseconds := Zone.seconds_or_of_ofWall? hwall
    dsimp only at hseconds
    unfold Zone.springDay at hyear
    omega
  · cases h

/-- Date texts, texts, day counts, today and now give a moment the offset of its instant, but for
one reading of a wall clock, which never gets it. -/
theorem offset_of_valid {F : Forest} (e : Environment) (context : Context F) (t : ZonedTime) :
    (∀ s, ofDateText e.zone s = valid t → (t.IsLocal e.zone ↔ ¬ t.ShowsSkippedStart e.zone)) ∧
    (∀ s, ofText e.zone s = valid t → (t.IsLocal e.zone ↔ ¬ t.ShowsSkippedStart e.zone)) ∧
    (∀ days, ofDays e.zone days = valid t → (t.IsLocal e.zone ↔ ¬ t.ShowsSkippedStart e.zone)) ∧
    ((Evaluator.standard e).call "today" context [] = .ok (.date (valid t)) → t.IsLocal e.zone) ∧
    ((Evaluator.standard e).call "now" context [] = .ok (.date (valid t)) → t.IsLocal e.zone) := by
  refine ⟨fun s => settled_ofDateText s t, fun s => settled_ofText s t,
    fun days => settled_ofDays days t, ?_, ?_⟩
  · intro htoday
    have hstart : Library.today ⟨"today", context, e⟩ = .ok (.date (valid t)) := htoday
    exact isLocal_of_startOfDay (Value.date.inj (Except.ok.inj hstart))
  · intro hnow
    have hclock : Library.now ⟨"now", context, e⟩ = .ok (.date (valid t)) := hnow
    rw [← valid.inj (Value.date.inj (Except.ok.inj hclock))]
    exact Zone.isLocal_toLocal e.zone e.clock

/-- One second after the start of the skipped hour the offset is right, at its start it is not. -/
theorem offset_of_valid_spring :
    let start : ZonedTime := ⟨1521939600, 0, 3600⟩
    let later : ZonedTime := ⟨1521939601, 0, 7200⟩
    ofDateText .summerTime "2018-03-25T02:00:00".toList = valid start ∧
    ofDateText .summerTime "2018-03-25T02:00:01".toList = valid later ∧
    start.ShowsSkippedStart .summerTime ∧ ¬ start.IsLocal .summerTime ∧
    later.IsLocal .summerTime ∧ ¬ later.ShowsSkippedStart .summerTime := by
  intro start later
  let e : Environment := .standard .summerTime start fun _ => 0
  let context : Context ⟨[]⟩ := ⟨none, 1, 1⟩
  have hstart : ofDateText .summerTime "2018-03-25T02:00:00".toList = valid start := by decide
  have hlater : ofDateText .summerTime "2018-03-25T02:00:01".toList = valid later := by decide
  have hshown : start.ShowsSkippedStart .summerTime := ⟨rfl, 2018, by decide⟩
  have hlocal : later.IsLocal .summerTime := by decide
  have hstart' := (offset_of_valid e context start).1 _ hstart
  have hlater' := (offset_of_valid e context later).1 _ hlater
  exact ⟨hstart, hlater, hshown, fun h => hstart'.1 h hshown, hlocal, hlater'.1 hlocal⟩

/-- Two o'clock on the day of the spring switch is given the offset from before the switch. -/
theorem not_forall_isLocal_ofDateText :
    ¬ ∀ (z : Zone) (s : List Char) (t : ZonedTime), ofDateText z s = valid t → t.IsLocal z := by
  intro hall
  have hlocal := hall .summerTime "2018-03-25T02:00:00".toList ⟨1521939600, 0, 3600⟩ (by decide)
  revert hlocal
  decide

end Moment

end FormExpr
