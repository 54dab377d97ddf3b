import FormExpr.Proofs.Geo.SquareSum

/-!
# Standing still

The cosine of the angle between a point and itself is the sum of two squares, which is exactly one.
Computed in doubles it is one or more at some latitudes, where a path that stays at the point has no
length. At the others it falls short of one, where the arc cosine is steepest: then the path is ten
centimetres long or more, however faithful sine, cosine and arc cosine are.
-/

namespace FormExpr.GeoPoint

open Binary64

structure OnGlobe (p : GeoPoint) : Prop where
  latitude : -90 ≤ p.latitude ∧ p.latitude ≤ 90
  longitude : -180 ≤ p.longitude ∧ p.longitude ≤ 180

/-! ### Sums of lengths -/

theorem le_foldl_add {xs : List Float} (hxs : ∀ x ∈ xs, NonNegative x) {s : Float}
    (hs : NonNegative s) :
    NonNegative (xs.foldl (· + ·) s) ∧ s ≤ xs.foldl (· + ·) s ∧
      ∀ x ∈ xs, x ≤ xs.foldl (· + ·) s := by
  induction xs generalizing s with
  | nil => exact ⟨hs, hs.le_refl, nofun⟩
  | cons x xs ih =>
    rw [List.forall_mem_cons] at hxs
    obtain ⟨hx, hrest⟩ := hxs
    obtain ⟨hsum, hstart, hterms⟩ := ih hrest (hs.add hx)
    rw [List.foldl_cons, List.forall_mem_cons]
    exact ⟨hsum, hs.le_trans (hs.add hx) hsum (hs.le_add_right hx) hstart,
      hx.le_trans (hs.add hx) hsum (hs.le_add_left hx) hstart, hterms⟩

/-- A sum of lengths is at least each of them. -/
theorem le_sum {xs : List Float} (hxs : ∀ x ∈ xs, NonNegative x) {x : Float} (hx : x ∈ xs) :
    NonNegative (sum xs) ∧ x ≤ sum xs := by
  cases xs with
  | nil => cases hx
  | cons y ys =>
    rw [List.forall_mem_cons] at hxs
    obtain ⟨hsum, hstart, hterms⟩ := le_foldl_add hxs.2 hxs.1
    rw [sum, List.foldl_cons, hxs.1.negZero_add]
    refine ⟨hsum, ?_⟩
    rcases List.mem_cons.1 hx with rfl | hmem
    · exact hstart
    · exact hterms x hmem

theorem zero_add_zero (s t : Bool) :
    ofMagnitude s 0 + ofMagnitude t 0 = ofMagnitude (s && t) 0 := by
  cases s <;> cases t <;> decide

theorem foldl_add_zero (n : Nat) (s t : Bool) :
    ∃ negative, (List.replicate n (ofMagnitude t 0)).foldl (· + ·) (ofMagnitude s 0) =
      ofMagnitude negative 0 := by
  induction n generalizing s with
  | zero => exact ⟨s, rfl⟩
  | succ n ih =>
    rw [List.replicate_succ, List.foldl_cons, zero_add_zero]
    exact ih _

theorem sum_replicate_zero (negative : Bool) (n : Nat) :
    ∃ negative', sum (List.replicate n (ofMagnitude negative 0)) = ofMagnitude negative' 0 := by
  rw [sum, negZero_eq_ofMagnitude]
  exact foldl_add_zero n true negative

/-! ### Rounding to centimetres -/

theorem isMonotone_roundMeters : IsMonotone roundMeters := by
  have hhundred : (100.0 : Float) = Float.ofNat 100 := by decide
  have hmul : IsMonotone (· * (100.0 : Float)) := by
    rw [hhundred]
    exact isMonotone_mul_ofNat (by norm_num) (by decide)
  have hdiv : IsMonotone (· / (100.0 : Float)) := by
    rw [hhundred]
    exact isMonotone_div_ofNat (by norm_num) (by decide)
  exact hdiv.comp (isMonotone_abs.comp (isMonotone_roundHalfUp.comp hmul))

theorem isMonotone_mul_earthRadius : IsMonotone (· * earthRadius) := by
  have hradius : earthRadius = Float.ofNat 6378100 := by decide
  rw [hradius]
  exact isMonotone_mul_ofNat (by norm_num) (by decide)

theorem roundMeters_zero (negative : Bool) : roundMeters (ofMagnitude negative 0) = 0 := by
  cases negative <;> decide

/-! ### The leg from a point to itself -/

theorem isFinite_radians {x : Float} (hx : x.isFinite = true) : (radians x).isFinite = true := by
  have hfactor : (3.14159265358979323846264338327950288 / 180.0 : Float).isFinite = true := by
    decide
  apply isFinite_mul hx hfactor
  have hlow : (0 : Float) ≤ 3.14159265358979323846264338327950288 / 180.0 := by decide
  have hhigh : (3.14159265358979323846264338327950288 / 180.0 : Float) ≤ 1 := by decide
  rw [le_iff_value_le isInteger_zero.1 hfactor, isInteger_zero.2] at hlow
  rw [le_iff_value_le hfactor isInteger_one.1, isInteger_one.2] at hhigh
  rw [abs_le]
  push_cast at hlow hhigh
  exact ⟨by linarith, hhigh⟩

section

variable {c : Float} (hc : NonNegative c)

include hc

theorem clampUnit_eq_of_nonNegative : clampUnit c = if c > 1 then 1 else c := by
  obtain ⟨a, ha, rfl⟩ := hc
  have hminus : ¬ ofMagnitude false a < -1.0 := by
    have hplace : place (-1.0) < 0 := by decide
    have hmagnitude : magnitude (-1.0) ≤ infinityBits := by decide
    rw [lt_iff_place_lt (by rwa [magnitude_ofMagnitude false ha]) hmagnitude,
      place_ofMagnitude false ha]
    rw [if_neg Bool.false_ne_true]
    omega
  have hone : (1.0 : Float) = 1 := by decide
  rw [clampUnit, if_neg hminus, hone]

theorem clampUnit_of_one_le (hone : 1 ≤ c) : clampUnit c = 1 := by
  rw [clampUnit_eq_of_nonNegative hc]
  split_ifs with hlt
  · rfl
  · rw [gt_iff_lt, nonNegative_one.lt_iff_not_le hc, not_not] at hlt
    exact hc.le_antisymm nonNegative_one hlt hone

theorem clampUnit_of_not_one_le (hone : ¬ 1 ≤ c) : clampUnit c = c := by
  have hle := (hc.le_total nonNegative_one).resolve_right hone
  rw [clampUnit_eq_of_nonNegative hc, if_neg]
  rwa [gt_iff_lt, nonNegative_one.lt_iff_not_le hc, not_not]

end

theorem OnGlobe.isFinite {p : GeoPoint} (hp : p.OnGlobe) :
    p.latitude.isFinite = true ∧ p.longitude.isFinite = true :=
  ⟨isFinite_of_between (by decide) (by decide +kernel) hp.latitude.1 hp.latitude.2,
    isFinite_of_between (by decide) (by decide +kernel) hp.longitude.1 hp.longitude.2⟩

section

variable {trig : Trigonometry} (htrig : trig.Faithful) {p : GeoPoint} (hp : p.OnGlobe)

include htrig hp

/-- The cosine of no angle at all is the sum of squares at the latitude. -/
theorem cosAngle_self : cosAngle trig p p = squareSum trig (radians p.latitude) := by
  obtain ⟨hlatitude, hlongitude⟩ := hp.isFinite
  have hzero : radians 0 = 0 := by decide
  have hcos := nonNegative_mul_self (htrig.cos (isFinite_radians hlatitude)).isFinite
  rw [cosAngle, sub_self_eq_zero hlongitude, hzero, htrig.cos_zero, hcos.mul_one_eq, squareSum]

/-- Where that sum reaches one, the leg to the same place has no length. -/
theorem leg_self_of_one_le (hone : 1 ≤ squareSum trig (radians p.latitude)) :
    ∃ negative, leg trig p p = ofMagnitude negative 0 := by
  have hsum := nonNegative_squareSum htrig (isFinite_radians hp.isFinite.1)
  obtain ⟨negative, hacos⟩ := htrig.acos_one
  refine ⟨negative, ?_⟩
  rw [leg, cosAngle_self htrig hp, clampUnit_of_one_le hsum hone, hacos]
  cases negative <;> decide

/-- Elsewhere it has at least the length of the least angle. -/
theorem leg_self_of_not_one_le (hone : ¬ 1 ≤ squareSum trig (radians p.latitude)) :
    NonNegative (leg trig p p) ∧ Trigonometry.leastAngle * earthRadius ≤ leg trig p p := by
  have hsum := nonNegative_squareSum htrig (isFinite_radians hp.isFinite.1)
  obtain ⟨hacos, hle⟩ := htrig.leastAngle_le_acos hsum hone
  have hscale := isMonotone_mul_earthRadius
  rw [leg, cosAngle_self htrig hp, clampUnit_of_not_one_le hsum hone]
  exact ⟨hscale.nonNegative hacos, hscale.le Trigonometry.nonNegative_leastAngle hacos hle⟩

end

/-! ### Paths that stay at a point -/

/-- The path through copies of a place adds up legs of one length. -/
theorem pathLength_replicate_eq (trig : Trigonometry) (p : GeoPoint) {n : Nat} (hn : 2 ≤ n) :
    pathLength trig (List.replicate n p) =
      roundMeters (sum (List.replicate (n - 1) (leg trig p p))) := by
  rw [pathLength, List.length_replicate, if_neg (by omega), List.tail_replicate,
    List.zipWith_replicate, min_eq_right (Nat.sub_le n 1)]

/-- A path that stays at a point has no length exactly if the two squares add up to one or more as
they are computed at its latitude; otherwise it is ten centimetres long or more. -/
theorem pathLength_replicate (trig : Trigonometry) (htrig : trig.Faithful) (p : GeoPoint)
    (hp : p.OnGlobe) (n : Nat) (hn : 2 ≤ n) :
    (pathLength trig (List.replicate n p) = 0 ↔ 1 ≤ squareSum trig (radians p.latitude)) ∧
    (¬ 1 ≤ squareSum trig (radians p.latitude) →
      0.1 ≤ pathLength trig (List.replicate n p)) := by
  have hlong : ¬ 1 ≤ squareSum trig (radians p.latitude) →
      0.1 ≤ pathLength trig (List.replicate n p) := by
    intro hone
    obtain ⟨hleg, hle⟩ := leg_self_of_not_one_le htrig hp hone
    have hlegs : ∀ x ∈ List.replicate (n - 1) (leg trig p p), NonNegative x := by
      intro x hx
      rwa [List.eq_of_mem_replicate hx]
    obtain ⟨hsum, hlegsum⟩ := le_sum hlegs (List.mem_replicate.2 ⟨by omega, rfl⟩)
    have hleast := isMonotone_mul_earthRadius.nonNegative Trigonometry.nonNegative_leastAngle
    have hrounded : roundMeters (Trigonometry.leastAngle * earthRadius) = 0.1 := by decide
    rw [pathLength_replicate_eq trig p hn, ← hrounded]
    exact isMonotone_roundMeters.le hleast hsum (hleast.le_trans hleg hsum hle hlegsum)
  refine ⟨⟨?_, ?_⟩, hlong⟩
  · intro hzero
    by_contra hone
    have hle := hlong hone
    rw [hzero] at hle
    revert hle
    decide
  · intro hone
    obtain ⟨negative, hleg⟩ := leg_self_of_one_le htrig hp hone
    obtain ⟨negative', hsum⟩ := sum_replicate_zero negative (n - 1)
    rw [pathLength_replicate_eq trig p hn, hleg, hsum, roundMeters_zero]

theorem pathLength_replicate_equator :
    let p : GeoPoint := ⟨0, 0⟩
    Trigonometry.rounded.Faithful ∧ p.OnGlobe ∧ 2 ≤ 3 ∧
    pathLength .rounded (List.replicate 3 p) = 0 := by
  intro p
  have htrig := Trigonometry.faithful_rounded
  have hp : p.OnGlobe := by constructor <;> decide
  have hzero : radians p.latitude = 0 := by decide
  have hone : 1 ≤ squareSum .rounded (radians p.latitude) := by
    rw [hzero]
    exact one_le_squareSum_zero htrig
  exact ⟨htrig, hp, by norm_num, (pathLength_replicate _ htrig p hp 3 (by norm_num)).1.2 hone⟩

/-- Eight centimetres north of the equator a path that stays where it is has a length, even if each
result is the double nearest to the exact one. -/
theorem not_forall_pathLength_replicate_eq_zero :
    ¬ ∀ trig : Trigonometry, trig.Faithful → ∀ p : GeoPoint, p.OnGlobe → ∀ n, 2 ≤ n →
      pathLength trig (List.replicate n p) = 0 := by
  intro hall
  have htrig := Trigonometry.faithful_rounded
  have hp : OnGlobe ⟨0.0000007, 0⟩ := by constructor <;> decide
  have hshort : ¬ 1 ≤ squareSum .rounded (radians 0.0000007) :=
    not_one_le_squareSum_rounded (by decide) (by decide +kernel) (by decide +kernel)
  exact hshort ((pathLength_replicate _ htrig _ hp 2 le_rfl).1.1 (hall _ htrig _ hp 2 le_rfl))

end FormExpr.GeoPoint
