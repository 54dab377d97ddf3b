import FormExpr.Proofs.Number.Arithmetic
import FormExpr.Proofs.Number.Order
import FormExpr.Random.ParkMiller
import Mathlib.RingTheory.Coprime.Lemmas
import Mathlib.Tactic.NormNum.GCD

/-!
# The states and draws of the generator

The multiplier is coprime to the modulus, so a step never leaves the positive remainders, and there
a draw is in the unit interval. A seed starts among them unless its own remainder is one above minus
the modulus: raising that one gives zero, where the generator stays.
-/

namespace FormExpr.ParkMiller

open Binary64

def InRange (g : ParkMiller) : Prop :=
  0 < g.state ∧ g.state < modulus

instance (g : ParkMiller) : Decidable g.InRange :=
  inferInstanceAs (Decidable (0 < g.state ∧ g.state < modulus))

/-! ### States -/

theorem isCoprime_multiplier_modulus : IsCoprime modulus multiplier := by
  rw [Int.isCoprime_iff_gcd_eq_one]
  decide

/-- A step stays among the positive remainders, as the multiplier is coprime to the modulus. -/
theorem InRange.step {g : ParkMiller} (hg : g.InRange) : g.step.InRange := by
  obtain ⟨hpos, hlt⟩ := hg
  have hproduct : 0 ≤ g.state * multiplier := Int.mul_nonneg hpos.le (by decide)
  have hnonneg : 0 ≤ g.step.state := Int.tmod_nonneg modulus hproduct
  have hne : g.step.state ≠ 0 := by
    intro hzero
    have hdvd : modulus ∣ g.state * multiplier := Int.dvd_of_tmod_eq_zero hzero
    have hle := Int.le_of_dvd hpos (isCoprime_multiplier_modulus.dvd_of_dvd_mul_right hdvd)
    omega
  exact ⟨by omega, Int.tmod_lt_of_pos _ (by decide)⟩

/-- And so do all states that follow. -/
theorem InRange.of_mem_states {g : ParkMiller} (hg : g.InRange) (n : Nat) :
    ∀ g' ∈ g.states n, g'.InRange := by
  induction n generalizing g with
  | zero => simp [states]
  | succ n ih =>
    intro g' hmem
    rcases List.mem_cons.1 hmem with rfl | hrest
    · exact hg.step
    · exact ih hg.step g' hrest

/-- Zero is never left. -/
theorem states_zero (n : Nat) : (ParkMiller.mk 0).states n = List.replicate n ⟨0⟩ := by
  have hstep : (ParkMiller.mk 0).step = ⟨0⟩ := rfl
  induction n with
  | zero => rfl
  | succ n ih => rw [states, hstep, ih, List.replicate_succ]

/-! ### Draws -/

/-- A positive remainder gives a fraction of the unit interval. -/
theorem InRange.fraction {g : ParkMiller} (hg : g.InRange) : 0 ≤ g.fraction ∧ g.fraction < 1 := by
  obtain ⟨hpos, hlt⟩ := hg
  obtain ⟨k, hk⟩ : ∃ k : Nat, g.state - 1 = k := Int.eq_ofNat_of_zero_le (by omega)
  have hmodulus : modulus = 2147483647 := rfl
  have hpred : modulus - 1 = (2147483646 : Nat) := rfl
  have hfraction : g.fraction = ofMagnitude false (nearest k 2147483646) := by
    rw [ParkMiller.fraction, hk, hpred, ofInt_natCast, ofInt_natCast,
      ofNat_div_ofNat (by omega) (by norm_num) (by norm_num)]
  have hbits : nearest k 2147483646 ≤ nearest 2147483645 2147483646 := by
    apply nearest_mono (by norm_num) (by norm_num)
    gcongr
    omega
  have htop : nearest 2147483645 2147483646 < nearest 1 1 := by decide
  rw [hfraction, zero_eq_ofMagnitude, one_eq_ofMagnitude]
  constructor
  · rw [ofMagnitude_le_iff (Nat.zero_le _) (nearest_le_infinityBits _ _)]
    exact Nat.zero_le _
  · rw [ofMagnitude_lt_iff (nearest_le_infinityBits _ _) (nearest_le_infinityBits _ _)]
    exact hbits.trans_lt htop

/-! ### Seeds -/

/-- The seed counts as one above minus the modulus. -/
def Stuck (seed : Float) : Prop :=
  seed.isFinite ∧ (truncInt seed).tmod modulus = 1 - modulus

instance (seed : Float) : Decidable (Stuck seed) :=
  inferInstanceAs (Decidable (_ ∧ _))

theorem state_ofSeed_eq_zero {seed : Float} (hstuck : Stuck seed) : ofSeed seed = ⟨0⟩ := by
  unfold ofSeed
  rw [if_pos hstuck.1, hstuck.2]
  rfl

/-- Every seed that is not stuck starts among the positive remainders. -/
theorem inRange_ofSeed {seed : Float} (hstuck : ¬ Stuck seed) : (ofSeed seed).InRange := by
  have hmodulus : modulus = 2147483647 := rfl
  unfold ofSeed InRange
  by_cases hfinite : seed.isFinite
  · rw [if_pos hfinite]
    have hlow : -modulus < (truncInt seed).tmod modulus := Int.lt_tmod_of_pos _ (by decide)
    have hhigh : (truncInt seed).tmod modulus < modulus := Int.tmod_lt_of_pos _ (by decide)
    have hne : (truncInt seed).tmod modulus ≠ 1 - modulus := fun heq => hstuck ⟨hfinite, heq⟩
    dsimp only
    split <;> omega
  · rw [if_neg hfinite]
    decide

/-- Every seed that is not stuck gives draws from the unit interval, and a stuck one gives none. -/
theorem draws_ofSeed (seed : Float) (n : Nat) :
    (¬ Stuck seed →
      (ofSeed seed).InRange ∧ (∀ g ∈ (ofSeed seed).states n, g.InRange) ∧
      ∀ x ∈ (ofSeed seed).draws n, 0 ≤ x ∧ x < 1) ∧
    (Stuck seed →
      ofSeed seed = ⟨0⟩ ∧ (ofSeed seed).states n = List.replicate n ⟨0⟩ ∧
      ∀ x ∈ (ofSeed seed).draws n, x < 0) := by
  constructor
  · intro hstuck
    have hseed := inRange_ofSeed hstuck
    refine ⟨hseed, hseed.of_mem_states n, ?_⟩
    intro x hx
    obtain ⟨g, hg, rfl⟩ := List.mem_map.1 hx
    exact (hseed.of_mem_states n g hg).fraction
  · intro hstuck
    have hseed := state_ofSeed_eq_zero hstuck
    rw [hseed]
    refine ⟨rfl, states_zero n, ?_⟩
    intro x hx
    rw [draws, states_zero, List.map_replicate] at hx
    rw [List.eq_of_mem_replicate hx]
    decide

theorem draws_ofSeed_ends :
    ¬ Stuck (-2147483645) ∧ Stuck (-2147483646) ∧
    (ofSeed (-2147483645)).InRange ∧ (ofSeed (-2147483646)).states 2 = [⟨0⟩, ⟨0⟩] := by
  have hrange : ¬ Stuck (-2147483645) := by decide
  have hstuck : Stuck (-2147483646) := by decide
  exact ⟨hrange, hstuck, ((draws_ofSeed _ 2).1 hrange).1, ((draws_ofSeed _ 2).2 hstuck).2.1⟩

/-- A whole number can leave the range as a seed. -/
theorem not_forall_inRange_ofSeed :
    ¬ ∀ seed : Float, seed.isFinite → isIntegral seed → ∀ n,
      (ofSeed seed).InRange ∧ (∀ g ∈ (ofSeed seed).states n, g.InRange) ∧
      ∀ x ∈ (ofSeed seed).draws n, 0 ≤ x ∧ x < 1 := by
  intro hall
  have hseed := (hall (-2147483646) (by decide) (by decide +kernel) 0).1
  revert hseed
  decide

end FormExpr.ParkMiller
