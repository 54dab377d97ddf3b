import FormExpr.Number.Binary64
import Mathlib

/-!
# Operations on doubles from either side

Comparing two doubles the other way round turns the order around, and their sum and their product do
not change. This holds of all doubles: of both zeros, of the infinities, and of what is not a
number.
-/

namespace FormExpr.Binary64

open Float.Model (UnpackedFloat)
open Float.Model.Format (binary64)

theorem unpacked_compare_swap (u v : UnpackedFloat) :
    (u.compare v).map Ordering.swap = v.compare u := by
  have hsign : ∀ s t : UnpackedFloat.Sign, (compare s t).swap = compare t s := by
    intro s t
    cases s <;> cases t <;> rfl
  cases u with
  | notANumber => cases v <;> rfl
  | infinity s =>
    cases v with
    | infinity t => exact congrArg some (hsign s t)
    | notANumber | zero | finite => cases s <;> rfl
  | zero s =>
    cases v with
    | notANumber | zero => rfl
    | infinity t | finite t => cases t <;> rfl
  | finite s m e =>
    cases v with
    | notANumber => rfl
    | infinity t => cases t <;> rfl
    | zero => cases s <;> rfl
    | finite t n f =>
      cases s <;> cases t <;>
        simp [UnpackedFloat.compare, Ordering.swap_then, Int.compare_swap, Nat.compare_swap]

theorem unpacked_add_comm (u v : UnpackedFloat) :
    UnpackedFloat.add binary64 u v = UnpackedFloat.add binary64 v u := by
  cases u with
  | notANumber => cases v <;> rfl
  | infinity s =>
    cases v with
    | infinity t => cases s <;> cases t <;> rfl
    | notANumber | zero | finite => rfl
  | zero s =>
    cases v with
    | zero t => cases s <;> cases t <;> rfl
    | notANumber | infinity | finite => rfl
  | finite s m e =>
    cases v with
    | notANumber | infinity | zero => rfl
    | finite t n f =>
      -- Both mantissas are widened to the smaller exponent before they are added.
      unfold UnpackedFloat.add
      dsimp only
      rw [min_comm f e, Int.add_comm (t.apply _)]

theorem unpacked_mul_comm (u v : UnpackedFloat) :
    UnpackedFloat.mul binary64 u v = UnpackedFloat.mul binary64 v u := by
  have hsign : ∀ s t : UnpackedFloat.Sign, s * t = t * s := by
    intro s t
    cases s <;> cases t <;> rfl
  cases u <;> cases v <;> simp only [UnpackedFloat.mul, hsign, Nat.mul_comm, Int.add_comm]

theorem float_beq_comm (x y : Float) : (x == y) = (y == x) := by
  have hbeq : ∀ x y : Float,
      (x == y) = (x.toModel.unpack.compare y.toModel.unpack == some .eq) := fun _ _ => rfl
  rw [hbeq, hbeq, ← unpacked_compare_swap x.toModel.unpack]
  cases x.toModel.unpack.compare y.toModel.unpack with
  | none => rfl
  | some order => cases order <;> rfl

/-- Sums do not depend on the order of two doubles, whatever these are. -/
theorem float_add_comm (x y : Float) : x + y = y + x :=
  congrArg (fun sum => Float.ofModel (.pack sum)) (unpacked_add_comm _ _)

/-- Nor do products. -/
theorem float_mul_comm (x y : Float) : x * y = y * x :=
  congrArg (fun product => Float.ofModel (.pack product)) (unpacked_mul_comm _ _)

end FormExpr.Binary64
