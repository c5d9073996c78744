import Mathlib.Algebra.Group.Int.Defs
import Mathlib.Algebra.Group.Nat.Defs

/-!
# Signed 32-bit arithmetic

* `int32 x`: the value an `int` holds when `x` is stored in it, in two's complement.
* `Fits x`: `x` is in the range of an `int`. `int32_of_fits`: it is stored as it is.
-/

namespace Signed

/-- What an `int` holds of a number. -/
def int32 (x : ℤ) : ℤ := x.bmod (2 ^ 32)

/-- The number is in the range of an `int`. -/
def Fits (x : ℤ) : Prop := -2 ^ 31 ≤ x ∧ x < 2 ^ 31

instance (x : ℤ) : Decidable (Fits x) := by
  unfold Fits; infer_instance

theorem int32_of_fits {x : ℤ} (h : Fits x) : int32 x = x :=
  Int.bmod_eq_of_le h.1 h.2

theorem fits_int32 (x : ℤ) : Fits (int32 x) := by
  have hpos : 0 < 2 ^ 32 := by decide
  exact ⟨Int.le_bmod hpos, Int.bmod_lt hpos⟩

end Signed
