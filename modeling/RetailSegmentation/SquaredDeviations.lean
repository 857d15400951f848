import Mathlib.Algebra.BigOperators.Group.List.Basic
import Mathlib.Algebra.Order.BigOperators.Group.List
import Mathlib.Algebra.Order.Field.Basic
import Mathlib.Tactic.FieldSimp
import Mathlib.Tactic.Positivity
import Mathlib.Tactic.Ring

/-! The sum of the squared deviations of some values from a number, which is least at their mean. -/

namespace Deviations

variable {ι F : Type} [Field F]

/-- The squared deviations from `t`, added up. -/
def deviation (rows : List ι) (x : ι → F) (t : F) : F := (rows.map fun i => (x i - t) ^ 2).sum

/-- What moving the reference from `s` to `t` changes. -/
theorem deviation_shift (rows : List ι) (x : ι → F) (s t : F) : deviation rows x t = deviation rows x s +
    (2 * (s - t) * ((rows.map x).sum - rows.length * s) + rows.length * (s - t) ^ 2) := by
  unfold deviation
  induction rows with
  | nil => simp
  | cons row rows ih =>
      simp only [List.map_cons, List.sum_cons, List.length_cons, Nat.cast_succ, ih]
      ring

variable [LinearOrder F] [IsStrictOrderedRing F]

/-- No number is nearer to some values than their mean. -/
theorem deviation_mean_le {rows : List ι} (hrows : 0 < rows.length) (x : ι → F) (t : F) :
    deviation rows x ((rows.map x).sum / rows.length) ≤ deviation rows x t := by
  have hlength : (rows.length : F) ≠ 0 := Nat.cast_ne_zero.mpr (Nat.ne_of_gt hrows)
  have hcentred : (rows.map x).sum - rows.length * ((rows.map x).sum / rows.length) = 0 := by
    rw [mul_div_cancel₀ _ hlength, sub_self]
  rw [deviation_shift rows x ((rows.map x).sum / rows.length) t, hcentred, mul_zero, zero_add]
  exact le_add_of_nonneg_right (mul_nonneg (Nat.cast_nonneg _) (sq_nonneg _))

end Deviations
