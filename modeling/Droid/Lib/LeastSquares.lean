import Mathlib.Algebra.BigOperators.Group.List.Basic
import Mathlib.Algebra.Order.Field.Basic
import Mathlib.Tactic.Linarith
import Mathlib.Tactic.LinearCombination
import Mathlib.Tactic.Positivity
import Mathlib.Tactic.Ring

/-! The least-squares line through finitely many points, from its normal equations. -/
namespace Droid.Lib
variable {K : Type} [Field K]

def squaredError (points : List (K × K)) (intercept slope : K) : K :=
  (points.map fun p => (p.2 - (intercept + slope * p.1)) ^ 2).sum

def sumX (points : List (K × K)) : K := (points.map fun p => p.1).sum
def sumY (points : List (K × K)) : K := (points.map fun p => p.2).sum
def sumXX (points : List (K × K)) : K := (points.map fun p => p.1 * p.1).sum
def sumXY (points : List (K × K)) : K := (points.map fun p => p.1 * p.2).sum
def sumYY (points : List (K × K)) : K := (points.map fun p => p.2 * p.2).sum

theorem squaredError_eq (points : List (K × K)) (a b : K) :
    squaredError points a b = sumYY points - 2 * a * sumY points - 2 * b * sumXY points +
      points.length * a ^ 2 + 2 * a * b * sumX points + b ^ 2 * sumXX points := by
  induction points with
  | nil => simp [squaredError, sumX, sumY, sumXX, sumXY, sumYY]
  | cons p points ih =>
    simp only [squaredError, sumX, sumY, sumXX, sumXY, sumYY, List.map_cons, List.sum_cons, List.length_cons,
      Nat.cast_succ] at ih ⊢
    rw [ih]
    ring

variable [LinearOrder K] [IsStrictOrderedRing K]

/-- The line has a smaller squared error than any other. -/
def IsLeastSquares (points : List (K × K)) (intercept slope : K) : Prop :=
  ∀ a b, (a, b) ≠ (intercept, slope) → squaredError points intercept slope < squaredError points a b

theorem isLeastSquares_of_normal {points : List (K × K)} {a b : K}
    (hpos : 0 < points.length * sumXX points - sumX points * sumX points) (hlength : points ≠ [])
    (hy : points.length * a + b * sumX points = sumY points) (hxy : a * sumX points + b * sumXX points = sumXY points) :
    IsLeastSquares points a b := by
  intro a' b' hne
  have hn : (0 : K) < points.length := by exact_mod_cast List.length_pos_of_ne_nil hlength
  -- completing the square in the difference of the two lines
  have hsquare : points.length * (squaredError points a' b' - squaredError points a b) =
      (points.length * (a' - a) + (b' - b) * sumX points) ^ 2 +
        (b' - b) ^ 2 * (points.length * sumXX points - sumX points * sumX points) := by
    rw [squaredError_eq, squaredError_eq, ← hy, ← hxy]
    ring
  have hmore : 0 < (points.length * (a' - a) + (b' - b) * sumX points) ^ 2 +
      (b' - b) ^ 2 * (points.length * sumXX points - sumX points * sumX points) := by
    by_cases hb : b' = b
    · have ha : a' - a ≠ 0 := by
        intro ha
        exact hne (Prod.ext (sub_eq_zero.mp ha) hb)
      subst hb
      have hterm : (points.length : K) * (a' - a) ≠ 0 := mul_ne_zero hn.ne' ha
      have hsq : 0 < ((points.length : K) * (a' - a)) ^ 2 := (sq_nonneg _).lt_of_ne' (pow_ne_zero 2 hterm)
      simpa using hsq
    · have hterm : 0 < (b' - b) ^ 2 := by
        have hsub : b' - b ≠ 0 := sub_ne_zero.mpr hb
        positivity
      have hrest := mul_pos hterm hpos
      have hfirst := sq_nonneg ((points.length : K) * (a' - a) + (b' - b) * sumX points)
      linarith
  rw [← hsquare] at hmore
  exact sub_pos.mp ((mul_pos_iff_of_pos_left hn).mp hmore)

theorem isLeastSquares {points : List (K × K)}
    (hpos : 0 < points.length * sumXX points - sumX points * sumX points) (hlength : points ≠ []) {slope intercept : K}
    (hslope : slope = (points.length * sumXY points - sumX points * sumY points) /
      (points.length * sumXX points - sumX points * sumX points))
    (hintercept : intercept = (sumY points - slope * sumX points) / points.length) :
    IsLeastSquares points intercept slope := by
  have hn : (points.length : K) ≠ 0 := by
    have : (0 : K) < points.length := by exact_mod_cast List.length_pos_of_ne_nil hlength
    exact this.ne'
  have hy : points.length * intercept + slope * sumX points = sumY points := by
    rw [hintercept, mul_div_cancel₀ _ hn]
    ring
  have hdet : slope * (points.length * sumXX points - sumX points * sumX points) =
      points.length * sumXY points - sumX points * sumY points := by
    rw [hslope, div_mul_cancel₀ _ hpos.ne']
  refine isLeastSquares_of_normal hpos hlength hy ?_
  have hscaled : points.length * (intercept * sumX points + slope * sumXX points) = points.length * sumXY points := by
    linear_combination sumX points * hy + hdet
  exact mul_left_cancel₀ hn hscaled

end Droid.Lib
