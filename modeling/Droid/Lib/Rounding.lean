import Mathlib.Data.Rat.Floor
import Mathlib.Algebra.Order.Field.Basic
import Mathlib.Tactic.Linarith

/-! Decimal rounding of rationals, ties to even. -/
namespace Droid.Lib

/-- The nearest integer; halfway between two, the even one. -/
def roundHalfEven (x : ℚ) : ℤ :=
  let f := ⌊x⌋
  let d := x - f
  if d < 1 / 2 then f else if 1 / 2 < d then f + 1 else if f % 2 = 0 then f else f + 1

/-- `round(x, places)`. -/
def roundTo (places : Nat) (x : ℚ) : ℚ := roundHalfEven (x * 10 ^ places) / 10 ^ places

theorem roundHalfEven_intCast (n : ℤ) : roundHalfEven n = n := by
  simp [roundHalfEven]

theorem abs_roundHalfEven_sub_le (x : ℚ) : |(roundHalfEven x : ℚ) - x| ≤ 1 / 2 := by
  have hlo : (⌊x⌋ : ℚ) ≤ x := Int.floor_le x
  have hhi : x < ⌊x⌋ + 1 := Int.lt_floor_add_one x
  unfold roundHalfEven
  simp only
  rw [abs_le]
  split
  · constructor <;> linarith
  · rename_i hlow
    rw [not_lt] at hlow
    split
    · push_cast
      constructor <;> linarith
    · rename_i hhigh
      rw [not_lt] at hhigh
      split
      · constructor <;> linarith
      · push_cast
        constructor <;> linarith

theorem roundHalfEven_neg (x : ℚ) : roundHalfEven (-x) = -roundHalfEven x := by
  rcases eq_or_ne x ⌊x⌋ with hint | hfrac
  · rw [hint, ← Int.cast_neg, roundHalfEven_intCast, roundHalfEven_intCast]
  · have hpos : (⌊x⌋ : ℚ) < x := lt_of_le_of_ne (Int.floor_le x) hfrac.symm
    have hlt := Int.lt_floor_add_one x
    have hfloor : ⌊-x⌋ = -⌊x⌋ - 1 := by
      rw [Int.floor_eq_iff]
      push_cast
      constructor <;> linarith
    have hcast : ((-⌊x⌋ - 1 : ℤ) : ℚ) = -⌊x⌋ - 1 := by push_cast; ring
    simp only [roundHalfEven, hfloor, hcast]
    -- the fraction of -x is what is missing to one
    split_ifs <;> first | omega | (exfalso; linarith)

/-- Moved by an even number, ties stay ties. -/
theorem roundHalfEven_add_even (x : ℚ) {n : ℤ} (hn : n % 2 = 0) :
    roundHalfEven (x + n) = roundHalfEven x + n := by
  have hsame : x + n - ((⌊x⌋ + n : ℤ) : ℚ) = x - ⌊x⌋ := by
    push_cast
    ring
  simp only [roundHalfEven, Int.floor_add_intCast, hsame]
  split_ifs <;> omega

theorem roundHalfEven_nonneg {x : ℚ} (h : 0 ≤ x) : 0 ≤ roundHalfEven x := by
  have hf : 0 ≤ ⌊x⌋ := Int.floor_nonneg.mpr h
  unfold roundHalfEven
  simp only
  split
  · exact hf
  · split
    · omega
    · split <;> omega

theorem roundHalfEven_eq_zero_iff {x : ℚ} (h : 0 ≤ x) : roundHalfEven x = 0 ↔ x ≤ 1 / 2 := by
  constructor
  · intro hzero
    have hnear := abs_roundHalfEven_sub_le x
    rw [hzero, Int.cast_zero, zero_sub, abs_neg] at hnear
    exact (le_abs_self x).trans hnear
  · intro hle
    have hfloor : ⌊x⌋ = 0 := Int.floor_eq_zero_iff.mpr ⟨h, by linarith⟩
    simp only [roundHalfEven, hfloor, Int.cast_zero, sub_zero]
    split
    · rfl
    · rw [if_neg (not_lt.mpr hle), if_pos (by decide)]

theorem floor_le_roundHalfEven (x : ℚ) : ⌊x⌋ ≤ roundHalfEven x ∧ roundHalfEven x ≤ ⌊x⌋ + 1 := by
  simp only [roundHalfEven]
  split_ifs <;> omega

theorem roundHalfEven_mono {x y : ℚ} (h : x ≤ y) : roundHalfEven x ≤ roundHalfEven y := by
  rcases (Int.floor_le_floor h).eq_or_lt with hsame | hlt
  · have hfraction : x - ⌊y⌋ ≤ y - ⌊y⌋ := sub_le_sub_right h _
    simp only [roundHalfEven, hsame]
    split_ifs <;> first | omega | (exfalso; linarith)
  · have hx := (floor_le_roundHalfEven x).2
    have hy := (floor_le_roundHalfEven y).1
    omega

section Places
variable (places : Nat)

private theorem scale_pos : (0 : ℚ) < 10 ^ places := pow_pos (by norm_num) places

theorem abs_roundTo_sub_le (x : ℚ) : |roundTo places x - x| ≤ 1 / 2 / 10 ^ places := by
  have hpos := scale_pos places
  have hdiff : roundTo places x - x =
      ((roundHalfEven (x * 10 ^ places) : ℚ) - x * 10 ^ places) / 10 ^ places := by
    rw [roundTo, sub_div, mul_div_cancel_right₀ _ hpos.ne']
  rw [hdiff, abs_div, abs_of_pos hpos]
  exact (div_le_div_iff_of_pos_right hpos).mpr (abs_roundHalfEven_sub_le _)

theorem roundTo_neg (x : ℚ) : roundTo places (-x) = -roundTo places x := by
  rw [roundTo, roundTo, neg_mul, roundHalfEven_neg, Int.cast_neg, neg_div]

theorem roundTo_add_intCast (x : ℚ) (n : ℤ) : roundTo (places + 1) (x + n) = roundTo (places + 1) x + n := by
  have hpos := scale_pos (places + 1)
  have hscaled : (x + n) * 10 ^ (places + 1) = x * 10 ^ (places + 1) + (n * 10 ^ (places + 1) : ℤ) := by
    push_cast
    ring
  have heven : n * 10 ^ (places + 1) % 2 = 0 := by
    rw [pow_succ, ← mul_assoc]
    omega
  rw [roundTo, roundTo, hscaled, roundHalfEven_add_even _ heven, Int.cast_add, add_div]
  congr 1
  rw [Int.cast_mul, Int.cast_pow, Int.cast_ofNat, mul_div_cancel_right₀ _ hpos.ne']

theorem roundTo_nonneg {x : ℚ} (h : 0 ≤ x) : 0 ≤ roundTo places x := by
  have hpos := scale_pos places
  refine div_nonneg ?_ hpos.le
  exact_mod_cast roundHalfEven_nonneg (mul_nonneg h hpos.le)

theorem roundTo_mono {x y : ℚ} (h : x ≤ y) : roundTo places x ≤ roundTo places y := by
  have hpos := scale_pos places
  refine (div_le_div_iff_of_pos_right hpos).mpr (Int.cast_le.mpr (roundHalfEven_mono ?_))
  exact mul_le_mul_of_nonneg_right h hpos.le

@[simp] theorem roundTo_zero : roundTo places 0 = 0 := by
  have h := roundHalfEven_intCast 0
  rw [Int.cast_zero] at h
  simp [roundTo, h]

theorem roundTo_eq_zero_iff {x : ℚ} (h : 0 ≤ x) : roundTo places x = 0 ↔ x ≤ 1 / 2 / 10 ^ places := by
  have hpos := scale_pos places
  rw [roundTo, div_eq_zero_iff, or_iff_left hpos.ne', Int.cast_eq_zero,
    roundHalfEven_eq_zero_iff (mul_nonneg h hpos.le), le_div_iff₀ hpos]

def IsDecimal (x : ℚ) : Prop := ∃ n : ℤ, x = n / 10 ^ places

theorem isDecimal_roundTo (x : ℚ) : IsDecimal places (roundTo places x) := ⟨_, rfl⟩

theorem isDecimal_zero : IsDecimal places 0 := ⟨0, by simp⟩

variable {places} {x y : ℚ}

theorem IsDecimal.add (hx : IsDecimal places x) (hy : IsDecimal places y) : IsDecimal places (x + y) := by
  obtain ⟨m, rfl⟩ := hx
  obtain ⟨n, rfl⟩ := hy
  exact ⟨m + n, by rw [Int.cast_add, add_div]⟩

theorem IsDecimal.sub (hx : IsDecimal places x) (hy : IsDecimal places y) : IsDecimal places (x - y) := by
  obtain ⟨m, rfl⟩ := hx
  obtain ⟨n, rfl⟩ := hy
  exact ⟨m - n, by rw [Int.cast_sub, sub_div]⟩

theorem IsDecimal.roundTo_eq (hx : IsDecimal places x) : roundTo places x = x := by
  obtain ⟨n, rfl⟩ := hx
  rw [roundTo, div_mul_cancel₀ _ (scale_pos places).ne', roundHalfEven_intCast]

theorem roundTo_eq_iff : roundTo places x = x ↔ IsDecimal places x :=
  ⟨fun h => ⟨_, h.symm⟩, IsDecimal.roundTo_eq⟩

theorem IsDecimal.neg (hx : IsDecimal places x) : IsDecimal places (-x) := by
  have h := (isDecimal_zero places).sub hx
  rw [zero_sub] at h
  exact h

theorem IsDecimal.abs (hx : IsDecimal places x) : IsDecimal places |x| := by
  rcases abs_choice x with h | h
  · rw [h]
    exact hx
  · rw [h]
    exact hx.neg

theorem isDecimal_sum {xs : List ℚ} (h : ∀ x ∈ xs, IsDecimal places x) : IsDecimal places xs.sum := by
  induction xs with
  | nil => exact isDecimal_zero places
  | cons x xs ih =>
    rw [List.sum_cons]
    exact (h x List.mem_cons_self).add (ih fun y hy => h y (List.mem_cons_of_mem x hy))

theorem IsDecimal.mul_intCast (hx : IsDecimal places x) (k : ℤ) : IsDecimal places (x * k) := by
  obtain ⟨n, rfl⟩ := hx
  exact ⟨n * k, by rw [Int.cast_mul, div_mul_eq_mul_div]⟩

@[simp] theorem roundTo_roundTo (x : ℚ) : roundTo places (roundTo places x) = roundTo places x :=
  (isDecimal_roundTo places x).roundTo_eq

end Places

end Droid.Lib
