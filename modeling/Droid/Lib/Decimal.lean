import Droid.Lib.Rounding
import Mathlib.Data.Int.Log
import Mathlib.Algebra.Order.Field.Power
import Mathlib.Tactic.Positivity

/-! Finite decimal numbers, and arithmetic in a context of so many significant digits. -/
namespace Droid.Lib

/-- A decimal number as it is written: `coefficient * 10 ^ exponent`. -/
structure Decimal where
  coefficient : Int
  exponent : Int
  deriving DecidableEq, Repr

namespace Decimal

def value (d : Decimal) : ℚ := d.coefficient * (10 : ℚ) ^ d.exponent

/-- A number to `prec` significant digits, ties to even. -/
def toPrecision (prec : Nat) (x : ℚ) : ℚ :=
  let ulp : ℚ := 10 ^ (Int.log 10 |x| - prec + 1)
  roundHalfEven (x / ulp) * ulp

/-- The quotient; dividing by zero is an error. -/
def div (prec : Nat) (x y : ℚ) : Option ℚ := if y = 0 then none else some (toPrecision prec (x / y))

/-- The remainder, with the sign of the dividend; an error when the integer quotient has too many digits. -/
def mod (prec : Nat) (x y : ℚ) : Option ℚ :=
  let quotient : Int := if 0 ≤ x / y then ⌊x / y⌋ else ⌈x / y⌉
  if y = 0 ∨ (10 : ℚ) ^ prec ≤ |(quotient : ℚ)| then none
  else some (toPrecision prec (x - quotient * y))

/-- The nearest integer; halfway between two, the one away from zero. -/
def roundHalfUp (x : ℚ) : Int := if 0 ≤ x then ⌊x + 1 / 2⌋ else ⌈x - 1 / 2⌉

/-- A number rescaled to an exponent; an error when the coefficient gets too many digits. -/
def quantize (prec : Nat) (x : ℚ) (exponent : Int) : Option ℚ :=
  let coefficient := roundHalfEven (x / 10 ^ exponent)
  if (10 : ℚ) ^ prec ≤ |(coefficient : ℚ)| then none else some (coefficient * 10 ^ exponent)

/-! ### Rounding to significant digits -/

private theorem ten_zpow_pos (k : Int) : (0 : ℚ) < 10 ^ k := zpow_pos (by norm_num) k

theorem le_roundHalfEven {n : Int} {x : ℚ} (h : (n : ℚ) ≤ x) : n ≤ roundHalfEven x := by
  have hfloor : n ≤ ⌊x⌋ := Int.le_floor.mpr h
  rw [roundHalfEven]
  split
  · exact hfloor
  · split
    · omega
    · split <;> omega

theorem roundHalfEven_le {n : Int} {x : ℚ} (h : x ≤ n) : roundHalfEven x ≤ n := by
  by_contra hlt
  have hstep : (n : ℚ) + 1 ≤ roundHalfEven x := by exact_mod_cast Int.add_one_le_of_lt (not_le.mp hlt)
  have hnear := (abs_le.mp (abs_roundHalfEven_sub_le x)).2
  linarith

theorem le_abs_roundHalfEven {n : Nat} {x : ℚ} (h : (n : ℚ) ≤ |x|) : (n : ℚ) ≤ |(roundHalfEven x : ℚ)| := by
  rcases le_abs.mp h with hpos | hneg
  · have hle : ((n : Int) : ℚ) ≤ x := by exact_mod_cast hpos
    have hround : ((n : Int) : ℚ) ≤ roundHalfEven x := by exact_mod_cast le_roundHalfEven hle
    exact (by exact_mod_cast hround : (n : ℚ) ≤ _).trans (le_abs_self _)
  · have hle : x ≤ ((-n : Int) : ℚ) := by
      push_cast
      linarith
    have hround : (roundHalfEven x : ℚ) ≤ ((-n : Int) : ℚ) := by exact_mod_cast roundHalfEven_le hle
    push_cast at hround
    exact le_abs.mpr (.inr (by linarith))

/-- A number with few enough digits is exact. -/
theorem toPrecision_of_fits {prec : Nat} {c e : Int} (h : |(c : ℚ)| < 10 ^ prec) :
    toPrecision prec (c * 10 ^ e) = c * 10 ^ e := by
  by_cases hc : c = 0
  · simp [toPrecision, hc, show roundHalfEven 0 = 0 from by simpa using roundHalfEven_intCast 0]
  have hne : (0 : ℚ) < |(c : ℚ) * 10 ^ e| := by
    apply abs_pos.mpr
    exact mul_ne_zero (by exact_mod_cast hc) (ten_zpow_pos e).ne'
  -- the unit of the last place is no coarser than the number's own
  have hlog : Int.log 10 |(c : ℚ) * 10 ^ e| < prec + e := by
    apply (Int.lt_zpow_iff_log_lt (b := 10) (by norm_num) hne).mp
    rw [abs_mul, abs_of_pos (ten_zpow_pos e)]
    push_cast
    rw [zpow_add₀ (by norm_num), zpow_natCast]
    exact mul_lt_mul_of_pos_right h (ten_zpow_pos e)
  obtain ⟨k, hk⟩ : ∃ k : Nat, e = Int.log 10 |(c : ℚ) * 10 ^ e| - prec + 1 + k :=
    ⟨(e - (Int.log 10 |(c : ℚ) * 10 ^ e| - prec + 1)).toNat, by omega⟩
  rw [toPrecision]
  generalize Int.log 10 |(c : ℚ) * 10 ^ e| - prec + 1 = u at hk ⊢
  subst hk
  have hscale : (c : ℚ) * 10 ^ (u + k) / 10 ^ u = ((c * 10 ^ k : Int) : ℚ) := by
    rw [zpow_add₀ (by norm_num), zpow_natCast]
    push_cast
    field_simp
  simp only [hscale, roundHalfEven_intCast]
  rw [zpow_add₀ (by norm_num), zpow_natCast]
  push_cast
  ring

theorem le_abs_toPrecision {prec : Nat} (hprec : 0 < prec) {k : Int} {x : ℚ} (h : (10 : ℚ) ^ k ≤ |x|) :
    (10 : ℚ) ^ k ≤ |toPrecision prec x| := by
  have hx : 0 < |x| := (ten_zpow_pos k).trans_le h
  have hlog : (10 : ℚ) ^ Int.log 10 |x| ≤ |x| := by
    have hle := Int.zpow_log_le_self (b := 10) (by norm_num) hx
    exact_mod_cast hle
  have hk : k ≤ Int.log 10 |x| := by
    apply (Int.zpow_le_iff_le_log (b := 10) (by norm_num) hx).mp
    exact_mod_cast h
  rw [toPrecision]
  generalize hu : Int.log 10 |x| - prec + 1 = u
  have hdigits : Int.log 10 |x| = ((prec - 1 : Nat) : Int) + u := by omega
  have hscaled : ((10 ^ (prec - 1) : Nat) : ℚ) ≤ |x / 10 ^ u| := by
    rw [abs_div, abs_of_pos (ten_zpow_pos u), le_div_iff₀ (ten_zpow_pos u)]
    push_cast
    rw [← zpow_natCast, ← zpow_add₀ (by norm_num), ← hdigits]
    exact hlog
  have hround := le_abs_roundHalfEven hscaled
  simp only [abs_mul, abs_of_pos (ten_zpow_pos u)]
  calc (10 : ℚ) ^ k ≤ 10 ^ Int.log 10 |x| := zpow_le_zpow_right₀ (by norm_num) hk
    _ = ((10 ^ (prec - 1) : Nat) : ℚ) * 10 ^ u := by
      rw [hdigits, zpow_add₀ (by norm_num), zpow_natCast]
      push_cast
      rfl
    _ ≤ |(roundHalfEven (x / 10 ^ u) : ℚ)| * 10 ^ u :=
      mul_le_mul_of_nonneg_right hround (ten_zpow_pos u).le

theorem toPrecision_eq_zero {prec : Nat} (hprec : 0 < prec) {x : ℚ} (h : toPrecision prec x = 0) : x = 0 := by
  by_contra hx
  have hlog : (10 : ℚ) ^ Int.log 10 |x| ≤ |x| := by
    have hle := Int.zpow_log_le_self (b := 10) (by norm_num) (abs_pos.mpr hx)
    exact_mod_cast hle
  have hround := le_abs_toPrecision hprec hlog
  rw [h, abs_zero] at hround
  exact hround.not_gt (ten_zpow_pos _)

theorem mod_eq_zero {prec : Nat} (hprec : 0 < prec) {x y : ℚ} (h : mod prec x y = some 0) :
    ∃ k : Int, x = k * y := by
  rw [mod] at h
  generalize (if 0 ≤ x / y then ⌊x / y⌋ else ⌈x / y⌉) = quotient at h
  split at h
  · cases h
  · exact ⟨_, sub_eq_zero.mp (toPrecision_eq_zero hprec (Option.some.inj h))⟩

theorem mod_of_floor {prec : Nat} {x y : ℚ} {k : Int} (hy : 0 < y) (hk : 0 ≤ k) (hfits : (k : ℚ) < 10 ^ prec)
    (hlow : k * y ≤ x) (hhigh : x < (k + 1) * y) : mod prec x y = some (toPrecision prec (x - k * y)) := by
  have hfloor : ⌊x / y⌋ = k := by
    rw [Int.floor_eq_iff]
    exact ⟨(le_div_iff₀ hy).mpr hlow, (div_lt_iff₀ hy).mpr hhigh⟩
  have hpos : 0 ≤ x / y := (Int.cast_nonneg hk).trans ((le_div_iff₀ hy).mpr hlow)
  have hcast : (0 : ℚ) ≤ k := Int.cast_nonneg hk
  rw [mod]
  simp only [if_pos hpos, hfloor]
  rw [if_neg]
  rw [not_or, not_le, abs_of_nonneg hcast]
  exact ⟨hy.ne', hfits⟩

/-- A multiple of a written number that survives rounding and rescaling to the number's own
exponent, or a finer one, is exact. -/
theorem quantize_multiple {prec : Nat} (hprec : 0 < prec) {k exponent : Int} {t : Decimal} {q : ℚ}
    (hfine : exponent ≤ t.exponent)
    (h : quantize prec (toPrecision prec (k * t.value)) exponent = some q) : q = k * t.value := by
  have hwritten : k * t.value = ((k * t.coefficient : Int) : ℚ) * 10 ^ t.exponent := by
    rw [value]
    push_cast
    ring
  obtain ⟨n, hn⟩ : ∃ n : Nat, t.exponent = exponent + n := ⟨(t.exponent - exponent).toNat, by omega⟩
  by_cases hfits : |((k * t.coefficient : Int) : ℚ)| < 10 ^ prec
  · rw [hwritten, toPrecision_of_fits hfits, quantize] at h
    have hscale : ((k * t.coefficient : Int) : ℚ) * 10 ^ t.exponent / 10 ^ exponent =
        ((k * t.coefficient * 10 ^ n : Int) : ℚ) := by
      rw [hn, zpow_add₀ (by norm_num), zpow_natCast]
      push_cast
      field_simp
    simp only [hscale, roundHalfEven_intCast] at h
    split at h
    · cases h
    · rw [hwritten, ← Option.some.inj h, hn, zpow_add₀ (by norm_num), zpow_natCast]
      push_cast
      ring
  · -- more digits than the context has: the rescaled coefficient has them too
    exfalso
    have hbig : (10 : ℚ) ^ ((prec : Int) + t.exponent) ≤ |k * t.value| := by
      rw [hwritten, abs_mul, abs_of_pos (ten_zpow_pos _), zpow_add₀ (by norm_num), zpow_natCast]
      exact mul_le_mul_of_nonneg_right (not_lt.mp hfits) (ten_zpow_pos _).le
    have hround := le_abs_toPrecision hprec hbig
    have hscaled : ((10 ^ prec : Nat) : ℚ) ≤
        |toPrecision prec (k * t.value) / 10 ^ exponent| := by
      rw [abs_div, abs_of_pos (ten_zpow_pos exponent), le_div_iff₀ (ten_zpow_pos exponent)]
      refine le_trans ?_ hround
      push_cast
      rw [← zpow_natCast, ← zpow_add₀ (by norm_num)]
      exact zpow_le_zpow_right₀ (by norm_num) (by omega)
    have hcoeff := le_abs_roundHalfEven hscaled
    push_cast at hcoeff
    rw [quantize] at h
    simp only [if_pos hcoeff] at h
    cases h

/-! ### Ties away from zero, and rescaling -/

theorem roundHalfUp_intCast (n : Int) : roundHalfUp n = n := by
  unfold roundHalfUp
  split_ifs
  · rw [Int.floor_eq_iff]
    constructor <;> linarith
  · rw [Int.ceil_eq_iff]
    constructor <;> linarith

theorem abs_roundHalfUp_sub_le (x : ℚ) : |(roundHalfUp x : ℚ) - x| ≤ 1 / 2 := by
  unfold roundHalfUp
  rw [abs_le]
  split_ifs
  · have hlow := Int.floor_le (x + 1 / 2)
    have hhigh := Int.lt_floor_add_one (x + 1 / 2)
    constructor <;> linarith
  · have hlow := Int.le_ceil (x - 1 / 2)
    have hhigh := Int.ceil_lt_add_one (x - 1 / 2)
    constructor <;> linarith

theorem roundHalfUp_mono {x y : ℚ} (h : x ≤ y) : roundHalfUp x ≤ roundHalfUp y := by
  unfold roundHalfUp
  split_ifs with hx hy hy
  · exact Int.floor_le_floor (by linarith)
  · exact absurd (hx.trans h) hy
  · -- a negative number rounds up to zero at most
    have hlow : ⌈x - 1 / 2⌉ ≤ 0 := Int.ceil_le.mpr (by push_cast; linarith)
    have hhigh : 0 ≤ ⌊y + 1 / 2⌋ := Int.le_floor.mpr (by push_cast; linarith)
    exact hlow.trans hhigh
  · exact Int.ceil_le_ceil (by linarith)

theorem quantize_eq_self_iff {prec : Nat} {x : ℚ} {exponent : Int} :
    quantize prec x exponent = some x ↔ ∃ c : Int, x = c * 10 ^ exponent ∧ |(c : ℚ)| < 10 ^ prec := by
  have hpos := ten_zpow_pos exponent
  constructor
  · intro h
    rw [quantize] at h
    split_ifs at h with hdigits
    exact ⟨_, (Option.some.inj h).symm, not_le.mp hdigits⟩
  · rintro ⟨c, rfl, hc⟩
    have hscale : (c : ℚ) * 10 ^ exponent / 10 ^ exponent = c := mul_div_cancel_right₀ _ hpos.ne'
    rw [quantize, hscale, roundHalfEven_intCast]
    exact if_neg (not_le.mpr hc)

theorem le_quantize {prec : Nat} {x q : ℚ} {exponent c : Int} (h : quantize prec x exponent = some q)
    (hc : c * 10 ^ exponent ≤ x) : c * 10 ^ exponent ≤ q := by
  have hpos := ten_zpow_pos exponent
  rw [quantize] at h
  split_ifs at h
  rw [← Option.some.inj h]
  have hround : c ≤ roundHalfEven (x / 10 ^ exponent) := le_roundHalfEven ((le_div_iff₀ hpos).mpr hc)
  exact mul_le_mul_of_nonneg_right (by exact_mod_cast hround) hpos.le

end Decimal

end Droid.Lib
