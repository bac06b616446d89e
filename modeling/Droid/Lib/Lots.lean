import Mathlib.Data.Rat.Floor
import Mathlib.Algebra.Order.Field.Basic
import Mathlib.Order.Bounds.Basic

/-! Quantities in lots: floors and alignment as the greatest below a bound, and bounds applied one after another. -/
namespace Droid.Lib

/-- The greatest multiple of the lot that is at most n. -/
def alignDown (lot n : ℤ) : ℤ := if 1 < lot then n / lot * lot else n

variable {lot n q : ℤ}

theorem dvd_alignDown (hlot : 0 < lot) : lot ∣ alignDown lot n := by
  rw [alignDown]
  split
  · exact Int.dvd_mul_left _ _
  · rename_i hone
    rw [show lot = 1 by omega]
    exact one_dvd n

theorem le_alignDown_iff (hlot : 0 < lot) (hq : lot ∣ q) : q ≤ alignDown lot n ↔ q ≤ n := by
  rw [alignDown]
  split
  · obtain ⟨k, rfl⟩ := hq
    rw [mul_comm lot k, mul_le_mul_iff_left₀ hlot, Int.le_ediv_iff_mul_le hlot]
  · rfl

theorem le_floor_div_iff {budget unit : ℚ} (hunit : 0 < unit) : q ≤ ⌊budget / unit⌋ ↔ q * unit ≤ budget := by
  rw [Int.le_floor, le_div_iff₀ hunit]

theorem isGreatest_min_floor {unit price : ℚ} (hunit : 0 < unit) (hprice : 0 < price) (budget allocation : ℚ) (bound : ℤ) :
    IsGreatest {q : ℤ | q ≤ bound ∧ q * unit ≤ budget ∧ q * price ≤ allocation}
      (min (min ⌊budget / unit⌋ ⌊allocation / price⌋) bound) := by
  have hset : {q : ℤ | q ≤ bound ∧ q * unit ≤ budget ∧ q * price ≤ allocation} =
      Set.Iic (min (min ⌊budget / unit⌋ ⌊allocation / price⌋) bound) := by
    ext q
    rw [Set.mem_ofPred_eq, Set.mem_Iic, le_min_iff, le_min_iff, le_floor_div_iff hunit, le_floor_div_iff hprice, and_comm]
  rw [hset]
  exact isGreatest_Iic

/-- Steps that each cut the lower set of a state down leave what is below the start and passes every cut. -/
theorem le_foldl_iff {σ ι α : Type} [LE α] (f : σ → α) (step : σ → ι → σ) (passes : ι → α → Prop) {q : α}
    (hstep : ∀ s i, q ≤ f (step s i) ↔ q ≤ f s ∧ passes i q) (s : σ) (is : List ι) :
    q ≤ f (is.foldl step s) ↔ q ≤ f s ∧ ∀ i ∈ is, passes i q := by
  induction is generalizing s with
  | nil => simp
  | cons i is ih =>
    rw [List.foldl_cons, ih, hstep, List.forall_mem_cons, and_assoc]

theorem eq_of_le_iff {a b : ℤ} (ha : 0 ≤ a) (hb : 0 ≤ b) (hda : lot ∣ a) (hdb : lot ∣ b)
    (h : ∀ q, 0 < q → lot ∣ q → (q ≤ a ↔ q ≤ b)) : a = b := by
  apply le_antisymm
  · rcases ha.eq_or_lt with rfl | hpos
    · exact hb
    · exact (h a hpos hda).mp le_rfl
  · rcases hb.eq_or_lt with rfl | hpos
    · exact ha
    · exact (h b hpos hdb).mpr le_rfl

end Droid.Lib
