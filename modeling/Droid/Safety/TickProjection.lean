import Droid.Safety.DecimalTypes

/-! The three codings of tick normalization, where they are one projection, and where the quantity check is exact. -/
namespace Droid.Safety
open Lib

def quantized (price : ℚ) (tick : Decimal) : Option ℚ :=
  (Decimal.div prec price tick.value).map fun quotient =>
    let ticks := Decimal.roundHalfUp quotient
    Decimal.toPrecision prec (ticks * tick.value)

/-- `normalize_price` of the contract resolver: the steps to units, the price to hundredths. -/
def normalizePrice (price : ℚ) (tickSize : Decimal) : Option ℚ :=
  if tickSize.value ≤ 0 then some price
  else (Decimal.div prec price tickSize.value).bind fun quotient =>
    let steps := Decimal.roundHalfUp quotient
    if (10 : ℚ) ^ prec ≤ |(steps : ℚ)| then none
    else Decimal.quantize prec (Decimal.toPrecision prec (steps * tickSize.value)) (-2)

def normalizations : List (ℚ → Decimal → Option ℚ) := [normalizePriceToTick, quantized, normalizePrice]

def ticks (price : ℚ) (tick : Decimal) : Int := Decimal.roundHalfUp (price / tick.value)

/-- Quotient and product fit the context: rounding the one keeps the ticks, and the other is exact. -/
structure Fits (price : ℚ) (tick : Decimal) : Prop where
  quotient : Decimal.roundHalfUp (Decimal.toPrecision prec (price / tick.value)) = ticks price tick
  product : Decimal.toPrecision prec (ticks price tick * tick.value) = ticks price tick * tick.value

/-- The three codings give one value, a multiple of the tick at most half a tick away; they keep it, and the order of
prices. -/
def Projected (price : ℚ) (tick : Decimal) : Prop :=
  ∃ v, (∀ f ∈ normalizations, f price tick = some v) ∧ (∃ k : Int, v = k * tick.value) ∧
    |v - price| ≤ tick.value / 2 ∧ (∀ f ∈ normalizations, f v tick = some v) ∧
    ∀ f ∈ normalizations, ∀ price' v', price ≤ price' → Fits price' tick → f price' tick = some v' → v ≤ v'

/-- The number of ticks has 28 digits at most, and so has the price in hundredths, where it is whole, and at a negative
exponent of the tick. -/
def Writable (price : ℚ) (tick : Decimal) : Prop :=
  |(ticks price tick : ℚ)| < 10 ^ prec ∧
    (∃ c : Int, ticks price tick * tick.value = c * 10 ^ (-2 : Int) ∧ |(c : ℚ)| < 10 ^ prec) ∧
    (tick.exponent < 0 → |((ticks price tick * tick.coefficient : Int) : ℚ)| < 10 ^ prec)

namespace Fits
variable {price : ℚ} {tick : Decimal}

theorem quantized_eq (h : Fits price tick) (ht : 0 < tick.value) :
    quantized price tick = some (ticks price tick * tick.value) := by
  rw [quantized, Decimal.div, if_neg ht.ne', Option.map_some, h.quotient, h.product]

theorem normalizePriceToTick_eq (h : Fits price tick) (ht : 0 < tick.value) :
    normalizePriceToTick price tick = Decimal.quantize prec (ticks price tick * tick.value)
      (if tick.exponent < 0 then tick.exponent else -2) := by
  rw [normalizePriceToTick, Decimal.div, if_neg ht.ne', Option.bind_some, h.quotient]
  dsimp only
  rw [h.product]

theorem normalizePrice_eq (h : Fits price tick) (ht : 0 < tick.value) :
    normalizePrice price tick =
      if (10 : ℚ) ^ prec ≤ |(ticks price tick : ℚ)| then none
      else Decimal.quantize prec (ticks price tick * tick.value) (-2) := by
  rw [normalizePrice, if_neg (not_le.mpr ht), Decimal.div, if_neg ht.ne', Option.bind_some, h.quotient]
  dsimp only
  rw [h.product]

/-- The codings agree on the exact multiple exactly where it can be written. -/
theorem codings_agree_iff (h : Fits price tick) (ht : 0 < tick.value) :
    (∀ f ∈ normalizations, f price tick = some (ticks price tick * tick.value)) ↔ Writable price tick := by
  have hpow : (0 : ℚ) < 10 ^ tick.exponent := zpow_pos (by norm_num) _
  have hwritten : (ticks price tick : ℚ) * tick.value =
      ((ticks price tick * tick.coefficient : Int) : ℚ) * 10 ^ tick.exponent := by
    rw [Decimal.value]
    push_cast
    ring
  simp only [normalizations, List.forall_mem_cons, List.not_mem_nil, false_imp_iff, implies_true, and_true,
    h.quantized_eq ht, h.normalizePriceToTick_eq ht, h.normalizePrice_eq ht, true_and]
  rw [Decimal.quantize_eq_self_iff]
  constructor
  · rintro ⟨htick, hprice⟩
    split_ifs at hprice with hsteps
    refine ⟨not_le.mp hsteps, Decimal.quantize_eq_self_iff.mp hprice, ?_⟩
    intro hexponent
    rw [if_pos hexponent] at htick
    obtain ⟨c, hc, hdigits⟩ := htick
    rw [hwritten] at hc
    have hsame := mul_right_cancel₀ hpow.ne' hc
    rwa [hsame]
  · rintro ⟨hsteps, hcents, htick⟩
    rw [if_neg (not_le.mpr hsteps)]
    refine ⟨?_, Decimal.quantize_eq_self_iff.mpr hcents⟩
    split_ifs with hexponent
    · exact ⟨_, hwritten, htick hexponent⟩
    · exact hcents

theorem ticks_mono {price' : ℚ} (ht : 0 < tick.value) (h : price ≤ price') : ticks price tick ≤ ticks price' tick :=
  Decimal.roundHalfUp_mono ((div_le_div_iff_of_pos_right ht).mpr h)

theorem near (ht : 0 < tick.value) : |ticks price tick * tick.value - price| ≤ tick.value / 2 := by
  have hnear := Decimal.abs_roundHalfUp_sub_le (price / tick.value)
  have hprice : price = price / tick.value * tick.value := (div_mul_cancel₀ _ ht.ne').symm
  rw [ticks]
  nth_rewrite 2 [hprice]
  rw [← sub_mul, abs_mul, abs_of_pos ht]
  have hscaled := mul_le_mul_of_nonneg_right hnear ht.le
  linarith

theorem of_multiple (ht : 0 < tick.value) {k : Int} (hk : |(k : ℚ)| < 10 ^ prec)
    (hproduct : Decimal.toPrecision prec (k * tick.value) = k * tick.value) :
    ticks (k * tick.value) tick = k ∧ Fits (k * tick.value) tick := by
  have hquotient : (k : ℚ) * tick.value / tick.value = k := mul_div_cancel_right₀ _ ht.ne'
  have hexact : Decimal.toPrecision prec k = k := by
    have hfits := Decimal.toPrecision_of_fits (e := 0) hk
    simpa using hfits
  have hticks : ticks (k * tick.value) tick = k := by
    rw [ticks, hquotient, Decimal.roundHalfUp_intCast]
  refine ⟨hticks, ?_, ?_⟩
  · rw [hquotient, hexact, hticks, Decimal.roundHalfUp_intCast]
  · rw [hticks, hproduct]

end Fits

theorem projected_of_writable {price : ℚ} {tick : Decimal} (ht : 0 < tick.value) (h : Fits price tick)
    (hwritable : Writable price tick) : Projected price tick := by
  have hagree := (h.codings_agree_iff ht).mpr hwritable
  obtain ⟨hticks, hfits⟩ := Fits.of_multiple ht hwritable.1 h.product
  refine ⟨_, hagree, ⟨_, rfl⟩, Fits.near ht, ?_, ?_⟩
  · have hkept : Writable (ticks price tick * tick.value) tick := by
      rw [Writable, hticks]
      exact hwritable
    have hsame := (hfits.codings_agree_iff ht).mpr hkept
    rwa [hticks] at hsame
  · intro f hf price' v' hle h' hv'
    have hmono : (ticks price tick : ℚ) ≤ ticks price' tick := by exact_mod_cast Fits.ticks_mono ht hle
    have hmultiple := mul_le_mul_of_nonneg_right hmono ht.le
    simp only [normalizations, List.mem_cons, List.not_mem_nil, or_false] at hf
    rcases hf with rfl | rfl | rfl
    · rw [h'.normalizePriceToTick_eq ht, ← h'.product] at hv'
      rwa [Decimal.quantize_multiple (by decide) (by split <;> omega) hv']
    · rw [h'.quantized_eq ht] at hv'
      rwa [← Option.some.inj hv']
    · -- hundredths below the next multiple stay below its rounding
      rw [h'.normalizePrice_eq ht] at hv'
      split_ifs at hv'
      obtain ⟨c, hc, -⟩ := hwritable.2.1
      rw [hc] at hmultiple ⊢
      exact Decimal.le_quantize hv' hmultiple

theorem writable_of_projected {price : ℚ} {tick : Decimal} (ht : 0 < tick.value) (h : Fits price tick)
    (hprojected : Projected price tick) : Writable price tick := by
  obtain ⟨v, hsame, -⟩ := hprojected
  have hv : v = ticks price tick * tick.value := by
    have hquantized := hsame quantized (by simp [normalizations])
    rw [h.quantized_eq ht] at hquantized
    exact (Option.some.inj hquantized).symm
  rw [hv] at hsame
  exact (h.codings_agree_iff ht).mp hsame

/-! ### Quantities -/

/-- A valid quantity is the minimum and whole steps, and whole lots. -/
def QuantityExact (quantity minQty quantityStep lotSize : Numeral) (q mn step lots : ℚ) : Prop :=
  validateQuantity quantity minQty quantityStep (some lotSize) = some .valid →
    (∃ m : Int, q = mn + m * step) ∧ ∃ l : Int, q = l * lots

/-- The tolerance of the step test makes no difference: the quantity is on the grid, or the test fails for it, or
another test does. -/
def ToleranceIdle (q mn step lots : ℚ) : Prop :=
  (∃ m : Int, q = mn + m * step) ∨
    (∀ r, Decimal.mod prec (Decimal.toPrecision prec (q - mn)) step = some r → offStep r step = true) ∨
    q < mn ∨ q ≤ 0 ∨ Decimal.mod prec q lots ≠ some 0

theorem validateQuantity_valid_iff {quantity minQty quantityStep lotSize : Numeral} {q mn step lots : Decimal}
    (hq : quantity.D = some q) (hmn : minQty.D = some mn) (hstep : quantityStep.D = some step)
    (hlots : lotSize.D = some lots) (hsteppos : 0 < step.value) (hlotspos : 0 < lots.value) :
    validateQuantity quantity minQty quantityStep (some lotSize) = some .valid ↔
      mn.value ≤ q.value ∧ 0 < q.value ∧
      (∃ r, Decimal.mod prec (Decimal.toPrecision prec (q.value - mn.value)) step.value = some r ∧
        offStep r step.value = false) ∧
      Decimal.mod prec q.value lots.value = some 0 := by
  have hnonzero : lotSize.nonzero = true := by
    cases lotSize with
    | int n =>
      have hvalue : lots = ⟨n, 0⟩ := (Option.some.inj hlots).symm
      rw [hvalue] at hlotspos
      have hn : n ≠ 0 := by
        rintro rfl
        simp [Decimal.value] at hlotspos
      simpa [Numeral.nonzero] using hn
    | decimal d =>
      rw [← Option.some.inj hlots] at hlotspos
      simpa [Numeral.nonzero] using hlotspos.ne'
    | float d =>
      rw [← Option.some.inj hlots] at hlotspos
      simpa [Numeral.nonzero] using hlotspos.ne'
    | text d => rfl
    | otherText d => rfl
    | malformed => rfl
  have hlotTest : validateLots q.value (some lotSize) = some .valid ↔ Decimal.mod prec q.value lots.value = some 0 := by
    rw [validateLots, Option.filter_some, if_pos hnonzero]
    dsimp only
    rw [hlots, Option.bind_some, Option.map_eq_some_iff]
    constructor
    · rintro ⟨r, hr, hverdict⟩
      split_ifs at hverdict with hzero
      rw [hr, not_not.mp hzero]
    · intro hzero
      exact ⟨0, hzero, by simp⟩
  rw [validateQuantity, hq, hmn, hstep]
  dsimp only
  split_ifs with hbelow hpos hzero
  · simp [not_le.mpr hbelow]
  · simp [not_lt.mpr hpos]
  · rw [Option.bind_eq_some_iff]
    constructor
    · rintro ⟨r, hr, hverdict⟩
      split_ifs at hverdict with hoff
      · cases hverdict
      exact ⟨not_lt.mp hbelow, not_le.mp hpos, ⟨r, hr, Bool.eq_false_iff.mpr hoff⟩, hlotTest.mp hverdict⟩
    · rintro ⟨-, -, ⟨r, hr, hoff⟩, hlot⟩
      refine ⟨r, hr, ?_⟩
      rw [if_neg (by rw [hoff]; exact Bool.false_ne_true)]
      exact hlotTest.mpr hlot
  · exact absurd hsteppos.ne' (by simpa using hzero)

theorem quantityExact_iff {quantity minQty quantityStep lotSize : Numeral} {q mn step lots : Decimal}
    (hq : quantity.D = some q) (hmn : minQty.D = some mn) (hstep : quantityStep.D = some step)
    (hlots : lotSize.D = some lots) (hsteppos : 0 < step.value) (hlotspos : 0 < lots.value) :
    QuantityExact quantity minQty quantityStep lotSize q.value mn.value step.value lots.value ↔
      ToleranceIdle q.value mn.value step.value lots.value := by
  rw [QuantityExact, validateQuantity_valid_iff hq hmn hstep hlots hsteppos hlotspos]
  constructor
  · intro hexact
    by_contra hidle
    simp only [ToleranceIdle, not_or, not_forall, not_lt, not_le, not_not] at hidle
    obtain ⟨hgrid, ⟨r, hr, hoff⟩, hmin, hpos, hlot⟩ := hidle
    exact hgrid (hexact ⟨hmin, hpos, ⟨r, hr, Bool.eq_false_iff.mpr hoff⟩, hlot⟩).1
  · rintro hidle ⟨hmin, hpos, ⟨r, hr, hoff⟩, hlot⟩
    have hwhole := Decimal.mod_eq_zero (by decide) hlot
    rcases hidle with hgrid | htest | hbelow | hnonpos | hother
    · exact ⟨hgrid, hwhole⟩
    · rw [htest r hr] at hoff
      cases hoff
    · exact absurd hbelow (not_lt.mpr hmin)
    · exact absurd hnonpos (not_le.mpr hpos)
    · exact absurd hlot hother

/-! ### The law -/

/-- Where quotient and product fit, the normalizations are one projection exactly where the price can be written, and
valid quantities are exact exactly where the tolerance is idle. -/
theorem normalization_exact_iff {price : ℚ} {tick : Decimal} (ht : 0 < tick.value) (hfits : Fits price tick)
    {quantity minQty quantityStep lotSize : Numeral} {q mn step lots : Decimal}
    (hq : quantity.D = some q) (hmn : minQty.D = some mn) (hstep : quantityStep.D = some step)
    (hlots : lotSize.D = some lots) (hsteppos : 0 < step.value) (hlotspos : 0 < lots.value) :
    (Projected price tick ↔ Writable price tick) ∧
      (QuantityExact quantity minQty quantityStep lotSize q.value mn.value step.value lots.value ↔
        ToleranceIdle q.value mn.value step.value lots.value) :=
  ⟨⟨writable_of_projected ht hfits, projected_of_writable ht hfits⟩,
    quantityExact_iff hq hmn hstep hlots hsteppos hlotspos⟩

theorem fits_whole : Fits (10025 / 10000) ⟨25, -4⟩ ∧ ticks (10025 / 10000) ⟨25, -4⟩ = 401 := by
  have hprice : (10025 / 10000 : ℚ) = (401 : Int) * Decimal.value ⟨25, -4⟩ := by norm_num [Decimal.value]
  have hproduct : Decimal.toPrecision prec ((401 : Int) * Decimal.value ⟨25, -4⟩) =
      (401 : Int) * Decimal.value ⟨25, -4⟩ := by
    have hdigits : Decimal.toPrecision prec (((10025 : Int) : ℚ) * 10 ^ (-4 : Int)) = _ :=
      Decimal.toPrecision_of_fits (by norm_num [prec])
    have hsame : ((10025 : Int) : ℚ) * 10 ^ (-4 : Int) = (401 : Int) * Decimal.value ⟨25, -4⟩ := by
      norm_num [Decimal.value]
    rwa [hsame] at hdigits
  rw [hprice]
  exact (Fits.of_multiple (by norm_num [Decimal.value]) (by norm_num [prec]) hproduct).symm

theorem normalization_exact_iff_quarter :
    (Projected (10025 / 10000) ⟨25, -4⟩ ↔ Writable (10025 / 10000) ⟨25, -4⟩) ∧
      (QuantityExact (.int 75) (.int 1) (.int 1) (.int 75) (Decimal.value ⟨75, 0⟩) (Decimal.value ⟨1, 0⟩)
          (Decimal.value ⟨1, 0⟩) (Decimal.value ⟨75, 0⟩) ↔
        ToleranceIdle (Decimal.value ⟨75, 0⟩) (Decimal.value ⟨1, 0⟩) (Decimal.value ⟨1, 0⟩) (Decimal.value ⟨75, 0⟩)) :=
  normalization_exact_iff (by norm_num [Decimal.value]) fits_whole.1 rfl rfl rfl rfl (by norm_num [Decimal.value])
    (by norm_num [Decimal.value])

/-- A quarter of a cent is no price in hundredths, and a quantity a ten-billionth off the grid is valid. -/
theorem quarter_and_remainder :
    ¬Projected (10025 / 10000) ⟨25, -4⟩ ∧
      ¬QuantityExact (.text ⟨10000000001, -10⟩) (.int 1) (.int 1) (.text ⟨1, -10⟩) (Decimal.value ⟨10000000001, -10⟩)
        (Decimal.value ⟨1, 0⟩) (Decimal.value ⟨1, 0⟩) (Decimal.value ⟨1, -10⟩) := by
  constructor
  · intro h
    obtain ⟨-, ⟨c, hc, -⟩, -⟩ := writable_of_projected (by norm_num [Decimal.value]) fits_whole.1 h
    rw [fits_whole.2] at hc
    norm_num [Decimal.value] at hc
    have hint : (401 : Int) = 4 * c := by
      have hcast : (401 : ℚ) = 4 * c := by linarith
      exact_mod_cast hcast
    omega
  · intro h
    have hsmall : Decimal.toPrecision prec (1 / 10 ^ 10) = 1 / 10 ^ 10 := by
      have hdigits : Decimal.toPrecision prec (((1 : Int) : ℚ) * 10 ^ (-10 : Int)) = _ :=
        Decimal.toPrecision_of_fits (by norm_num [prec])
      norm_num at hdigits ⊢
      exact hdigits
    have hzero : Decimal.toPrecision prec 0 = 0 := by
      have hdigits : Decimal.toPrecision prec (((0 : Int) : ℚ) * 10 ^ (0 : Int)) = _ :=
        Decimal.toPrecision_of_fits (by norm_num [prec])
      simpa using hdigits
    have hvalid : validateQuantity (.text ⟨10000000001, -10⟩) (.int 1) (.int 1) (some (.text ⟨1, -10⟩)) = some .valid := by
      rw [validateQuantity_valid_iff rfl rfl rfl rfl (by norm_num [Decimal.value]) (by norm_num [Decimal.value])]
      refine ⟨by norm_num [Decimal.value], by norm_num [Decimal.value], ⟨1 / 10 ^ 10, ?_, ?_⟩, ?_⟩
      · have hdifference : Decimal.value ⟨10000000001, -10⟩ - Decimal.value ⟨1, 0⟩ = 1 / 10 ^ 10 := by
          norm_num [Decimal.value]
        rw [hdifference, hsmall, Decimal.mod_of_floor (k := 0) (by norm_num [Decimal.value]) le_rfl (by norm_num [prec])
          (by norm_num [Decimal.value]) (by norm_num [Decimal.value])]
        rw [Int.cast_zero, zero_mul, sub_zero, hsmall]
      · norm_num [offStep]
      · rw [Decimal.mod_of_floor (k := 10000000001) (by norm_num [Decimal.value]) (by norm_num) (by norm_num [prec])
          (by norm_num [Decimal.value]) (by norm_num [Decimal.value])]
        have hnone : Decimal.value ⟨10000000001, -10⟩ - ((10000000001 : Int) : ℚ) * Decimal.value ⟨1, -10⟩ = 0 := by
          norm_num [Decimal.value]
        rw [hnone, hzero]
    obtain ⟨m, hm⟩ := (h hvalid).1
    norm_num [Decimal.value] at hm
    have hint : (10000000001 : Int) = 10000000000 + 10000000000 * m := by
      have hcast : (10000000001 : ℚ) = 10000000000 + 10000000000 * m := by linarith
      exact_mod_cast hcast
    omega

end Droid.Safety
