import Droid.Signals.OptionSizing
import Mathlib.Tactic.Ring

/-! Option legs are sized by their premium, and as far as the budgets reach. -/
namespace Droid.Signals.OptionSizing
open Lib

namespace Request
variable (r : Request)

/-- The lot size that the contract names, or 75. -/
def ownLot : ℚ := r.contract.lotField.named.getD 75

def riskBudget : ℚ := r.availableCapital * (r.riskPercent / 100)

def allocation : ℚ := r.availableCapital * (20 / 100)

def riskPerShare (premium : ℚ) : ℚ := optionRiskPerShare premium r.optionStopPremium none none

/-- A sizing in the premium domain, with the greatest number of lots. -/
structure PremiumSized (out : Sizing) (premium : ℚ) : Prop where
  basis : out.sizingBasis = some .optionPremium
  taken : r.optionEntryPremium.or r.contract.livePremium = some premium
  positive : 0 < premium
  lots : IsGreatest {n : ℤ | n ≤ r.maxLots ∧ n * (r.riskPerShare premium * r.ownLot) ≤ r.riskBudget ∧
    n * (premium * r.ownLot) ≤ r.allocation} out.lots
  quantity : (out.quantity : ℚ) = out.lots * r.ownLot
  outlay : out.premiumOutlay = some (roundTo 2 (out.quantity * premium))
  loss : out.maxRupeeLoss = some (roundTo 2 (out.quantity * r.riskPerShare premium))

def SizedWell : Prop :=
  r.contract.isOption = true → (resolveSizingForContract r).allowed = true →
    ∃ premium, r.PremiumSized (resolveSizingForContract r) premium

/-- The lot size that is read from the contract, or 75 where none can be. -/
def readLot : ℤ := r.contract.lotField.lotSize.getD 75

/-- The premium of an option: the given one, or that of the contract if its lot size can be read. -/
def premiumAtHand : Option ℚ :=
  (r.optionEntryPremium.or (if r.contract.lotField.lotSize.isSome then r.contract.livePremium else none)).filter (0 < ·)

/-- One lot is within both budgets. -/
def PremiumFits (premium : ℚ) : Prop :=
  0 < r.readLot ∧ 1 ≤ r.maxLots ∧ r.riskPerShare premium * r.readLot ≤ r.riskBudget ∧
    premium * r.readLot ≤ r.allocation

/-- One lot is within the risk budget by the points of the index. -/
def SpotFits : Prop :=
  let points := |r.entryPrice.getD 0 - r.stopLoss.getD 0|
  0 < points ∧ 0 < r.readLot ∧ 1 ≤ r.maxLots ∧ points * r.readLot ≤ r.riskBudget

/-- The contract names a whole lot size, not zero, or none. -/
def WholeLot : Prop := r.ownLot ≠ 0 ∧ ∃ n : ℤ, r.ownLot = n

/-- An option has a premium, and a whole lot size if a lot of it fits, or no lot fits by the points of the index. -/
def Covered : Prop :=
  r.contract.isOption = true →
    (∀ premium, r.premiumAtHand = some premium → r.PremiumFits premium → r.WholeLot) ∧
      (r.premiumAtHand = none → ¬ r.SpotFits)

end Request

/-! ### The two sizings -/

theorem optionRiskPerShare_pos {premium : ℚ} (h : 0 < premium) (stopPremium delta points : Option ℚ) :
    0 < optionRiskPerShare premium stopPremium delta points := by
  unfold optionRiskPerShare
  have hone : ∀ x : ℚ, 0 < max 1 x := fun x => lt_max_of_lt_left one_pos
  split
  · exact hone _
  · split
    · exact hone _
    · exact mul_pos h (by norm_num)

theorem one_le_clamp_iff {n bound : ℤ} : 1 ≤ max 0 (min n bound) ↔ 1 ≤ n ∧ 1 ≤ bound := by
  omega

theorem one_le_floor_iff {budget unit : ℚ} :
    1 ≤ (if 0 < unit then ⌊budget / unit⌋ else 0) ↔ 0 < unit ∧ unit ≤ budget := by
  by_cases hunit : 0 < unit
  · rw [if_pos hunit, le_floor_div_iff hunit]
    simp [hunit]
  · simp [hunit]

theorem calculatePositionSizing_allowed_iff {capital riskPercent entry stop : ℚ} {lotSize maxLots : ℤ} :
    (calculatePositionSizing capital riskPercent entry stop lotSize 1 maxLots).allowed = true ↔
      0 < |entry - stop| ∧ 0 < lotSize ∧ 1 ≤ maxLots ∧ |entry - stop| * lotSize ≤ capital * (riskPercent / 100) := by
  unfold calculatePositionSizing
  dsimp only
  by_cases hpoints : |entry - stop| ≤ 0
  · rw [if_pos hpoints]
    simp [not_lt.mpr hpoints]
  · rw [if_neg hpoints, mul_one, decide_eq_true_eq, one_le_clamp_iff, one_le_floor_iff]
    rw [not_le] at hpoints
    rw [mul_pos_iff_of_pos_left hpoints, Int.cast_pos]
    tauto

theorem calculateOptionBuyerSizing_allowed_iff {capital riskPercent premium : ℚ} {stop delta points : Option ℚ}
    {lotSize maxLots : ℤ} {pct : ℚ} (hpremium : 0 < premium) :
    (calculateOptionBuyerSizing capital riskPercent premium stop delta points lotSize pct maxLots).allowed = true ↔
      0 < lotSize ∧ 1 ≤ maxLots ∧
        optionRiskPerShare premium stop delta points * lotSize ≤ capital * (riskPercent / 100) ∧
        premium * lotSize ≤ capital * (pct / 100) := by
  have hshare := optionRiskPerShare_pos hpremium stop delta points
  have hmin : ∀ a b : ℤ, 1 ≤ min a b ↔ 1 ≤ a ∧ 1 ≤ b := fun a b => le_min_iff
  unfold calculateOptionBuyerSizing
  dsimp only
  rw [if_neg (not_le.mpr hpremium), decide_eq_true_eq, one_le_clamp_iff, hmin, one_le_floor_iff, one_le_floor_iff,
    mul_pos_iff_of_pos_left hshare, mul_pos_iff_of_pos_left hpremium, Int.cast_pos]
  tauto

/-- An allowed sizing of an option buyer, under all three rules of the risk. -/
structure BuyerSized (budget allocation premium share : ℚ) (lotSize maxLots : ℤ) (out : Sizing) : Prop where
  positive : 1 ≤ out.lots
  lots : IsGreatest {n : ℤ | n ≤ maxLots ∧ n * (share * lotSize) ≤ budget ∧ n * (premium * lotSize) ≤ allocation}
    out.lots
  quantity : out.quantity = out.lots * lotSize
  outlay : out.premiumOutlay = some (roundTo 2 (out.quantity * premium))
  loss : out.maxRupeeLoss = some (roundTo 2 (out.quantity * share))

theorem calculateOptionBuyerSizing_spec {capital riskPercent premium : ℚ} {stop delta points : Option ℚ}
    {lotSize maxLots : ℤ} {pct : ℚ} (hpremium : 0 < premium)
    (h : (calculateOptionBuyerSizing capital riskPercent premium stop delta points lotSize pct maxLots).allowed = true) :
    BuyerSized (capital * (riskPercent / 100)) (capital * (pct / 100)) premium
      (optionRiskPerShare premium stop delta points) lotSize maxLots
      (calculateOptionBuyerSizing capital riskPercent premium stop delta points lotSize pct maxLots) := by
  obtain ⟨hlot, -⟩ := (calculateOptionBuyerSizing_allowed_iff hpremium).mp h
  have hlotRat : (0 : ℚ) < lotSize := Int.cast_pos.mpr hlot
  have hunit := mul_pos (optionRiskPerShare_pos hpremium stop delta points) hlotRat
  have hprice := mul_pos hpremium hlotRat
  have hgreatest := isGreatest_min_floor hunit hprice (capital * (riskPercent / 100)) (capital * (pct / 100)) maxLots
  revert h
  unfold calculateOptionBuyerSizing
  dsimp only
  rw [if_neg (not_le.mpr hpremium), if_pos hunit, if_pos hprice]
  intro h
  have hlots := of_decide_eq_true h
  refine ⟨hlots, ?_, rfl, rfl, ?_⟩
  · dsimp only
    rwa [max_eq_right (by omega)]
  · dsimp only
    congr 2
    push_cast
    ring

/-! ### The domain -/

namespace Request
variable {r : Request} {premium : ℚ}

theorem domain_of_none (h : r.contract.lotField.lotSize = none) :
    r.domain = ⟨75, r.optionEntryPremium.isSome, r.optionEntryPremium⟩ := by
  unfold domain
  cases hcontract : r.contract with
  | other => rfl
  | master contract =>
    rw [hcontract] at h
    simp only [domainOf, h]
  | dict contract =>
    rw [hcontract] at h
    simp only [domainOf, h]

theorem domain_of_some {lotSize : ℤ} (hoption : r.contract.isOption = true)
    (h : r.contract.lotField.lotSize = some lotSize) :
    r.domain = ⟨lotSize, true, r.optionEntryPremium.or r.contract.livePremium⟩ := by
  unfold domain
  cases hcontract : r.contract with
  | other =>
    rw [hcontract] at hoption
    cases hoption
  | master contract =>
    rw [hcontract] at h hoption
    simp only [domainOf, h, hoption]
  | dict contract =>
    rw [hcontract] at h hoption
    simp only [domainOf, h, hoption]

theorem domain_lotSize (h : r.contract.isOption = true) : r.domain.lotSize = r.readLot := by
  unfold readLot
  cases hlot : r.contract.lotField.lotSize with
  | none => rw [domain_of_none hlot]; rfl
  | some lotSize => rw [domain_of_some h hlot]; rfl

theorem usablePremium_eq (h : r.contract.isOption = true) : r.usablePremium = r.premiumAtHand := by
  unfold usablePremium premiumAtHand
  cases hlot : r.contract.lotField.lotSize with
  | none =>
    rw [domain_of_none hlot]
    cases r.optionEntryPremium <;> rfl
  | some lotSize =>
    rw [domain_of_some h hlot]
    rfl

theorem taken_of_premiumAtHand (h : r.premiumAtHand = some premium) :
    r.optionEntryPremium.or r.contract.livePremium = some premium ∧ 0 < premium := by
  obtain ⟨hsome, hpos⟩ := Option.filter_eq_some_iff.mp h
  refine ⟨?_, of_decide_eq_true hpos⟩
  cases hgiven : r.optionEntryPremium with
  | some given =>
    rw [hgiven] at hsome
    exact hsome
  | none =>
    rw [hgiven, Option.none_or] at hsome
    split_ifs at hsome
    exact hsome

theorem truncated_intCast (n : ℤ) : truncated n = n := by
  unfold truncated
  split_ifs <;> simp

theorem ownLot_eq_readLot (h : r.WholeLot) : r.ownLot = r.readLot := by
  have hblank : intOfText "" = none := by decide +kernel
  unfold WholeLot ownLot at h
  unfold ownLot readLot
  cases hfield : r.contract.lotField with
  | none => rfl
  | unreadable => rfl
  | number q =>
    rw [hfield] at h
    obtain ⟨hne, n, hn⟩ := h
    simp only [Value.named, Option.getD_some] at hne hn
    rw [Value.named, Value.lotSize, if_neg hne, hn, truncated_intCast]
    rfl
  | text s =>
    by_cases hs : s = ""
    · subst hs
      simp [Value.named, Value.lotSize, hblank]
    · rw [Value.named, Value.lotSize, if_neg hs]
      cases intOfText s <;> rfl

theorem wholeLot_of_eq (hlot : 0 < r.readLot) (h : r.ownLot = r.readLot) : r.WholeLot :=
  ⟨h ▸ (Int.cast_pos.mpr hlot).ne', r.readLot, h⟩

theorem resolve_of_none (h : r.usablePremium = none) :
    (resolveSizingForContract r).sizingBasis = some .spot ∧
      ((resolveSizingForContract r).allowed = true ↔
        let points := |r.entryPrice.getD 0 - r.stopLoss.getD 0|
        0 < points ∧ 0 < r.domain.lotSize ∧ 1 ≤ r.maxLots ∧ points * r.domain.lotSize ≤ r.riskBudget) := by
  unfold resolveSizingForContract
  rw [h]
  exact ⟨rfl, calculatePositionSizing_allowed_iff⟩

theorem resolve_of_some (hpos : 0 < premium) (h : r.usablePremium = some premium) :
    ((resolveSizingForContract r).allowed = true ↔
      0 < r.domain.lotSize ∧ 1 ≤ r.maxLots ∧ r.riskPerShare premium * r.domain.lotSize ≤ r.riskBudget ∧
        premium * r.domain.lotSize ≤ r.allocation) ∧
      (resolveSizingForContract r).sizingBasis = some .optionPremium ∧
      ((resolveSizingForContract r).allowed = true →
        BuyerSized r.riskBudget r.allocation premium (r.riskPerShare premium) r.domain.lotSize r.maxLots
          (resolveSizingForContract r)) := by
  unfold resolveSizingForContract
  rw [h]
  refine ⟨calculateOptionBuyerSizing_allowed_iff hpos, rfl, fun hallowed => ?_⟩
  have hsized := calculateOptionBuyerSizing_spec hpos hallowed
  exact ⟨hsized.positive, hsized.lots, hsized.quantity, hsized.outlay, hsized.loss⟩

theorem sizedWell_of_none (hoption : r.contract.isOption = true) (h : r.premiumAtHand = none) :
    ((resolveSizingForContract r).allowed = true → ∃ premium, r.PremiumSized (resolveSizingForContract r) premium) ↔
      ¬ r.SpotFits := by
  obtain ⟨hbasis, hallowed⟩ := resolve_of_none ((usablePremium_eq hoption).trans h)
  rw [domain_lotSize hoption] at hallowed
  rw [hallowed]
  constructor
  · intro hsized hfits
    obtain ⟨premium, hpremium⟩ := hsized hfits
    cases hbasis.symm.trans hpremium.basis
  · intro hunfit hfits
    exact absurd hfits hunfit

theorem sizedWell_of_some (hoption : r.contract.isOption = true) (h : r.premiumAtHand = some premium) :
    ((resolveSizingForContract r).allowed = true → ∃ premium, r.PremiumSized (resolveSizingForContract r) premium) ↔
      (r.PremiumFits premium → r.WholeLot) := by
  obtain ⟨htaken, hpos⟩ := taken_of_premiumAtHand h
  obtain ⟨hallowed, hbasis, hsized⟩ := resolve_of_some hpos ((usablePremium_eq hoption).trans h)
  rw [domain_lotSize hoption] at hallowed hsized
  constructor
  · intro hwell hfits
    have hout := hsized (hallowed.mpr hfits)
    obtain ⟨other, hother⟩ := hwell (hallowed.mpr hfits)
    have hquantity := hother.quantity
    rw [hout.quantity, Int.cast_mul] at hquantity
    have hlots : ((resolveSizingForContract r).lots : ℚ) ≠ 0 := by
      have hpositive := hout.positive
      exact Int.cast_ne_zero.mpr (by omega)
    exact wholeLot_of_eq hfits.1 (mul_left_cancel₀ hlots hquantity).symm
  · intro hwhole hok
    have hout := hsized hok
    have hlot := ownLot_eq_readLot (hwhole (hallowed.mp hok))
    refine ⟨premium, hbasis, htaken, hpos, hlot ▸ hout.lots, ?_, hout.outlay, hout.loss⟩
    rw [hout.quantity, hlot, Int.cast_mul]

/-- Options are sized by their premium exactly in the covered requests. -/
theorem sizedWell_iff (r : Request) : r.SizedWell ↔ r.Covered := by
  apply imp_congr_right
  intro hoption
  cases h : r.premiumAtHand with
  | none =>
    rw [sizedWell_of_none hoption h]
    simp
  | some premium =>
    rw [sizedWell_of_some hoption h]
    simp

end Request

/-- A NIFTY call without a premium, under an index at 24000 with its stop at 23950. -/
def indexPoints : Request where
  contract := .master { instrumentType := .option, lotSize := 75 }
  availableCapital := 1000000
  entryPrice := some 24000
  stopLoss := some 23950

theorem indexPoints_misSized : (resolveSizingForContract indexPoints).allowed = true ∧
    (resolveSizingForContract indexPoints).lots = 5 ∧ ¬ indexPoints.SizedWell := by
  refine ⟨by decide +kernel, by decide +kernel, fun h => ?_⟩
  obtain ⟨premium, hsized⟩ := h (by decide +kernel) (by decide +kernel)
  have hbasis : (resolveSizingForContract indexPoints).sizingBasis = some .spot := by decide +kernel
  cases hbasis.symm.trans hsized.basis

end Droid.Signals.OptionSizing
