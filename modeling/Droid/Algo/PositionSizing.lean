import Droid.Lib.Lots
import Mathlib.Algebra.Order.Ring.Rat
import Mathlib.Order.Bounds.Defs
import Mathlib.Tactic.Linarith

/-! Position sizing: the risk budget's quantity, cut down cap after cap in lots. -/
namespace Droid.Algo
open Lib

structure SizingInputs where
  algoCapitalAvailable : ℚ
  riskBudget : ℚ
  entryPrice : ℚ
  stopPrice : Option ℚ
  lotSize : Int := 1
  contractMultiplier : ℚ := 1
  maxCapitalPerTrade : Option ℚ := none
  maxPositionSize : Option Int := none
  maxNotional : Option ℚ := none
  marginPerUnit : Option ℚ := none
  availableMargin : Option ℚ := none
  portfolioCapacity : Option ℚ := none
  deriving DecidableEq, Repr

structure SizingResult where
  quantity : Int
  notional : ℚ
  riskPerUnit : Option ℚ
  reason : String
  cappedBy : Option String := none
  deriving DecidableEq, Repr

/-- The caps after the risk budget. -/
inductive Cap where
  | maxCapitalPerTrade | availableCapital | availableMargin | maxPositionSize | maxNotional | portfolioCapacity
  deriving DecidableEq, Repr

def Cap.label : Cap → String
  | .maxCapitalPerTrade => "MAX_CAPITAL_PER_TRADE"
  | .availableCapital => "AVAILABLE_CAPITAL"
  | .availableMargin => "AVAILABLE_MARGIN"
  | .maxPositionSize => "MAX_POSITION_SIZE"
  | .maxNotional => "MAX_NOTIONAL"
  | .portfolioCapacity => "PORTFOLIO_CAPACITY"

/-- A quantity on its way through the caps, with the last one that cut it. -/
structure CappedQuantity where
  quantity : Int
  capped : Option String := none
  deriving DecidableEq, Repr

namespace SizingInputs
variable (inp : SizingInputs)

def unitNotional : ℚ := inp.entryPrice * inp.contractMultiplier

/-- The units that a limit in currency pays for; without a positive entry price there is no such cap. -/
def unitsWithin (limit : ℚ) : Option Int :=
  if 0 < inp.entryPrice then some ⌊limit / inp.unitNotional⌋ else none

/-- The quantity of a cap before it is aligned; none where the cap is not set. -/
def limit : Cap → Option Int
  | .maxCapitalPerTrade => inp.maxCapitalPerTrade.bind inp.unitsWithin
  | .availableCapital => inp.unitsWithin inp.algoCapitalAvailable
  | .availableMargin =>
    match inp.marginPerUnit, inp.availableMargin with
    | some perUnit, some available => if 0 < perUnit then some ⌊available / perUnit⌋ else none
    | _, _ => none
  | .maxPositionSize => inp.maxPositionSize
  | .maxNotional => inp.maxNotional.bind inp.unitsWithin
  | .portfolioCapacity => inp.portfolioCapacity.bind inp.unitsWithin

/-- One cap; the position size alone is compared before it is aligned. -/
def capBy (s : CappedQuantity) (cap : Cap) : CappedQuantity :=
  match inp.limit cap with
  | none => s
  | some limit =>
    let compared := if cap = .maxPositionSize then limit else alignDown inp.lotSize limit
    if compared < s.quantity then { quantity := alignDown inp.lotSize limit, capped := some cap.label } else s

def resultOf (riskPerUnit : Option ℚ) (s : CappedQuantity) : SizingResult :=
  let quantity := if s.quantity < 0 then 0 else s.quantity
  let belowLot : Bool := 0 < quantity ∧ quantity < inp.lotSize
  let quantity := if belowLot then 0 else quantity
  let capped := if belowLot then some "LOT_SIZE_MINIMUM" else s.capped
  let reason := if 0 < quantity then "SIZED_OK" else "SIZED_ZERO"
  { quantity, notional := quantity * inp.entryPrice * inp.contractMultiplier, riskPerUnit
    reason := capped.elim reason ("CAPPED_BY_" ++ ·), cappedBy := capped }

/-- The caps of an order, applied to the quantity that the risk budget allows. -/
def capped (order : List Cap) (riskPerUnit : Option ℚ) (maxQtyRisk : Int) : SizingResult :=
  inp.resultOf riskPerUnit (order.foldl inp.capBy { quantity := alignDown inp.lotSize maxQtyRisk })

/-- A stop that the risk can be measured to. -/
def usableStop : Option ℚ := inp.stopPrice.filter fun stop => 0 < stop ∧ inp.entryPrice ≠ stop

/-- `size_position` with its caps in an order; none where the division by a multiplier of zero raises. -/
def sizeInOrder (order : List Cap) : Option SizingResult :=
  if inp.riskBudget ≤ 0 then
    some { quantity := 0, notional := 0, riskPerUnit := none, reason := "ZERO_RISK_BUDGET"
           cappedBy := some "RISK_BUDGET" }
  else match inp.usableStop with
    | some stop =>
      let riskPerUnit := |inp.entryPrice - stop| * inp.contractMultiplier
      if riskPerUnit ≤ 0 then
        some { quantity := 0, notional := 0, riskPerUnit := some riskPerUnit, reason := "ZERO_RISK_PER_UNIT"
               cappedBy := some "RISK_PER_UNIT" }
      else some (inp.capped order (some riskPerUnit) ⌊inp.riskBudget / riskPerUnit⌋)
    | none =>
      if inp.entryPrice ≤ 0 then some (inp.capped order none 0)
      else if inp.contractMultiplier = 0 then none
      else some (inp.capped order none ⌊inp.riskBudget / inp.unitNotional⌋)

def capOrder : List Cap :=
  [.maxCapitalPerTrade, .availableCapital, .availableMargin, .maxPositionSize, .maxNotional, .portfolioCapacity]

def sizePosition : Option SizingResult := inp.sizeInOrder capOrder

/-! ### What a quantity must fit -/

/-- The risk of one unit: its distance to a usable stop, or what it costs. -/
def unitRisk : ℚ :=
  match inp.usableStop with
  | some stop => |inp.entryPrice - stop| * inp.contractMultiplier
  | none => inp.entryPrice * inp.contractMultiplier

def FitsCap (q : Int) : Cap → Prop
  | .maxCapitalPerTrade => ∀ cap ∈ inp.maxCapitalPerTrade, q * inp.entryPrice * inp.contractMultiplier ≤ cap
  | .availableCapital => q * inp.entryPrice * inp.contractMultiplier ≤ inp.algoCapitalAvailable
  | .availableMargin =>
    ∀ perUnit ∈ inp.marginPerUnit, ∀ available ∈ inp.availableMargin, 0 < perUnit → q * perUnit ≤ available
  | .maxPositionSize => ∀ size ∈ inp.maxPositionSize, q ≤ size
  | .maxNotional => ∀ cap ∈ inp.maxNotional, q * inp.entryPrice * inp.contractMultiplier ≤ cap
  | .portfolioCapacity => ∀ cap ∈ inp.portfolioCapacity, q * inp.entryPrice * inp.contractMultiplier ≤ cap

structure Fits (q : Int) : Prop where
  risk : q * inp.unitRisk ≤ inp.riskBudget
  caps : ∀ cap, inp.FitsCap q cap

/-- An optional limit that is at most another; without one there is no limit. -/
def LimitLe {α : Type} [LE α] (a b : Option α) : Prop := ∀ y ∈ b, ∃ x ∈ a, x ≤ y

/-- The same trade with every limit at least as high. -/
structure LimitsLe (inp looser : SizingInputs) : Prop where
  entryPrice : looser.entryPrice = inp.entryPrice
  stopPrice : looser.stopPrice = inp.stopPrice
  lotSize : looser.lotSize = inp.lotSize
  contractMultiplier : looser.contractMultiplier = inp.contractMultiplier
  marginPerUnit : looser.marginPerUnit = inp.marginPerUnit
  riskBudget : inp.riskBudget ≤ looser.riskBudget
  algoCapitalAvailable : inp.algoCapitalAvailable ≤ looser.algoCapitalAvailable
  maxCapitalPerTrade : LimitLe inp.maxCapitalPerTrade looser.maxCapitalPerTrade
  maxPositionSize : LimitLe inp.maxPositionSize looser.maxPositionSize
  maxNotional : LimitLe inp.maxNotional looser.maxNotional
  availableMargin : LimitLe inp.availableMargin looser.availableMargin
  portfolioCapacity : LimitLe inp.portfolioCapacity looser.portfolioCapacity

/-- A positive price, multiplier and lot. -/
structure Sizable : Prop where
  entryPrice : 0 < inp.entryPrice
  contractMultiplier : 0 < inp.contractMultiplier
  lotSize : 0 < inp.lotSize

variable {inp} {order : List Cap} {q : Int}

theorem Sizable.unitNotional_pos (h : inp.Sizable) : 0 < inp.unitNotional :=
  mul_pos h.entryPrice h.contractMultiplier

theorem Sizable.unitRisk_pos (h : inp.Sizable) : 0 < inp.unitRisk := by
  rw [unitRisk]
  split
  · rename_i stop hstop
    have hne : inp.entryPrice ≠ stop := by
      have husable := (Option.filter_eq_some_iff.mp hstop).2
      simp only [decide_eq_true_eq] at husable
      exact husable.2
    exact mul_pos (abs_pos.mpr (sub_ne_zero.mpr hne)) h.contractMultiplier
  · exact h.unitNotional_pos

/-- A limit in currency, as a bound on the quantity. -/
theorem Sizable.le_unitsWithin_iff (h : inp.Sizable) (cap : ℚ) :
    (∀ limit ∈ inp.unitsWithin cap, q ≤ limit) ↔ q * inp.entryPrice * inp.contractMultiplier ≤ cap := by
  rw [unitsWithin, if_pos h.entryPrice]
  simp only [Option.mem_some_iff, forall_eq']
  rw [le_floor_div_iff h.unitNotional_pos, unitNotional, mul_assoc]

theorem Sizable.le_bind_unitsWithin_iff (h : inp.Sizable) (cap : Option ℚ) :
    (∀ limit ∈ cap.bind inp.unitsWithin, q ≤ limit) ↔
      ∀ c ∈ cap, q * inp.entryPrice * inp.contractMultiplier ≤ c := by
  cases cap with
  | none => simp
  | some c =>
    simp only [Option.bind_some, Option.mem_some_iff, forall_eq']
    exact h.le_unitsWithin_iff c

theorem Sizable.fitsCap_iff (h : inp.Sizable) (cap : Cap) :
    inp.FitsCap q cap ↔ ∀ limit ∈ inp.limit cap, q ≤ limit := by
  cases cap with
  | maxCapitalPerTrade => exact (h.le_bind_unitsWithin_iff _).symm
  | availableCapital => exact (h.le_unitsWithin_iff _).symm
  | availableMargin =>
    rw [FitsCap, limit]
    cases inp.marginPerUnit with
    | none => simp
    | some perUnit =>
      cases inp.availableMargin with
      | none => simp
      | some available =>
        simp only [Option.mem_some_iff, forall_eq']
        by_cases hpos : 0 < perUnit
        · simp [hpos, le_floor_div_iff]
        · simp [hpos]
  | maxPositionSize => rfl
  | maxNotional => exact (h.le_bind_unitsWithin_iff _).symm
  | portfolioCapacity => exact (h.le_bind_unitsWithin_iff _).symm

/-- One cap cuts the multiples of the lot down to those that keep it. -/
theorem Sizable.le_capBy_iff (h : inp.Sizable) (hq : inp.lotSize ∣ q) (s : CappedQuantity) (cap : Cap) :
    q ≤ (inp.capBy s cap).quantity ↔ q ≤ s.quantity ∧ inp.FitsCap q cap := by
  rw [h.fitsCap_iff, capBy]
  cases inp.limit cap with
  | none => simp
  | some limit =>
    have halign : q ≤ alignDown inp.lotSize limit ↔ q ≤ limit := le_alignDown_iff h.lotSize hq
    have hdown : alignDown inp.lotSize limit ≤ limit :=
      (le_alignDown_iff h.lotSize (dvd_alignDown h.lotSize)).mp le_rfl
    simp only [Option.mem_some_iff, forall_eq']
    by_cases hcut : (if cap = .maxPositionSize then limit else alignDown inp.lotSize limit) < s.quantity
    · rw [if_pos hcut, halign]
      -- both comparisons put the aligned limit below the quantity
      have hbelow : alignDown inp.lotSize limit < s.quantity := by
        split at hcut
        · exact hdown.trans_lt hcut
        · exact hcut
      exact ⟨fun hle => ⟨(halign.mpr hle).trans hbelow.le, hle⟩, And.right⟩
    · rw [if_neg hcut]
      have hwithin : s.quantity ≤ limit := by
        split at hcut
        · exact not_lt.mp hcut
        · exact (not_lt.mp hcut).trans hdown
      exact ⟨fun hle => ⟨hle, hle.trans hwithin⟩, And.left⟩

theorem Sizable.dvd_capBy (h : inp.Sizable) {s : CappedQuantity} (hs : inp.lotSize ∣ s.quantity) (cap : Cap) :
    inp.lotSize ∣ (inp.capBy s cap).quantity := by
  rw [capBy]
  cases inp.limit cap with
  | none => exact hs
  | some limit =>
    dsimp only
    by_cases hcut : (if cap = .maxPositionSize then limit else alignDown inp.lotSize limit) < s.quantity
    · rw [if_pos hcut]
      exact dvd_alignDown h.lotSize
    · rw [if_neg hcut]
      exact hs

theorem Sizable.dvd_foldl_capBy (h : inp.Sizable) {s : CappedQuantity} (hs : inp.lotSize ∣ s.quantity)
    (order : List Cap) : inp.lotSize ∣ (order.foldl inp.capBy s).quantity := by
  induction order generalizing s with
  | nil => exact hs
  | cons cap order ih => exact ih (h.dvd_capBy hs cap)

/-- A quantity in lots is never below one lot, so only its sign is looked at. -/
theorem quantity_resultOf {s : CappedQuantity} (hs : inp.lotSize ∣ s.quantity) (riskPerUnit : Option ℚ) :
    (inp.resultOf riskPerUnit s).quantity = max 0 s.quantity := by
  have hlot : 0 < s.quantity → inp.lotSize ≤ s.quantity := fun hpos => Int.le_of_dvd hpos hs
  simp only [resultOf, decide_eq_true_eq]
  split_ifs <;> omega

/-- What the order leaves: a multiple of the lot, with just the fitting positive multiples below it. -/
theorem Sizable.capped_spec (h : inp.Sizable) (hall : ∀ cap, cap ∈ order) (riskPerUnit : Option ℚ) (maxQtyRisk : Int) :
    0 ≤ (inp.capped order riskPerUnit maxQtyRisk).quantity ∧
    inp.lotSize ∣ (inp.capped order riskPerUnit maxQtyRisk).quantity ∧
    ∀ q, 0 < q → inp.lotSize ∣ q →
      (q ≤ (inp.capped order riskPerUnit maxQtyRisk).quantity ↔ q ≤ maxQtyRisk ∧ ∀ cap, inp.FitsCap q cap) := by
  have hdvd := h.dvd_foldl_capBy (s := { quantity := alignDown inp.lotSize maxQtyRisk })
    (dvd_alignDown h.lotSize) order
  rw [capped, quantity_resultOf hdvd]
  refine ⟨le_max_left _ _, ?_, fun q hpos hq => ?_⟩
  · rcases max_choice 0 (order.foldl inp.capBy { quantity := alignDown inp.lotSize maxQtyRisk }).quantity with hm | hm
    · rw [hm]
      exact dvd_zero _
    · rw [hm]
      exact hdvd
  · rw [le_max_iff, or_iff_right (not_le.mpr hpos),
      le_foldl_iff CappedQuantity.quantity inp.capBy (fun cap q => inp.FitsCap q cap) (h.le_capBy_iff hq),
      le_alignDown_iff h.lotSize hq]
    simp [hall]

theorem Sizable.sizeInOrder_spec (h : inp.Sizable) (hall : ∀ cap, cap ∈ order) :
    ∃ r, inp.sizeInOrder order = some r ∧ 0 ≤ r.quantity ∧ inp.lotSize ∣ r.quantity ∧
      ∀ q, 0 < q → inp.lotSize ∣ q → (q ≤ r.quantity ↔ inp.Fits q) := by
  have hunit := h.unitRisk_pos
  have hrisk : ∀ q : Int, q ≤ ⌊inp.riskBudget / inp.unitRisk⌋ ↔ q * inp.unitRisk ≤ inp.riskBudget :=
    fun q => le_floor_div_iff hunit
  have hfits : ∀ riskPerUnit, ∀ q, 0 < q → inp.lotSize ∣ q →
      (q ≤ (inp.capped order riskPerUnit ⌊inp.riskBudget / inp.unitRisk⌋).quantity ↔ inp.Fits q) := by
    intro riskPerUnit q hpos hq
    rw [(h.capped_spec hall riskPerUnit _).2.2 q hpos hq, hrisk]
    exact ⟨fun hq => ⟨hq.1, hq.2⟩, fun hq => ⟨hq.risk, hq.caps⟩⟩
  have hcapped : ∀ riskPerUnit, ∃ r, some (inp.capped order riskPerUnit ⌊inp.riskBudget / inp.unitRisk⌋) = some r ∧
      0 ≤ r.quantity ∧ inp.lotSize ∣ r.quantity ∧ ∀ q, 0 < q → inp.lotSize ∣ q → (q ≤ r.quantity ↔ inp.Fits q) :=
    fun riskPerUnit => ⟨_, rfl, (h.capped_spec hall riskPerUnit _).1, (h.capped_spec hall riskPerUnit _).2.1,
      hfits riskPerUnit⟩
  rw [sizeInOrder]
  split
  · -- no positive quantity fits a budget that is not positive
    rename_i hbudget
    refine ⟨_, rfl, le_rfl, dvd_zero _, fun q hpos _ => ⟨fun hle => absurd hpos (not_lt.mpr hle), fun hq => ?_⟩⟩
    have hcost : 0 < q * inp.unitRisk := mul_pos (Int.cast_pos.mpr hpos) hunit
    exact absurd (hcost.trans_le hq.risk) (not_lt.mpr hbudget)
  · cases hstop : inp.usableStop with
    | some stop =>
      have hrpu : inp.unitRisk = |inp.entryPrice - stop| * inp.contractMultiplier := by rw [unitRisk, hstop]
      simp only [← hrpu, if_neg (not_le.mpr hunit)]
      exact hcapped _
    | none =>
      have hrpu : inp.unitRisk = inp.unitNotional := by
        rw [unitRisk, hstop]
        rfl
      simp only [if_neg (not_le.mpr h.entryPrice), if_neg h.contractMultiplier.ne', ← hrpu]
      exact hcapped _

theorem Sizable.fits_of_le (h : inp.Sizable) {p : Int} (hle : p ≤ q) (hq : inp.Fits q) : inp.Fits p := by
  have hcast : (p : ℚ) ≤ q := Int.cast_le.mpr hle
  refine ⟨(mul_le_mul_of_nonneg_right hcast h.unitRisk_pos.le).trans hq.risk, fun cap => ?_⟩
  rw [h.fitsCap_iff]
  exact fun limit hlimit => hle.trans ((h.fitsCap_iff cap).mp (hq.caps cap) limit hlimit)

theorem LimitLe.trans_le {α : Type} [Preorder α] {a b : Option α} (h : LimitLe a b) {c : α} (hc : ∀ x ∈ a, c ≤ x) :
    ∀ y ∈ b, c ≤ y := by
  intro y hy
  obtain ⟨x, hx, hxy⟩ := h y hy
  exact (hc x hx).trans hxy

theorem LimitsLe.fits {looser : SizingInputs} (h : inp.LimitsLe looser) (hq : inp.Fits q) : looser.Fits q := by
  have hrisk : looser.unitRisk = inp.unitRisk := by
    simp only [unitRisk, usableStop, h.entryPrice, h.stopPrice, h.contractMultiplier]
  refine ⟨?_, fun cap => ?_⟩
  · rw [hrisk]
    exact hq.risk.trans h.riskBudget
  · have hcap := hq.caps cap
    cases cap <;> simp only [FitsCap, h.entryPrice, h.contractMultiplier, h.marginPerUnit] at hcap ⊢
    case maxCapitalPerTrade => exact h.maxCapitalPerTrade.trans_le hcap
    case availableCapital => exact hcap.trans h.algoCapitalAvailable
    case availableMargin =>
      intro perUnit hperUnit available havailable hpos
      refine h.availableMargin.trans_le (fun x hx => ?_) available havailable
      exact hcap perUnit hperUnit x hx hpos
    case maxPositionSize => exact h.maxPositionSize.trans_le hcap
    case maxNotional => exact h.maxNotional.trans_le hcap
    case portfolioCapacity => exact h.portfolioCapacity.trans_le hcap

theorem LimitsLe.sizable {looser : SizingInputs} (h : inp.LimitsLe looser) (hinp : inp.Sizable) : looser.Sizable :=
  ⟨h.entryPrice ▸ hinp.entryPrice, h.contractMultiplier ▸ hinp.contractMultiplier, h.lotSize ▸ hinp.lotSize⟩

theorem mem_capOrder (cap : Cap) : cap ∈ capOrder := by
  cases cap <;> decide

/-- The sizing is the greatest fitting multiple of the lot, or zero where not even that fits, never smaller for looser
limits, and the same in every order of the caps. -/
theorem sizePosition_maximal (h : inp.Sizable) :
    ∃ r, inp.sizePosition = some r ∧
      (inp.Fits 0 → IsGreatest {q | 0 ≤ q ∧ inp.lotSize ∣ q ∧ inp.Fits q} r.quantity) ∧
      (¬ inp.Fits 0 → r.quantity = 0) ∧
      (∀ looser, inp.LimitsLe looser → ∃ r', looser.sizePosition = some r' ∧ r.quantity ≤ r'.quantity) ∧
      ∀ order, order.Perm capOrder → ∃ r', inp.sizeInOrder order = some r' ∧ r'.quantity = r.quantity := by
  obtain ⟨r, hr, hnonneg, hdvd, hbelow⟩ := h.sizeInOrder_spec mem_capOrder
  have hfits : 0 < r.quantity → inp.Fits r.quantity := fun hpos => (hbelow _ hpos hdvd).mp le_rfl
  refine ⟨r, hr, fun hzero => ⟨⟨hnonneg, hdvd, ?_⟩, ?_⟩, fun hzero => ?_, fun looser hlooser => ?_, fun order hperm => ?_⟩
  · rcases hnonneg.eq_or_lt with heq | hpos
    · exact heq ▸ hzero
    · exact hfits hpos
  · rintro q ⟨hq, hlot, hfit⟩
    rcases hq.eq_or_lt with rfl | hpos
    · exact hnonneg
    · exact (hbelow q hpos hlot).mpr hfit
  · by_contra hne
    exact hzero (h.fits_of_le hnonneg (hfits (hnonneg.lt_of_ne' hne)))
  · obtain ⟨r', hr', hnonneg', -, hbelow'⟩ := (hlooser.sizable h).sizeInOrder_spec mem_capOrder
    refine ⟨r', hr', ?_⟩
    rcases hnonneg.eq_or_lt with heq | hpos
    · exact heq ▸ hnonneg'
    · exact (hbelow' _ hpos (hlooser.lotSize ▸ hdvd)).mpr (hlooser.fits (hfits hpos))
  · have hall : ∀ cap, cap ∈ order := fun cap => hperm.mem_iff.mpr (mem_capOrder cap)
    obtain ⟨r', hr', hnonneg', hdvd', hbelow'⟩ := h.sizeInOrder_spec hall
    exact ⟨r', hr', eq_of_le_iff hnonneg' hnonneg hdvd' hdvd fun q hpos hlot =>
      (hbelow' q hpos hlot).trans (hbelow q hpos hlot).symm⟩

/-- At a risk of 10 a unit, in a capital that pays for more. -/
theorem sizePosition_maximal_lots :
    ∃ r, sizePosition { algoCapitalAvailable := 100000, riskBudget := 2000, entryPrice := 100
                        stopPrice := some 90, lotSize := 75 } = some r ∧
      IsGreatest {q | 0 ≤ q ∧ 75 ∣ q ∧ Fits { algoCapitalAvailable := 100000, riskBudget := 2000, entryPrice := 100
                                              stopPrice := some 90, lotSize := 75 } q} r.quantity := by
  have hsizable : Sizable { algoCapitalAvailable := 100000, riskBudget := 2000, entryPrice := 100
                            stopPrice := some 90, lotSize := 75 } :=
    ⟨by decide +kernel, by decide +kernel, by decide⟩
  obtain ⟨r, hr, hgreatest, -⟩ := sizePosition_maximal hsizable
  exact ⟨r, hr, hgreatest ⟨by simp, fun cap => by cases cap <;> simp [FitsCap]⟩⟩

/-- With a capital below zero nothing fits, and the quantity is zero. -/
theorem negative_capital_unfit :
    ¬ ∀ inp : SizingInputs, inp.Sizable → ∃ r, inp.sizePosition = some r ∧
      IsGreatest {q | 0 ≤ q ∧ inp.lotSize ∣ q ∧ inp.Fits q} r.quantity := by
  intro h
  obtain ⟨r, -, hgreatest⟩ := h
    { algoCapitalAvailable := -1, riskBudget := 2000, entryPrice := 100, stopPrice := some 90, lotSize := 75 }
    ⟨by decide +kernel, by decide +kernel, by decide⟩
  have hcost := hgreatest.1.2.2.caps .availableCapital
  have hnonneg : (0 : ℚ) ≤ r.quantity := Int.cast_nonneg hgreatest.1.1
  simp only [FitsCap] at hcost
  linarith

end SizingInputs

end Droid.Algo
