import Droid.Positions.Registry
import Droid.Lib.Tally
import Droid.Lib.Rounding
import Mathlib.Data.Finset.Card

/-! The portfolio Greeks ledger: its summary, and the ceilings that a proposed trade is simulated against. -/
namespace Droid.Positions
open Lib

namespace PortfolioGreekPosition
variable (p : PortfolioGreekPosition)

def totalDelta : ℚ := roundTo 2 (p.unitDelta * p.quantity)

def totalGamma : ℚ := roundTo 4 (p.unitGamma * p.quantity)

def totalThetaDay : ℚ := roundTo 2 (p.unitThetaDay * p.quantity)

def totalVega : ℚ := roundTo 2 (p.unitVega * p.quantity)

end PortfolioGreekPosition

structure PortfolioGreeksSummary where
  totalDelta : ℚ
  totalGamma : ℚ
  totalThetaDay : ℚ
  totalVega : ℚ
  grossDelta : ℚ
  grossGamma : ℚ
  grossThetaDay : ℚ
  grossVega : ℚ
  netExposureByUnderlying : Dict String ℚ
  grossExposureByUnderlying : Dict String ℚ
  positionsByHorizon : Dict String Int
  expiryConcentrations : Dict String ℚ
  totalOpenPositions : Nat

structure PortfolioRiskLimits where
  maxNetDeltaPerUnderlying : ℚ := 350
  maxPortfolioThetaDayRupees : ℚ := 15000
  maxExpiryConcentrationPct : ℚ := 70
  maxSameDirectionHorizons : Int := 2
  maxGrossDelta : ℚ := 700
  maxGrossGamma : ℚ := 2
  maxGrossVega : ℚ := 20000
  capitalInr : Option ℚ := none
  maxNetDeltaPer1Lakh : ℚ := 35

/-- The ceiling scales with the account, where its size is configured. -/
def PortfolioRiskLimits.effectiveDeltaCap (limits : PortfolioRiskLimits) : ℚ :=
  (limits.capitalInr.filter (0 < ·)).elim limits.maxNetDeltaPerUnderlying fun capital =>
    min limits.maxNetDeltaPerUnderlying (max 1 (capital / 100000 * limits.maxNetDeltaPer1Lakh))

structure PortfolioGreeksLedger where
  limits : PortfolioRiskLimits := { }
  positions : Dict String PortfolioGreekPosition := Dict.empty

/-- What a trade is denied for, without the figures of its message. -/
inductive GreekRejection where
  | expiryConcentrationBreach | crossHorizonLimitExceeded | portfolioDeltaBreach | portfolioGrossDeltaBreach
  | portfolioGrossGammaBreach | portfolioGrossVegaBreach | portfolioThetaBreach
  deriving DecidableEq, Repr

def GreekRejection.code : GreekRejection → String
  | .expiryConcentrationBreach => "EXPIRY_CONCENTRATION_BREACH"
  | .crossHorizonLimitExceeded => "CROSS_HORIZON_LIMIT_EXCEEDED"
  | .portfolioDeltaBreach => "PORTFOLIO_DELTA_BREACH"
  | .portfolioGrossDeltaBreach => "PORTFOLIO_GROSS_DELTA_BREACH"
  | .portfolioGrossGammaBreach => "PORTFOLIO_GROSS_GAMMA_BREACH"
  | .portfolioGrossVegaBreach => "PORTFOLIO_GROSS_VEGA_BREACH"
  | .portfolioThetaBreach => "PORTFOLIO_THETA_BREACH"

structure MarginalGreekCheckResult where
  rejection : Option GreekRejection
  marginalDelta : ℚ
  marginalGamma : ℚ
  marginalThetaDay : ℚ
  marginalVega : ℚ
  projectedTotalDelta : ℚ
  projectedTotalThetaDay : ℚ
  projectedGrossDelta : ℚ
  projectedGrossGamma : ℚ
  projectedGrossVega : ℚ
  projectedExpiryConcentrationPct : ℚ
  crossHorizonOverlapDetected : Bool
  warningNotes : List String

def MarginalGreekCheckResult.allowed (r : MarginalGreekCheckResult) : Bool := r.rejection.isNone

namespace PortfolioGreeksLedger
variable (ledger : PortfolioGreeksLedger)

def book : List PortfolioGreekPosition := ledger.positions.values

def addPosition (p : PortfolioGreekPosition) : PortfolioGreeksLedger :=
  { ledger with positions := ledger.positions.insert p.positionId p }

def removePosition (id : String) : PortfolioGreeksLedger :=
  { ledger with positions := ledger.positions.erase id }

/-- The sum of a Greek over the book, and that of its absolute values. -/
def net (greek : PortfolioGreekPosition → ℚ) : ℚ := (ledger.book.map greek).sum

def gross (greek : PortfolioGreekPosition → ℚ) : ℚ := (ledger.book.map fun p => |greek p|).sum

/-- The exposures by underlying, rounded at every position. -/
def exposureBy (greek : PortfolioGreekPosition → ℚ) : Dict String ℚ :=
  tally PortfolioGreekPosition.underlying 0 (fun sum p => roundTo 2 (sum + greek p)) ledger.book

def qtyByExpiry : Dict String Int :=
  tally PortfolioGreekPosition.expiryDate 0 (fun sum p => sum + p.quantity) ledger.book

def totalQty : Int := ledger.qtyByExpiry.values.sum

/-- A share of the whole in percent, to one decimal. -/
def sharePct (part whole : Int) : ℚ := roundTo 1 (part / whole * 100)

def getSummary : PortfolioGreeksSummary where
  totalDelta := roundTo 2 (ledger.net (·.totalDelta))
  totalGamma := roundTo 4 (ledger.net (·.totalGamma))
  totalThetaDay := roundTo 2 (ledger.net (·.totalThetaDay))
  totalVega := roundTo 2 (ledger.net (·.totalVega))
  grossDelta := roundTo 2 (ledger.gross (·.totalDelta))
  grossGamma := roundTo 4 (ledger.gross (·.totalGamma))
  grossThetaDay := roundTo 2 (ledger.gross (·.totalThetaDay))
  grossVega := roundTo 2 (ledger.gross (·.totalVega))
  netExposureByUnderlying := ledger.exposureBy (·.totalDelta)
  grossExposureByUnderlying := ledger.exposureBy fun p => |p.totalDelta|
  positionsByHorizon := tally PortfolioGreekPosition.horizon 0 (fun sum _ => sum + 1) ledger.book
  expiryConcentrations :=
    if 0 < ledger.totalQty then ledger.qtyByExpiry.mapValues fun _ qty => sharePct qty ledger.totalQty
    else Dict.empty
  totalOpenPositions := ledger.positions.size

def sameDirHorizons (underlying optionType : String) : List String :=
  (ledger.book.filter fun p => p.underlying = underlying ∧ p.optionType = optionType).map (·.horizon)

def netDeltaOf (underlying : String) : ℚ := ((ledger.exposureBy (·.totalDelta)).get? underlying).getD 0

/-- The candidate's expiry in percent of the book with the candidate. -/
def projectedExpiryPct (trade : PortfolioGreekPosition) : ℚ :=
  let total := ledger.totalQty + trade.quantity
  if 0 < total then
    sharePct ((ledger.qtyByExpiry.get? trade.expiryDate).getD 0 + trade.quantity) total
  else 100

/-- The first ceiling that the book would break with the trade. -/
def rejectionOf (trade : PortfolioGreekPosition) : Option GreekRejection :=
  let current := ledger.getSummary
  let horizons := ledger.sameDirHorizons trade.underlying trade.optionType
  if 0 < ledger.totalQty ∧ ledger.limits.maxExpiryConcentrationPct < ledger.projectedExpiryPct trade then
    some .expiryConcentrationBreach
  else if horizons ≠ [] ∧ ledger.limits.maxSameDirectionHorizons ≤ horizons.dedup.length then
    some .crossHorizonLimitExceeded
  else if ledger.limits.effectiveDeltaCap < |ledger.netDeltaOf trade.underlying + trade.totalDelta| then
    some .portfolioDeltaBreach
  else if ledger.limits.maxGrossDelta < roundTo 2 (current.grossDelta + |trade.totalDelta|) then
    some .portfolioGrossDeltaBreach
  else if ledger.limits.maxGrossGamma < roundTo 4 (current.grossGamma + |trade.totalGamma|) then
    some .portfolioGrossGammaBreach
  else if ledger.limits.maxGrossVega < roundTo 2 (current.grossVega + |trade.totalVega|) then
    some .portfolioGrossVegaBreach
  else if ledger.limits.maxPortfolioThetaDayRupees < |roundTo 2 (current.totalThetaDay + trade.totalThetaDay)| then
    some .portfolioThetaBreach
  else none

/-- `evaluate_marginal_trade`; the proposed trade is a position without an id of its own. -/
def evaluateMarginalTrade (trade : PortfolioGreekPosition) : MarginalGreekCheckResult :=
  let current := ledger.getSummary
  let rejection := ledger.rejectionOf trade
  let horizons := ledger.sameDirHorizons trade.underlying trade.optionType
  let overlap : Bool := horizons ≠ [] ∧ rejection ≠ some .expiryConcentrationBreach
  let active := ", ".intercalate horizons
  { rejection
    marginalDelta := trade.totalDelta
    marginalGamma := trade.totalGamma
    marginalThetaDay := trade.totalThetaDay
    marginalVega := trade.totalVega
    projectedTotalDelta := roundTo 2 (current.totalDelta + trade.totalDelta)
    projectedTotalThetaDay := roundTo 2 (current.totalThetaDay + trade.totalThetaDay)
    projectedGrossDelta := roundTo 2 (current.grossDelta + |trade.totalDelta|)
    projectedGrossGamma := roundTo 4 (current.grossGamma + |trade.totalGamma|)
    projectedGrossVega := roundTo 2 (current.grossVega + |trade.totalVega|)
    projectedExpiryConcentrationPct := ledger.projectedExpiryPct trade
    crossHorizonOverlapDetected := overlap
    warningNotes :=
      if overlap then
        [s!"Cross-horizon overlap: {trade.underlying} {trade.optionType} already active in {active}. Aggregating directional exposure."]
      else [] }

/-- The ceilings that hold of the summary for the expiry, underlying and option type of a trade. -/
structure WithinCeilings (before : PortfolioGreeksLedger) (trade : PortfolioGreekPosition) : Prop where
  netDelta : |ledger.netDeltaOf trade.underlying| ≤ ledger.limits.effectiveDeltaCap
  grossDelta : ledger.getSummary.grossDelta ≤ ledger.limits.maxGrossDelta
  grossGamma : ledger.getSummary.grossGamma ≤ ledger.limits.maxGrossGamma
  grossVega : ledger.getSummary.grossVega ≤ ledger.limits.maxGrossVega
  theta : |ledger.getSummary.totalThetaDay| ≤ ledger.limits.maxPortfolioThetaDayRupees
  expiry : before.book ≠ [] → ∀ pct ∈ ledger.getSummary.expiryConcentrations.get? trade.expiryDate,
    pct ≤ ledger.limits.maxExpiryConcentrationPct
  horizons : ((ledger.sameDirHorizons trade.underlying trade.optionType).dedup.length : Int) ≤
    ledger.limits.maxSameDirectionHorizons

/-- What the gate does not see to by itself: the share of the expiry in a book whose quantities do not sum up to
a positive number, and a limit that admits no horizon at all. -/
structure Checked (trade : PortfolioGreekPosition) : Prop where
  expiry : ledger.book = [] ∨ 0 < ledger.totalQty ∨ ledger.totalQty + trade.quantity ≤ 0 ∨
    ledger.projectedExpiryPct trade ≤ ledger.limits.maxExpiryConcentrationPct
  horizons : 1 ≤ ledger.limits.maxSameDirectionHorizons

/-! ### What an admitted trade has been checked for -/

/-- The ceilings as they are projected before the trade is added. -/
structure Admitted (trade : PortfolioGreekPosition) : Prop where
  expiry : 0 < ledger.totalQty → ledger.projectedExpiryPct trade ≤ ledger.limits.maxExpiryConcentrationPct
  horizons : ledger.sameDirHorizons trade.underlying trade.optionType ≠ [] →
    ((ledger.sameDirHorizons trade.underlying trade.optionType).dedup.length : Int) <
      ledger.limits.maxSameDirectionHorizons
  netDelta : |ledger.netDeltaOf trade.underlying + trade.totalDelta| ≤ ledger.limits.effectiveDeltaCap
  grossDelta : roundTo 2 (ledger.getSummary.grossDelta + |trade.totalDelta|) ≤ ledger.limits.maxGrossDelta
  grossGamma : roundTo 4 (ledger.getSummary.grossGamma + |trade.totalGamma|) ≤ ledger.limits.maxGrossGamma
  grossVega : roundTo 2 (ledger.getSummary.grossVega + |trade.totalVega|) ≤ ledger.limits.maxGrossVega
  theta : |roundTo 2 (ledger.getSummary.totalThetaDay + trade.totalThetaDay)| ≤
    ledger.limits.maxPortfolioThetaDayRupees

variable {ledger} {trade : PortfolioGreekPosition}

theorem admitted_of_allowed (h : (ledger.evaluateMarginalTrade trade).allowed = true) : ledger.Admitted trade := by
  have hnone : ledger.rejectionOf trade = none := Option.isNone_iff_eq_none.mp h
  rw [rejectionOf] at hnone
  split_ifs at hnone with hexpiry hhorizons hdelta hgrossDelta hgrossGamma hgrossVega htheta
  exact ⟨fun hqty => not_lt.mp fun hlt => hexpiry ⟨hqty, hlt⟩, fun hne => not_le.mp fun hle => hhorizons ⟨hne, hle⟩,
    not_lt.mp hdelta, not_lt.mp hgrossDelta, not_lt.mp hgrossGamma, not_lt.mp hgrossVega, not_lt.mp htheta⟩

/-! ### The book with one more position -/

theorem isDecimal_netDeltaOf (ledger : PortfolioGreeksLedger) (underlying : String) :
    IsDecimal 2 (ledger.netDeltaOf underlying) := by
  rw [netDeltaOf]
  cases hsum : (ledger.exposureBy (·.totalDelta)).get? underlying with
  | none => exact isDecimal_zero 2
  | some sum =>
    exact forall_get?_tally (P := IsDecimal 2) (isDecimal_zero 2) (fun _ _ _ => isDecimal_roundTo 2 _) ledger.book hsum

theorem totalQty_eq : ledger.totalQty = (ledger.book.map (·.quantity)).sum :=
  sum_tally id PortfolioGreekPosition.quantity rfl (fun _ _ => rfl) ledger.book

section Fresh
variable (hfresh : ledger.positions.get? trade.positionId = none)
include hfresh

theorem book_addPosition : (ledger.addPosition trade).book = ledger.book ++ [trade] := by
  rw [book, addPosition, Dict.values, Dict.entries_insert hfresh, List.map_append]
  rfl

theorem net_addPosition (greek : PortfolioGreekPosition → ℚ) :
    (ledger.addPosition trade).net greek = ledger.net greek + greek trade := by
  rw [net, book_addPosition hfresh, List.map_append, List.sum_append]
  exact congrArg _ (add_zero _)

/-- A sum of decimals is projected as it is summed later. -/
theorem net_projected {places : Nat} {greek : PortfolioGreekPosition → ℚ}
    (hgreek : ∀ p, IsDecimal places (greek p)) : roundTo places ((ledger.addPosition trade).net greek) =
      roundTo places (roundTo places (ledger.net greek) + greek trade) := by
  have hsum : IsDecimal places (ledger.net greek) := by
    refine isDecimal_sum fun x hx => ?_
    obtain ⟨p, -, rfl⟩ := List.mem_map.mp hx
    exact hgreek p
  rw [net_addPosition hfresh, hsum.roundTo_eq]

/-- The gross sum is the net sum of absolute values. -/
theorem gross_projected {places : Nat} {greek : PortfolioGreekPosition → ℚ}
    (hgreek : ∀ p, IsDecimal places (greek p)) : roundTo places ((ledger.addPosition trade).gross greek) =
      roundTo places (roundTo places (ledger.gross greek) + |greek trade|) := by
  have habs : ∀ p, IsDecimal places |greek p| := fun p => (hgreek p).abs
  exact net_projected hfresh habs

theorem netDeltaOf_addPosition : (ledger.addPosition trade).netDeltaOf trade.underlying =
    ledger.netDeltaOf trade.underlying + trade.totalDelta := by
  have hdecimal := (isDecimal_netDeltaOf ledger trade.underlying).add
    (isDecimal_roundTo 2 (trade.unitDelta * trade.quantity))
  rw [netDeltaOf, exposureBy, book_addPosition hfresh, tally_append_singleton, Dict.get?_insert, if_pos rfl]
  exact hdecimal.roundTo_eq

theorem totalQty_addPosition : (ledger.addPosition trade).totalQty = ledger.totalQty + trade.quantity := by
  rw [totalQty_eq, totalQty_eq, book_addPosition hfresh, List.map_append, List.sum_append]
  exact congrArg _ (add_zero _)

theorem expiryConcentration_addPosition :
    (ledger.addPosition trade).getSummary.expiryConcentrations.get? trade.expiryDate =
      if 0 < ledger.totalQty + trade.quantity then some (ledger.projectedExpiryPct trade) else none := by
  simp only [getSummary, totalQty_addPosition hfresh]
  split
  · rename_i hpos
    rw [Dict.get?_mapValues, qtyByExpiry, book_addPosition hfresh, tally_append_singleton, Dict.get?_insert,
      if_pos rfl, projectedExpiryPct]
    simp only [if_pos hpos]
    rfl
  · rfl

theorem sameDirHorizons_addPosition :
    (ledger.addPosition trade).sameDirHorizons trade.underlying trade.optionType =
      ledger.sameDirHorizons trade.underlying trade.optionType ++ [trade.horizon] := by
  rw [sameDirHorizons, book_addPosition hfresh, List.filter_append, List.map_append, sameDirHorizons]
  simp

end Fresh

theorem dedup_length_append_le (horizons : List String) (horizon : String) :
    (horizons ++ [horizon]).dedup.length ≤ horizons.dedup.length + 1 := by
  rw [← List.card_toFinset, ← List.card_toFinset, List.toFinset_append]
  exact (Finset.card_union_le _ _).trans (Nat.add_le_add_left (by simp) _)

theorem horizons_ceiling_iff {horizons : List String} {horizon : String} {limit : Int}
    (h : horizons ≠ [] → (horizons.dedup.length : Int) < limit) :
    ((horizons ++ [horizon]).dedup.length : Int) ≤ limit ↔ 1 ≤ limit := by
  constructor
  · intro hle
    have hpos : 0 < (horizons ++ [horizon]).dedup.length :=
      List.length_pos_of_mem (List.mem_dedup.mpr (List.mem_append_right horizons List.mem_cons_self))
    omega
  · intro hone
    by_cases hnil : horizons = []
    · subst hnil
      exact hone
    · have hle := dedup_length_append_le horizons horizon
      have hlt := h hnil
      omega

/-- An admitted trade, added under a fresh id, leaves every ceiling in place exactly when the gate looked at the
expiry or need not have, and the limit on horizons admits one. -/
theorem admitted_withinCeilings_iff (hallowed : (ledger.evaluateMarginalTrade trade).allowed = true)
    (hfresh : ledger.positions.get? trade.positionId = none) :
    (ledger.addPosition trade).WithinCeilings ledger trade ↔ ledger.Checked trade := by
  have hadmitted := admitted_of_allowed hallowed
  have hhorizons : (((ledger.addPosition trade).sameDirHorizons trade.underlying trade.optionType).dedup.length : Int) ≤
      ledger.limits.maxSameDirectionHorizons ↔ 1 ≤ ledger.limits.maxSameDirectionHorizons := by
    rw [sameDirHorizons_addPosition hfresh]
    exact horizons_ceiling_iff hadmitted.horizons
  have hexpiry := expiryConcentration_addPosition hfresh
  constructor
  · intro h
    refine ⟨?_, hhorizons.mp h.horizons⟩
    by_contra hnone
    obtain ⟨hbook, hnone⟩ := not_or.mp hnone
    obtain ⟨-, hnone⟩ := not_or.mp hnone
    obtain ⟨htotal, hpct⟩ := not_or.mp hnone
    rw [if_pos (not_le.mp htotal)] at hexpiry
    exact hpct (h.expiry hbook _ hexpiry)
  · intro h
    refine ⟨?_, ?_, ?_, ?_, ?_, fun hbook pct hpct => ?_, hhorizons.mpr h.horizons⟩
    · rw [netDeltaOf_addPosition hfresh]
      exact hadmitted.netDelta
    · exact (gross_projected hfresh fun _ => isDecimal_roundTo 2 _).trans_le hadmitted.grossDelta
    · exact (gross_projected hfresh fun _ => isDecimal_roundTo 4 _).trans_le hadmitted.grossGamma
    · exact (gross_projected hfresh fun _ => isDecimal_roundTo 2 _).trans_le hadmitted.grossVega
    · exact (congrArg abs (net_projected hfresh fun _ => isDecimal_roundTo 2 _)).trans_le hadmitted.theta
    · rw [hexpiry] at hpct
      split at hpct
      · rename_i hpos
        rw [← Option.some.inj hpct]
        rcases h.expiry with hnil | hqty | hle | hwithin
        · exact absurd hnil hbook
        · exact hadmitted.expiry hqty
        · exact absurd hpos (not_lt.mpr hle)
        · exact hwithin
      · cases hpct

/-- A leg of a number of units at half a delta. -/
def leg (positionId expiryDate : String) (quantity : Int) : PortfolioGreekPosition where
  positionId
  underlying := "NIFTY"
  horizon := "INTRADAY"
  optionType := "CE"
  strike := 25000
  expiryDate
  quantity
  unitDelta := 1 / 2
  unitGamma := 5 / 10000
  unitThetaDay := -10
  unitVega := 10

/-- A first position. -/
theorem admitted_withinCeilings_iff_first :
    (addPosition { } (leg "p1" "2026-10-01" 75)).WithinCeilings { } (leg "p1" "2026-10-01" 75) :=
  (admitted_withinCeilings_iff (by decide +kernel) rfl).mpr ⟨Or.inl rfl, by decide⟩

/-- A book that is short 75 of one expiry is not looked at for another: 150 of that are then twice the book. -/
theorem short_book_expiry_breached :
    ¬ ∀ (ledger : PortfolioGreeksLedger) (trade : PortfolioGreekPosition),
      (ledger.evaluateMarginalTrade trade).allowed = true → ledger.positions.get? trade.positionId = none →
        (ledger.addPosition trade).WithinCeilings ledger trade := by
  intro hall
  let short := addPosition { } (leg "p1" "2026-10-01" (-75))
  have hwithin := hall short (leg "p2" "2026-10-08" 150) (by decide +kernel) (by decide +kernel)
  have hshown : (short.addPosition (leg "p2" "2026-10-08" 150)).getSummary.expiryConcentrations.get? "2026-10-08" =
      some 200 := by decide +kernel
  have hpct := hwithin.expiry (by decide +kernel) 200 hshown
  revert hpct
  decide +kernel

end PortfolioGreeksLedger

end Droid.Positions
