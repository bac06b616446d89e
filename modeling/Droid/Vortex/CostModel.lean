import Droid.Lib.Rounding

/-! Transaction costs and slippage of an index derivative trade. -/
namespace Droid.Vortex
open Lib

structure RoundTripFriction where
  brokerage : ℚ
  stt : ℚ
  exchangeCharges : ℚ
  sebiCharges : ℚ
  stampDuty : ℚ
  gst : ℚ
  totalStatutoryTaxes : ℚ
  entrySlippagePoints : ℚ
  exitSlippagePoints : ℚ
  totalSlippageCost : ℚ
  totalFriction : ℚ

structure TransactionCostModel where
  brokeragePerOrder : ℚ := 20
  costStressMultiplier : ℚ := 1
  slippageStressMultiplier : ℚ := 1
  baseSlippageTicks : Int := 1
  tickSize : ℚ := 5 / 100

namespace TransactionCostModel
variable (costs : TransactionCostModel)

/-- The premiums an option is bought and sold at, taken from the spot when that was passed. -/
def premiums (entryPrice exitPrice : ℚ) : ℚ × ℚ :=
  if 2000 < entryPrice then
    let pBuy := max 20 (entryPrice * (5 / 1000))
    (pBuy, max (1 / 2) (pBuy + (exitPrice - entryPrice) * (1 / 2)))
  else (max (1 / 2) entryPrice, max (1 / 2) exitPrice)

/-- `calculate_round_trip` of an option, without a premium of its own. -/
def calculateRoundTrip (entryPrice exitPrice : ℚ) (quantity : Int) (atr1m : ℚ) : RoundTripFriction :=
  let (pBuy, pSell) := premiums entryPrice exitPrice
  let turnoverBuy := pBuy * quantity
  let turnoverSell := pSell * quantity
  let stt := turnoverSell * (1 / 1000) * costs.costStressMultiplier
  let optAtr := if 2000 < entryPrice then atr1m * (1 / 2) else atr1m
  let baseSlip := costs.baseSlippageTicks * costs.tickSize + optAtr * (4 / 100)
  let brokerage := costs.brokeragePerOrder * 2 * costs.costStressMultiplier
  let exchCharges := (turnoverBuy + turnoverSell) * (5 / 10000) * costs.costStressMultiplier
  let sebiCharges := (turnoverBuy + turnoverSell) * (1 / 1000000) * costs.costStressMultiplier
  let stampDuty := turnoverBuy * (3 / 100000) * costs.costStressMultiplier
  let gst := (brokerage + exchCharges + sebiCharges) * (18 / 100) * costs.costStressMultiplier
  let totalTaxes := brokerage + stt + exchCharges + sebiCharges + stampDuty + gst
  let entrySlip := baseSlip * costs.slippageStressMultiplier
  let exitSlip := baseSlip * costs.slippageStressMultiplier
  let totalSlipCost := (entrySlip + exitSlip) * quantity
  { brokerage, stt
    exchangeCharges := exchCharges
    sebiCharges, stampDuty, gst
    totalStatutoryTaxes := totalTaxes
    entrySlippagePoints := entrySlip
    exitSlippagePoints := exitSlip
    totalSlippageCost := totalSlipCost
    totalFriction := totalTaxes + totalSlipCost }

end TransactionCostModel

end Droid.Vortex
