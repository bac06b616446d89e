import Droid.Audit.Record

/-! Settlement of an audited trade: what a square-off books, from the prices and from the reconciler. -/
namespace Droid.Audit
open Lib Signals Paper

/-- A number with an explicit one in place of null and zero. -/
def orElse (x : Option ℚ) (y : ℚ) : ℚ := (truthy x).getD y

namespace AuditTradeRecord

/-- A realized result needs two premiums when the trade is an option. -/
def economicsOk (row : AuditTradeRecord) (exitPrice : ℚ) : Bool :=
  ¬ row.isOption ∨ (row.actualFillPrice.any (· ≤ spotThreshold) ∧ exitPrice ≤ spotThreshold)

/-- The reconciler's entry shares the price domain of the audit fill, and a missing one never
overrides a real fill. -/
def sameDomain (row : AuditTradeRecord) (record : FillReconciliationRecord) : Bool :=
  let auditFill := truthy row.actualFillPrice
  ¬ (record.entryFillPrice ≤ 0 ∧ auditFill.any (0 < ·)) ∧
    auditFill.all fun fill => spotThreshold < fill ↔ spotThreshold < record.entryFillPrice

/-- The record whose net result is canonical for the trade. -/
def canonicalRecord (row : AuditTradeRecord) (recon : Option FillReconciliationRecord) :
    Option FillReconciliationRecord :=
  recon.filter fun record => ¬ record.synthetic ∧ record.isFullyClosed ∧ row.sameDomain record

def entryPrice (row : AuditTradeRecord) : ℚ := row.actualFillPrice.getD row.triggerPrice

/-- What a unit made; an option buyer loses at most the premium. -/
def pointsDiff (row : AuditTradeRecord) (exitPrice : ℚ) : ℚ :=
  if row.isOption then
    if row.side = "BUY" then max (exitPrice - row.entryPrice) (-row.entryPrice)
    else row.entryPrice - exitPrice
  else if row.isBullish then exitPrice - row.entryPrice
  else row.entryPrice - exitPrice

/-- What a unit would have made from the trigger; an option has no other reference than its fill. -/
def theoDiff (row : AuditTradeRecord) (exitPrice : ℚ) : ℚ :=
  if row.isOption then row.pointsDiff exitPrice
  else if row.isBullish then exitPrice - row.triggerPrice
  else row.triggerPrice - exitPrice

def grossPnl (row : AuditTradeRecord) (exitPrice : ℚ) : ℚ :=
  let gross := roundTo 2 (row.pointsDiff exitPrice * row.tradeQty)
  if row.buysOption then max gross (-roundTo 2 (row.entryPrice * row.tradeQty)) else gross

/-- The result of a trade: its quantity, the points of a unit, those from the trigger, and the amount. -/
structure Result where
  qty : Int
  points : ℚ
  theo : ℚ
  pnl : ℚ

/-- The reconciler's net wins over the gross of the prices; the points are then its blended ones. -/
def result (row : AuditTradeRecord) (recon : Option FillReconciliationRecord) (exitPrice : ℚ) : Result :=
  match row.canonicalRecord recon with
  | none =>
    { qty := row.tradeQty, points := row.pointsDiff exitPrice, theo := row.theoDiff exitPrice
      pnl := row.grossPnl exitPrice }
  | some record =>
    let qty := if record.intendedQty ≠ 0 then record.intendedQty else row.tradeQty
    let points := if 0 < qty then roundTo 2 (record.grossRealizedPnl / qty) else row.pointsDiff exitPrice
    { qty, points, theo := points, pnl := roundTo 2 record.netRealizedPnlInr }

/-- A result in per cent of the margin; an option buyer loses at most all of it. -/
def pnlPct (row : AuditTradeRecord) (pnl margin : ℚ) : ℚ :=
  let pct := if 0 < margin then roundTo 2 (pnl / margin * 100) else 0
  if row.buysOption then max (-100) pct else pct

/-- Whether a trade won, and its last status: by the reason where that tells, else by the amount. -/
def verdict (exitReason : String) (pnl : ℚ) : Bool × String :=
  if exitReason ∈ ["STOP_LOSS_HIT", "LOSS"] then (false, "LOST")
  else if exitReason ∈ ["TARGET_1_HIT", "TARGET_2_HIT", "WON"] then (true, "WON")
  else (0 < pnl, if 0 < pnl then "WON" else if pnl < 0 then "LOST" else "CLOSED")

/-- A trade without two real prices is closed, and nothing is booked. -/
def closeUnpriced (row : AuditTradeRecord) (nowMs : Int) (exitPrice : ℚ) (exitReason : String) :
    AuditTradeRecord :=
  { row with
    status := "CLOSED"
    exitPrice := if row.isOption ∧ spotThreshold < exitPrice then none else some exitPrice
    exitedAtUtc := some nowMs
    exitReason := some exitReason
    outcomeLabel := some s!"{exitReason} :: ECONOMICS_UNAVAILABLE"
    isWinner := none
    economicsUnavailable := true
    actualPnlInr := none, actualPnlPoints := none, actualPnlPct := none, totalPnlInr := none
    unrealizedPnlInr := some 0, unrealizedPnlPoints := some 0, unrealizedPnlPct := some 0 }.append
      { timestampUtc := nowMs, fromState := "EXECUTED", toState := "CLOSED", marketPrice := some exitPrice
        reason := s!"SQUARE_OFF {exitReason} (no P&L: entry/exit not premium-domain)" }

def closePriced (row : AuditTradeRecord) (nowMs : Int) (recon : Option FillReconciliationRecord)
    (exitPrice : ℚ) (exitReason : String) : AuditTradeRecord :=
  let res := row.result recon exitPrice
  let (isWin, finalStatus) := verdict exitReason res.pnl
  let duration := row.liveDuration nowMs
  -- prices moved and nothing was booked
  let flat : Bool := res.pnl = 0 ∧ 0 < row.tradeQty ∧ 0 < |res.points|
  { row with
    exitPrice := some exitPrice
    exitedAtUtc := some nowMs
    exitReason := some exitReason
    holdingTimeSeconds := some duration
    holdingTimeStr := some (durationText duration)
    actualPnlInr := some res.pnl
    actualPnlPoints := some (roundTo 2 res.points)
    actualPnlPct := some (row.pnlPct res.pnl (orElse row.marginUsed (row.entryPrice * res.qty)))
    theoreticalPnlPoints := some (roundTo 2 res.theo)
    theoreticalPnlInr := some (roundTo 2 (res.theo * res.qty))
    currentPrice := some exitPrice
    unrealizedPnlInr := some 0, unrealizedPnlPoints := some 0, unrealizedPnlPct := some 0
    totalPnlInr := some res.pnl
    status := finalStatus
    outcomeLabel := some (if flat then s!"{exitReason} :: ZERO_PNL_REVIEW" else exitReason)
    isWinner := if flat then none else some isWin }.append
      { timestampUtc := nowMs, fromState := "EXECUTED", toState := finalStatus
        marketPrice := some exitPrice
        reason := s!"SQUARE_OFF {exitReason} (P&L: ₹" ++ signedAmount res.pnl ++ ")" }

def recordSquareOff (row : AuditTradeRecord) (nowMs : Int) (recon : Option FillReconciliationRecord)
    (exitPrice : ℚ) (exitReason : String) : AuditTradeRecord :=
  if row.settled then row
  else if row.economicsOk exitPrice then row.closePriced nowMs recon exitPrice exitReason
  else row.closeUnpriced nowMs exitPrice exitReason

variable (row : AuditTradeRecord) (nowMs : Int) (recon : Option FillReconciliationRecord) (exitPrice : ℚ)
  (exitReason : String)

theorem recordSquareOff_settled (h : row.settled = true) :
    row.recordSquareOff nowMs recon exitPrice exitReason = row := if_pos h

/-- A trade that is settled is settled under one of the ledger's own words. -/
theorem verdict_settled (pnl : ℚ) : (verdict exitReason pnl).2 ∈ settledStatuses := by
  rw [verdict]
  split
  · decide
  · split
    · decide
    · show (if 0 < pnl then "WON" else if pnl < 0 then "LOST" else "CLOSED") ∈ settledStatuses
      split
      · decide
      · split <;> decide

theorem recordSquareOff_closes : (row.recordSquareOff nowMs recon exitPrice exitReason).settled = true := by
  rw [recordSquareOff]
  split
  · assumption
  · split
    · exact decide_eq_true (verdict_settled exitReason _)
    · rfl

end AuditTradeRecord

end Droid.Audit
