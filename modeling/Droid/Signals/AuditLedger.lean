import Droid.Signals.FillReconciler

/-! Rows of the signal audit ledger: their status, and what a square-off books. -/
namespace Droid.Signals
open Lib

/-- A row's status: a state of the FSM, or one of the ledger's own words. CLOSED is
the state of that name. -/
inductive AuditStatus where
  | state (s : SignalFsmState)
  | executed | won | lost | void
  deriving DecidableEq, Repr

def settledStatuses : List AuditStatus := [.won, .lost, .state .closed, .void]

structure AuditTradeRecord where
  isOption : Bool
  isBullish : Bool
  triggerPrice : ℚ
  lotSize : Int
  lots : Int
  quantity : Int
  actualFillPrice : Option ℚ := none
  exitPrice : Option ℚ := none
  exitReason : Option String := none
  actualPnlInr : Option ℚ := none
  economicsUnavailable : Bool := false
  status : AuditStatus
  deriving DecidableEq, Repr

namespace AuditTradeRecord

def settled (row : AuditTradeRecord) : Bool := row.status ∈ settledStatuses

/-- A settled row keeps its status, and an executed one does not go back to CONFIRMED. -/
def recordStateTransition (row : AuditTradeRecord) (toState : SignalFsmState) : AuditTradeRecord :=
  if row.settled ∨ (row.status = .executed ∧ toState = .confirmed) then row
  else { row with status := .state toState }

def recordPaperExecuted (row : AuditTradeRecord) (fillPrice : ℚ) (quantity lots : Int) : AuditTradeRecord :=
  { row with actualFillPrice := some fillPrice, quantity, lots, status := .executed }

/-- Two real premiums price an option exit; anything else is priced by its trigger. -/
def economicsOk (row : AuditTradeRecord) (exitPrice : ℚ) : Bool :=
  ¬ row.isOption ∨ (row.actualFillPrice.any (· ≤ spotThreshold) ∧ exitPrice ≤ spotThreshold)

/-- The reconciler's net result, when its entry is in the domain of the row's fill. -/
def canonicalNet (row : AuditTradeRecord) (recon : Option FillReconciliationRecord) : Option ℚ :=
  match recon.filter fun record => ¬ record.synthetic ∧ record.isFullyClosed with
  | none => none
  | some record =>
    let auditFill := truthy row.actualFillPrice
    let domainOk : Bool :=
      if record.entryFillPrice ≤ 0 ∧ auditFill.any (0 < ·) then false
      else auditFill.all fun fill => spotThreshold < fill ↔ spotThreshold < record.entryFillPrice
    if domainOk then some (roundTo 2 record.netRealizedPnlInr) else none

/-- The points a unit made; an option buyer loses at most the premium. -/
def pointsDiff (row : AuditTradeRecord) (exitPrice : ℚ) : ℚ :=
  let entryPrice := row.actualFillPrice.getD row.triggerPrice
  if row.isOption then max (exitPrice - entryPrice) (-entryPrice)
  else if row.isBullish then exitPrice - entryPrice
  else entryPrice - exitPrice

/-- The row after a square-off, given the reconciler's record as it then is. -/
def squareOff (row : AuditTradeRecord) (recon : Option FillReconciliationRecord) (exitPrice : ℚ)
    (exitReason : String) : AuditTradeRecord :=
  if ¬ row.economicsOk exitPrice then
    { row with
      status := .state .closed
      exitPrice := if row.isOption ∧ spotThreshold < exitPrice then none else some exitPrice
      exitReason := some exitReason, economicsUnavailable := true, actualPnlInr := none }
  else
    let qty := if row.quantity ≠ 0 then row.quantity else row.lots * row.lotSize
    let gross := roundTo 2 (row.pointsDiff exitPrice * qty)
    let bounded := if row.isOption then
        max gross (-roundTo 2 (row.actualFillPrice.getD row.triggerPrice * qty)) else gross
    let pnl := (row.canonicalNet recon).getD bounded
    { row with
      status :=
        if exitReason ∈ ["STOP_LOSS_HIT", "LOSS"] then .lost
        else if exitReason ∈ ["TARGET_1_HIT", "TARGET_2_HIT", "WON"] then .won
        else if 0 < pnl then .won else if pnl < 0 then .lost else .state .closed
      exitPrice := some exitPrice, exitReason := some exitReason, actualPnlInr := some pnl }

end AuditTradeRecord

end Droid.Signals
