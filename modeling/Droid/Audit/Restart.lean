import Droid.Audit.NetPnl

/-! A restart of the signal managers: what is saved, what a restore rewrites, and what a final exit
books after it. -/
namespace Droid.Audit
open Lib Signals Paper
open Reconciliation (twoLots)

structure SavedState where
  auditTrades : Dict SignalId AuditTradeRecord
  fillReconciliations : Dict SignalId FillReconciliationRecord

/-- What a restore reads around it, in the session of the rows and with the market open: the marks of
the chain, and the spot that each row was created at. -/
structure RestoreContext where
  nowMs : Int
  usable : String → Bool
  spotAtCreation : SignalId → ℚ

def isTestOrGhostId (targetId : String) : Bool :=
  let id := strip targetId
  let lower := id.toList.map Char.toLower
  id ∈ ["SIG-NIFTY-BKO-01", "SIG-BNF-TRP-02", "SIG-SNX-MRV-03", "SIG-NIFTY-ORB-04"] ∨
    "sig-test-".toList <+: lower ∨ "sig-wallet-".toList <+: lower ∨ "test-".toList <+: lower ∨
    "sig-persist-sanitize".toList <+: lower

namespace AuditTradeRecord
variable (row : AuditTradeRecord)

def restored (usable : String → Bool) : AuditTradeRecord :=
  match givenText row.optionSymbol with
  | some symbol => if usable symbol then row else { row with economicsUnavailable := true }
  | none => row

def voidTrade (nowMs : Int) (reason : String) (quarantineEconomics : Bool) : AuditTradeRecord :=
  let voided := { row with
    status := "VOID"
    outcomeLabel := some reason
    isWinner := none
    unrealizedPnlInr := some 0, unrealizedPnlPoints := some 0, unrealizedPnlPct := some 0 }
  let voided :=
    if quarantineEconomics then
      { voided with
        actualFillPrice := none
        actualPnlInr := none, actualPnlPoints := none, actualPnlPct := none
        theoreticalPnlInr := none, theoreticalPnlPoints := none
        exitPrice := row.exitPrice.filter (0 < ·)
        economicsUnavailable := true
        totalPnlInr := none }
    else { voided with totalPnlInr := row.actualPnlInr }
  voided.append
    { timestampUtc := nowMs, fromState := row.status, toState := "VOID"
      marketPrice := voided.exitPrice, reason }

def corrupted : Bool :=
  let maxLoss := match truthy row.actualFillPrice with
    | some fill => roundTo 2 (fill * row.tradeQty)
    | none => 50000
  row.exitPrice.any (· ≤ 0) ∨
    (row.isOption ∧
      (row.exitPrice.any (spotThreshold < ·) ∨ row.currentPrice.any (spotThreshold < ·) ∨
        row.actualFillPrice.any (spotThreshold < ·) ∨
        (row.underlying = "BANKNIFTY" ∧ 55000 ≤ row.optionStrike.getD 0 ∧ 200 < row.actualFillPrice.getD 0) ∨
        row.actualPnlInr.any fun pnl => pnl < -maxLoss ∨ pnl < -50000))

/-- A row of a demo or a test, or one created far from the market. -/
def ghost (ctx : RestoreContext) (id : SignalId) : Bool :=
  isTestOrGhostId id ∨ isTestOrGhostId row.signalId ∨
    (row.underlying = "BANKNIFTY" ∧ ctx.spotAtCreation id < 40000) ∨
    (row.underlying = "NIFTY" ∧ ctx.spotAtCreation id < 22000)

def quarantined (ctx : RestoreContext) (id : SignalId) : Bool := row.corrupted ∨ row.ghost ctx id

def sanitized (ctx : RestoreContext) (id : SignalId) : AuditTradeRecord :=
  let row := if row.corrupted then row.voidTrade ctx.nowMs "VOID_CORRUPT_DOMAIN_QUARANTINE" true else row
  if row.ghost ctx id then row.voidTrade ctx.nowMs "VOID_GHOST_QUARANTINE" false else row

end AuditTradeRecord

namespace Books

def save (s : Books) : SavedState where
  auditTrades := s.ledger
  fillReconciliations := s.reconciler

/-- `restore_signals_state_local` into empty managers: every reconciliation record is synthetic. -/
def restore (ctx : RestoreContext) (saved : SavedState) : Books where
  ledger := saved.auditTrades.mapValues fun id row => (row.restored ctx.usable).sanitized ctx id
  reconciler := saved.fillReconciliations.mapValues fun _ record => { record with synthetic := true }

def restart (ctx : RestoreContext) (s : Books) : Books := restore ctx s.save

end Books

structure Booking where
  actualPnlInr : Option ℚ
  actualPnlPoints : Option ℚ
  isWinner : Option Bool
  deriving DecidableEq, Repr

namespace AuditTradeRecord
variable {row : AuditTradeRecord} {ctx : RestoreContext} {id : SignalId}

def figures (row : AuditTradeRecord) (recon : Option FillReconciliationRecord) (exitPrice : ℚ)
    (exitReason : String) : Booking :=
  let res := row.result recon exitPrice
  let flat : Bool := res.pnl = 0 ∧ 0 < row.tradeQty ∧ 0 < |res.points|
  { actualPnlInr := some res.pnl
    actualPnlPoints := some (roundTo 2 res.points)
    isWinner := if flat then none else some (verdict exitReason res.pnl).1 }

end AuditTradeRecord

namespace Books
variable {s : Books} {ctx : RestoreContext} {id : SignalId} {row : AuditTradeRecord}

end Books

end Droid.Audit
