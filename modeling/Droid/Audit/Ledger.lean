import Droid.Audit.Settlement
import Droid.Lib.Run

/-! The audit ledger: the writers of a trade's record, and the ledger they are called on. -/
namespace Droid.Audit
open Lib Signals Paper

/-- The entries of an `option_contract` dictionary that a record is made from; an entry can be null. -/
structure OptionTerms where
  brokerSymbol : Option String := none
  symbol : Option String := none
  optionType : Option (Option String) := none
  strike : Option ℚ := none
  lotSize : Option Int := none
  deriving DecidableEq, Repr

/-- The arguments of `record_signal_created`, without the planned levels. -/
structure SignalTerms where
  signalId : SignalId
  underlying : String
  strategy : String := ""
  direction : String
  spotPrice : ℚ
  trigger : ℚ
  optionContract : OptionTerms := { }
  lots : Int := 1
  status : String := "ARMED"
  deriving DecidableEq, Repr

/-- The arguments of `record_paper_executed` after the id. -/
structure PaperFill where
  paperOrderId : String
  fillPrice : ℚ
  quantity : Int
  lots : Int
  side : String := "BUY"
  marginUsed : Option ℚ := none
  deriving DecidableEq, Repr

/-- The mark that `mark_for_record` answers with, and the symbol that it resolved for a record without one. -/
structure MarkReading where
  usable : Option ℚ
  source : String
  ageMs : Int := 0
  note : Option String := none
  resolved : Option String := none
  deriving DecidableEq, Repr

/-- An open paper position, as the ledger is synchronized with it. -/
structure LivePosition where
  signalId : Option String := none
  orderId : Option String := none
  symbol : String
  averagePrice : ℚ
  quantity : Int
  ltp : ℚ
  unrealizedPnl : ℚ
  deriving DecidableEq, Repr

def SignalTerms.record (terms : SignalTerms) (nowMs : Int) : AuditTradeRecord :=
  let opt := terms.optionContract
  let lotSize := opt.lotSize.getD
    (if terms.underlying = "NIFTY" then 75 else if terms.underlying = "BANKNIFTY" then 30 else 10)
  let status := if terms.status = "CONFIRMED" then "CONFIRMED" else "ARMED"
  { signalId := terms.signalId, underlying := terms.underlying, strategy := terms.strategy
    direction := terms.direction
    optionSymbol := (givenText opt.brokerSymbol).or opt.symbol
    optionType := opt.optionType.getD (some (if hasText terms.direction "CALL" then "CE" else "PE"))
    optionStrike := truthy opt.strike
    lotSize, lots := terms.lots, quantity := terms.lots * lotSize
    triggerPrice := terms.trigger
    status
    stateHistory := [{ timestampUtc := nowMs, fromState := "DETECTED", toState := status
                       marketPrice := some terms.spotPrice, reason := "SIGNAL_REGISTERED" }]
    createdAtUtc := nowMs, updatedAtUtc := nowMs }

namespace AuditTradeRecord

/-- `record_state_transition` of a row. A settled row stays as it is; an executed one does not go
back to CONFIRMED, but the event is kept. -/
def recordStateTransition (row : AuditTradeRecord) (nowMs : Int) (toState : String)
    (marketPrice : Option ℚ) (reason : String) : AuditTradeRecord :=
  if row.settled then row
  else
    let held : Bool := (row.status ∈ ["WON", "LOST", "CLOSED"] ∧ toState ∉ ["WON", "LOST", "CLOSED"]) ∨
      (row.status = "EXECUTED" ∧ toState = "CONFIRMED")
    { row with
      status := if held then row.status else toState
      fsmState := if held then row.fsmState else some (auditToFsmStatus toState)
      currentPrice :=
        (marketPrice.filter fun price => ¬ (row.isOption ∧ spotThreshold < price)).or row.currentPrice
      isWinner :=
        if toState ∈ ["TARGET_1_HIT", "TARGET_2_HIT", "WON", "RUNNER_TIME_STOP_HIT"] then some true
        else if toState ∈ ["STOP_LOSS_HIT", "LOST", "TIME_STOP_HIT"] then some false
        else row.isWinner }.append
      { timestampUtc := nowMs, fromState := row.status, toState, marketPrice
        reason := if reason = "" then s!"TRANSITION_TO_{toState}" else reason }

/-- `record_paper_executed` of a row. An option's slippage is measured against a chain mark only. -/
def recordPaperExecuted (row : AuditTradeRecord) (nowMs : Int) (fill : PaperFill) (mark : Option ℚ) :
    AuditTradeRecord :=
  let contract : Bool := (givenText row.optionSymbol).isSome ∨
    ((truthy row.optionStrike).isSome ∧ (givenText row.optionType).isSome)
  let reference := if contract then mark else some row.triggerPrice
  { row with
    paperOrderId := some fill.paperOrderId
    paperSide := some fill.side
    actualFillPrice := some fill.fillPrice
    quantity := fill.quantity
    lots := fill.lots
    executedAtUtc := some nowMs
    slippagePoints := reference.map fun price => roundTo 2 |fill.fillPrice - price|
    marginUsed := some (orElse fill.marginUsed (fill.fillPrice * fill.quantity))
    status := "EXECUTED" }.append
    { timestampUtc := nowMs, fromState := "CONFIRMED", toState := "EXECUTED"
      marketPrice := some fill.fillPrice, reason := s!"PAPER_ORDER_FILLED {fill.paperOrderId}" }

/-- Book the running result of a row from its entry price and the points a unit has made. -/
def bookUnrealized (row : AuditTradeRecord) (entryPrice points : ℚ) : AuditTradeRecord :=
  let qty := row.tradeQty
  let margin := orElse row.marginUsed (entryPrice * qty)
  let raw := roundTo 2 (points * qty)
  let inr := if row.buysOption then max raw (-margin) else raw
  { row with
    unrealizedPnlPoints := some (roundTo 2 points)
    unrealizedPnlInr := some inr
    unrealizedPnlPct := some (row.pnlPct inr margin)
    totalPnlInr := some inr
    isWinner := some (0 < inr) }

/-- The running result of an option, at its mark. A fill at an index level is replaced by the mark;
without a usable mark nothing is booked. -/
def markOption (row : AuditTradeRecord) (mark : MarkReading) : AuditTradeRecord :=
  let row := { row with
    optionSymbol := if (givenText (row.optionSymbol.map strip)).isSome then row.optionSymbol
      else mark.resolved.or row.optionSymbol }
  match mark.usable with
  | none =>
    { row with
      markSource := some mark.source, markAgeMs := none, markNote := mark.note, economicsUnavailable := true }
  | some price =>
    let entryPrice := orElse row.actualFillPrice row.triggerPrice
    let repaired : Bool := spotThreshold < entryPrice
    let entryPrice := if repaired then price else entryPrice
    { row with
      actualFillPrice := if repaired then some price else row.actualFillPrice
      currentPrice := some (roundTo 2 price)
      markSource := some mark.source, markAgeMs := some mark.ageMs, markNote := mark.note
      economicsUnavailable := false }.bookUnrealized entryPrice
        (if row.side = "BUY" then max (price - entryPrice) (-entryPrice) else entryPrice - price)

def markSpot (row : AuditTradeRecord) (spot : ℚ) : AuditTradeRecord :=
  let entryPrice := orElse row.actualFillPrice row.triggerPrice
  { row with
    currentPrice := some spot
    markSource := some "INDEX_SPOT", markAgeMs := none, markNote := none
    economicsUnavailable := false }.bookUnrealized entryPrice
      (if row.isBullish then spot - entryPrice else entryPrice - spot)

/-- Mark one live row to market: nothing is deployed while it is armed, and an option without a fill
has no position. -/
def markToMarket (row : AuditTradeRecord) (spot : ℚ) (mark : AuditTradeRecord → MarkReading) :
    AuditTradeRecord :=
  if row.status = "ARMED" then
    { row with
      currentPrice := if row.isOption then none else some spot
      unrealizedPnlPoints := some 0, unrealizedPnlInr := some 0, unrealizedPnlPct := some 0
      totalPnlInr := some 0, isWinner := none }
  else if row.isOption ∧ row.actualFillPrice = none then
    { row with
      currentPrice := none
      unrealizedPnlPoints := none, unrealizedPnlInr := none, unrealizedPnlPct := none
      totalPnlInr := none, isWinner := none }
  else if row.isOption then row.markOption (mark row)
  else row.markSpot spot

def updateLiveQuote (row : AuditTradeRecord) (nowMs : Int) (currentPrice : ℚ)
    (mark : AuditTradeRecord → MarkReading) : AuditTradeRecord :=
  if row.status ∈ liveStatuses then
    let duration := row.liveDuration nowMs
    { row.markToMarket (roundTo 2 currentPrice) mark with
      liveDurationSeconds := some duration
      liveDurationStr := some (durationText duration)
      holdingTimeStr := some (durationText duration)
      holdingTimeSeconds := some duration
      updatedAtUtc := nowMs }
  else row

/-- What a position writes into the row it belongs to; the quantity never shrinks. -/
def syncWith (row : AuditTradeRecord) (pos : LivePosition) : AuditTradeRecord :=
  { row with
    status := "EXECUTED"
    fsmState := some "CONFIRMED"
    actualFillPrice := some pos.averagePrice
    quantity := if row.quantity ≤ pos.quantity then pos.quantity else row.quantity
    currentPrice := some pos.ltp
    unrealizedPnlInr := some pos.unrealizedPnl
    totalPnlInr := some pos.unrealizedPnl }

end AuditTradeRecord

/-! ### The ledger -/

abbrev Ledger := Dict SignalId AuditTradeRecord

def ledgerUnderlying (underlying : String) : String :=
  (validateUnderlying underlying).getD (strip underlying.toUpper)

namespace Ledger

def modify (ledger : Ledger) (id : SignalId) (f : AuditTradeRecord → AuditTradeRecord) : Ledger :=
  match ledger.get? id with
  | none => ledger
  | some row => ledger.insert id (f row)

/-- A row is made afresh, whatever the ledger had under the id. -/
def recordSignalCreated (ledger : Ledger) (nowMs : Int) (terms : SignalTerms) : Ledger :=
  ledger.insert terms.signalId (terms.record nowMs)

def recordStateTransition (ledger : Ledger) (nowMs : Int) (id : SignalId) (toState : String)
    (marketPrice : Option ℚ) (reason : String) : Ledger :=
  ledger.modify id (·.recordStateTransition nowMs toState marketPrice reason)

def recordPaperExecuted (ledger : Ledger) (nowMs : Int) (id : SignalId) (fill : PaperFill)
    (mark : Option ℚ) : Ledger :=
  ledger.modify id (·.recordPaperExecuted nowMs fill mark)

def updateLiveQuote (ledger : Ledger) (nowMs : Int) (underlying : String) (currentPrice : ℚ)
    (mark : AuditTradeRecord → MarkReading) : Ledger :=
  ledger.mapValues fun _ row =>
    if ledgerUnderlying row.underlying = ledgerUnderlying underlying then
      row.updateLiveQuote nowMs currentPrice mark
    else row

def recordSquareOff (ledger : Ledger) (nowMs : Int) (id : SignalId)
    (recon : Option FillReconciliationRecord) (exitPrice : ℚ) (exitReason : String) : Ledger :=
  ledger.modify id (·.recordSquareOff nowMs recon exitPrice exitReason)

def joins (ledger : Ledger) (pos : LivePosition) (row : AuditTradeRecord) : Bool :=
  row.status ∈ liveStatuses ∧
    (givenText pos.signalId = some row.signalId ∨
      ((givenText pos.orderId).isSome ∧ givenText row.paperOrderId = givenText pos.orderId) ∨
      (row.optionSymbol = some pos.symbol ∧ pos.symbol ≠ "" ∧
        ((ledger.values.filter fun r => r.optionSymbol = some pos.symbol ∧
          r.status ∈ ["CONFIRMED", "EXECUTED", "TRIGGERED", "TARGET_1_HIT"]).map (·.signalId)) = [row.signalId]))

/-- `sync_with_paper_service`: each open position goes to the first row it can be joined to. -/
def syncWithPaperService (ledger : Ledger) (positions : List LivePosition) : Ledger :=
  positions.foldl (fun ledger pos =>
    match ledger.entries.find? fun e => ledger.joins pos e.2 with
    | none => ledger
    | some (id, _) => ledger.modify id (·.syncWith pos)) ledger

variable (ledger : Ledger)

@[simp] theorem get?_modify (id : SignalId) (f : AuditTradeRecord → AuditTradeRecord) (x : SignalId) :
    (ledger.modify id f).get? x = if x = id then (ledger.get? id).map f else ledger.get? x := by
  rw [modify]
  cases hrow : ledger.get? id with
  | none =>
    by_cases hx : x = id
    · rw [if_pos hx, hx]
      exact hrow
    · rw [if_neg hx]
  | some row =>
    rw [Dict.get?_insert]
    rfl

end Ledger

end Droid.Audit
