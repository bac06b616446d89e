import Droid.Signals.FsmManager
import Droid.Signals.AuditLedger
import Droid.Paper.Service

/-! The signal desk: the FSM, the paper shard, the audit ledger and the fill reconciler,
and how the paper engine opens and closes a signal's position on them. -/
namespace Droid.Signals
open Lib Paper

/-- The states of an execution intent that the engine asks for. -/
inductive IntentState where
  | submitted
  | filled (order : OrderId) (fillPrice : ℚ) (quantity : Int)
  | rejected
  deriving DecidableEq, Repr

def IntentState.isFilled : IntentState → Bool
  | .filled _ _ _ => true
  | _ => false

structure Desk where
  fsm : SignalFsmManager := { }
  shard : Shard := { }
  ledger : Dict SignalId AuditTradeRecord := Dict.empty
  reconciler : Dict SignalId FillReconciliationRecord := Dict.empty
  intents : Dict String IntentState := Dict.empty

namespace Desk

def signal? (d : Desk) (id : SignalId) : Option SignalInstance := d.fsm.signals.get? id

def setSignal (d : Desk) (id : SignalId) (sig : SignalInstance) : Desk :=
  { d with fsm := { d.fsm with signals := d.fsm.signals.insert id sig } }

def setRow (d : Desk) (id : SignalId) (row : AuditTradeRecord) : Desk :=
  { d with ledger := d.ledger.insert id row }

/-- What a reconciler call leaves: its record, and the quantities it wrote into the signal. -/
def setRecord (d : Desk) (id : SignalId) (res : SignalInstance × FillReconciliationRecord) : Desk :=
  { d.setSignal id res.1 with reconciler := d.reconciler.insert id res.2 }

/-! ### Transitions and the ledger -/

/-- A transition that changes the state is mirrored into the signal's ledger row. -/
def transition (env : Surroundings) (d : Desk) (id : SignalId) (target : SignalFsmState)
    (marketPrice : Option ℚ) (reason : String) : Desk × SignalFsmManager.TransitionResult :=
  let (fsm, res) := d.fsm.transition env id target marketPrice reason none
  let moved : Bool := res = .ok ∧ (d.signal? id).any (·.fsmState ≠ target)
  match (d.ledger.get? id).filter fun _ => moved with
  | some row => ({ d with fsm }.setRow id (row.recordStateTransition target), res)
  | none => ({ d with fsm }, res)

/-- `record_square_off` finishes a tracked residual leg first. -/
def finishReconciler (now : Int) (d : Desk) (id : SignalId) (exitPrice : ℚ) (exitReason : String) : Desk :=
  match d.reconciler.get? id, d.signal? id with
  | some record, some sig =>
    if record.synthetic ∨ record.isFullyClosed then d
    else d.setRecord id (reconcileFinalExit now sig (some record) exitPrice exitReason)
  | _, _ => d

/-- A settled row is left alone; without two real premiums nothing is reconciled. -/
def recordSquareOff (now : Int) (d : Desk) (id : SignalId) (row : AuditTradeRecord) (exitPrice : ℚ)
    (exitReason : String) : Desk × AuditTradeRecord :=
  if row.settled then (d, row)
  else
    let d := if row.economicsOk exitPrice then d.finishReconciler now id exitPrice exitReason else d
    let row := row.squareOff (d.reconciler.get? id) exitPrice exitReason
    (d.setRow id row, row)

end Desk

/-! ### Entry -/

def approvedUnderlyings : List String := ["NIFTY", "BANKNIFTY", "SENSEX"]

/-- The canonical name of an approved underlying; any other raises. -/
def validateUnderlying (underlying : String) : Option String :=
  let clean := (strip underlying).toUpper
  let clean :=
    if clean ∈ ["NIFTY 50", "NIFTY50", "CNX NIFTY"] then "NIFTY"
    else if clean ∈ ["NIFTY BANK", "NIFTYBANK", "BANK NIFTY", "BANK"] then "BANKNIFTY"
    else if clean ∈ ["BSE SENSEX", "SENSEX 30", "SENSEX30"] then "SENSEX"
    else clean
  if clean ∈ approvedUnderlyings then some clean else none

/-- The symbol a signal's entry order names. -/
def SignalInstance.contractSymbol (sig : SignalInstance) (underlying : String) : String :=
  (sig.optionContract.bind (·.brokerSymbol)).getD (underlying ++ "_OPT")

def SignalInstance.contractLot (sig : SignalInstance) (underlying : String) : Int :=
  (sig.optionContract.bind (·.lotSize)).getD
    (if underlying = "NIFTY" then 75 else if underlying = "BANKNIFTY" then 30 else 10)

/-- What sizing, marks, wallet and guards hand to the dispatch of an entry. -/
structure Ticket where
  intentId : String
  quantity : Int
  lots : Int
  basePrice : ℚ
  fillPrice : ℚ
  positionId : String
  quantity_pos : 0 < quantity
  fillPrice_pos : 0 < fillPrice

theorem slipped_pos : (0 : ℚ) < 10015 / 100 := by norm_num

def Ticket.tag (ticket : Ticket) : String := "DRD_" ++ String.ofList (ticket.intentId.toList.take 20)

def Ticket.payload (ticket : Ticket) (symbol underlying : String) : OrderPayload where
  symbol := symbol
  underlying := underlying
  side := .buy
  quantity := ticket.quantity
  price := ticket.fillPrice
  clientOrderId := some ticket.tag
  quantity_pos := ticket.quantity_pos
  price_nonneg := ticket.fillPrice_pos.le

def offDomainBandPct : ℚ := 3 / 100

/-- The service filled another instrument than the one marked. -/
def offDomain (serviceFill basePrice : ℚ) : Bool :=
  0 < serviceFill ∧ 0 < basePrice ∧
    ((spotThreshold < serviceFill) ≠ (spotThreshold < basePrice) ∨
      |serviceFill - basePrice| / basePrice > offDomainBandPct)

/-- No success, or the fill it reports: of an earlier dispatch, or of this one. -/
inductive ExecutionResult where
  | refused
  | replayed (fillPrice : ℚ) (quantity : Int)
  | executed (fillPrice : ℚ) (quantity : Int)
  deriving DecidableEq, Repr

namespace Desk

/-- Rewrite the intent of this dispatch; one that was on record before stays as it was. -/
def setIntent (d : Desk) (ticket : Ticket) (isNew : Bool) (state : IntentState) : Desk :=
  if isNew then { d with intents := d.intents.insert ticket.intentId state } else d

/-- `rollback_off_domain_fill`: square off what is open under the symbol, if anything. -/
def rollbackOffDomainFill (cond : Conditions) (d : Desk) (symbol : String) : Desk :=
  { d with shard := (d.shard.squareOffPosition cond (symbol, .intraday) true).1 }

def replayFilledIntent (d : Desk) (tag : String) (order : OrderId) (fillPrice : ℚ) (quantity : Int) :
    ExecutionResult :=
  let filed := (d.shard.orders.find? fun o => o.status = .filled ∧ o.payload.clientOrderId = some tag).or
    (d.shard.orders[order]?.filter (·.status = .filled))
  match filed with
  | some o => .replayed ((positive o.fillPrice).getD fillPrice) o.payload.quantity
  | none => .replayed fillPrice quantity

def createdRow (sig : SignalInstance) (lots : Int) : AuditTradeRecord where
  isOption :=
    (sig.optionContract.bind (·.brokerSymbol)).any (· ≠ "") ∨
      sig.optionContract.bind (·.optionType) ≠ some "" ∨
      (truthy (sig.optionContract.bind (·.strike))).isSome
  isBullish := sig.direction = .longCall
  triggerPrice := sig.trigger
  lotSize := sig.contractLot sig.underlying
  lots := lots
  quantity := lots * sig.contractLot sig.underlying
  status := .state .confirmed

/-- A signal is confirmed from TRIGGERED; from before that it passes through it. -/
def confirmEntry (env : Surroundings) (d : Desk) (id : SignalId) (fill : ℚ) : Desk :=
  match d.signal? id with
  | none => d
  | some sig =>
    if sig.fsmState = .triggered then (d.transition env id .confirmed (some fill) "PAPER_TRADE_EXECUTED").1
    else if sig.fsmState ∈ [.detected, .validated, .armed] then
      match d.transition env id .triggered (some fill) "PAPER_TRADE_TRIGGER_PROOF" with
      | (d, .ok) => (d.transition env id .confirmed (some fill) "PAPER_TRADE_EXECUTED").1
      | (d, _) => d
    else d

/-- The fields that a booked entry writes into its signal. -/
def bookedSignal (sig : SignalInstance) (ticket : Ticket) (symbol : String) (orderQty : Int) (fill : ℚ) :
    SignalInstance :=
  { sig with
    paperOrder := some { symbol, quantity := orderQty }
    actualFillPrice := some fill, entryPrice := some fill
    intendedQty := ticket.quantity, remainingQty := ticket.quantity
    lots := some ticket.lots, quantity := some ticket.quantity
    positionId := some ticket.positionId }

def bookEntry (env : Surroundings) (d : Desk) (id : SignalId) (sig : SignalInstance) (ticket : Ticket)
    (isNew : Bool) (underlying : String) (order : OrderId) (orderPayload : OrderPayload) (fill : ℚ) : Desk :=
  let sig := bookedSignal sig ticket orderPayload.symbol orderPayload.quantity fill
  let d := d.setIntent ticket isNew (.filled order fill ticket.quantity)
  let res := reconcileEntry env.now sig fill ticket.quantity (some (sig.contractLot underlying))
  let d := (d.setRecord id (res.1, res.2.1)).confirmEntry env id fill
  let row := (d.ledger.get? id).getD (createdRow sig ticket.lots)
  d.setRow id (row.recordPaperExecuted fill ticket.quantity ticket.lots)

def dispatch (env : Surroundings) (cond : Conditions) (d : Desk) (id : SignalId) (sig : SignalInstance)
    (ticket : Ticket) (isNew : Bool) (underlying : String) : Desk × ExecutionResult :=
  let payload := ticket.payload (sig.contractSymbol underlying) underlying
  let (shard, order) := d.shard.placeOrder cond payload false
  let d := { d with shard }
  match shard.orders[order]? with
  | none => (d, .refused)
  | some o =>
    if o.status = .pending then
      let d := { d with shard := (shard.cancelOrder order).toOption.getD shard }
      (d.setIntent ticket isNew .rejected, .refused)
    else if o.status = .rejected then (d.setIntent ticket isNew .submitted, .refused)
    else if sig.optionContract.isSome ∧ offDomain (o.fillPrice.getD 0) ticket.basePrice then
      ((d.rollbackOffDomainFill cond (sig.contractSymbol underlying)).setIntent ticket isNew .rejected, .refused)
    else
      -- an order that was cancelled before counts as filled at the estimate
      let fill := (truthy o.fillPrice).getD ticket.fillPrice
      (d.bookEntry env id sig ticket isNew underlying order o.payload fill, .executed fill ticket.quantity)

/-- The order of an entry is answered with one that counts as filled, off its domain. -/
def offDomainAnswer (cond : Conditions) (d : Desk) (sig : SignalInstance) (ticket : Ticket)
    (underlying : String) : Bool :=
  let (shard, order) :=
    d.shard.placeOrder cond (ticket.payload (sig.contractSymbol underlying) underlying) false
  sig.optionContract.isSome ∧ shard.orders[order]?.any fun o =>
    o.status ∉ [.pending, .rejected] ∧ offDomain (o.fillPrice.getD 0) ticket.basePrice

/-- What an entry needs: the signal, a ticket, and an approved underlying. There is no ticket
where the session, the sizing, the marks, the wallet or the guards stop the entry. -/
def entry? (d : Desk) (id : SignalId) (ticket : Option Ticket) :
    Option (SignalInstance × Ticket × String) := do
  let sig ← d.signal? id
  let ticket ← ticket
  let underlying ← validateUnderlying sig.underlying
  return (sig, ticket, underlying)

def executeSignal (env : Surroundings) (cond : Conditions) (d : Desk) (id : SignalId)
    (ticket : Option Ticket) : Desk × ExecutionResult :=
  match d.entry? id ticket with
  | none => (d, .refused)
  | some (sig, ticket, underlying) =>
    match d.intents.get? ticket.intentId with
    | some (.filled order fillPrice quantity) =>
      (d, d.replayFilledIntent ticket.tag order fillPrice quantity)
    | some .submitted => (d, .refused)
    | some .rejected => d.dispatch env cond id sig ticket false underlying
    | none => d.dispatch env cond id sig ticket true underlying

/-! ### Exit -/

/-- What one close is asked for. -/
structure CloseRequest where
  exitPrice : Option ℚ := none
  reason : String := "TARGET_HIT"
  quantityToClose : Option Int := none
  allowClosedMarket : Bool := false

def CloseRequest.permitClosed (req : CloseRequest) : Bool :=
  req.allowClosedMarket ∨
    req.reason ∈ ["MARKET_CLOSED", "EOD_SQUAREOFF", "DELETED_BY_USER", "TIME_STOP_EXCEEDED",
      "RUNNER_TTL_EXCEEDED"]

/-- None, an exit that did not fill, an exception, or the ledger row. -/
inductive CloseResult where
  | nothing
  | notFilled (order : OrderId)
  | raised
  | audited (row : AuditTradeRecord)
  deriving DecidableEq, Repr

def receipt? (d : Desk) (id : SignalId) : Option (SignalInstance × PaperReceipt) := do
  let sig ← d.signal? id
  let receipt ← sig.paperOrder
  if receipt.symbol = "" ∨ receipt.quantity = 0 then none else some (sig, receipt)

/-- The price an exit is asked at, and whether it is a flat one for want of a mark. -/
def resolveExitPrice (marks : OptionMarks) (sig : SignalInstance) (symbol : String)
    (pos : Option VirtualPosition) (exitPrice : Option ℚ) : ℚ × Bool :=
  match exitPrice.or (positive (pos.map (·.ltp))) with
  | some price => (price, false)
  | none =>
    if sig.optionContract.isSome then
      match marks.usable symbol with
      | some price => (price, false)
      | none => (((truthy sig.actualFillPrice).or (truthy sig.entryPrice)).getD 0, true)
    else ((truthy sig.actualFillPrice).getD sig.trigger, false)

def finalCloseQty (pos : VirtualPosition) (quantityToClose : Option Int) : Int :=
  (quantityToClose.filter fun n => n ≠ 0 ∧ n ≤ pos.quantity).getD pos.quantity

def exitPayload (pos : VirtualPosition) (quantity : Int) (price : ℚ) : Option OrderPayload :=
  if h : 0 < quantity ∧ 0 ≤ price then
    some { symbol := pos.symbol, underlying := pos.underlying, side := pos.side.opposite
           product := pos.product, quantity, price, quantity_pos := h.1, price_nonneg := h.2 }
  else none

/-- A staged close is a state transition of the row, any other one a square-off. -/
def auditClose (now : Int) (d : Desk) (id : SignalId) (reason : String) (price : ℚ) (flat staged : Bool) :
    Desk × CloseResult :=
  match d.ledger.get? id with
  | none => (d, .nothing)
  | some row =>
    if staged then
      let row := row.recordStateTransition .target1Hit
      (d.setRow id row, .audited row)
    else
      let (d, row) := d.recordSquareOff now id row price (if flat then "NO_MARK" else reason)
      let row := if flat then { row with economicsUnavailable := true } else row
      (d.setRow id row, .audited row)

/-- The quantity that decides whether a close without an open position is staged. -/
def auditQuantity (d : Desk) (id : SignalId) : Int := ((d.ledger.get? id).map (·.quantity)).getD 0

def closeSignalPosition (env : Surroundings) (cond : Conditions) (d : Desk) (id : SignalId)
    (req : CloseRequest) : Desk × CloseResult :=
  match d.receipt? id with
  | none => (d, .nothing)
  | some (sig, receipt) =>
    match (d.ledger.get? id).filter (·.settled) with
    | some row => (d, .audited row)
    | none =>
      let pos := d.shard.positions.get? (receipt.symbol, .intraday)
      let (price, flat) := resolveExitPrice env.marks sig receipt.symbol pos req.exitPrice
      match pos.filter (·.isOpen) with
      | none =>
        let staged : Bool := req.reason = "TARGET_1_HIT" ∧
          req.quantityToClose.any fun n => n ≠ 0 ∧ n < d.auditQuantity id
        d.auditClose env.now id req.reason price flat staged
      | some pos =>
        let quantity := finalCloseQty pos req.quantityToClose
        match exitPayload pos quantity price with
        | none => (d, .raised)
        | some payload =>
          let (shard, order) := d.shard.placeOrder cond payload req.permitClosed
          let staged : Bool := req.reason = "TARGET_1_HIT" ∧ quantity < pos.quantity
          if shard.orders[order]?.any (·.status = .filled) then
            { d with shard }.auditClose env.now id req.reason price flat staged
          else ({ d with shard }, .notFilled order)

end Desk

end Droid.Signals
