import Droid.Audit.Restart
import Droid.Signals.OutcomeTracker
import Droid.Lib.Text

/-! The rows of the table of executed signals, the state file, and the managers' copies of one signal: what a
restore reads and what it decodes of it. -/
namespace Droid.Restore
open Lib Signals Audit

/-- A reconciliation record with its timestamps. -/
structure Reconciliation where
  record : FillReconciliationRecord
  createdAtUtc : Int
  updatedAtUtc : Int
  deriving DecidableEq

/-- A row of `executed_signals`; what is null is none, an empty contract or reconciliation too. -/
structure ExecutedSignal where
  signalId : SignalId
  underlying : String
  direction : String
  optionSymbol : Option String := none
  optionType : Option String := none
  optionStrike : Option ℚ := none
  lotSize : Int := 75
  lots : Int := 1
  quantity : Int := 75
  spotPriceAtCreation : Option ℚ := none
  triggerPrice : Option ℚ := none
  stopLoss : Option ℚ := none
  target1 : Option ℚ := none
  target2 : Option ℚ := none
  paperOrderId : Option String := none
  paperSide : Option String := none
  actualFillPrice : Option ℚ := none
  executedAtUtc : Option Int := none
  exitPrice : Option ℚ := none
  exitedAtUtc : Option Int := none
  exitReason : Option String := none
  actualPnlInr : Option ℚ := none
  actualPnlPoints : Option ℚ := none
  status : String := "ARMED"
  isWinner : Option Bool := none
  optionContract : Option OptionContract := none
  stateHistory : List AuditStateEvent := []
  riskRewardT1 : Option ℚ := none
  riskRewardT2 : Option ℚ := none
  isScalp : Option Bool := none
  timeStopSeconds : Option Int := none
  runnerTtlSeconds : Option Int := none
  timeStopAtUtc : Option Int := none
  runnerTimeStopAtUtc : Option Int := none
  breakevenActivated : Option Bool := none
  currentStopLoss : Option ℚ := none
  t1Hit : Option Bool := none
  remainingQty : Option Int := none
  createdAtUtc : Int
  updatedAtUtc : Int
  reconJson : Option Reconciliation := none
  deriving DecidableEq

/-- What a restore reads around it: the clock, and which contracts have a usable mark. -/
structure RestoreClock where
  nowMs : Int
  usable : String → Bool

def DEFAULT_SIGNAL_TTL_MS : Int := 300000

namespace ExecutedSignal
variable (row : ExecutedSignal)

def isOption : Bool :=
  (givenText row.optionSymbol).isSome ∨ (givenText row.optionType).isSome ∨ (truthy row.optionStrike).isSome

/-- A price of an option row that is no premium is dropped. -/
def premium (price : Option ℚ) : Option ℚ := if row.isOption then price.filter (· ≤ spotThreshold) else price

/-- The ids of the demo, and the tests' prefixes, which the query leaves out. -/
def excludedId : Bool :=
  row.signalId ∈ ["SIG-NIFTY-BKO-01", "SIG-BNF-TRP-02", "SIG-SNX-MRV-03", "SIG-NIFTY-ORB-04",
    "37492739-804a-4faa-8f99-c7e525f483d7", "bc1c0222-3841-4560-995f-124355718d9a",
    "847a5b0e-4ce2-4a2e-8eae-82d9c240c458", "c94983e6-0a3d-410e-b631-498e984cd13a",
    "2a9c3888-6218-4147-9fd0-e6327bc34414", "a0046076-6f03-471b-9117-74d19ef361b2"] ||
    ["SIG-TEST-", "sig-test-", "sig-wallet-", "SIG-WALLET-", "test-"].any
      (fun start => start.toList.isPrefixOf row.signalId.toList)

/-- Whether the query selects the row; an index row needs the prices that are compared. -/
def selected : Bool :=
  !row.excludedId && row.status ≠ "VOID" &&
    (row.underlying ≠ "BANKNIFTY" ||
      row.optionStrike.any (· < 55000) && row.spotPriceAtCreation.any (40000 ≤ ·)) &&
    (row.underlying ≠ "NIFTY" || row.spotPriceAtCreation.any (22000 ≤ ·))

/-- The quantity of the trade; without one, that of its lots. -/
def tradeQty : Int := if row.quantity ≠ 0 then row.quantity else row.lots * row.lotSize

def isClosed : Bool :=
  row.status ∈ ["WON", "LOST", "CLOSED", "TIME_STOP_HIT", "STOP_LOSS_HIT", "TARGET_2_HIT"]

def auditRecord (clock : RestoreClock) : Audit.AuditTradeRecord :=
  let record : Audit.AuditTradeRecord :=
    { signalId := row.signalId
      underlying := row.underlying
      direction := row.direction
      optionSymbol := row.optionSymbol
      optionType := row.optionType
      optionStrike := row.optionStrike
      lotSize := row.lotSize
      lots := row.lots
      quantity := if row.quantity ≠ 0 then row.quantity else 75
      triggerPrice := row.triggerPrice.getD 0
      paperOrderId := row.paperOrderId
      paperSide := row.paperSide
      actualFillPrice := row.premium row.actualFillPrice
      executedAtUtc := row.executedAtUtc
      exitPrice := row.premium row.exitPrice
      exitedAtUtc := row.exitedAtUtc
      exitReason := row.exitReason
      actualPnlInr := row.actualPnlInr
      actualPnlPoints := row.actualPnlPoints
      status := row.status
      isWinner :=
        match row.actualPnlInr with
        | some pnl => some (decide (0 < pnl))
        | none => row.isWinner
      stateHistory := row.stateHistory
      createdAtUtc := row.createdAtUtc
      updatedAtUtc := row.updatedAtUtc }
  record.restored clock.usable

end ExecutedSignal

def validFsmStates : List (String × SignalFsmState) :=
  [.detected, .validated, .armed, .triggered, .confirmed, .target1Hit, .target2Hit, .stopLossHit,
    .timeStopHit, .runnerTimeStopHit, .expired, .invalidated, .closed].map (fun state => (state.label, state))

/-- The state that a restore takes a stored status for. -/
def resolvedFsmState (status : String) : SignalFsmState :=
  match validFsmStates.lookup status with
  | some state => state
  | none =>
    if status ∈ ["EXECUTED", "ACTIVE", "OPEN"] then .confirmed
    else if status = "WON" then .target1Hit
    else if status = "LOST" then .stopLossHit
    else if status ∈ ["CANCELLED", "CANCEL"] then .closed
    else .armed

def directionOf (text : String) : Direction :=
  if text = "LONG_CALL" then .longCall
  else if text = "LONG_PUT" then .longPut
  else .other (Text.hasText text "CALL" || Text.hasText text "PUT")

namespace ExecutedSignal
variable (row : ExecutedSignal)

/-- The instance built of the row; its deadline and its last update are those of the construction. -/
def signalInstance (clock : RestoreClock) : SignalInstance where
  signalId := row.signalId
  underlying := row.underlying
  direction := directionOf row.direction
  spotPrice := row.spotPriceAtCreation.getD 0
  entryMin := row.triggerPrice.getD 0
  entryMax := row.triggerPrice.getD 0
  trigger := row.triggerPrice.getD 0
  stopLoss := row.stopLoss.getD 0
  target1 := row.target1.getD 0
  target2 := row.target2.getD 0
  riskRewardT1 := (truthy row.riskRewardT1).getD (3 / 2)
  riskRewardT2 := (truthy row.riskRewardT2).getD 3
  optionContract := row.optionContract
  isScalp := row.isScalp.getD false
  initialStopLoss := some (row.stopLoss.getD 0)
  currentStopLoss := some ((truthy row.currentStopLoss).getD (row.stopLoss.getD 0))
  breakevenActivated := row.breakevenActivated.getD false
  timeStopSeconds := row.timeStopSeconds
  timeStopAtUtc := row.timeStopAtUtc
  runnerTimeStopAtUtc := row.runnerTimeStopAtUtc
  runnerTtlSeconds := row.runnerTtlSeconds
  lots := some row.lots
  quantity := some row.tradeQty
  t1Hit := row.t1Hit.getD false
  entryPrice := row.premium row.actualFillPrice
  actualFillPrice := row.premium row.actualFillPrice
  remainingQty := row.remainingQty.getD (if row.isClosed then 0 else row.tradeQty)
  intendedQty := row.tradeQty
  fsmState := resolvedFsmState row.status
  createdAtUtc := row.createdAtUtc
  expiresAtUtc := clock.nowMs + DEFAULT_SIGNAL_TTL_MS
  lastUpdatedUtc := clock.nowMs
  paperOrder :=
    (row.premium row.actualFillPrice).map fun _ =>
      { symbol := (givenText row.optionSymbol).getD (row.underlying ++ "_OPT"), quantity := row.tradeQty }

/-- The record of a row whose reconciliation was not stored: its entry, and no stage. -/
def stub : Option Reconciliation :=
  match row.premium row.actualFillPrice with
  | some fill =>
    if 0 < fill ∧ row.status ∈ ["EXECUTED", "TARGET_1_HIT", "CONFIRMED"] then
      let intended := if row.quantity ≠ 0 then row.quantity else 75
      let lot := if row.lotSize ≠ 0 then row.lotSize else 75
      let lots := max 1 (intended / max 1 lot)
      some
        { record :=
            { optionType := row.optionType
              strike := truthy row.optionStrike
              lotSize := lot
              intendedQty := intended
              remainingQty := max 0 ((truthy row.remainingQty).getD intended)
              t1Qty := if row.t1Hit.getD false then min intended (max 1 (lots / 2) * max 1 lot) else 0
              entryFillPrice := fill
              fills :=
                [{ stage := .entry, price := fill, quantity := intended
                   timestampUtc := (truthy row.executedAtUtc).getD row.createdAtUtc
                   turnover := roundTo 2 (fill * intended) }]
              synthetic := true }
          createdAtUtc := row.createdAtUtc
          updatedAtUtc := (truthy (some row.updatedAtUtc)).getD row.createdAtUtc }
    else none
  | none => none

/-- The entry reconciled again for the instance; of a closed row the record is closed, with the row's profit. -/
def reconciledEntry (clock : RestoreClock) (fill : ℚ) : SignalInstance × Reconciliation :=
  let (sig, record, ok) :=
    reconcileEntry clock.nowMs (row.signalInstance clock) fill row.tradeQty (some row.lotSize)
  let record :=
    if ok ∧ row.isClosed then
      { record with
        remainingQty := 0
        isFullyClosed := true
        netRealizedPnlInr := row.actualPnlInr.getD record.netRealizedPnlInr }
    else record
  (sig, { record, createdAtUtc := clock.nowMs, updatedAtUtc := clock.nowMs })

end ExecutedSignal

end Droid.Restore
