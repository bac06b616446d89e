import Droid.Vortex.CostModel
import Droid.Lib.Text
import Droid.Lib.Run

/-! The event-driven backtest: one bar after the other, exits, fills and detection in this order. -/
namespace Droid.Vortex
open Lib Lib.Text

/-! ### Market data -/

structure Candle where
  timestamp : Int
  openPrice : ℚ
  high : ℚ
  low : ℚ
  close : ℚ
  volume : ℚ
  deriving DecidableEq, Repr

structure HistoricalBarContext where
  timestampMs : Int
  candle1m : Candle
  history1m : List Candle
  pdh : Option ℚ := none
  pdl : Option ℚ := none
  pdc : Option ℚ := none
  cdo : Option ℚ := none
  vwap : Option ℚ := none
  deriving DecidableEq, Repr

/-! ### The strategy -/

structure Indicators where
  pdh : ℚ
  pdl : ℚ
  pdc : ℚ
  cdo : ℚ
  vwap : ℚ
  underlyingPrice : ℚ

structure StrategyContext where
  underlying : String
  spotPrice : ℚ
  timestampMs : Int
  candles : List Candle
  indicators : Indicators

structure SignalCandidate where
  direction : String
  trigger : ℚ
  stopLoss : ℚ
  target1 : ℚ
  target2 : ℚ
  overallConfidence : ℚ
  rationale : List String := []
  deriving DecidableEq, Repr

inductive SessionPhase where
  | preOpen | marketOpen | openingRange | normalIntraday | lateSession | forcedSquareOff | closed
  deriving DecidableEq, Repr

structure MarketSessionInfo where
  sessionPhase : SessionPhase
  isForcedSquareOff : Bool
  deriving DecidableEq, Repr

/-- Any strategy with its state: what it detects in a context, and the session of a timestamp. -/
structure VortexStrategy (σ : Type) where
  reset : σ
  detect : σ → StrategyContext → Option SignalCandidate × σ
  evaluate : Int → MarketSessionInfo
  atrLongPeriod : Int := 20

/-! ### Orders, positions and trades -/

structure PendingOrder where
  instrument : String
  direction : String
  directionSign : Int
  triggerPrice : ℚ
  stopLoss : ℚ
  target1 : ℚ
  target2 : ℚ
  expectedMove : ℚ
  expectedHoldingMinutes : ℚ
  confidence : ℚ
  reasonCodes : List String
  signalTimestampMs : Int
  deriving DecidableEq, Repr

structure Leg where
  quantity : Int
  points : ℚ
  gross : ℚ
  friction : ℚ
  deriving DecidableEq, Repr

/-- What a position went through, which the engine does not keep: the bar that filled it, its first
stop, the bar of its first target and the exits booked. -/
structure History where
  entryBar : Nat
  initialStop : ℚ
  t1Bar : Option Nat := none
  legs : List Leg := []
  deriving DecidableEq, Repr

structure ActivePosition where
  tradeId : Nat
  instrument : String
  direction : String
  directionSign : Int
  entryTimeMs : Int
  entryPrice : ℚ
  quantity : Int
  stopLoss : ℚ
  target1 : ℚ
  target2 : ℚ
  expectedHoldingMinutes : ℚ
  confidence : ℚ
  reasonCodes : List String
  holdingBars : Nat := 0
  t1Hit : Bool := false
  halfClosedPnl : ℚ := 0
  halfClosedPoints : ℚ := 0
  halfClosedGross : ℚ := 0
  halfClosedFriction : ℚ := 0
  history : History
  deriving DecidableEq, Repr

def ActivePosition.counted (pos : ActivePosition) : ActivePosition :=
  { pos with holdingBars := pos.holdingBars + 1 }

inductive ExitReason where
  | squareOff | stopLoss | breakevenStop | target2 | target1 | timeDecay | endOfData
  deriving DecidableEq, Repr

/-- The last two fields are history. -/
structure BacktestTradeRecord where
  tradeId : Nat
  instrument : String
  direction : String
  directionSign : Int
  entryTimeMs : Int
  exitTimeMs : Int
  entryPrice : ℚ
  exitPrice : ℚ
  quantity : Int
  grossPnlPoints : ℚ
  grossPnlRupees : ℚ
  netPnlRupees : ℚ
  frictionRupees : ℚ
  exitReason : ExitReason
  holdingBars : Nat
  holdingMinutes : ℚ
  signalConfidence : ℚ
  reasonCodes : List String
  history : History
  exitBar : Nat
  deriving DecidableEq, Repr

/-! ### The engine -/

structure VortexBacktestEngine (σ : Type) where
  strategy : VortexStrategy σ
  costModel : TransactionCostModel := { }
  lotSize : Int := 25
  enableDynamicExits : Bool := true
  enableTimeDecay : Bool := true
  executionLagBars : Int := 1

structure LoopState (σ : Type) where
  strategyState : σ
  barIdx : Nat := 0
  trades : List BacktestTradeRecord := []
  tradeIdSeq : Nat := 0
  activePos : Option ActivePosition := none
  pendingOrder : Option PendingOrder := none
  pendingLagCounter : Int := 0

/-- The position's stop or target is on this side of the price. -/
def stopReached (sign : Int) (candle : Candle) (stop : ℚ) : Bool :=
  if 0 < sign then candle.low ≤ stop else stop ≤ candle.high

def targetReached (sign : Int) (candle : Candle) (target : ℚ) : Bool :=
  if 0 < sign then target ≤ candle.high else candle.low ≤ target

def effectiveLotSize (lotSize : Int) (instrument : String) : Int :=
  if lotSize = 25 then
    if hasText (upper instrument) "SENSEX" then 10 else if hasText (upper instrument) "BANK" then 15 else 25
  else lotSize

/-- What one bar does to a position. -/
inductive ExitDecision where
  | exit (price : ℚ) (reason : ExitReason)
  | scale
  | hold
  deriving DecidableEq, Repr

namespace VortexBacktestEngine
variable {σ : Type} (engine : VortexBacktestEngine σ) (instrument : String)

/-! ### Exits -/

def isSquareOff (ts : Int) : Bool :=
  let sessionInfo := engine.strategy.evaluate ts
  sessionInfo.sessionPhase ∈ [.forcedSquareOff, .closed] ∨ sessionInfo.isForcedSquareOff

/-- Which exit the bar takes, of a position that has counted it. -/
def decideExit (pos : ActivePosition) (ts : Int) (candle : Candle) : ExitDecision :=
  let slHit := stopReached pos.directionSign candle pos.stopLoss
  let t1Hit := targetReached pos.directionSign candle pos.target1
  let t2Hit := targetReached pos.directionSign candle pos.target2
  let holdingMins : ℚ := pos.holdingBars
  if engine.isSquareOff ts then .exit candle.close .squareOff
  else if slHit ∧ t1Hit ∧ ¬ pos.t1Hit then .exit pos.stopLoss .stopLoss
  else if slHit then .exit pos.stopLoss (if pos.t1Hit then .breakevenStop else .stopLoss)
  else if t2Hit ∧ pos.t1Hit then .exit pos.target2 .target2
  else if t1Hit ∧ ¬ pos.t1Hit then
    if engine.enableDynamicExits then .scale else .exit pos.target1 .target1
  else if engine.enableTimeDecay ∧ max (pos.expectedHoldingMinutes * 2) 15 ≤ holdingMins then
    .exit candle.close .timeDecay
  else .hold

def bookLeg (pos : ActivePosition) (candle : Candle) (exitPrice : ℚ) (quantity : Int) : Leg :=
  let spotMove := (exitPrice - pos.entryPrice) * pos.directionSign
  let delta : ℚ := if 2000 < pos.entryPrice then 1 / 2 else 1
  let points := spotMove * delta
  let barAtr := max 5 |candle.high - candle.low|
  { quantity, points
    gross := points * quantity
    friction := (engine.costModel.calculateRoundTrip pos.entryPrice exitPrice quantity barAtr).totalFriction }

/-- Half exits at the first target, the rest runs with its stop at the entry. -/
def scaleOut (pos : ActivePosition) (barIdx : Nat) (candle : Candle) : ActivePosition :=
  let half := engine.bookLeg pos candle pos.target1 (pos.quantity / 2)
  { pos with
    t1Hit := true
    halfClosedPnl := half.gross - half.friction
    halfClosedPoints := half.points
    halfClosedGross := half.gross
    halfClosedFriction := half.friction
    stopLoss := pos.entryPrice
    history := { pos.history with
      t1Bar := some barIdx
      legs := pos.history.legs ++ [half] } }

def closeTrade (pos : ActivePosition) (tradeId barIdx : Nat) (exitTimeMs : Int) (candle : Candle)
    (exitPrice : ℚ) (exitReason : ExitReason) : BacktestTradeRecord :=
  let remainingQty := if pos.t1Hit then pos.quantity / 2 else pos.quantity
  let rem := engine.bookLeg pos candle exitPrice remainingQty
  let remNet := rem.gross - rem.friction
  let totalNet := pos.halfClosedPnl + remNet
  let totalGross := (if pos.t1Hit then pos.halfClosedGross else 0) + rem.gross
  let totalFriction := pos.halfClosedFriction + rem.friction
  { tradeId, instrument
    direction := pos.direction
    directionSign := pos.directionSign
    entryTimeMs := pos.entryTimeMs
    exitTimeMs
    entryPrice := pos.entryPrice
    exitPrice
    quantity := pos.quantity
    grossPnlPoints := if 0 < pos.quantity then totalGross / pos.quantity else 0
    grossPnlRupees := totalGross
    netPnlRupees := totalNet
    frictionRupees := totalFriction
    exitReason
    holdingBars := pos.holdingBars
    holdingMinutes := pos.holdingBars
    signalConfidence := pos.confidence
    reasonCodes := pos.reasonCodes
    history := { pos.history with legs := pos.history.legs ++ [rem] }
    exitBar := barIdx }

def finalize (s : LoopState σ) (pos : ActivePosition) (barIdx : Nat) (exitTimeMs : Int) (candle : Candle)
    (exitPrice : ℚ) (exitReason : ExitReason) : LoopState σ :=
  { s with
    tradeIdSeq := s.tradeIdSeq + 1
    trades := s.trades ++
      [engine.closeTrade instrument pos (s.tradeIdSeq + 1) barIdx exitTimeMs candle exitPrice exitReason]
    activePos := none }

/-- 1. Evaluate active position exit conditions. -/
def evaluateExits (s : LoopState σ) (bar : HistoricalBarContext) : LoopState σ :=
  match s.activePos with
  | none => s
  | some pos =>
    let pos := pos.counted
    match engine.decideExit pos bar.timestampMs bar.candle1m with
    | .exit price reason =>
      engine.finalize instrument s pos s.barIdx bar.timestampMs bar.candle1m price reason
    | .scale => { s with activePos := some (engine.scaleOut pos s.barIdx bar.candle1m) }
    | .hold => { s with activePos := some pos }

/-! ### Fills and detection -/

def fillPrice (order : PendingOrder) (candle : Candle) : ℚ :=
  let slipPts := engine.costModel.baseSlippageTicks * engine.costModel.tickSize
  roundTo 2 (candle.openPrice + if 0 < order.directionSign then slipPts else -slipPts)

def openPosition (s : LoopState σ) (order : PendingOrder) (bar : HistoricalBarContext) : ActivePosition where
  tradeId := s.tradeIdSeq + 1
  instrument := order.instrument
  direction := order.direction
  directionSign := order.directionSign
  entryTimeMs := bar.timestampMs
  entryPrice := engine.fillPrice order bar.candle1m
  quantity := effectiveLotSize engine.lotSize instrument
  stopLoss := order.stopLoss
  target1 := order.target1
  target2 := order.target2
  expectedHoldingMinutes := order.expectedHoldingMinutes
  confidence := order.confidence
  reasonCodes := order.reasonCodes
  history := { entryBar := s.barIdx, initialStop := order.stopLoss }

/-- The order waits no longer than this bar. -/
def lagElapsed (s : LoopState σ) : Bool := engine.executionLagBars ≤ s.pendingLagCounter + 1

/-- 2. Fill pending order on current bar open. -/
def fillPending (s : LoopState σ) (bar : HistoricalBarContext) : LoopState σ :=
  match s.pendingOrder, s.activePos with
  | some order, none =>
    if engine.lagElapsed s then
      { s with
        activePos := some (engine.openPosition instrument s order bar)
        pendingOrder := none
        pendingLagCounter := 0 }
    else { s with pendingLagCounter := s.pendingLagCounter + 1 }
  | _, _ => s

def strategyContext (bar : HistoricalBarContext) (recent1m : List Candle) : StrategyContext where
  underlying := instrument
  spotPrice := roundTo 2 bar.candle1m.close
  timestampMs := bar.timestampMs
  candles := recent1m
  indicators :=
    { pdh := bar.pdh.getD 0
      pdl := bar.pdl.getD 0
      pdc := bar.pdc.getD 0
      cdo := bar.cdo.getD 0
      vwap := (bar.vwap.filter (· ≠ 0)).getD bar.candle1m.close
      underlyingPrice := bar.candle1m.close }

def orderOf (candidate : SignalCandidate) (ts : Int) : PendingOrder where
  instrument := instrument
  direction := candidate.direction
  directionSign := if hasText candidate.direction "CALL" ∨ hasText candidate.direction "LONG" then 1 else -1
  triggerPrice := candidate.trigger
  stopLoss := candidate.stopLoss
  target1 := candidate.target1
  target2 := candidate.target2
  expectedMove := candidate.target1 - candidate.trigger
  expectedHoldingMinutes := 6
  confidence := candidate.overallConfidence
  reasonCodes := candidate.rationale
  signalTimestampMs := ts

/-- 3. Strategy detection for next bar. -/
def detect (s : LoopState σ) (bar : HistoricalBarContext) : LoopState σ :=
  if s.activePos = none ∧ s.pendingOrder = none then
    let recent1m := bar.history1m.drop (bar.history1m.length - 60)
    if engine.strategy.atrLongPeriod ≤ recent1m.length then
      match engine.strategy.detect s.strategyState (strategyContext instrument bar recent1m) with
      | (none, state) => { s with strategyState := state }
      | (some candidate, state) =>
        { s with
          strategyState := state
          pendingOrder := some (orderOf instrument candidate bar.timestampMs)
          pendingLagCounter := 0 }
    else s
  else s

/-! ### The run -/

def step (s : LoopState σ) (bar : HistoricalBarContext) : LoopState σ :=
  let s := engine.detect instrument
    (engine.fillPending instrument (engine.evaluateExits instrument s bar) bar) bar
  { s with barIdx := s.barIdx + 1 }

def start : LoopState σ where
  strategyState := engine.strategy.reset

def loop (bars : List HistoricalBarContext) : LoopState σ := run (engine.step instrument) engine.start bars

/-- Close any lingering active position at end of backtest data. -/
def closeLingering (s : LoopState σ) (last : HistoricalBarContext) : LoopState σ :=
  match s.activePos with
  | none => s
  | some pos =>
    engine.finalize instrument s pos (s.barIdx - 1) last.candle1m.timestamp last.candle1m
      last.candle1m.close .endOfData

def runTrades (bars : List HistoricalBarContext) : List BacktestTradeRecord :=
  match bars.getLast? with
  | none => []
  | some last => (engine.closeLingering instrument (engine.loop instrument bars) last).trades

end VortexBacktestEngine

end Droid.Vortex
