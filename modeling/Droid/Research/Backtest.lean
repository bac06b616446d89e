import Droid.Lib.Rounding

/-! The sequential backtest: fills, sizing, exits and the equity curve of one run. -/
namespace Droid.Research
open Lib

inductive Leg where
  | buy | sell
  deriving DecidableEq, Repr

/-- Costs in basis points of notional; a cost field is validated as non-negative. -/
structure CostModel where
  slippageBps : ℚ := 2
  brokerageBps : ℚ := 3
  exchangeBps : ℚ := 19 / 100
  sebiBps : ℚ := 1 / 100
  gstOnFeesPct : ℚ := 18
  sttSellBps : ℚ := 125 / 100
  stampBuyBps : ℚ := 20 / 100
  nonneg : 0 ≤ slippageBps ∧ 0 ≤ brokerageBps ∧ 0 ≤ exchangeBps ∧ 0 ≤ sebiBps ∧ 0 ≤ gstOnFeesPct ∧
    0 ≤ sttSellBps ∧ 0 ≤ stampBuyBps := by decide +kernel

namespace CostModel
variable (costs : CostModel)

/-- `_fee_bps`, slippage apart. -/
def feeBps (leg : Leg) : ℚ :=
  let taxable := costs.brokerageBps + costs.exchangeBps + costs.sebiBps
  let gst := taxable * (costs.gstOnFeesPct / 100)
  taxable + gst + (match leg with | .sell => costs.sttSellBps | .buy => costs.stampBuyBps)

/-- Buying pays up, selling receives less. -/
def fillPrice (price : ℚ) (leg : Leg) : ℚ :=
  if price ≤ 0 then price
  else
    let factor := 1 + costs.slippageBps / 10000
    match leg with
    | .buy => price * factor
    | .sell => price / factor

def feeAmount (notional : ℚ) (leg : Leg) : ℚ := |notional| * costs.feeBps leg / 10000

end CostModel

inductive EntryFill where
  | nextOpen | signalClose
  deriving DecidableEq, Repr

inductive SizeMode where
  | fixedFraction | fixedUnits
  deriving DecidableEq, Repr

inductive StopMode where
  | none | percent | atr | points
  deriving DecidableEq, Repr

inductive PositionSide where
  | long | short
  deriving DecidableEq, Repr

def PositionSide.direction : PositionSide → ℚ
  | .long => 1
  | .short => -1

def PositionSide.entryLeg : PositionSide → Leg
  | .long => .buy
  | .short => .sell

def PositionSide.exitLeg : PositionSide → Leg
  | .long => .sell
  | .short => .buy

inductive ExitReason where
  | stopLoss | takeProfit | maxBars | oppositeSignal | sessionClose | endOfData
  deriving DecidableEq, Repr

inductive EntryBasis where
  | open | close
  deriving DecidableEq, Repr

inductive Regime where
  | unknown | range | trendUp | trendDown
  deriving DecidableEq, Repr

structure ExecutionSettings where
  entryFill : EntryFill := .nextOpen
  sizeMode : SizeMode := .fixedFraction
  initialCapital : ℚ := 1000000
  allocationPct : ℚ := 1
  fixedUnits : ℚ := 1
  leverage : ℚ := 1

structure ExitSettings where
  stopMode : StopMode := .none
  stopValue : ℚ := 0
  targetMode : StopMode := .none
  targetValue : ℚ := 0
  maxBarsHeld : Option Int := none
  exitOnOpposite : Bool := true
  allowLong : Bool := true
  allowShort : Bool := true
  exitAtSessionClose : Bool := false

structure Settings where
  execution : ExecutionSettings := {}
  exits : ExitSettings := {}
  costs : CostModel := {}

/-- One index of the candles, the signals and the `atr` column, which are aligned; a price that is
no finite number is missing. `istMinutes` is the minute of the IST day. -/
structure Bar where
  time : Option String := none
  istMinutes : Option Nat := none
  open? : Option ℚ
  high? : Option ℚ
  low? : Option ℚ
  close? : Option ℚ
  longSignal : Bool := false
  shortSignal : Bool := false
  atr : Option ℚ := none
  deriving DecidableEq, Repr

structure Prices where
  o : ℚ
  h : ℚ
  lo : ℚ
  c : ℚ
  deriving DecidableEq, Repr

def Bar.prices (bar : Bar) : Option Prices :=
  match bar.open?, bar.high?, bar.low?, bar.close? with
  | some o, some h, some lo, some c => some ⟨o, h, lo, c⟩
  | _, _, _, _ => none

structure Position where
  side : PositionSide
  signalIndex : Nat
  signalTime : Option String
  entryIndex : Nat
  entryTime : Option String
  entryReference : ℚ
  entryPrice : ℚ
  entryBasis : EntryBasis
  quantity : ℚ
  stop : Option ℚ
  target : Option ℚ
  mfe : ℚ := 0
  mae : ℚ := 0
  equityBefore : ℚ
  regime : Regime
  deriving DecidableEq, Repr

/-- A close before its figures are rounded for the report. -/
structure Closing where
  position : Position
  referencePrice : ℚ
  fill : ℚ
  gross : ℚ
  slippageCost : ℚ
  fees : ℚ
  net : ℚ
  equityAfter : ℚ
  deriving DecidableEq, Repr

def Closing.totalCosts (x : Closing) : ℚ := x.slippageCost + x.fees

/-- One round trip as reported, next to the unrounded close it reports; the labels that only repeat
`entryTime` and `barsHeld` are left out. -/
structure Trade where
  tradeId : Nat := 0
  side : PositionSide
  signalIndex : Nat
  signalTime : Option String
  entryIndex : Nat
  entryTime : Option String
  entryPrice : ℚ
  entryReferencePrice : ℚ
  exitIndex : Nat
  exitTime : Option String
  exitPrice : ℚ
  exitReferencePrice : ℚ
  exitReason : ExitReason
  quantity : ℚ
  entryNotional : ℚ
  exitNotional : ℚ
  barsHeld : Nat
  grossPnl : ℚ
  costs : ℚ
  netPnl : ℚ
  returnPct : ℚ
  mae : ℚ
  mfe : ℚ
  maePct : ℚ
  mfePct : ℚ
  stopPrice : Option ℚ
  targetPrice : Option ℚ
  equityBefore : ℚ
  equityAfter : ℚ
  regime : Regime
  closing : Closing
  deriving DecidableEq, Repr

structure EquityPoint where
  index : Nat
  time : Option String
  equity : ℚ
  drawdownPct : ℚ
  inPosition : Bool
  deriving DecidableEq, Repr

structure State where
  equity : ℚ
  peak : ℚ
  position : Option Position := none
  pendingEntry : Option (Nat × PositionSide) := none
  pendingExit : Option (Nat × ExitReason) := none
  trades : List Trade := []
  equityCurve : List EquityPoint := []
  deriving DecidableEq, Repr

/-! The regime label of a bar. -/

def regimeLookback : Nat := 50

/-- The sum of the moves from one value to the next. -/
def pathLength : List ℚ → ℚ
  | a :: b :: rest => |b - a| + pathLength (b :: rest)
  | _ => 0

/-- `classify_regime`: the efficiency ratio of the closes up to the bar. -/
def classifyRegime (bars : List Bar) (index : Nat) : Regime :=
  let start := index + 1 - regimeLookback
  if index - start + 1 < 10 then .unknown
  else
    let closes := (List.range (index - start + 1)).map fun k => bars[start + k]?.bind Bar.close?
    match closes.mapM id with
    | none => .unknown
    | some values =>
      let first := values.headD 0
      let last := values.getLastD 0
      let path := pathLength values
      if path ≤ 0 then .unknown
      else if |last - first| / path < 3 / 10 then .range
      else if last > first then .trendUp
      else .trendDown

section
variable (cfg : Settings)

/-! One position. -/

def sized (equity fill : ℚ) : ℚ :=
  match cfg.execution.sizeMode with
  | .fixedUnits => cfg.execution.fixedUnits
  | .fixedFraction =>
    let notional := equity * cfg.execution.allocationPct * cfg.execution.leverage
    if fill > 0 then notional / fill else 0

/-- `_level`: an absolute stop or target, or none when it is off. -/
def level (mode : StopMode) (value fill : ℚ) (atr : Option ℚ) (direction : ℚ) (isStop : Bool) :
    Option ℚ :=
  let distance : Option ℚ :=
    if value ≤ 0 then none
    else match mode with
      | .none => none
      | .percent => some (fill * value / 100)
      | .points => some value
      | .atr => atr.map (· * value)
  distance.map fun d =>
    if isStop then (if direction > 0 then fill - d else fill + d)
    else (if direction > 0 then fill + d else fill - d)

def openPosition (side : PositionSide) (signalIndex : Nat) (signalTime : Option String)
    (entryIndex : Nat) (entryTime : Option String) (referencePrice equity : ℚ) (atr : Option ℚ)
    (entryBasis : EntryBasis) (regime : Regime) : Position :=
  let fill := cfg.costs.fillPrice referencePrice side.entryLeg
  let exits := cfg.exits
  { side, signalIndex, signalTime, entryIndex, entryTime, entryBasis, regime
    entryReference := referencePrice
    entryPrice := fill
    quantity := sized cfg equity fill
    stop := level exits.stopMode exits.stopValue fill atr side.direction true
    target := level exits.targetMode exits.targetValue fill atr side.direction false
    equityBefore := equity }

/-- `_exit_trigger`: the gap at the open first, then the stop before the target, then time. -/
def exitTrigger (p : Position) (index : Nat) (bar : Prices) (istMinutes : Option Nat) :
    Option (ℚ × ExitReason) :=
  let long := p.side = .long
  let gapStop := p.stop.any fun stop => if long then bar.o ≤ stop else bar.o ≥ stop
  let gapTarget := p.target.any fun target => if long then bar.o ≥ target else bar.o ≤ target
  let hitStop := p.stop.filter fun stop => if long then bar.lo ≤ stop else bar.h ≥ stop
  let hitTarget := p.target.filter fun target => if long then bar.h ≥ target else bar.lo ≤ target
  if gapStop then some (bar.o, .stopLoss)
  else if gapTarget then some (bar.o, .takeProfit)
  else match hitStop, hitTarget with
    | some stop, _ => some (stop, .stopLoss)
    | none, some target => some (target, .takeProfit)
    | none, none =>
      if cfg.exits.maxBarsHeld.any fun bars => (index : Int) - p.entryIndex ≥ bars then
        some (bar.c, .maxBars)
      else if cfg.exits.exitAtSessionClose ∧ istMinutes.any (· ≥ 15 * 60 + 20) then
        some (bar.c, .sessionClose)
      else none

/-- The figures of `_close`: gross at reference prices, slippage and fees as costs. -/
def closing (p : Position) (referencePrice : ℚ) : Closing :=
  let fill := cfg.costs.fillPrice referencePrice p.side.exitLeg
  let entryNotional := p.entryPrice * p.quantity
  let exitNotional := fill * p.quantity
  let gross := (referencePrice - p.entryReference) * p.quantity * p.side.direction
  let slippagePerUnit := |p.entryPrice - p.entryReference| + |fill - referencePrice|
  let slippageCost := slippagePerUnit * p.quantity
  let fees := cfg.costs.feeAmount entryNotional .buy + cfg.costs.feeAmount exitNotional .sell
  let net := gross - (slippageCost + fees)
  { position := p, referencePrice, fill, gross, slippageCost, fees, net,
    equityAfter := p.equityBefore + net }

def report (index : Nat) (time : Option String) (reason : ExitReason) (x : Closing) : Trade :=
  let p := x.position
  let mae := max 0 p.mae
  let mfe := max 0 p.mfe
  { side := p.side
    signalIndex := p.signalIndex
    signalTime := p.signalTime
    entryIndex := p.entryIndex
    entryTime := p.entryTime
    entryPrice := roundTo 6 p.entryPrice
    entryReferencePrice := roundTo 6 p.entryReference
    exitIndex := index
    exitTime := time
    exitPrice := roundTo 6 x.fill
    exitReferencePrice := roundTo 6 x.referencePrice
    exitReason := reason
    quantity := roundTo 8 p.quantity
    entryNotional := roundTo 4 (p.entryPrice * p.quantity)
    exitNotional := roundTo 4 (x.fill * p.quantity)
    barsHeld := index - p.entryIndex
    grossPnl := roundTo 4 x.gross
    costs := roundTo 4 x.totalCosts
    netPnl := roundTo 4 x.net
    returnPct := roundTo 6 (if p.equityBefore = 0 then 0 else 100 * x.net / p.equityBefore)
    mae := roundTo 6 mae
    mfe := roundTo 6 mfe
    maePct := if p.entryReference = 0 then 0 else roundTo 4 (100 * mae / p.entryReference)
    mfePct := if p.entryReference = 0 then 0 else roundTo 4 (100 * mfe / p.entryReference)
    stopPrice := p.stop
    targetPrice := p.target
    equityBefore := roundTo 4 p.equityBefore
    equityAfter := roundTo 4 x.equityAfter
    regime := p.regime
    closing := x }

def closePosition (p : Position) (index : Nat) (time : Option String) (referencePrice : ℚ)
    (reason : ExitReason) : Trade :=
  report index time reason (closing cfg p referencePrice)

def State.close (s : State) (p : Position) (index : Nat) (time : Option String) (referencePrice : ℚ)
    (reason : ExitReason) : State :=
  let trade := closePosition cfg p index time referencePrice reason
  { s with equity := trade.equityAfter, trades := s.trades ++ [trade], position := none }

/-! One bar, phase by phase; the flag says that a position was closed on it. -/

variable (bars : List Bar) (bar : Bar) (i : Nat)

/-- (0) An opposite-signal exit queued at the previous close fills now. -/
def fillPendingExit (s : State) : State × Bool :=
  match s.position, s.pendingExit with
  | some p, some (queued, reason) =>
    if queued + 1 = i then
      match bar.prices with
      | some prices => ({ s.close cfg p i bar.time prices.o reason with pendingExit := none }, true)
      | none => ({ s with pendingExit := none }, false)
    else (s, false)
  | _, _ => (s, false)

def entryAllowed (side : PositionSide) : Bool :=
  match side with
  | .long => cfg.exits.allowLong
  | .short => cfg.exits.allowShort

def dueEntry (s : State) : Option PositionSide :=
  match s.position, s.pendingEntry with
  | none, some (queued, side) => if queued + 1 = i then some side else none
  | _, _ => none

def entryFill (s : State) : Option Position :=
  match dueEntry i s, bar.prices with
  | some side, some prices =>
    if entryAllowed cfg side then
      some (openPosition cfg side (i - 1) (bars[i - 1]?.bind Bar.time) i bar.time prices.o s.equity
        bar.atr .open (classifyRegime bars i))
    else none
  | _, _ => none

/-- (1) A queued next-open entry fills at this bar's open. -/
def fillPendingEntry (t : State × Bool) : State × Bool :=
  if (dueEntry i t.1).isSome then
    ({ t.1 with position := entryFill cfg bars bar i t.1, pendingEntry := none }, t.2)
  else t

/-- (2) Price-based exits on the current bar. -/
def takePriceExit (t : State × Bool) : State × Bool :=
  match t.1.position, bar.prices with
  | some p, some prices =>
    match exitTrigger cfg p i prices bar.istMinutes with
    | some (price, reason) => (t.1.close cfg p i bar.time price reason, true)
    | none => t
  | _, _ => t

def signalSide : Option PositionSide :=
  if bar.longSignal ∧ cfg.exits.allowLong then some .long
  else if bar.shortSignal ∧ cfg.exits.allowShort then some .short
  else none

/-- (3) New signals, read at this bar's close; on the final bar a next-open entry never fills. -/
def readSignals (t : State × Bool) : State × Bool :=
  match t.1.position, t.2, bar.prices, signalSide cfg bar with
  | none, false, some prices, some side =>
    match cfg.execution.entryFill with
    | .nextOpen =>
      if i + 1 < bars.length then ({ t.1 with pendingEntry := some (i, side) }, t.2) else t
    | .signalClose =>
      let p := openPosition cfg side i bar.time i bar.time prices.c t.1.equity bar.atr .close
        (classifyRegime bars i)
      ({ t.1 with pendingEntry := none, position := some p }, t.2)
  | _, _, _, _ => t

/-- (4) Opposite-signal exit intent, acted on at the next open. -/
def queueOppositeExit (t : State × Bool) : State × Bool :=
  match t.1.position with
  | some p =>
    let opposite : Bool := match p.side with
      | .long => bar.shortSignal
      | .short => bar.longSignal
    if t.2 = false ∧ cfg.exits.exitOnOpposite ∧ i > p.entryIndex ∧ bar.prices.isSome ∧ opposite ∧
        t.1.pendingExit = none then
      ({ t.1 with pendingExit := some (i, .oppositeSignal) }, t.2)
    else t
  | none => t

/-- (5) Excursions; a close-based entry does not count the bar it was filled on. -/
def trackExcursions (t : State × Bool) : State × Bool :=
  match t.1.position, bar.prices with
  | some p, some prices =>
    if t.2 = false ∧ ¬ (p.entryBasis = .close ∧ i = p.entryIndex) then
      let up := prices.h - p.entryReference
      let down := p.entryReference - prices.lo
      let moved := match p.side with
        | .long => { p with mfe := max p.mfe up, mae := max p.mae down }
        | .short => { p with mfe := max p.mfe down, mae := max p.mae up }
      ({ t.1 with position := some moved }, t.2)
    else t
  | _, _ => t

def equityNow (s : State) : ℚ :=
  match s.position, bar.close? with
  | some p, some c => s.equity + (c - p.entryPrice) * p.quantity * p.side.direction
  | _, _ => s.equity

def markToMarket (s : State) : State :=
  let now := equityNow bar s
  let peak := max s.peak now
  let drawdown := if peak ≤ 0 then 0 else 100 * (peak - now) / peak
  { s with
    peak
    equityCurve := s.equityCurve ++
      [{ index := i, time := bar.time, equity := roundTo 4 now, drawdownPct := roundTo 6 drawdown,
         inPosition := s.position.isSome }] }

def barTurn (s : State) : State :=
  let t := fillPendingExit cfg bar i s
  let t := fillPendingEntry cfg bars bar i t
  let t := takePriceExit cfg bar i t
  let t := readSignals cfg bars bar i t
  let t := queueOppositeExit cfg bar i t
  let t := trackExcursions bar i t
  markToMarket bar i t.1

def step (s : State) (i : Nat) : State :=
  match bars[i]? with
  | some bar => barTurn cfg bars bar i s
  | none => s

def start : State where
  equity := cfg.execution.initialCapital
  peak := cfg.execution.initialCapital

def before (i : Nat) : State := (List.range i).foldl (step cfg bars) (start cfg)

/-- The last equity point once the trade that closed at the end of the data is in. -/
def closeCurve (peak : ℚ) (trade : Trade) (curve : List EquityPoint) : List EquityPoint :=
  match curve.getLast? with
  | none => curve
  | some final =>
    let equity := roundTo 4 trade.equityAfter
    curve.dropLast ++
      [{ final with
         equity
         drawdownPct := if peak > 0 then roundTo 6 (100 * (peak - equity) / peak)
           else final.drawdownPct
         inPosition := false }]

/-- Force-close anything still open at the last bar. -/
def closeAtEnd (s : State) : State :=
  match s.position, bars.getLast? with
  | some p, some last =>
    match last.close? with
    | some c =>
      let trade := closePosition cfg p (bars.length - 1) last.time c .endOfData
      { s with trades := s.trades ++ [trade], equityCurve := closeCurve s.peak trade s.equityCurve }
    | none => s
  | _, _ => s

structure Simulation where
  trades : List Trade
  equityCurve : List EquityPoint
  deriving DecidableEq, Repr

def numbered (trades : List Trade) : List Trade :=
  trades.mapIdx fun k trade => { trade with tradeId := k + 1 }

def simulate : Simulation :=
  let s := closeAtEnd cfg bars (before cfg bars bars.length)
  { trades := numbered s.trades, equityCurve := s.equityCurve }

end

end Droid.Research
