import Droid.Outcomes.Settlement

/-! The walk-forward gate: chronological folds with purge and embargo, a record for each settleable
candidate, and what is pooled of them. -/
namespace Droid.Validation
open Lib Lib.Text
open Outcomes (Direction Calendar classifyWindow minutes touches Touches PredictionOutcome)

/-! ### Candles and labels -/

/-- An hourly candle; a timestamp that does not parse and a price that is no number are none. Times are
in microseconds. -/
structure HourlyCandle where
  timestamp : Option Int
  close : Option ℚ
  high : Option ℚ
  low : Option ℚ
  deriving DecidableEq

/-- A number under a key of a dict. -/
inductive Entry where
  | missing
  | number (x : ℚ)
  | other
  deriving DecidableEq

def Entry.getD (e : Entry) (default : ℚ) : ℚ :=
  match e with
  | .number x => x
  | _ => default

structure Probs where
  bullish : ℚ
  neutral : ℚ
  bearish : ℚ
  deriving DecidableEq

/-- The entries of a dict of probabilities. -/
structure ProbEntries where
  bullish : Entry
  neutral : Entry
  bearish : Entry
  deriving DecidableEq

/-- What the label function does: raise, or return a direction, a dict, a thing that cannot be read, or
anything else by its text. -/
inductive LabelResult where
  | raised
  | direction (d : Direction)
  | forecast (direction : Option String) (confidence : Entry) (probabilities : Option ProbEntries) (score : Entry)
  | unreadable
  | text (s : String)

/-- The gate's surroundings: the label function if there is one (pure), the horizon of the hourly
forecast, the calendar, the clock (read where a timestamp does not parse) and the regime of a history. -/
structure Gate where
  labelFn : Option (List HourlyCandle → LabelResult) := none
  hCandles : Nat := 1
  hMinutes : Int := 60
  horizon : 0 < hCandles := by decide
  calendar : Calendar
  now : Int := 0
  determineMarketRegime : List ℚ → List ℚ → List ℚ → ℚ → Option String

structure Params where
  instrument : String := "NIFTY 50"
  warmup : Int := 100
  stride : Int := 1
  folds : Int := 5
  purgeBars : Int := 1
  embargoDays : Int := 1
  deriving DecidableEq

/-! ### Predictions -/

/-- `Direction(text.upper())`, NEUTRAL where there is no such member. -/
def directionOf (text : String) : Direction :=
  match [Direction.bullish, .bearish, .neutral, .unknown].find? (·.value = upper text) with
  | some d => d
  | none => .neutral

def wfDirectionToClass : Direction → String
  | .bullish => "bullish"
  | .bearish => "bearish"
  | _ => "neutral"

def wfProbsForDirection : Direction → Probs
  | .bullish => ⟨6 / 10, 2 / 10, 2 / 10⟩
  | .bearish => ⟨2 / 10, 2 / 10, 6 / 10⟩
  | _ => ⟨1 / 4, 1 / 2, 1 / 4⟩

def thirds : Probs := ⟨1 / 3, 1 / 3, 1 / 3⟩

def clip (lo hi x : ℚ) : ℚ := min hi (max lo x)

/-- A valid simplex: clipped and normalized, or thirds where that fails. -/
def wfNormalizeProbs (probs : Option ProbEntries) : Probs :=
  match probs with
  | none => thirds
  | some probs =>
    if probs.bullish = .other ∨ probs.neutral = .other ∨ probs.bearish = .other then thirds
    else
      let b := clip 0 1 (probs.bullish.getD (1 / 3))
      let n := clip 0 1 (probs.neutral.getD (1 / 3))
      let be := clip 0 1 (probs.bearish.getD (1 / 3))
      let s := b + n + be
      if 0 < s then ⟨b / s, n / s, be / s⟩ else thirds

structure Prediction where
  direction : Direction
  confidence : ℚ
  probs : Probs
  score : ℚ
  deriving DecidableEq

/-- Placeholder confidence and probabilities of a bare direction. -/
def Prediction.ofDirection (direction : Direction) (score : ℚ) : Prediction where
  direction := direction
  confidence := if direction ≠ .neutral then 6 / 10 else 34 / 100
  probs := wfProbsForDirection direction
  score := score

def scoreOf : Direction → ℚ
  | .bullish => 50
  | .bearish => -50
  | _ => 0

def naivePredict (past : List HourlyCandle) : Option Direction :=
  match past.reverse with
  | curr :: prev :: _ =>
    match prev.close, curr.close with
    | some prevClose, some currClose =>
      some (if prevClose < currClose then .bullish else if currClose < prevClose then .bearish else .neutral)
    | _, _ => none
  | _ => some .neutral

def buyAndHoldPredict (_past : List HourlyCandle) : Direction := .bullish

/-- The failures that drop a candidate. -/
inductive DropReason where
  | shortForward | labelFailed | labelParseFailed | missingClose | outcomeFailed
  deriving DecidableEq, Repr

namespace Gate
variable (gate : Gate)

def predict (past : List HourlyCandle) : Except DropReason Prediction :=
  match gate.labelFn with
  | none =>
    let direction := (naivePredict past).getD .neutral
    .ok (.ofDirection direction (scoreOf direction))
  | some labelFn =>
    match labelFn past with
    | .raised => .error .labelFailed
    | .unreadable => .error .labelParseFailed
    | .direction d => .ok (.ofDirection d (scoreOf d))
    | .text s => .ok (.ofDirection (directionOf s) 0)
    | .forecast direction confidence probabilities score => .ok
        { direction := (direction.map directionOf).getD .neutral
          confidence := clip 0 1 (confidence.getD (1 / 2))
          probs := wfNormalizeProbs probabilities
          score := clip (-100) 100 (score.getD 0) }

end Gate

/-! ### Outcomes -/

/-- `evaluate_forward_candles` of a prediction without levels; none where it raises. -/
def evaluateForwardCandles (direction : Direction) (entryPrice : ℚ) (forward : List HourlyCandle) :
    Option PredictionOutcome := do
  let last ← forward.getLast?
  let exitPrice ← last.close
  let bars : List (ℚ × ℚ) ← forward.mapM fun c => do return (← c.high, ← c.low)
  let actualMove := roundTo 2 (exitPrice - entryPrice)
  let actualPct := if 0 < entryPrice then roundTo 3 (actualMove / entryPrice * 100) else 0
  let actualDir : Direction :=
    if 0 < actualMove then .bullish else if actualMove < 0 then .bearish else .neutral
  let rise := (bars.map fun bar => bar.1 - entryPrice).foldl max 0
  let fall := (bars.map fun bar => entryPrice - bar.2).foldl max 0
  let (mfe, mae) :=
    match direction with
    | .bullish => (rise, fall)
    | .bearish => (fall, rise)
    | _ => (0, (bars.map fun bar => |bar.1 - entryPrice|).foldl max 0)
  let touched := touches direction none none bars
  return {
    predictionId := ""
    actualDirection := actualDir
    actualPriceMove := actualMove
    actualPctMove := actualPct
    entryPrice := roundTo 2 entryPrice
    exitPrice := roundTo 2 exitPrice
    mfe := roundTo 2 mfe
    mae := roundTo 2 mae
    targetHit := touched.targetHit
    stopHit := touched.stopHit
    timeToTargetSec := touched.timeToTargetSec
    isCorrect :=
      if direction = Direction.neutral then decide (|actualPct| < 1 / 10)
      else decide (direction = actualDir) && (!touched.stopHit || touched.targetHit)
    evaluatedAt := 0 }

def classifySessionIst (dt : Int) : String :=
  let totalMinutes := (dt + minutes 330) / minutes 1 % 1440
  if totalMinutes < 555 ∨ 930 ≤ totalMinutes then "CLOSED"
  else if totalMinutes < 585 then "OPENING"
  else if totalMinutes < 690 then "EARLY"
  else if totalMinutes < 810 then "MID"
  else if totalMinutes < 900 then "LATE"
  else "CLOSING"

/-! ### Records -/

structure Record where
  fold : Nat
  t : Nat
  direction : String
  predClass : String
  actualClass : String
  confidence : ℚ
  probs : Probs
  pMax : ℚ
  isCorrect : Bool
  mfe : ℚ
  mae : ℚ
  targetHit : Bool
  stopHit : Bool
  timeToTargetSec : Option ℚ
  traded : Bool
  baselineNaiveCorrect : Bool
  baselineBuyholdCorrect : Bool
  regime : String
  session : String
  deriving DecidableEq

/-- What is decided at a candidate, before its forward candles are looked at. -/
structure Decision where
  prediction : Prediction
  currPrice : ℚ
  naive : Direction
  buyAndHold : Direction
  regime : String
  session : String
  deriving DecidableEq

inductive Decided where
  | unsettleable (reason : String)
  | dropped (reason : DropReason)
  | made (decision : Decision)
  deriving DecidableEq

inductive Disposition where
  | recorded (record : Record)
  | unsettleable (reason : String)
  | dropped (reason : DropReason)
  deriving DecidableEq

def Decision.record (decision : Decision) (fold t : Nat) (outcome : PredictionOutcome) : Record where
  fold := fold
  t := t
  direction := decision.prediction.direction.value
  predClass := wfDirectionToClass decision.prediction.direction
  actualClass := wfDirectionToClass outcome.actualDirection
  confidence := decision.prediction.confidence
  probs := decision.prediction.probs
  pMax := max (max decision.prediction.probs.bullish decision.prediction.probs.neutral)
    decision.prediction.probs.bearish
  isCorrect := outcome.isCorrect
  mfe := outcome.mfe
  mae := outcome.mae
  targetHit := outcome.targetHit
  stopHit := outcome.stopHit
  timeToTargetSec := outcome.timeToTargetSec
  traded := decision.prediction.direction ≠ .neutral
  baselineNaiveCorrect := decision.naive = outcome.actualDirection
  baselineBuyholdCorrect := decision.buyAndHold = outcome.actualDirection
  regime := decision.regime
  session := decision.session

namespace Gate
variable (gate : Gate) (instrument : String)

def regimeOf (past : List HourlyCandle) (currPrice : ℚ) : String :=
  ((do
    let closes ← past.mapM (·.close)
    let highs ← past.mapM (·.high)
    let lows ← past.mapM (·.low)
    gate.determineMarketRegime closes highs lows currPrice) : Option String).getD "UNKNOWN"

/-- Why the window of a time is not settleable; a check that fails is passed. -/
def unsettleable (timestamp : Option Int) : Option String :=
  match timestamp with
  | none => none
  | some dt =>
    match classifyWindow gate.calendar instrument dt gate.hMinutes with
    | none => none
    | some window => if window.settleable then none else some window.reason

/-- Settleability, prediction, price and baselines at the last candle of the past. -/
def decideAt (past : List HourlyCandle) (dec : HourlyCandle) : Decided :=
  match gate.unsettleable instrument dec.timestamp with
  | some reason => .unsettleable reason
  | none =>
    match gate.predict past with
    | .error reason => .dropped reason
    | .ok prediction =>
      match dec.close with
      | none => .dropped .missingClose
      | some currPrice => .made
          { prediction, currPrice
            naive := (naivePredict past).getD .neutral
            buyAndHold := buyAndHoldPredict past
            regime := gate.regimeOf past currPrice
            session := classifySessionIst (dec.timestamp.getD gate.now) }

def dispose (candles : List HourlyCandle) (fold t : Nat) : Disposition :=
  let past := candles.take (t + 1)
  let forward := (candles.drop (t + 1)).take gate.hCandles
  if forward.length < gate.hCandles then .dropped .shortForward
  else
    match candles[t]? with
    | none => .dropped .shortForward
    | some dec =>
      match gate.decideAt instrument past dec with
      | .unsettleable reason => .unsettleable reason
      | .dropped reason => .dropped reason
      | .made decision =>
        match evaluateForwardCandles decision.prediction.direction decision.currPrice forward with
        | none => .dropped .outcomeFailed
        | some outcome => .recorded (decision.record fold t outcome)

end Gate

/-! ### Summaries -/

/-- The summary of a sample, but for its intervals, log loss, calibration and significance. -/
structure Metrics where
  n : Nat
  hitRate : ℚ
  baselineNaiveAccuracy : ℚ
  baselineBuyholdAccuracy : ℚ
  excessVsNaive : ℚ
  mfeMean : ℚ
  maeMean : ℚ
  targetHitRate : ℚ
  stopHitRate : ℚ
  turnover : ℚ
  nTraded : Nat
  deriving DecidableEq

def summarizeRecords (records : List Record) : Metrics :=
  let n := records.length
  let pct (test : Record → Bool) : ℚ := if n = 0 then 0 else roundTo 2 (records.countP test / n * 100)
  let mean (value : Record → ℚ) : ℚ := if n = 0 then 0 else roundTo 2 ((records.map value).sum / n)
  let nTraded := records.countP (·.traded)
  { n
    hitRate := pct (·.isCorrect)
    baselineNaiveAccuracy := pct (·.baselineNaiveCorrect)
    baselineBuyholdAccuracy := pct (·.baselineBuyholdCorrect)
    excessVsNaive := roundTo 2 (pct (·.isCorrect) - pct (·.baselineNaiveCorrect))
    mfeMean := mean (·.mfe)
    maeMean := mean (·.mae)
    targetHitRate := pct (·.targetHit)
    stopHitRate := pct (·.stopHit)
    turnover := if n = 0 then 0 else roundTo 4 (nTraded / n)
    nTraded }

/-! ### Folds -/

/-- The loop of `_wf_split_sequential` from a fold and a position on. -/
def wfSplitFrom (idxs : List Nat) (base rem : Nat) : Nat → Nat → Nat → List (List Nat)
  | _, _, 0 => []
  | f, pos, left + 1 =>
    let size := base + if f < rem then 1 else 0
    (idxs.drop pos).take size :: wfSplitFrom idxs base rem (f + 1) (pos + size) left

def wfSplitSequential (idxs : List Nat) (folds : Nat) : List (List Nat) :=
  wfSplitFrom idxs (idxs.length / folds) (idxs.length % folds) 0 0 folds

structure Counters where
  records : List Record := []
  nUnsettleable : Nat := 0
  unsettleableReasons : Dict String Nat := Dict.empty

def Counters.count (counters : Counters) : Disposition → Counters
  | .recorded record => { counters with records := counters.records ++ [record] }
  | .unsettleable reason =>
    { counters with
      nUnsettleable := counters.nUnsettleable + 1
      unsettleableReasons := counters.unsettleableReasons.insert reason
        ((counters.unsettleableReasons.get? reason).getD 0 + 1) }
  | .dropped _ => counters

structure FoldReport where
  fold : Nat
  trainStart : Option Nat
  trainEnd : Option Nat
  testStart : Nat
  testEnd : Nat
  nUnsettleable : Nat
  trainIndices : List Nat
  testIndices : List Nat
  sample : List Record
  metrics : Metrics

/-- The group of a value; an empty one is unknown. -/
def groupName (value : String) : String := if value = "" then "UNKNOWN" else value

/-- `groups.setdefault(g, []).append(r)`. -/
def addToGroup (key : Record → String) (groups : Dict String (List Record)) (r : Record) :
    Dict String (List Record) :=
  groups.insert (groupName (key r)) (((groups.get? (groupName (key r))).getD []) ++ [r])

def groupRecords (key : Record → String) (records : List Record) : List (String × List Record) :=
  (records.foldl (addToGroup key) Dict.empty).entries.mergeSort fun a b => decide (a.1 ≤ b.1)

def summarizeGroups (groups : List (String × List Record)) : List (String × Metrics) :=
  groups.map fun group => (group.1, summarizeRecords group.2)

structure Report where
  totalCandidates : Nat
  nSettleable : Nat
  nUnsettleable : Nat
  unsettleableReasons : Dict String Nat
  folds : List FoldReport
  pooledSample : List Record
  pooled : Metrics
  byInstrument : List (String × Metrics)
  byRegime : List (String × Metrics)
  bySession : List (String × Metrics)
  byDirection : List (String × Metrics)
  gapBars : Nat
  purgeRespected : Bool

inductive WalkForwardError where
  | folds (got : Int)
  | warmup
  | stride
  | purge
  | embargo
  | insufficientCandles (provided : Nat)
  | notEnoughCandidates (candidates : Nat)
  deriving DecidableEq

def wfBarsPerDay : Nat := 6

def candidateRange (start stop stride : Nat) : List Nat :=
  (List.range ((stop - start + stride - 1) / stride)).map fun k => start + k * stride

namespace Params
variable (params : Params)

def gapBars : Nat := params.purgeBars.toNat + params.embargoDays.toNat * wfBarsPerDay

def candidates (n1h hCandles : Nat) : List Nat :=
  candidateRange params.warmup.toNat (n1h - hCandles) params.stride.toNat

def check (n1h hCandles : Nat) : Except WalkForwardError Unit := do
  if params.folds < 5 then throw (.folds params.folds)
  if params.warmup < 1 then throw .warmup
  if params.stride < 1 then throw .stride
  if params.purgeBars < 0 then throw .purge
  if params.embargoDays < 0 then throw .embargo
  if (n1h : Int) < params.warmup + params.folds + hCandles then throw (.insufficientCandles n1h)
  if ((params.candidates n1h hCandles).length : Int) < params.folds then
    throw (.notEnoughCandidates (params.candidates n1h hCandles).length)

end Params

namespace Gate
variable (gate : Gate) (params : Params) (candles : List HourlyCandle)

def trainIndices (candidates : List Nat) (testStart : Nat) : List Nat :=
  candidates.filter fun c : Nat => (c : Int) ≤ (testStart : Int) - params.gapBars - 1

def dispositions (chunk : List Nat × Nat) : List Disposition :=
  chunk.1.map (gate.dispose params.instrument candles chunk.2)

def foldReport (candidates : List Nat) (chunk : List Nat × Nat) (testStart testEnd : Nat) : FoldReport :=
  let train := trainIndices params candidates testStart
  let counters := (gate.dispositions params candles chunk).foldl Counters.count { }
  { fold := chunk.2
    trainStart := train.min?
    trainEnd := train.max?
    testStart, testEnd
    nUnsettleable := counters.nUnsettleable
    trainIndices := train
    testIndices := chunk.1
    sample := counters.records
    metrics := summarizeRecords counters.records }

/-- One fold, on the reports and counters of the run; an empty one is passed over. -/
def runFold (candidates : List Nat) (acc : List FoldReport × Counters) (chunk : List Nat × Nat) :
    List FoldReport × Counters :=
  match chunk.1.min?, chunk.1.max? with
  | some testStart, some testEnd =>
    (acc.1 ++ [gate.foldReport params candles candidates chunk testStart testEnd],
      (gate.dispositions params candles chunk).foldl Counters.count acc.2)
  | _, _ => acc

/-- Training stays clear of the test block by more than the purge. -/
def foldRespectsPurge (fold : FoldReport) : Bool :=
  match fold.trainIndices.max?, fold.testIndices.min? with
  | some trainMax, some testMin =>
    (fold.trainIndices.all fun c => c ∉ fold.testIndices) &&
      decide (params.purgeBars < (testMin : Int) - trainMax)
  | _, _ => true

/-- What is pooled of the folds, and the audit of their indices. -/
def report (candidates : List Nat) (foldReports : List FoldReport) (counters : Counters) : Report :=
  let pooled := summarizeRecords counters.records
  { totalCandidates := candidates.length
    nSettleable := pooled.n
    nUnsettleable := counters.nUnsettleable
    unsettleableReasons := counters.unsettleableReasons
    folds := foldReports
    pooledSample := counters.records
    pooled
    byInstrument := [(params.instrument, pooled)]
    byRegime := summarizeGroups (groupRecords (·.regime) counters.records)
    bySession := summarizeGroups (groupRecords (·.session) counters.records)
    byDirection := summarizeGroups (groupRecords (·.direction) counters.records)
    gapBars := params.gapBars
    purgeRespected := foldReports.all (foldRespectsPurge params) }

def runWalkforward : Except WalkForwardError Report := do
  params.check candles.length gate.hCandles
  let candidates := params.candidates candles.length gate.hCandles
  let chunks := wfSplitSequential candidates params.folds.toNat
  let (foldReports, counters) := chunks.zipIdx.foldl (gate.runFold params candles candidates) ([], { })
  return report params candidates foldReports counters

end Gate

end Droid.Validation
