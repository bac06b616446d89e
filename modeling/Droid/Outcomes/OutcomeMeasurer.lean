import Droid.Outcomes.Measured

/-! The outcome of a prediction on forward candles, against the one that the settlement builds for its row. -/
namespace Droid.Outcomes
open Lib

/-- A forward candle: its prices are positive, and the close lies between the low and the high. -/
structure ForwardCandle where
  timestamp : Option Int := none
  high : ℚ
  low : ℚ
  close : ℚ
  low_pos : 0 < low := by norm_num
  low_le : low ≤ close := by norm_num
  le_high : close ≤ high := by norm_num

namespace ForwardCandle

theorem close_pos (c : ForwardCandle) : 0 < c.close := c.low_pos.trans_le c.low_le

theorem low_le_high (c : ForwardCandle) : c.low ≤ c.high := c.low_le.trans c.le_high

theorem high_pos (c : ForwardCandle) : 0 < c.high := c.low_pos.trans_le c.low_le_high

/-- The candle as the settlement receives it. -/
def record (c : ForwardCandle) : Candle := .record c.timestamp (some c.close) (some c.high) (some c.low)

def bar (c : ForwardCandle) : ℚ × ℚ := (c.high, c.low)

theorem candleHighLow_record (c : ForwardCandle) : candleHighLow c.record = some c.bar := by
  simp [candleHighLow, record, orClose, bar, c.close_pos, c.high_pos.ne', c.low_pos.ne']

theorem filterMap_record (candles : List ForwardCandle) :
    (candles.map record).filterMap candleHighLow = candles.map bar := by
  induction candles with
  | nil => rfl
  | cons c candles ih => rw [List.map_cons, List.filterMap_cons_some (candleHighLow_record c), ih, List.map_cons]

end ForwardCandle

/-- The fields of a prediction that its evaluation reads. -/
structure ResearchPrediction where
  predictionId : String
  currentPrice : ℚ
  direction : Direction
  targetPrice : Option ℚ
  invalidationPrice : Option ℚ

/-- The variables of the loop over the candles. -/
structure ForwardTouches where
  targetHit : Bool := false
  stopHit : Bool := false
  timeToTargetSec : Option ℚ := none

namespace ResearchPrediction
variable (p : ResearchPrediction)

def touchTarget (t : ForwardTouches) (c : ForwardCandle) (idx : Nat) : ForwardTouches :=
  match p.targetPrice with
  | none => t
  | some targetP =>
    if t.targetHit = false ∧ t.stopHit = false then
      if p.direction = .bullish ∧ targetP ≤ c.high then
        { t with targetHit := true, timeToTargetSec := some ((idx + 1) * 60) }
      else if p.direction = .bearish ∧ c.low ≤ targetP then
        { t with targetHit := true, timeToTargetSec := some ((idx + 1) * 60) }
      else t
    else t

def touchStop (t : ForwardTouches) (c : ForwardCandle) : ForwardTouches :=
  match p.invalidationPrice with
  | none => t
  | some invalP =>
    if t.stopHit = false then
      if p.direction = .bullish ∧ c.low ≤ invalP then { t with stopHit := true }
      else if p.direction = .bearish ∧ invalP ≤ c.high then { t with stopHit := true }
      else t
    else t

def touch (t : ForwardTouches) (candle : ForwardCandle × Nat) : ForwardTouches :=
  p.touchStop (p.touchTarget t candle.1 candle.2) candle.1

/-- `max` of a list that is not empty. -/
def greatest (values : List ℚ) : ℚ := values.max?.getD 0

/-- The favorable and the adverse excursion, before rounding. -/
def forwardExcursions (candles : List ForwardCandle) : ℚ × ℚ :=
  match p.direction with
  | .bullish =>
    (max 0 (greatest (candles.map fun c => c.high - p.currentPrice)),
      max 0 (greatest (candles.map fun c => p.currentPrice - c.low)))
  | .bearish =>
    (max 0 (greatest (candles.map fun c => p.currentPrice - c.low)),
      max 0 (greatest (candles.map fun c => c.high - p.currentPrice)))
  | _ => (0, max 0 (greatest (candles.map fun c => |c.high - p.currentPrice|)))

def directionOf (move : ℚ) : Direction :=
  if 0 < move then .bullish else if move < 0 then .bearish else .neutral

def evaluateForwardCandles (candles : List ForwardCandle) (now : Int) : Except String PredictionOutcome :=
  match candles.getLast? with
  | none => .error "forward_candles cannot be empty to evaluate outcome"
  | some last =>
    let actualMove := roundTo 2 (last.close - p.currentPrice)
    let actualPct := if 0 < p.currentPrice then roundTo 3 (actualMove / p.currentPrice * 100) else 0
    let actualDir := directionOf actualMove
    let touched := candles.zipIdx.foldl p.touch {}
    .ok
      { predictionId := p.predictionId
        actualDirection := actualDir
        actualPriceMove := actualMove
        actualPctMove := actualPct
        entryPrice := roundTo 2 p.currentPrice
        exitPrice := roundTo 2 last.close
        mfe := roundTo 2 (p.forwardExcursions candles).1
        mae := roundTo 2 (p.forwardExcursions candles).2
        targetHit := touched.targetHit
        stopHit := touched.stopHit
        timeToTargetSec := touched.timeToTargetSec
        isCorrect :=
          if p.direction = .neutral then decide (|actualPct| < 1 / 10)
          else decide (p.direction = actualDir) && (!touched.stopHit || touched.targetHit)
        evaluatedAt := now }

end ResearchPrediction

/-- The row under which a prediction is stored. -/
structure ResearchRow.Describes (row : ResearchRow) (p : ResearchPrediction) : Prop where
  entry : spotAtT row = p.currentPrice
  direction : Direction.parse row.direction = p.direction
  target : row.targetPrice = p.targetPrice
  invalidation : row.invalidationPrice = p.invalidationPrice

namespace ResearchPrediction
variable {p : ResearchPrediction}

/-! ### The touches -/

def ForwardTouches.asTouches (t : ForwardTouches) : Touches where
  targetHit := t.targetHit
  stopHit := t.stopHit
  timeToTargetSec := t.timeToTargetSec

theorem reachesTarget_iff {predDir : Direction} {targetP : ℚ} {bar : ℚ × ℚ} :
    reachesTarget predDir targetP bar = true ↔
      predDir = .bullish ∧ targetP ≤ bar.1 ∨ predDir = .bearish ∧ bar.2 ≤ targetP := by
  cases predDir <;> simp [reachesTarget]

theorem reachesStop_iff {predDir : Direction} {invalP : ℚ} {bar : ℚ × ℚ} :
    reachesStop predDir invalP bar = true ↔
      predDir = .bullish ∧ bar.2 ≤ invalP ∨ predDir = .bearish ∧ invalP ≤ bar.1 := by
  cases predDir <;> simp [reachesStop]

theorem touchTarget_eq (t : ForwardTouches) (c : ForwardCandle) (idx : Nat) :
    p.touchTarget t c idx =
      if p.targetPrice.any (fun targetP => !t.targetHit && !t.stopHit && reachesTarget p.direction targetP c.bar) then
        { t with targetHit := true, timeToTargetSec := some ((idx + 1) * 60) }
      else t := by
  unfold touchTarget
  cases p.targetPrice with
  | none => rfl
  | some targetP =>
    simp only [Option.any_some, Bool.and_eq_true, Bool.not_eq_true', reachesTarget_iff, ForwardCandle.bar]
    split_ifs <;> first | rfl | tauto

theorem touchStop_eq (t : ForwardTouches) (c : ForwardCandle) :
    p.touchStop t c =
      if p.invalidationPrice.any (fun invalP => !t.stopHit && reachesStop p.direction invalP c.bar) then
        { t with stopHit := true }
      else t := by
  unfold touchStop
  cases p.invalidationPrice with
  | none => rfl
  | some invalP =>
    simp only [Option.any_some, Bool.and_eq_true, Bool.not_eq_true', reachesStop_iff, ForwardCandle.bar]
    split_ifs <;> first | rfl | tauto

theorem asTouches_touch (t : ForwardTouches) (c : ForwardCandle) (idx : Nat) :
    ForwardTouches.asTouches (p.touch t (c, idx)) =
      (ForwardTouches.asTouches t).touch p.direction p.targetPrice p.invalidationPrice (c.bar, idx) := by
  simp only [touch, touchStop_eq, touchTarget_eq, Touches.touch]
  cases p.targetPrice with
  | none =>
    cases p.invalidationPrice with
    | none => rfl
    | some invalP =>
      by_cases hstop : (!t.stopHit && reachesStop p.direction invalP c.bar) = true <;>
        simp [hstop, ForwardTouches.asTouches]
  | some targetP =>
    by_cases haim : (!t.targetHit && !t.stopHit && reachesTarget p.direction targetP c.bar) = true
    · cases p.invalidationPrice with
      | none => simp [haim, ForwardTouches.asTouches]
      | some invalP =>
        by_cases hstop : (!t.stopHit && reachesStop p.direction invalP c.bar) = true <;>
          simp [haim, hstop, ForwardTouches.asTouches]
    · cases p.invalidationPrice with
      | none => simp [haim, ForwardTouches.asTouches]
      | some invalP =>
        by_cases hstop : (!t.stopHit && reachesStop p.direction invalP c.bar) = true <;>
          simp [haim, hstop, ForwardTouches.asTouches]

theorem foldl_touch (candles : List ForwardCandle) (k : Nat) (t : ForwardTouches) :
    ForwardTouches.asTouches ((candles.zipIdx k).foldl p.touch t) =
      ((candles.map ForwardCandle.bar).zipIdx k).foldl (Touches.touch p.direction p.targetPrice p.invalidationPrice)
        (ForwardTouches.asTouches t) := by
  induction candles generalizing k t with
  | nil => rfl
  | cons c candles ih =>
    rw [List.zipIdx_cons, List.foldl_cons, ih, asTouches_touch, List.map_cons, List.zipIdx_cons, List.foldl_cons]

end ResearchPrediction
end Droid.Outcomes
