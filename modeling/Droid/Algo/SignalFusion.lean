import Droid.Lib.Dict
import Droid.Lib.Rounding
import Droid.Lib.Text

/-! Fusion of the technical, multi-timeframe, F&O, regime, AI and event scores into one signal.
Decimals, and the floats between them, are exact rationals. -/
namespace Droid.Algo.Fusion
open Lib Lib.Text

inductive Direction where
  | long | short | noTrade
  deriving DecidableEq, Repr

def Direction.label : Direction → String
  | .long => "LONG"
  | .short => "SHORT"
  | .noTrade => "NO_TRADE"

inductive FusionStatus where
  | measured | fallback | insufficientData
  deriving DecidableEq, Repr

structure Technical where
  technicalScore : Option ℚ := none
  trend : Option String := none
  deriving DecidableEq

structure Mtf where
  score : Option ℚ := none
  overallBias : Option String := none
  deriving DecidableEq

structure Regime where
  score : Option ℚ := none
  regime : Option String := none
  deriving DecidableEq

structure Ai where
  confidence : Option ℚ := none
  bias : Option String := none
  riskFlags : List String := []
  deriving DecidableEq

structure EventRisk where
  score : Option ℚ := none
  eventPending : Bool := false
  deriving DecidableEq

/-- What is absent from an input document, or is no number where one is read, is `none`. -/
structure SignalInputs where
  technical : Technical := {}
  mtf : Mtf := {}
  fno : Option ℚ := none
  regime : Regime := {}
  ai : Ai := {}
  eventRisk : EventRisk := {}
  weights : Dict String ℚ := Dict.empty

structure Subscores where
  technical : ℚ
  technicalEff : ℚ
  trendCluster : ℚ
  mtf : ℚ
  fno : ℚ
  regime : ℚ
  ai : ℚ
  eventRisk : ℚ
  deriving DecidableEq

structure Signal where
  strategyId : String
  instrumentId : Option String
  symbol : String
  direction : Direction
  regime : Option String := none
  score : Option ℚ
  confidence : Option ℚ
  correlationPenalty : ℚ := 0
  subscores : Option Subscores := none
  fusionStatus : FusionStatus := .measured
  deriving DecidableEq

def Signal.isActionable (s : Signal) : Bool :=
  if s.confidence.isNone || s.score.isNone then false
  else if s.fusionStatus = .insufficientData then false
  else s.direction = .long || s.direction = .short

/-- `weights_percent` of the scoring configuration. -/
def DEFAULT_WEIGHTS : Dict String ℚ :=
  ⟨[("technical", 40), ("mtf", 20), ("fno", 15), ("regime", 10), ("ai", 10), ("event_risk", 5)], by decide⟩

def FUSION_LONG_THRESHOLD : ℚ := 55

def FUSION_SHORT_THRESHOLD : ℚ := 45

namespace SignalInputs
variable (i : SignalInputs)

def weightsInUse : Dict String ℚ := if i.weights.size = 0 then DEFAULT_WEIGHTS else i.weights

def totalWeight : ℚ := if i.weightsInUse.values.sum = 0 then 100 else i.weightsInUse.values.sum

/-- The share of a domain in percent; a weight that is not given is the default one. -/
def weight (key : String) : ℚ :=
  (i.weightsInUse.get? key).getD ((DEFAULT_WEIGHTS.get? key).getD 0) / i.totalWeight * 100

def mtfScore : Option ℚ :=
  match i.mtf.score with
  | some score => some score
  | none =>
    if i.mtf.overallBias = some "BULLISH" then some 75
    else if i.mtf.overallBias = some "BEARISH" then some 25
    else none

def regimeScore : Option ℚ :=
  match i.regime.score with
  | some score => some score
  | none =>
    if i.regime.regime = some "STRONG_BULL" ∨ i.regime.regime = some "BULL" then some 75
    else if i.regime.regime = some "STRONG_BEAR" ∨ i.regime.regime = some "BEAR" then some 25
    else if i.regime.regime = some "RANGE" then some 50
    else none

def aiBias : String := i.ai.bias.getD "NEUTRAL"

def aiScore : ℚ :=
  match i.ai.confidence with
  | none => 50
  | some confidence =>
    if i.aiBias = "LONG" then confidence * 100
    else if i.aiBias = "SHORT" then (1 - confidence) * 100
    else 50

def eventScore : ℚ := if i.eventRisk.eventPending then 30 else i.eventRisk.score.getD 50

def measured : List ℚ := [i.technical.technicalScore, i.mtfScore, i.fno, i.regimeScore].filterMap id

def insufficient : Bool := i.measured.isEmpty && i.ai.confidence.isNone

def partialMissing : Bool :=
  i.technical.technicalScore.isNone || i.mtfScore.isNone || i.fno.isNone || i.regimeScore.isNone ||
    i.ai.confidence.isNone || (i.eventRisk.score.isNone && !i.eventRisk.eventPending)

/-- What a score says about the trend where no label does. -/
def trendOfScore (score : ℚ) : ℚ := if 60 ≤ score then 1 else if score ≤ 40 then 0 else 1 / 2

def wordTrend (label : Option String) : Option ℚ :=
  if hasText (upper (label.getD "")) "BULL" then some 1
  else if hasText (upper (label.getD "")) "BEAR" then some 0
  else none

def regimeTrend (label : Option String) : Option ℚ :=
  if upper (label.getD "") ∈ ["STRONG_BULL", "BULL", "BULLISH", "UPTREND"] then some 1
  else if upper (label.getD "") ∈ ["STRONG_BEAR", "BEAR", "BEARISH", "DOWNTREND"] then some 0
  else none

def trend01Tech : ℚ :=
  (wordTrend i.technical.trend).getD (trendOfScore (i.technical.technicalScore.getD 50))

def trend01Mtf : ℚ := (wordTrend i.mtf.overallBias).getD (1 / 2)

def trend01Regime : ℚ := (regimeTrend i.regime.regime).getD (trendOfScore (i.regimeScore.getD 50))

def trendCluster : ℚ := (i.trend01Tech + i.trend01Mtf + i.trend01Regime) / 3 * 100

def techEff : ℚ := i.technical.technicalScore.getD 50 * (1 / 2) + i.trendCluster * (1 / 2)

def allBull : Bool := 3 / 4 ≤ i.trend01Tech && 3 / 4 ≤ i.trend01Mtf && 3 / 4 ≤ i.trend01Regime

def allBear : Bool := i.trend01Tech ≤ 1 / 4 && i.trend01Mtf ≤ 1 / 4 && i.trend01Regime ≤ 1 / 4

def correlationPenalty : ℚ := if i.allBull || i.allBear then 2 else 0

def weightedScore : ℚ :=
  (i.techEff * i.weight "technical" + i.mtfScore.getD 50 * i.weight "mtf" + i.fno.getD 50 * i.weight "fno" +
    i.regimeScore.getD 50 * i.weight "regime" + i.aiScore * i.weight "ai" +
    i.eventScore * i.weight "event_risk") / 100

def bounded (score : ℚ) : ℚ := max 0 (min 100 score)

/-- The fused score as far as the risk flags let it be. -/
def fusedScore : ℚ := bounded (i.weightedScore - i.correlationPenalty)

def riskFlagged : Bool :=
  i.ai.riskFlags.any fun f => f ∈ ["HIGH_RISK", "EVENT_RISK_HIGH", "LIQUIDITY_RISK"]

def finalScore : ℚ := if i.riskFlagged then min i.fusedScore 45 else i.fusedScore

def fusedDirection : Direction :=
  if i.riskFlagged then .noTrade
  else if FUSION_LONG_THRESHOLD ≤ i.finalScore then .long
  else if i.finalScore ≤ FUSION_SHORT_THRESHOLD then .short
  else .noTrade

def agreement (direction : Direction) : Nat :=
  [i.technical.trend = some "BULLISH" && direction = .long,
    i.technical.trend = some "BEARISH" && direction = .short,
    i.mtf.overallBias = some "BULLISH" && direction = .long,
    i.mtf.overallBias = some "BEARISH" && direction = .short,
    decide (i.aiBias = direction.label)].count true

/-- An empty AI document has no bias either. -/
def fusedConfidence : ℚ :=
  let confidence := 1 / 2 + i.agreement i.fusedDirection * (7 / 100) + |i.finalScore - 50| / 200
  let confidence := if i.aiBias = "NEUTRAL" then confidence - 3 / 100 else confidence
  max (1 / 10) (min (9 / 10) confidence)

def fusionStatus : FusionStatus := if i.partialMissing then .fallback else .measured

/-- A fallback that rests on the AI alone does not trade. -/
def thin : Bool := i.fusionStatus = .fallback && i.measured.length < 1

end SignalInputs

def fuse (i : SignalInputs) (strategyId symbol : String) (instrumentId : Option String) : Signal :=
  if i.insufficient then
    { strategyId, instrumentId, symbol, direction := .noTrade, regime := i.regime.regime, score := none,
      confidence := none, fusionStatus := .insufficientData }
  else
    { strategyId, instrumentId, symbol
      direction := if i.thin then .noTrade else i.fusedDirection
      regime := i.regime.regime
      score := some (roundTo 2 i.finalScore)
      confidence := if i.thin then none else some (roundTo 4 i.fusedConfidence)
      correlationPenalty := roundTo 2 i.correlationPenalty
      subscores := some
        { technical := i.technical.technicalScore.getD 50, technicalEff := i.techEff,
          trendCluster := i.trendCluster, mtf := i.mtfScore.getD 50, fno := i.fno.getD 50,
          regime := i.regimeScore.getD 50, ai := i.aiScore, eventRisk := i.eventScore }
      fusionStatus := i.fusionStatus }

end Droid.Algo.Fusion
