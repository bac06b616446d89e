import Droid.Outcomes.Sessions
import Droid.Lib.Dict
import Droid.Lib.Rounding

/-! Settlement of predictions and of research predictions whose horizon has elapsed: the planners, the outcome
of a research prediction, and the loops over the rows that the queries return. -/
namespace Droid.Outcomes
open Lib Text

/-- What a planner decides for one unsettled row. -/
inductive Plan (ω : Type) where
  | settle (outcome : ω)
  | wait (reason : String)
  | skip (reason : String)
  deriving DecidableEq

def DEFAULT_HORIZON_MINUTES : Int := 15

structure MLPrediction where
  id : String
  symbol : String
  timestamp : Int
  spotPrice : ℚ
  horizonMinutes : Option Int
  atrAtT : Option ℚ
  deriving DecidableEq

def MLPrediction.horizon (row : MLPrediction) : Int :=
  match row.horizonMinutes with
  | none => DEFAULT_HORIZON_MINUTES
  | some minutes => if minutes = 0 then DEFAULT_HORIZON_MINUTES else minutes

def MLPrediction.atr (row : MLPrediction) : ℚ := row.atrAtT.getD 0

/-- `plan_row`; none where the horizon is not supported. -/
def planRow (calendar : Calendar) (row : MLPrediction) (candles : List Candle) (now : Int) : Option (Plan ℚ) :=
  if now < row.timestamp + minutes row.horizon then some (.wait "horizon-not-elapsed")
  else if row.atr ≤ 0 then some (.skip "missing-atr-at-t")
  else
    match classifyWindow calendar row.symbol row.timestamp row.horizon with
    | none => none
    | some window =>
      if !window.settleable then some (.skip window.reason)
      else
        match resolveForwardSpot candles row.timestamp window.tPlusH with
        | none => some (.skip "no-candle-covering-horizon")
        | some spot => some (.settle spot)

/-- What a run reads besides the rows. -/
structure Sources where
  calendar : Calendar
  nseFetch : String → Int → Int → List Candle
  cryptoFetch : String → Int → Int → List Candle
  now : Int

/-- The candles fetched for a window, two minutes wider on both sides. -/
def Sources.candles (sources : Sources) (symbol : String) (t tPlusH : Int) : List Candle :=
  let fetcher := if isCryptoSymbol symbol then sources.cryptoFetch else sources.nseFetch
  fetcher symbol (t - minutes 2) (tPlusH + minutes 2)

/-- What a loop does with one row. -/
inductive Turn (ω : Type) where
  | settled (outcome : ω)
  | skipped (reason : String)
  | failed
  deriving DecidableEq

def Turn.outcome? {ω : Type} : Turn ω → Option ω
  | .settled outcome => some outcome
  | .skipped _ => none
  | .failed => none

structure MLOutcome where
  outcomeLabel : Int
  outcomeSpot : ℚ
  deriving DecidableEq

/-- A row's turn in `settle_due`; the label of what is settled is computed elsewhere. -/
def settleTurn (settlePrediction : ℚ → ℚ → ℚ → Int) (sources : Sources) (row : MLPrediction) : Turn MLOutcome :=
  if sources.now < row.timestamp + minutes row.horizon then .skipped "horizon-not-elapsed"
  else
    match classifyWindow sources.calendar row.symbol row.timestamp row.horizon with
    | none => .failed
    | some window =>
      if !window.settleable then .skipped window.reason
      else
        let candles := sources.candles row.symbol row.timestamp window.tPlusH
        match planRow sources.calendar row candles sources.now with
        | none => .failed
        | some (.wait reason) => .skipped reason
        | some (.skip reason) => .skipped reason
        | some (.settle spot) => .settled ⟨settlePrediction row.spotPrice spot row.atr, spot⟩

structure Summary where
  settled : Nat := 0
  skipped : Dict String Nat := Dict.empty
  errors : Nat := 0

/-- The outcomes by row, the calls of the store so far, and the counts. -/
structure Progress (ω : Type) where
  outcomes : Dict String ω
  written : List (String × ω) := []
  summary : Summary := {}

/-- An outcome is appended where the row has none. -/
def Progress.turn {ω : Type} (progress : Progress ω) (key : String) : Turn ω → Progress ω
  | .settled outcome =>
    { progress with
      outcomes := if progress.outcomes.contains key then progress.outcomes
        else progress.outcomes.insert key outcome
      written := progress.written ++ [(key, outcome)]
      summary := { progress.summary with settled := progress.summary.settled + 1 } }
  | .skipped reason =>
    let count := (progress.summary.skipped.get? reason).getD 0
    { progress with
      summary := { progress.summary with skipped := progress.summary.skipped.insert reason (count + 1) } }
  | .failed => { progress with summary := { progress.summary with errors := progress.summary.errors + 1 } }

/-- `settle_due` over the rows of its query. -/
def settleDue (settlePrediction : ℚ → ℚ → ℚ → Int) (sources : Sources) (outcomes : Dict String MLOutcome)
    (pending : List MLPrediction) : Progress MLOutcome :=
  pending.foldl (fun progress row => progress.turn row.id (settleTurn settlePrediction sources row))
    { outcomes := outcomes }

def FORECAST_HORIZON_MINUTES : List (String × Int) :=
  [("1m", 1), ("5m", 5), ("15m", 15), ("30m", 30), ("1h", 60), ("4h", 240)]

def RESEARCH_DEFAULT_HORIZON_MINUTES : Int := 60

def TARGET_SPEC_VERSION_V2 : String := "v2-atr-em-session"

def NEUTRAL_BAND_ATR_V2 : ℚ := 1 / 4

inductive Direction where
  | bullish
  | bearish
  | neutral
  | unknown
  deriving DecidableEq

def Direction.value : Direction → String
  | .bullish => "BULLISH"
  | .bearish => "BEARISH"
  | .neutral => "NEUTRAL"
  | .unknown => "UNKNOWN"

/-- A row of the research predictions under the keys that are read; none is missing or no number. The readings
of the ATR stand in the order of the lookup. -/
structure ResearchRow where
  predictionId : String
  indicatorId : String
  instrument : Option String
  symbol : Option String := none
  timestamp : Option Int
  horizonMinutes : Option Int := none
  forecastHorizon : Option String
  timeframe : Option String
  horizon : Option String := none
  currentPrice : Option ℚ
  spotPrice : Option ℚ := none
  price : Option ℚ := none
  entryPrice : Option ℚ := none
  atrReadings : List (Option ℚ)
  direction : Option String
  targetPrice : Option ℚ
  invalidationPrice : Option ℚ
  deriving DecidableEq

def ResearchRow.instrumentOrSymbol (row : ResearchRow) : String :=
  (row.instrument.filter (· ≠ "") <|> row.symbol.filter (· ≠ "")).getD ""

/-- The first positive reading. -/
def extractAtrAtT (row : ResearchRow) : ℚ := ((row.atrReadings.filterMap id).find? (0 < ·)).getD 0

def horizonOfTexts : List (Option String) → Option Int
  | [] => some RESEARCH_DEFAULT_HORIZON_MINUTES
  | none :: rest => horizonOfTexts rest
  | some text :: rest =>
    if upper (strip text) = "NEXT_DAY" then none
    else
      match FORECAST_HORIZON_MINUTES.lookup (strip text) with
      | some minutes => some minutes
      | none => horizonOfTexts rest

/-- `resolve_horizon_minutes`; none where the horizon has no intraday window. -/
def resolveHorizonMinutes (row : ResearchRow) : Option Int :=
  match row.horizonMinutes with
  | some explicit => some explicit
  | none => horizonOfTexts [row.forecastHorizon, row.timeframe, row.horizon]

def spotAtT (row : ResearchRow) : ℚ :=
  (row.currentPrice <|> row.spotPrice <|> row.price <|> row.entryPrice).getD 0

def INV_LABEL : Int → Direction
  | 0 => .bearish
  | 2 => .bullish
  | _ => .neutral

/-- `label_forward_return_v2`; none where it refuses. -/
def labelForwardReturnV2 (spotT spotTh atr : ℚ) : Option Int :=
  if 0 < spotT ∧ 0 < spotTh ∧ 0 < atr then
    let fwd := (spotTh - spotT) / spotT
    let band := NEUTRAL_BAND_ATR_V2 * atr / spotT
    if band < fwd then some 2 else if fwd < -band then some 0 else some 1
  else none

structure ResearchPlan where
  outcomeSpot : ℚ
  outcomeLabel : Int
  outcomeName : String
  targetSpecVersion : String
  horizonMinutes : Int
  atrAtT : ℚ
  tPlusH : Int
  deriving DecidableEq

def planResearchRow (calendar : Calendar) (row : ResearchRow) (candles : List Candle) (now : Int) :
    Plan ResearchPlan :=
  match row.timestamp, resolveHorizonMinutes row with
  | none, _ => .skip "missing-timestamp"
  | some _, none => .skip "unsupported-horizon"
  | some t, some horizon =>
    if now < t + minutes horizon then .wait "horizon-not-elapsed"
    else if ¬0 < spotAtT row then .skip "missing-spot-at-t"
    else if ¬0 < extractAtrAtT row then .skip "missing-atr-at-t"
    else
      match classifyWindow calendar row.instrumentOrSymbol t horizon with
      | none => .skip "unsupported-horizon"
      | some window =>
        if !window.settleable then .skip window.reason
        else
          match resolveForwardSpot candles t window.tPlusH with
          | none => .skip "no-candle-covering-horizon"
          | some spotH =>
            match labelForwardReturnV2 (spotAtT row) spotH (extractAtrAtT row) with
            | none => .skip ("label-refused:v2 labeling requires positive spot_t, spot_th, atr14_1h_t " ++
                "(missing data must stay INSUFFICIENT_DATA, never a synthetic label)")
            | some outcomeLabel => .settle
                { outcomeSpot := spotH
                  outcomeLabel := outcomeLabel
                  outcomeName := (INV_LABEL outcomeLabel).value
                  targetSpecVersion := TARGET_SPEC_VERSION_V2
                  horizonMinutes := horizon
                  atrAtT := extractAtrAtT row
                  tPlusH := window.tPlusH }

/-- A number, or the close where it is missing or zero. -/
def orClose (value : Option ℚ) (close : ℚ) : ℚ := if value.getD 0 = 0 then close else value.getD 0

def candleHighLow (c : Candle) : Option (ℚ × ℚ) :=
  match c with
  | .tuple _ close => if 0 < close.getD 0 then some (close.getD 0, close.getD 0) else none
  | .record _ close high low =>
    if 0 < close.getD 0 then some (orClose high (close.getD 0), orClose low (close.getD 0)) else none

def reachesTarget (predDir : Direction) (targetP : ℚ) (bar : ℚ × ℚ) : Bool :=
  match predDir with
  | .bullish => decide (targetP ≤ bar.1)
  | .bearish => decide (bar.2 ≤ targetP)
  | _ => false

def reachesStop (predDir : Direction) (invalP : ℚ) (bar : ℚ × ℚ) : Bool :=
  match predDir with
  | .bullish => decide (bar.2 ≤ invalP)
  | .bearish => decide (invalP ≤ bar.1)
  | _ => false

structure Touches where
  targetHit : Bool := false
  stopHit : Bool := false
  timeToTargetSec : Option ℚ := none
  deriving DecidableEq

/-- One bar of the list: first the target, then the stop. -/
def Touches.touch (predDir : Direction) (targetP invalP : Option ℚ) (touches : Touches)
    (bar : (ℚ × ℚ) × Nat) : Touches :=
  let aimed :=
    match targetP with
    | none => touches
    | some targetP =>
      if !touches.targetHit && !touches.stopHit && reachesTarget predDir targetP bar.1 then
        { touches with targetHit := true, timeToTargetSec := some ((bar.2 + 1) * 60) }
      else touches
  match invalP with
  | none => aimed
  | some invalP =>
    if !aimed.stopHit && reachesStop predDir invalP bar.1 then { aimed with stopHit := true } else aimed

def touches (predDir : Direction) (targetP invalP : Option ℚ) (bars : List (ℚ × ℚ)) : Touches :=
  bars.zipIdx.foldl (Touches.touch predDir targetP invalP) {}

/-- The favorable and the adverse excursion over the highs and lows of a list. -/
def excursions (predDir : Direction) (entry : ℚ) (bars : List (ℚ × ℚ)) : ℚ × ℚ :=
  match (bars.map Prod.fst).max?, (bars.map Prod.snd).min? with
  | some hi, some lo =>
    match predDir with
    | .bullish => (roundTo 2 (max 0 (hi - entry)), roundTo 2 (max 0 (entry - lo)))
    | .bearish => (roundTo 2 (max 0 (entry - lo)), roundTo 2 (max 0 (hi - entry)))
    | _ => (0, roundTo 2 (max 0 (max |hi - entry| |entry - lo|)))
  | _, _ => (0, 0)

structure PredictionOutcome where
  predictionId : String
  actualDirection : Direction
  actualPriceMove : ℚ
  actualPctMove : ℚ
  entryPrice : ℚ
  exitPrice : ℚ
  mfe : ℚ
  mae : ℚ
  targetHit : Bool
  stopHit : Bool
  timeToTargetSec : Option ℚ
  isCorrect : Bool
  evaluatedAt : Int
  deriving DecidableEq

def Direction.parse (text : Option String) : Direction :=
  if text = some "BULLISH" then .bullish
  else if text = some "BEARISH" then .bearish
  else if text = some "NEUTRAL" then .neutral
  else .unknown

def buildResearchOutcome (row : ResearchRow) (outcomeSpot : ℚ) (outcomeLabel : Int) (candles : List Candle)
    (now : Int) : PredictionOutcome :=
  let actualDir := INV_LABEL outcomeLabel
  let entry := spotAtT row
  let move := roundTo 2 (outcomeSpot - entry)
  let predDir := Direction.parse row.direction
  let bars := candles.filterMap candleHighLow
  let touched := touches predDir row.targetPrice row.invalidationPrice bars
  { predictionId := row.predictionId
    actualDirection := actualDir
    actualPriceMove := move
    actualPctMove := if 0 < entry then roundTo 3 (move / entry * 100) else 0
    entryPrice := roundTo 2 entry
    exitPrice := roundTo 2 outcomeSpot
    mfe := (excursions predDir entry bars).1
    mae := (excursions predDir entry bars).2
    targetHit := touched.targetHit
    stopHit := touched.stopHit
    timeToTargetSec := touched.timeToTargetSec
    isCorrect :=
      match predDir with
      | .bullish | .bearish => decide (predDir = actualDir) && (!touched.stopHit || touched.targetHit)
      | _ => decide (predDir = actualDir)
    evaluatedAt := now }

def settleResearchTurn (sources : Sources) (row : ResearchRow) : Turn PredictionOutcome :=
  match resolveHorizonMinutes row, row.timestamp with
  | none, _ => .skipped "unsupported-horizon"
  | some _, none => .skipped "missing-timestamp"
  | some horizon, some t =>
    if sources.now < t + minutes horizon then .skipped "horizon-not-elapsed"
    else
      match classifyWindow sources.calendar row.instrumentOrSymbol t horizon with
      | none => .failed
      | some window =>
        if !window.settleable then .skipped window.reason
        else
          let candles := sources.candles row.instrumentOrSymbol t window.tPlusH
          match planResearchRow sources.calendar row candles sources.now with
          | .wait reason => .skipped reason
          | .skip reason => .skipped reason
          | .settle plan =>
            .settled (buildResearchOutcome row plan.outcomeSpot plan.outcomeLabel candles sources.now)

/-- `settle_due_research` over the rows of its query, when it is no dry run. -/
def settleDueResearch (sources : Sources) (outcomes : Dict String PredictionOutcome)
    (pending : List ResearchRow) : Progress PredictionOutcome :=
  pending.foldl (fun progress row => progress.turn row.predictionId (settleResearchTurn sources row))
    { outcomes := outcomes }

end Droid.Outcomes
