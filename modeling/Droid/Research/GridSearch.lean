import Droid.Lib.Dict
import Mathlib.Algebra.Order.Field.Rat
import Mathlib.Data.List.Sort
import Mathlib.Data.String.Basic
import Mathlib.Order.WithBot

/-! The search for the parameters of an indicator: the optimizer over one candle series, and the walk-forward
that fits on growing training blocks. A run of one configuration is a function of its candles and
specifications; rules, settings, instrument and timeframe are the same for all runs of a study. -/
namespace Droid.Research.GridSearch
open Lib

/-- A float that is not NaN; the ends are the infinities. -/
abbrev Rank := WithBot (WithTop ℚ)

/-- An entry of the metrics, as `float` sees it. -/
inductive Metric where
  /-- There is no such key, or its value is None. -/
  | absent
  /-- `float` raises. -/
  | other
  | nan
  | float (value : Rank)
  deriving DecidableEq

/-- A combination of parameters, in the order of their names. -/
abbrev Combo (V : Type) := List (String × V)

structure IndicatorSpec (V : Type) where
  indicatorId : String
  params : Combo V
  role : String := "primary"
  deriving DecidableEq

structure RunOutcome where
  ok : Bool
  error : Option String := none
  metrics : String → Metric := fun _ => .absent
  tradeCount : Nat := 0
  signalCount : Nat := 0

structure Study (Candle V : Type) where
  candles : List Candle
  specs : List (IndicatorSpec V)
  /-- `parameter_space` of the first specification. -/
  space : Dict String (List V)
  objective : String := "total_return_pct"
  maxCombinations : Int
  minTrades : Int := 5
  /-- `run_once`, or what it raises. -/
  runOnce : List Candle → List (IndicatorSpec V) → Except String RunOutcome

inductive Failure where
  | noIndicator
  | objective (name : String)
  | noCandles
  | zeroDivision
  | overBudget (estimated : Nat)
  | folds
  | purgeBars
  | tooShort (needed : Nat)
  | run (message : String)
  deriving DecidableEq, Repr

def objectiveWhitelist : List String := ["total_return_pct", "net_profit", "profit_factor",
  "expectancy_per_trade", "sharpe_annualized", "sortino_annualized", "calmar", "win_rate_pct",
  "max_drawdown_pct", "payoff_ratio", "avg_mfe_pct"]

/-- Objectives where a smaller value is better. -/
def minimizeObjectives : List String := ["max_drawdown_pct"]

variable {Candle V : Type}

/-! The grid. -/

/-- `itertools.product`: the last axis turns fastest. -/
def product : List (List V) → List (List V)
  | [] => [[]]
  | axis :: rest => axis.flatMap fun value => (product rest).map fun values => value :: values

def gridCombinations (space : Dict String (List V)) : List (Combo V) :=
  let axes := space.entries.insertionSort fun a b => a.1 ≤ b.1
  (product (axes.map Prod.snd)).map fun values => (axes.map Prod.fst).zip values

/-- So many combinations at even distances, where the grid has more; the quotient is exact here. -/
def thinned (most : Int) (combos : List (Combo V)) : Except Failure (List (Combo V)) :=
  if most < combos.length then
    if most = 0 then .error .zeroDivision
    else .ok ((List.range most.toNat).filterMap fun i => combos[i * combos.length / most.toNat]?)
  else .ok combos

namespace Study
variable (study : Study Candle V)

/-- The specifications of a run: the combination for the first indicator, the others as they are. -/
def comboSpecs (combo : Combo V) : List (IndicatorSpec V) :=
  match study.specs with
  | primary :: others => { indicatorId := primary.indicatorId, params := combo } :: others
  | [] => []

def run (candles : List Candle) (combo : Combo V) : Except String RunOutcome :=
  study.runOnce candles (study.comboSpecs combo)

end Study

/-! The optimizer. -/

/-- The keys of the metrics that a row of the table shows. -/
def summaryKeys : List String := ["net_profit", "total_return_pct", "win_rate_pct", "profit_factor",
  "expectancy_per_trade", "max_drawdown_pct", "sharpe_annualized", "total_costs", "exposure_pct"]

structure Row (V : Type) where
  params : Combo V
  tradeCount : Nat
  signalCount : Nat
  summary : List (String × Metric)
  insufficientTrades : Bool
  deriving DecidableEq

def negate : Rank → Rank
  | none => some none
  | some none => none
  | some (some value) => some (some (-value))

def rankValue (metrics : String → Metric) (objective : String) : Option Rank :=
  match metrics objective with
  | .float value => some (if objective ∈ minimizeObjectives then negate value else value)
  | .absent | .other | .nan => none

/-- Grid search, or the combinations that a random search has drawn where the grid has more. -/
inductive SearchMode (V : Type) where
  | grid
  | random (drawn : List (Combo V))

structure Report (V : Type) where
  rows : List (Row V)
  best : Option (Row V)
  failures : List (Combo V × Option String)
  combinationsTotal : Nat
  combinationsEvaluated : Nat

namespace Study
variable (study : Study Candle V)

def combos : SearchMode V → Except Failure (List (Combo V))
  | .grid => thinned study.maxCombinations (gridCombinations study.space)
  | .random drawn =>
    let all := gridCombinations study.space
    .ok (if (all.length : Int) ≤ study.maxCombinations then all else drawn)

/-- The loop over the combinations; the first run that raises ends it. -/
def runAll : List (Combo V) → Except Failure (List (Combo V × RunOutcome))
  | [] => .ok []
  | combo :: rest =>
    match study.run study.candles combo with
    | .error message => .error (.run message)
    | .ok outcome =>
      match runAll rest with
      | .error failure => .error failure
      | .ok outcomes => .ok ((combo, outcome) :: outcomes)

def rowOf (combo : Combo V) (outcome : RunOutcome) : Row V where
  params := combo
  tradeCount := outcome.tradeCount
  signalCount := outcome.signalCount
  summary := summaryKeys.map fun key => (key, outcome.metrics key)
  insufficientTrades := decide ((outcome.tradeCount : Int) < study.minTrades)

def rankable (combo : Combo V) (outcome : RunOutcome) : Option (Row V × Rank) :=
  if (outcome.tradeCount : Int) < study.minTrades then none
  else (rankValue outcome.metrics study.objective).map fun rank => (study.rowOf combo outcome, rank)

variable [DecidableEq V]

/-- The table of the runs: the ranked rows by rank, then the others. -/
def tabulate (total : Nat) (outcomes : List (Combo V × RunOutcome)) : Report V :=
  let passed := outcomes.filter fun o => o.2.ok
  let rows := passed.map fun o => study.rowOf o.1 o.2
  let ranked := (passed.filterMap fun o => study.rankable o.1 o.2).insertionSort fun a b => b.2 ≤ a.2
  let ordered := ranked.map Prod.fst ++ rows.filter fun row => row ∉ ranked.map Prod.fst
  { rows := ordered
    best := ordered.head?
    failures := ((outcomes.filter fun o => !o.2.ok).map fun o => (o.1, o.2.error)).take 10
    combinationsTotal := total
    combinationsEvaluated := outcomes.length }

def optimize (mode : SearchMode V) (workBudget : Nat) : Except Failure (Report V) :=
  if study.specs = [] then .error .noIndicator
  else if study.objective ∉ objectiveWhitelist then .error (.objective study.objective)
  else if study.candles.isEmpty then .error .noCandles
  else
    match study.combos mode with
    | .error failure => .error failure
    | .ok combos =>
      if workBudget < combos.length * study.candles.length then
        .error (.overBudget (combos.length * study.candles.length))
      else
        match study.runAll combos with
        | .error failure => .error failure
        | .ok outcomes => .ok (study.tabulate (gridCombinations study.space).length outcomes)

end Study

/-! The walk-forward. -/

def minimumTest : Nat := 30

def splitBlocks (length folds : Nat) : List (Nat × Nat) :=
  let size := length / (folds + 1)
  (List.range (folds + 1)).map fun k => (k * size, if k = folds then length else (k + 1) * size)

structure FoldReport (V : Type) where
  fold : Nat
  trainRange : Nat × Nat
  testRange : Nat × Nat
  trainBars : Nat
  testBars : Nat
  /-- None where the fold is skipped. -/
  selectedParams : Option (Combo V)
  testTrades : Nat

namespace Study
variable (study : Study Candle V)

/-- What a run counts for on a training block: it has enough trades, and the objective is a number. -/
def considered (train : List Candle) (combo : Combo V) : Option Rank :=
  match study.run train combo with
  | .error _ => none
  | .ok outcome =>
    if outcome.ok = false ∨ (outcome.tradeCount : Int) < study.minTrades then none
    else
      match outcome.metrics study.objective with
      | .float value => some value
      | .absent | .other | .nan => none

def pick (train : List Candle) (best : Option (Combo V × Rank)) (combo : Combo V) : Option (Combo V × Rank) :=
  match study.considered train combo with
  | none => best
  | some rank =>
    match best with
    | none => some (combo, rank)
    | some (_, bestRank) => if bestRank < rank then some (combo, rank) else best

def selectParams (train : List Candle) (combos : List (Combo V)) : Option (Combo V) :=
  (combos.foldl (study.pick train) none).map Prod.fst

def purgedTrainEnd (folds : Nat) (purgeBars : Int) (fold : Nat) : Nat :=
  let trainEnd := (fold + 1) * (study.candles.length / (folds + 1))
  (max ((trainEnd : Int) - purgeBars) 10).toNat

def trainCandles (folds : Nat) (purgeBars : Int) (fold : Nat) : List Candle :=
  study.candles.take (study.purgedTrainEnd folds purgeBars fold)

/-- One fold; it is not reported where a block is too short. -/
def walkFold (combos : List (Combo V)) (folds : Nat) (purgeBars : Int) (fold : Nat) :
    Except Failure (Option (FoldReport V)) :=
  match (splitBlocks study.candles.length folds)[fold + 1]? with
  | none => .ok none
  | some (testStart, testEnd) =>
    let train := study.trainCandles folds purgeBars fold
    let test := (study.candles.take testEnd).drop testStart
    let report : FoldReport V :=
      { fold
        trainRange := (0, study.purgedTrainEnd folds purgeBars fold)
        testRange := (testStart, testEnd)
        trainBars := train.length
        testBars := test.length
        selectedParams := none
        testTrades := 0 }
    if train.length < 30 ∨ test.length < minimumTest then .ok none
    else
      match study.selectParams train combos with
      | none => .ok (some report)
      | some params =>
        match study.run test params with
        | .error message => .error (.run message)
        | .ok outcome => .ok (some { report with selectedParams := some params, testTrades := outcome.tradeCount })

def walkFolds (combos : List (Combo V)) (folds : Nat) (purgeBars : Int) :
    List Nat → Except Failure (List (FoldReport V))
  | [] => .ok []
  | fold :: rest =>
    match study.walkFold combos folds purgeBars fold with
    | .error failure => .error failure
    | .ok report =>
      match walkFolds combos folds purgeBars rest with
      | .error failure => .error failure
      | .ok reports => .ok (report.toList ++ reports)

def walkForward [DecidableEq V] (folds : Nat) (purgeBars : Int) : Except Failure (List (FoldReport V)) :=
  if study.specs = [] then .error .noIndicator
  else if folds < 2 then .error .folds
  else if purgeBars < 0 then .error .purgeBars
  else if study.candles.length < (folds + 1) * minimumTest then .error (.tooShort ((folds + 1) * minimumTest))
  else
    match thinned study.maxCombinations (gridCombinations study.space) with
    | .error failure => .error failure
    | .ok combos => study.walkFolds combos folds purgeBars (List.range folds)

end Study

end Droid.Research.GridSearch
