import Droid.Lib.Rounding
import Droid.Lib.StableSort

/-! Point-in-time divergence detection: confirmed pivots and the divergences between them. -/
namespace Droid.Divergence
open Lib

inductive DivergenceType where
  | regularBullish | regularBearish | hiddenBullish | hiddenBearish
  deriving DecidableEq, Repr

inductive PivotType where
  | high | low
  deriving DecidableEq, Repr

structure Pivot where
  pivotType : PivotType
  pivotIndex : Nat
  confirmationIndex : Nat
  price : ℚ
  indicatorValue : ℚ
  timestamp : Option String
  deriving DecidableEq, Repr

structure DivergenceEvent where
  divergenceType : DivergenceType
  indicatorName : String
  confirmationIndex : Nat
  currPivotIndex : Nat
  prevPivotIndex : Nat
  currPrice : ℚ
  prevPrice : ℚ
  currIndicator : ℚ
  prevIndicator : ℚ
  priceDelta : ℚ
  priceDeltaAtr : ℚ
  indicatorDelta : ℚ
  pivotSeparationBars : Int
  confirmationLag : Nat
  timestamp : Option String
  deriving DecidableEq, Repr

/-! ### The series -/

/-- One index of the high, low and indicator series; an indicator that is no number is missing. -/
structure Bar where
  high : ℚ
  low : ℚ
  indicator : Option ℚ
  deriving DecidableEq, Repr

structure Series where
  bars : List Bar
  atr : List (Option ℚ)
  timestamps : Option (List String) := none
  deriving DecidableEq, Repr

namespace Series

def timestampAt (s : Series) (confIdx : Nat) : Option String := s.timestamps.bind (·[confIdx]?)

/-- The ATR at the confirmation, one where it is missing or not positive. -/
def atrAt (s : Series) (confIdx : Nat) : ℚ :=
  let atr := (((s.atr[confIdx]?).getD none).filter (· ≠ 0)).getD 1
  if atr ≤ 0 then 1 else atr

end Series

/-- The parameters of the detection, with the source's defaults. -/
structure Settings where
  indicatorName : String := "fisher"
  pivotLeftBars : Nat := 5
  pivotRightBars : Nat := 5
  minPivotSeparation : Int := 5
  maxPivotSeparation : Int := 100
  pairingStrategy : String := "nearest"

/-! ### Pivots -/

namespace PivotType

def price : PivotType → Bar → ℚ
  | .high, bar => bar.high
  | .low, bar => bar.low

def beyond : PivotType → ℚ → ℚ → Bool
  | .high, curr, other => other < curr
  | .low, curr, other => curr < other

def notWithin : PivotType → ℚ → ℚ → Bool
  | .high, curr, other => other ≤ curr
  | .low, curr, other => curr ≤ other

/-- Strict to the left, equal allowed to the right. -/
def isPivot (kind : PivotType) (leftBars rightBars : Nat) (bars : List Bar) (i : Nat) (curr : Bar) : Bool :=
  ((List.range' (i - leftBars) leftBars).all fun j =>
    (bars[j]?).all fun bar => kind.beyond (kind.price curr) (kind.price bar)) &&
  ((List.range' (i + 1) rightBars).all fun j =>
    (bars[j]?).all fun bar => kind.notWithin (kind.price curr) (kind.price bar))

end PivotType

section Detection
variable (cfg : Settings) (s : Series)

/-- One turn of the loop of `detect_pivots`, for the highs or for the lows. -/
def pivotAt (kind : PivotType) (i : Nat) : Option Pivot := do
  let curr ← s.bars[i]?
  let indVal ← curr.indicator
  if kind.isPivot cfg.pivotLeftBars cfg.pivotRightBars s.bars i curr then
    some
      { pivotType := kind
        pivotIndex := i
        confirmationIndex := i + cfg.pivotRightBars
        price := kind.price curr
        indicatorValue := indVal
        timestamp := s.timestampAt (i + cfg.pivotRightBars) }
  else none

def detectPivots (kind : PivotType) : List Pivot :=
  if s.bars.length < cfg.pivotLeftBars + cfg.pivotRightBars + 1 then []
  else
    (List.range' cfg.pivotLeftBars (s.bars.length - cfg.pivotRightBars - cfg.pivotLeftBars)).filterMap
      (pivotAt cfg s kind)

/-! ### Divergences -/

/-- Which divergence two pivots are: price and indicator move apart. -/
def PivotType.divergence (kind : PivotType) (pCurr pPrev indCurr indPrev : ℚ) : Option DivergenceType :=
  match kind with
  | .high =>
    if pPrev < pCurr ∧ indCurr < indPrev then some .regularBearish
    else if pCurr < pPrev ∧ indPrev < indCurr then some .hiddenBearish
    else none
  | .low =>
    if pCurr < pPrev ∧ indPrev < indCurr then some .regularBullish
    else if pPrev < pCurr ∧ indCurr < indPrev then some .hiddenBullish
    else none

def eventOf (kind : PivotType) (curr prev : Pivot) : Option DivergenceEvent :=
  (kind.divergence curr.price prev.price curr.indicatorValue prev.indicatorValue).map fun divergenceType =>
    let confIdx := curr.confirmationIndex
    let pDelta := curr.price - prev.price
    { divergenceType
      indicatorName := cfg.indicatorName
      confirmationIndex := confIdx
      currPivotIndex := curr.pivotIndex
      prevPivotIndex := prev.pivotIndex
      currPrice := curr.price
      prevPrice := prev.price
      currIndicator := curr.indicatorValue
      prevIndicator := prev.indicatorValue
      priceDelta := roundTo 2 pDelta
      priceDeltaAtr := roundTo 3 (pDelta / s.atrAt confIdx)
      indicatorDelta := roundTo 3 (curr.indicatorValue - prev.indicatorValue)
      pivotSeparationBars := curr.pivotIndex - prev.pivotIndex
      confirmationLag := cfg.pivotRightBars
      timestamp := s.timestampAt confIdx }

/-- The earlier pivots at an admissible distance, nearest first. -/
def candidates (curr : Pivot) (earlier : List Pivot) : List Pivot :=
  earlier.filter fun prev =>
    cfg.minPivotSeparation ≤ (curr.pivotIndex : Int) - prev.pivotIndex ∧
      (curr.pivotIndex : Int) - prev.pivotIndex ≤ cfg.maxPivotSeparation

def selected (curr : Pivot) (earlier : List Pivot) : List Pivot :=
  if cfg.pairingStrategy = "all" then candidates cfg curr earlier else (candidates cfg curr earlier).take 1

def divergencesOn (kind : PivotType) : List Pivot → List Pivot → List DivergenceEvent
  | _, [] => []
  | earlier, curr :: rest =>
    (selected cfg curr earlier).filterMap (eventOf cfg s kind curr) ++
      divergencesOn kind (curr :: earlier) rest

def bearishDivergences : List DivergenceEvent := divergencesOn cfg s .high [] (detectPivots cfg s .high)

def bullishDivergences : List DivergenceEvent := divergencesOn cfg s .low [] (detectPivots cfg s .low)

def confirmedFirst (a b : DivergenceEvent) : Prop := a.confirmationIndex ≤ b.confirmationIndex

instance : DecidableRel confirmedFirst := fun a b => Nat.decLe a.confirmationIndex b.confirmationIndex

/-- Python's sort is stable. -/
def detectDivergences : List DivergenceEvent :=
  (bearishDivergences cfg s ++ bullishDivergences cfg s).insertionSort confirmedFirst

end Detection

def getActiveDivergenceAtBar (barIndex : Int) (divergences : List DivergenceEvent)
    (maxRecencyBars : Int) : Option DivergenceEvent :=
  (divergences.filter fun d =>
    d.confirmationIndex ≤ barIndex ∧ barIndex - d.confirmationIndex ≤ maxRecencyBars).getLast?

end Droid.Divergence
