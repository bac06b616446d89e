import Droid.Lib.Gapped
import Mathlib.Algebra.Order.Ring.Rat

/-! The rolling indicator helpers: loops with running sums, a seed or a window, that start afresh at a gap. -/
namespace Droid.Research.IndicatorHelpers
open Lib

/-- The window and its running sum. -/
def smaPush (n : Nat) : List ℚ × ℚ → ℚ → (List ℚ × ℚ) × Option ℚ
  | (window, total), v =>
    let grown := window ++ [v]
    let total := if n < grown.length then total + v - grown.headD 0 else total + v
    ((slide n window v, total), if (slide n window v).length = n then some (total / n) else none)

def sma (values : List (Option ℚ)) (n : Int) : List (Option ℚ) :=
  if n ≤ 0 then List.replicate values.length none
  else gapScan ([], 0) (smaPush n.toNat) ([], 0) values

/-- The loop of `ema` and `wilder`: the seed window and the last value, which starts as the mean of the seed. -/
def seededPush (n : Nat) (update : ℚ → ℚ → ℚ) : List ℚ × Option ℚ → ℚ → (List ℚ × Option ℚ) × Option ℚ
  | (seed, none), v =>
    if (seed ++ [v]).length < n then ((seed ++ [v], none), none)
    else ((slide n seed v, some ((slide n seed v).sum / n)), some ((slide n seed v).sum / n))
  | (seed, some prev), v => ((seed, some (update prev v)), some (update prev v))

def emaUpdate (n : Nat) (prev v : ℚ) : ℚ :=
  let k : ℚ := 2 / (n + 1)
  v * k + prev * (1 - k)

def ema (values : List (Option ℚ)) (n : Int) : List (Option ℚ) :=
  if n ≤ 0 then List.replicate values.length none
  else gapScan ([], none) (seededPush n.toNat (emaUpdate n.toNat)) ([], none) values

def wilderUpdate (n : Nat) (prev v : ℚ) : ℚ := (prev * (n - 1) + v) / n

def wilder (values : List (Option ℚ)) (n : Int) : List (Option ℚ) :=
  if n ≤ 0 then List.replicate values.length none
  else gapScan ([], none) (seededPush n.toNat (wilderUpdate n.toNat)) ([], none) values

/-- The window and the running sums of its values and of their squares. -/
def stdevPush {ρ : Type} (sqrt : ℚ → ρ) (n : Nat) : List ℚ × ℚ × ℚ → ℚ → (List ℚ × ℚ × ℚ) × Option ρ
  | (window, total, totalSq), v =>
    let grown := window ++ [v]
    let old := grown.headD 0
    let total := if n < grown.length then total + v - old else total + v
    let totalSq := if n < grown.length then totalSq + v * v - old * old else totalSq + v * v
    let mean := total / n
    let variance := totalSq / n - mean * mean
    ((slide n window v, total, totalSq),
      if (slide n window v).length = n then some (sqrt (if variance < 0 then 0 else variance)) else none)

def stdev {ρ : Type} (sqrt : ℚ → ρ) (values : List (Option ℚ)) (n : Int) : List (Option ρ) :=
  if n ≤ 1 then List.replicate values.length none
  else gapScan ([], 0, 0) (stdevPush sqrt n.toNat) ([], 0, 0) values

/-- The loop of `_extreme` and of the regressions: the window alone. -/
def windowPush (n : Nat) (f : List ℚ → Option ℚ) (window : List ℚ) (v : ℚ) : List ℚ × Option ℚ :=
  (slide n window v, if (slide n window v).length = n then f (slide n window v) else none)

def extreme (values : List (Option ℚ)) (n : Int) (wantMax : Bool) : List (Option ℚ) :=
  if n ≤ 0 then List.replicate values.length none
  else gapScan [] (windowPush n.toNat fun window => if wantMax then window.max? else window.min?) [] values

def highest (values : List (Option ℚ)) (n : Int) : List (Option ℚ) := extreme values n true

def lowest (values : List (Option ℚ)) (n : Int) : List (Option ℚ) := extreme values n false

def xSum (n : Nat) : ℚ := n * (n - 1) / 2

def x2Sum (n : Nat) : ℚ := n * (n - 1) * (2 * n - 1) / 6

def denom (n : Nat) : ℚ := n * x2Sum n - xSum n * xSum n

def slopeOf (n : Nat) (window : List ℚ) : ℚ :=
  let sumXy := (window.zipIdx.map fun p => (p.2 : ℚ) * p.1).sum
  (n * sumXy - xSum n * window.sum) / denom n

def endpointOf (n : Nat) (window : List ℚ) : ℚ :=
  let slope := slopeOf n window
  let intercept := (window.sum - slope * xSum n) / n
  intercept + slope * (n - 1)

/-- The loop of the two regressions. -/
def linreg (f : Nat → List ℚ → ℚ) (values : List (Option ℚ)) (n : Int) : List (Option ℚ) :=
  if n ≤ 1 then List.replicate values.length none
  else if denom n.toNat = 0 then List.replicate values.length none
  else gapScan [] (windowPush n.toNat fun window => some (f n.toNat window)) [] values

def linregSlope : List (Option ℚ) → Int → List (Option ℚ) := linreg slopeOf

def linregValue : List (Option ℚ) → Int → List (Option ℚ) := linreg endpointOf

end Droid.Research.IndicatorHelpers
