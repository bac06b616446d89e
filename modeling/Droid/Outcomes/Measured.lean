import Droid.Outcomes.DueRuns
import Mathlib.Tactic.Linarith

/-! What the outcome of a research prediction is measured on: which candles its excursions see, and which of two
touches in one bar counts. -/
namespace Droid.Outcomes
open Lib

/-- The outcome appended for a row whose planner says settle. -/
def settledOutcome (calendar : Calendar) (row : ResearchRow) (candles : List Candle) (now : Int) :
    Option PredictionOutcome :=
  match planResearchRow calendar row candles now with
  | .settle plan => some (buildResearchOutcome row plan.outcomeSpot plan.outcomeLabel candles now)
  | .wait _ => none
  | .skip _ => none

/-- What is measured on the candles. -/
structure Measured where
  mfe : ℚ
  mae : ℚ
  targetHit : Bool
  stopHit : Bool
  timeToTargetSec : Option ℚ
  isCorrect : Bool
  deriving DecidableEq

def PredictionOutcome.measured (outcome : PredictionOutcome) : Measured where
  mfe := outcome.mfe
  mae := outcome.mae
  targetHit := outcome.targetHit
  stopHit := outcome.stopHit
  timeToTargetSec := outcome.timeToTargetSec
  isCorrect := outcome.isCorrect

/-- The candles of a request for a window, two minutes wider on both sides. -/
def Requested (t tPlusH : Int) (candles : List Candle) : Prop :=
  ∀ c ∈ candles, ∃ timestamp, c.timestamp = some timestamp ∧ t - minutes 2 ≤ timestamp ∧
    timestamp ≤ tPlusH + minutes 2

/-- The candles after t and not after t plus the horizon. -/
def inside (t tPlusH : Int) (candles : List Candle) : List Candle :=
  candles.filter (fun c => c.timestamp.any (fun timestamp => t < timestamp && timestamp ≤ tPlusH))

/-- No other candles of the request, the same inside the window, change what is measured. -/
def WindowOnly (calendar : Calendar) (row : ResearchRow) (candles : List Candle) (now t tPlusH : Int)
    (outcome : PredictionOutcome) : Prop :=
  ∀ candles' outcome', Requested t tPlusH candles' → inside t tPlusH candles' = inside t tPlusH candles →
    settledOutcome calendar row candles' now = some outcome' → outcome'.measured = outcome.measured

def targetTouched (row : ResearchRow) (bar : ℚ × ℚ) : Bool :=
  row.targetPrice.any (fun targetP => reachesTarget (Direction.parse row.direction) targetP bar)

def stopTouched (row : ResearchRow) (bar : ℚ × ℚ) : Bool :=
  row.invalidationPrice.any (fun invalP => reachesStop (Direction.parse row.direction) invalP bar)

/-- A bar that reaches both the target and the stop is not counted as a hit of the target. -/
def StopFirst (row : ResearchRow) (candles : List Candle) (outcome : PredictionOutcome) : Prop :=
  ∀ (i : Nat) bar, (candles.filterMap candleHighLow)[i]? = some bar → targetTouched row bar = true →
    stopTouched row bar = true → outcome.timeToTargetSec ≠ some (((i : ℚ) + 1) * 60)

/-- The first bar that reaches the target or the stop reaches both. -/
def BothAtFirst (row : ResearchRow) (bars : List (ℚ × ℚ)) : Prop :=
  ∃ (i : Nat) (bar : ℚ × ℚ), bars[i]? = some bar ∧ targetTouched row bar = true ∧ stopTouched row bar = true ∧
    ∀ (j : Nat) earlier, j < i → bars[j]? = some earlier →
      targetTouched row earlier = false ∧ stopTouched row earlier = false

section Touches
variable {row : ResearchRow}

/-- One bar of the row's own levels. -/
def touchRow (row : ResearchRow) : Touches → (ℚ × ℚ) × Nat → Touches :=
  Touches.touch (Direction.parse row.direction) row.targetPrice row.invalidationPrice

private theorem touch_eq (predDir : Direction) (targetP invalP : Option ℚ) (touches : Touches) (bar : ℚ × ℚ)
    (k : Nat) :
    touches.touch predDir targetP invalP (bar, k) =
      { targetHit := touches.targetHit ||
          (!touches.stopHit && targetP.any (fun targetP => reachesTarget predDir targetP bar))
        stopHit := touches.stopHit || invalP.any (fun invalP => reachesStop predDir invalP bar)
        timeToTargetSec :=
          if !touches.targetHit && !touches.stopHit &&
            targetP.any (fun targetP => reachesTarget predDir targetP bar) then some ((k + 1) * 60)
          else touches.timeToTargetSec } := by
  obtain ⟨targetHit, stopHit, time⟩ := touches
  cases targetP <;> cases invalP <;> cases targetHit <;> cases stopHit <;>
    simp only [Touches.touch, Option.any_none, Option.any_some] <;> split_ifs <;> simp_all

theorem touchRow_eq (touches : Touches) (bar : ℚ × ℚ) (k : Nat) :
    touchRow row touches (bar, k) =
      { targetHit := touches.targetHit || (!touches.stopHit && targetTouched row bar)
        stopHit := touches.stopHit || stopTouched row bar
        timeToTargetSec :=
          if !touches.targetHit && !touches.stopHit && targetTouched row bar then some ((k + 1) * 60)
          else touches.timeToTargetSec } := touch_eq _ _ _ touches bar k

/-- Once one of the levels is reached, the time to the target stays. -/
theorem foldl_touchRow_done (bars : List ((ℚ × ℚ) × Nat)) {touches : Touches}
    (hdone : (touches.targetHit || touches.stopHit) = true) :
    (bars.foldl (touchRow row) touches).timeToTargetSec = touches.timeToTargetSec := by
  induction bars generalizing touches with
  | nil => rfl
  | cons bar bars ih =>
    obtain ⟨bar, k⟩ := bar
    rw [List.foldl_cons, touchRow_eq, ih]
    · dsimp only
      rw [if_neg]
      intro hfresh
      rw [Bool.and_eq_true, Bool.and_eq_true] at hfresh
      rw [Bool.or_eq_true] at hdone
      rcases hdone with h | h <;> simp [h] at hfresh
    · dsimp only
      rw [Bool.or_eq_true] at hdone
      rcases hdone with h | h <;> simp [h]

theorem foldl_touchRow_time (row : ResearchRow) (bars : List (ℚ × ℚ)) (k : Nat) (time : ℚ) :
    ((bars.zipIdx k).foldl (touchRow row) {}).timeToTargetSec = some time ↔
      ∃ (i : Nat) (bar : ℚ × ℚ), bars[i]? = some bar ∧ targetTouched row bar = true ∧
        (∀ (j : Nat) earlier, j < i → bars[j]? = some earlier →
          targetTouched row earlier = false ∧ stopTouched row earlier = false) ∧
        time = (((k + i : Nat) : ℚ) + 1) * 60 := by
  induction bars generalizing k with
  | nil => simp
  | cons bar bars ih =>
    rw [List.zipIdx_cons, List.foldl_cons, touchRow_eq]
    by_cases htarget : targetTouched row bar = true
    · rw [foldl_touchRow_done _ (by simp [htarget])]
      constructor
      · intro htime
        refine ⟨0, bar, rfl, htarget, nofun, ?_⟩
        simpa [htarget, eq_comm] using htime
      · rintro ⟨i, found, hfound, -, hearlier, rfl⟩
        cases i with
        | zero => simp [htarget]
        | succ i =>
          have hfirst := (hearlier 0 bar (Nat.succ_pos i) rfl).1
          rw [htarget] at hfirst
          cases hfirst
    · rw [Bool.not_eq_true] at htarget
      by_cases hstop : stopTouched row bar = true
      · rw [foldl_touchRow_done _ (by simp [hstop])]
        constructor
        · intro htime
          simp [htarget] at htime
        · rintro ⟨i, found, hfound, hfoundtarget, hearlier, -⟩
          cases i with
          | zero =>
            cases hfound
            rw [htarget] at hfoundtarget
            cases hfoundtarget
          | succ i =>
            have hfirst := (hearlier 0 bar (Nat.succ_pos i) rfl).2
            rw [hstop] at hfirst
            cases hfirst
      · rw [Bool.not_eq_true] at hstop
        have hfresh := ih (k + 1)
        simp only [htarget, hstop, Bool.and_false, Bool.or_false, Bool.false_eq_true, if_false]
        rw [hfresh]
        constructor
        · rintro ⟨i, found, hfound, hfoundtarget, hearlier, rfl⟩
          refine ⟨i + 1, found, hfound, hfoundtarget, ?_, ?_⟩
          · intro j earlier hj hget
            cases j with
            | zero =>
              cases hget
              exact ⟨htarget, hstop⟩
            | succ j => exact hearlier j earlier (Nat.lt_of_succ_lt_succ hj) hget
          · rw [Nat.add_right_comm k 1 i, Nat.add_assoc]
        · rintro ⟨i, found, hfound, hfoundtarget, hearlier, rfl⟩
          cases i with
          | zero =>
            cases hfound
            rw [htarget] at hfoundtarget
            cases hfoundtarget
          | succ i =>
            refine ⟨i, found, hfound, hfoundtarget, ?_, ?_⟩
            · intro j earlier hj hget
              exact hearlier (j + 1) earlier (Nat.succ_lt_succ hj) hget
            · rw [Nat.add_right_comm k 1 i, Nat.add_assoc]

theorem touches_time (row : ResearchRow) (bars : List (ℚ × ℚ)) (time : ℚ) :
    (touches (Direction.parse row.direction) row.targetPrice row.invalidationPrice bars).timeToTargetSec =
        some time ↔
      ∃ (i : Nat) (bar : ℚ × ℚ), bars[i]? = some bar ∧ targetTouched row bar = true ∧
        (∀ (j : Nat) earlier, j < i → bars[j]? = some earlier →
          targetTouched row earlier = false ∧ stopTouched row earlier = false) ∧
        time = ((i : ℚ) + 1) * 60 := by
  have h := foldl_touchRow_time row bars 0 time
  simp only [Nat.zero_add] at h
  exact h

end Touches

/-- The stop goes first exactly where the first bar that reaches a level does not reach both. -/
theorem stopFirst_iff {row : ResearchRow} {candles : List Candle} {outcome : PredictionOutcome}
    (htime : outcome.timeToTargetSec = (touches (Direction.parse row.direction) row.targetPrice
      row.invalidationPrice (candles.filterMap candleHighLow)).timeToTargetSec) :
    StopFirst row candles outcome ↔ ¬BothAtFirst row (candles.filterMap candleHighLow) := by
  rw [StopFirst, BothAtFirst, htime]
  constructor
  · rintro h ⟨i, bar, hget, htarget, hstop, hearlier⟩
    exact h i bar hget htarget hstop ((touches_time row _ _).mpr ⟨i, bar, hget, htarget, hearlier, rfl⟩)
  · intro h i bar hget htarget hstop heq
    obtain ⟨i', bar', hget', -, hearlier, hsame⟩ := (touches_time row _ _).mp heq
    have hindex : i = i' := by
      have hcast : (i : ℚ) = i' := by linarith
      exact_mod_cast hcast
    subst hindex
    exact h ⟨i, bar, hget, htarget, hstop, hearlier⟩

theorem excursions_nonneg (predDir : Direction) (entry : ℚ) (bars : List (ℚ × ℚ)) :
    0 ≤ (excursions predDir entry bars).1 ∧ 0 ≤ (excursions predDir entry bars).2 := by
  rw [excursions]
  split
  · split
    · exact ⟨roundTo_nonneg _ (le_max_left _ _), roundTo_nonneg _ (le_max_left _ _)⟩
    · exact ⟨roundTo_nonneg _ (le_max_left _ _), roundTo_nonneg _ (le_max_left _ _)⟩
    · exact ⟨le_refl _, roundTo_nonneg _ (le_max_left _ _)⟩
  · exact ⟨le_refl _, le_refl _⟩

theorem sub_le_roundTo {x y : ℚ} (h : x ≤ y) : x - 1 / 200 ≤ roundTo 2 y := by
  have hround := abs_le.mp (abs_roundTo_sub_le 2 y)
  norm_num at hround
  linarith [hround.1]

/-- Every bar's high counts: in the favorable excursion of a bullish row, in the adverse one of all others. -/
theorem high_le_excursions {bars : List (ℚ × ℚ)} {bar : ℚ × ℚ} (hbar : bar ∈ bars) (predDir : Direction)
    (entry : ℚ) :
    bar.1 - entry - 1 / 200 ≤ (excursions predDir entry bars).1 + (excursions predDir entry bars).2 := by
  obtain ⟨hi, hhi⟩ := Option.isSome_iff_exists.mp (List.isSome_max?_of_mem (List.mem_map_of_mem (f := Prod.fst) hbar))
  obtain ⟨lo, hlo⟩ := Option.isSome_iff_exists.mp (List.isSome_min?_of_mem (List.mem_map_of_mem (f := Prod.snd) hbar))
  have hle : bar.1 ≤ hi := (List.max?_eq_some_iff.mp hhi).2 bar.1 (List.mem_map_of_mem hbar)
  have hgain : bar.1 - entry ≤ max 0 (hi - entry) := le_max_of_le_right (by linarith)
  obtain ⟨hfavorable, hadverse⟩ := excursions_nonneg predDir entry bars
  have hwidest : bar.1 - entry ≤ max 0 (max |hi - entry| |entry - lo|) :=
    le_max_of_le_right (le_max_of_le_left (le_trans (by linarith) (le_abs_self _)))
  simp only [excursions, hhi, hlo] at hfavorable hadverse ⊢
  cases predDir with
  | bullish => linarith [sub_le_roundTo hgain]
  | bearish => linarith [sub_le_roundTo hgain]
  | neutral => linarith [sub_le_roundTo hwidest]
  | unknown => linarith [sub_le_roundTo hwidest]

/-- A candle one minute before the window, at any price. -/
def earlyCandle (t : Int) (px : ℚ) : Candle := .record (some (t - minutes 1)) (some px) (some px) (some px)

theorem candleHighLow_early {t : Int} {px : ℚ} (hpx : 0 < px) : candleHighLow (earlyCandle t px) = some (px, px) := by
  simp [candleHighLow, earlyCandle, orClose, hpx, hpx.ne']

theorem earlyCandle_outside (t h : Int) (px : ℚ) : (earlyCandle t px).inWindow t h = none := by
  simp [Candle.inWindow, earlyCandle, Candle.timestamp, Candle.close, minutes]

/-- Candles outside the window leave the planner's answer. -/
theorem planResearchRow_append {calendar : Calendar} {row : ResearchRow} {candles : List Candle} {now t h : Int}
    (ht : row.timestamp = some t) (hh : resolveHorizonMinutes row = some h) {extra : List Candle}
    (hextra : ∀ c ∈ extra, c.inWindow t (t + minutes h) = none) :
    planResearchRow calendar row (candles ++ extra) now = planResearchRow calendar row candles now := by
  cases hwindow : classifyWindow calendar row.instrumentOrSymbol t h with
  | none => simp only [planResearchRow, ht, hh, hwindow]
  | some window =>
    simp only [planResearchRow, ht, hh, hwindow]
    rw [classifyWindow_end hwindow, resolveForwardSpot_append hextra]

theorem classifyWindow_horizon {calendar : Calendar} {symbol : String} {t h : Int} {window : Window}
    (hwindow : classifyWindow calendar symbol t h = some window) : 0 < h := by
  rw [classifyWindow] at hwindow
  split at hwindow
  · cases hwindow
  · rename_i hsupported
    rw [not_not] at hsupported
    have hall : ∀ horizon ∈ SUPPORTED_HORIZONS, 0 < horizon := by decide
    exact hall h hsupported

/-- A candle at twice the excursions before the window changes them. -/
theorem not_windowOnly {calendar : Calendar} {row : ResearchRow} {candles : List Candle} {now t h : Int}
    {outcome : PredictionOutcome} (ht : row.timestamp = some t) (hh : resolveHorizonMinutes row = some h)
    (hrequested : Requested t (t + minutes h) candles)
    (hsettled : settledOutcome calendar row candles now = some outcome) :
    ¬WindowOnly calendar row candles now t (t + minutes h) outcome := by
  intro honly
  obtain ⟨plan, hplan, hbuilt⟩ : ∃ plan, planResearchRow calendar row candles now = .settle plan ∧
      buildResearchOutcome row plan.outcomeSpot plan.outcomeLabel candles now = outcome := by
    rw [settledOutcome] at hsettled
    split at hsettled
    · rename_i plan hplan
      exact ⟨plan, hplan, Option.some.inj hsettled⟩
    · cases hsettled
    · cases hsettled
  obtain ⟨t', h', window, ht', hh', -, hentry, hwindow, -, -⟩ := planResearchRow_settle hplan
  cases ht.symm.trans ht'
  cases hh.symm.trans hh'
  have hhorizon := classifyWindow_horizon hwindow
  obtain ⟨hmfe, hmae⟩ := excursions_nonneg (Direction.parse row.direction) (spotAtT row)
    (candles.filterMap candleHighLow)
  -- the new bar's high lies beyond both excursions taken together
  obtain ⟨px, hpx⟩ : ∃ px, px = spotAtT row + outcome.mfe + outcome.mae + 1 := ⟨_, rfl⟩
  have hpx0 : 0 < px := by
    subst hbuilt
    simp only [buildResearchOutcome] at hpx
    linarith
  have hplan' : planResearchRow calendar row (candles ++ [earlyCandle t px]) now = .settle plan := by
    rw [planResearchRow_append ht hh, hplan]
    intro c hc
    rw [List.mem_singleton.mp hc]
    exact earlyCandle_outside t (t + minutes h) px
  have hsame := honly (candles ++ [earlyCandle t px]) _ ?_ ?_ (by rw [settledOutcome, hplan'])
  · have hbar : (px, px) ∈ (candles ++ [earlyCandle t px]).filterMap candleHighLow := by
      simp [candleHighLow_early hpx0]
    have hhigh := high_le_excursions hbar (Direction.parse row.direction) (spotAtT row)
    have hmfe' := congrArg Measured.mfe hsame
    have hmae' := congrArg Measured.mae hsame
    simp only [PredictionOutcome.measured, buildResearchOutcome] at hmfe' hmae'
    rw [hmfe', hmae'] at hhigh
    simp only at hhigh
    linarith
  · intro c hc
    rcases List.mem_append.mp hc with hold | hnew
    · exact hrequested c hold
    · rw [List.mem_singleton.mp hnew]
      refine ⟨t - minutes 1, rfl, ?_, ?_⟩ <;> simp only [minutes] <;> omega
  · have hout : inside t (t + minutes h) [earlyCandle t px] = [] := by
      simp [inside, earlyCandle, Candle.timestamp, minutes]
    rw [inside, List.filter_append, ← inside, ← inside, hout, List.append_nil]

/-- No settled outcome is measured on its window alone: a candle before it changes the excursions. Of two levels
reached in one bar the target counts exactly where that bar is the first to reach a level. -/
theorem measured_outside {calendar : Calendar} {row : ResearchRow} {candles : List Candle} {now t h : Int}
    {outcome : PredictionOutcome} (ht : row.timestamp = some t) (hh : resolveHorizonMinutes row = some h)
    (hrequested : Requested t (t + minutes h) candles)
    (hsettled : settledOutcome calendar row candles now = some outcome) :
    ¬WindowOnly calendar row candles now t (t + minutes h) outcome ∧
      (StopFirst row candles outcome ↔ ¬BothAtFirst row (candles.filterMap candleHighLow)) := by
  refine ⟨not_windowOnly ht hh hrequested hsettled, stopFirst_iff ?_⟩
  rw [settledOutcome] at hsettled
  split at hsettled
  · cases hsettled
    rfl
  · cases hsettled
  · cases hsettled

def bullishRow : ResearchRow where
  predictionId := "bullish"
  indicatorId := "trend_forecast_1h"
  instrument := some "BTCUSDT"
  timestamp := some 0
  forecastHorizon := some "1h"
  timeframe := some "1h"
  currentPrice := some 100
  atrReadings := [some 2]
  direction := some "BULLISH"
  targetPrice := some 105
  invalidationPrice := some 95

def noSessions : Calendar := fun _ => { isTradingDay := false }

/-- One bar that reaches the target and the stop. -/
def wideBar : Candle := .record (some (minutes 30)) (some 101) (some 106) (some 94)

def wideOutcome : PredictionOutcome := buildResearchOutcome bullishRow 101 2 [wideBar] (minutes 120)

theorem requested_wideBar : Requested 0 (0 + minutes 60) [wideBar] := by
  intro c hc
  rw [List.mem_singleton.mp hc]
  exact ⟨minutes 30, rfl, by decide, by decide⟩

/-- A bullish row whose only bar reaches both levels. -/
theorem measured_outside_wideBar :
    ¬WindowOnly noSessions bullishRow [wideBar] (minutes 120) 0 (0 + minutes 60) wideOutcome ∧
      (StopFirst bullishRow [wideBar] wideOutcome ↔
        ¬BothAtFirst bullishRow ([wideBar].filterMap candleHighLow)) :=
  measured_outside rfl (by decide +kernel) requested_wideBar (by decide +kernel)

/-- A bar before the window raises the excursion from 6 to 20, and the bar that reaches both levels counts for the
target. -/
theorem wideBar_measured :
    ¬WindowOnly noSessions bullishRow [wideBar] (minutes 120) 0 (0 + minutes 60) wideOutcome ∧
      ¬StopFirst bullishRow [wideBar] wideOutcome := by
  constructor
  · intro honly
    have hsame := honly [earlyCandle 0 120, wideBar]
      (buildResearchOutcome bullishRow 101 2 [earlyCandle 0 120, wideBar] (minutes 120)) ?_
      (by decide +kernel) (by decide +kernel)
    · revert hsame
      decide +kernel
    · intro c hc
      rcases List.mem_cons.mp hc with rfl | hwide
      · exact ⟨-minutes 1, rfl, by decide, by decide⟩
      · exact requested_wideBar c hwide
  · intro hfirst
    exact hfirst 0 (106, 94) (by decide +kernel) (by decide +kernel) (by decide +kernel) (by decide +kernel)

end Droid.Outcomes
