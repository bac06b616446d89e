import Droid.Outcomes.OutcomeMeasurer

/-! Where the two evaluations of a prediction agree. -/
namespace Droid.Outcomes
open Lib

section Extremes
variable {α : Type} {l : List α} {a : α} {f : α → ℚ}

theorem max?_map_of_le (ha : a ∈ l) (h : ∀ b ∈ l, f b ≤ f a) : (l.map f).max? = some (f a) := by
  apply List.max?_eq_some_iff.mpr
  refine ⟨List.mem_map_of_mem ha, fun x hx => ?_⟩
  obtain ⟨b, hb, rfl⟩ := List.mem_map.mp hx
  exact h b hb

theorem min?_map_of_le (ha : a ∈ l) (h : ∀ b ∈ l, f a ≤ f b) : (l.map f).min? = some (f a) := by
  apply List.min?_eq_some_iff.mpr
  refine ⟨List.mem_map_of_mem ha, fun x hx => ?_⟩
  obtain ⟨b, hb, rfl⟩ := List.mem_map.mp hx
  exact h b hb

theorem exists_greatest (f : α → ℚ) (h : l ≠ []) : ∃ a ∈ l, ∀ b ∈ l, f b ≤ f a := by
  obtain ⟨first, hfirst⟩ := List.exists_mem_of_ne_nil l h
  obtain ⟨m, hm⟩ := Option.isSome_iff_exists.mp (List.isSome_max?_of_mem (List.mem_map_of_mem (f := f) hfirst))
  obtain ⟨hmem, hbound⟩ := List.max?_eq_some_iff.mp hm
  obtain ⟨a, ha, rfl⟩ := List.mem_map.mp hmem
  exact ⟨a, ha, fun b hb => hbound (f b) (List.mem_map_of_mem hb)⟩

end Extremes

namespace ResearchPrediction
variable {p : ResearchPrediction} {candles : List ForwardCandle}

/-! ### The excursions -/

/-- The candles with the highest high, the lowest low, and the high that lies furthest from a price. -/
structure Extremal (candles : List ForwardCandle) (entry : ℚ) (high low far : ForwardCandle) : Prop where
  high_mem : high ∈ candles
  le_high : ∀ c ∈ candles, c.high ≤ high.high
  low_mem : low ∈ candles
  low_le : ∀ c ∈ candles, low.low ≤ c.low
  far_mem : far ∈ candles
  le_far : ∀ c ∈ candles, |c.high - entry| ≤ |far.high - entry|

theorem exists_extremal (h : candles ≠ []) (entry : ℚ) : ∃ high low far, Extremal candles entry high low far := by
  obtain ⟨high, hhigh, hhighest⟩ := exists_greatest ForwardCandle.high h
  obtain ⟨low, hlow, hlowest⟩ := exists_greatest (fun c : ForwardCandle => -c.low) h
  obtain ⟨far, hfar, hfarthest⟩ := exists_greatest (fun c : ForwardCandle => |c.high - entry|) h
  exact ⟨high, low, far, hhigh, hhighest, hlow, fun c hc => neg_le_neg_iff.mp (hlowest c hc), hfar, hfarthest⟩

variable {entry : ℚ} {high low far : ForwardCandle}

theorem Extremal.rise (h : Extremal candles entry high low far) :
    greatest (candles.map fun c => c.high - entry) = high.high - entry := by
  rw [greatest, max?_map_of_le h.high_mem fun c hc => sub_le_sub_right (h.le_high c hc) entry, Option.getD_some]

theorem Extremal.fall (h : Extremal candles entry high low far) :
    greatest (candles.map fun c => entry - c.low) = entry - low.low := by
  rw [greatest, max?_map_of_le h.low_mem fun c hc => sub_le_sub_left (h.low_le c hc) entry, Option.getD_some]

theorem Extremal.furthest (h : Extremal candles entry high low far) :
    greatest (candles.map fun c => |c.high - entry|) = |far.high - entry| := by
  rw [greatest, max?_map_of_le h.far_mem h.le_far, Option.getD_some]

theorem Extremal.excursions_eq (h : Extremal candles entry high low far) (direction : Direction) :
    excursions direction entry (candles.map ForwardCandle.bar) =
      match direction with
      | .bullish => (roundTo 2 (max 0 (high.high - entry)), roundTo 2 (max 0 (entry - low.low)))
      | .bearish => (roundTo 2 (max 0 (entry - low.low)), roundTo 2 (max 0 (high.high - entry)))
      | _ => (0, roundTo 2 (max 0 (max |high.high - entry| |entry - low.low|))) := by
  have hhigh : ((candles.map ForwardCandle.bar).map Prod.fst).max? = some high.high := by
    rw [List.map_map]
    exact max?_map_of_le h.high_mem h.le_high
  have hlow : ((candles.map ForwardCandle.bar).map Prod.snd).min? = some low.low := by
    rw [List.map_map]
    exact min?_map_of_le h.low_mem h.low_le
  cases direction <;> simp only [excursions, hhigh, hlow]

/-- Both evaluations name the same excursions of a call and of a put. -/
theorem excursions_directional (hne : candles ≠ []) (h : p.direction = .bullish ∨ p.direction = .bearish) :
    excursions p.direction p.currentPrice (candles.map ForwardCandle.bar) =
      (roundTo 2 (p.forwardExcursions candles).1, roundTo 2 (p.forwardExcursions candles).2) := by
  obtain ⟨high, low, far, hex⟩ := exists_extremal hne p.currentPrice
  rw [hex.excursions_eq, forwardExcursions]
  rcases h with h | h
  · rw [h]
    simp only [hex.rise, hex.fall]
  · rw [h]
    simp only [hex.rise, hex.fall]

/-- No low lies further below the entry, to the cent, than some high lies away from it. -/
def HighsReach (p : ResearchPrediction) (candles : List ForwardCandle) : Prop :=
  ∀ c ∈ candles, ∃ reaching ∈ candles, roundTo 2 (p.currentPrice - c.low) ≤ roundTo 2 |reaching.high - p.currentPrice|

theorem Extremal.highsReach_iff (h : Extremal candles p.currentPrice high low far) :
    p.HighsReach candles ↔
      roundTo 2 (max 0 (max |high.high - p.currentPrice| |p.currentPrice - low.low|)) =
        roundTo 2 (max 0 |far.high - p.currentPrice|) := by
  have hwide : |far.high - p.currentPrice| ≤ max |high.high - p.currentPrice| |p.currentPrice - low.low| := by
    have hlowest := h.low_le far h.far_mem
    have hhighest := h.le_high far h.far_mem
    have hbar := far.low_le_high
    apply abs_le.mpr
    constructor
    · have hfall := le_abs_self (p.currentPrice - low.low)
      have hright := le_max_right |high.high - p.currentPrice| |p.currentPrice - low.low|
      linarith
    · have hrise := le_abs_self (high.high - p.currentPrice)
      have hleft := le_max_left |high.high - p.currentPrice| |p.currentPrice - low.low|
      linarith
  have hnonneg : 0 ≤ max |high.high - p.currentPrice| |p.currentPrice - low.low| :=
    le_max_of_le_left (abs_nonneg _)
  rw [max_eq_right hnonneg, max_eq_right (abs_nonneg (far.high - p.currentPrice))]
  constructor
  · intro hreach
    apply le_antisymm _ (roundTo_mono 2 hwide)
    rcases le_total p.currentPrice low.low with habove | hbelow
    · -- all of the candles lie above the entry, and the highest high furthest
      apply roundTo_mono 2
      apply max_le (h.le_far high h.high_mem)
      have hbar := low.low_le_high
      have hfar := (le_abs_self _).trans (h.le_far low h.low_mem)
      rw [abs_of_nonpos (sub_nonpos.mpr habove)]
      linarith
    · obtain ⟨reaching, hmem, hle⟩ := hreach low h.low_mem
      have hfall := hle.trans (roundTo_mono 2 (h.le_far reaching hmem))
      rcases max_choice |high.high - p.currentPrice| |p.currentPrice - low.low| with hmax | hmax
      · rw [hmax]
        exact roundTo_mono 2 (h.le_far high h.high_mem)
      · rw [hmax, abs_of_nonneg (sub_nonneg.mpr hbelow)]
        exact hfall
  · intro heq c hc
    refine ⟨far, h.far_mem, ?_⟩
    rw [← heq]
    apply roundTo_mono 2
    have hlowest := h.low_le c hc
    have hfall := le_abs_self (p.currentPrice - low.low)
    have hright := le_max_right |high.high - p.currentPrice| |p.currentPrice - low.low|
    linarith

theorem excursions_undirected_iff (hne : candles ≠ []) (h : p.direction ≠ .bullish) (h' : p.direction ≠ .bearish) :
    excursions p.direction p.currentPrice (candles.map ForwardCandle.bar) =
        (roundTo 2 (p.forwardExcursions candles).1, roundTo 2 (p.forwardExcursions candles).2) ↔
      p.HighsReach candles := by
  obtain ⟨high, low, far, hex⟩ := exists_extremal hne p.currentPrice
  rw [hex.excursions_eq, forwardExcursions, hex.highsReach_iff]
  cases hd : p.direction with
  | bullish => exact absurd hd h
  | bearish => exact absurd hd h'
  | neutral => simp [hex.furthest]
  | unknown => simp [hex.furthest]

/-! ### The realised direction -/

/-- The last close lies outside the bands in which the one and the other evaluation call the outcome neutral. -/
structure Outside (entry close atr : ℚ) (label : Int) : Prop where
  labelled : labelForwardReturnV2 entry close atr = some label
  banded : label ≠ 1
  moved : 1 / 10 ≤ |roundTo 3 (roundTo 2 (close - entry) / entry * 100)|

variable {close atr : ℚ} {label : Int}

theorem Outside.entry_pos (h : Outside entry close atr label) : 0 < entry := by
  have hlabel := h.labelled
  rw [labelForwardReturnV2] at hlabel
  split at hlabel
  · rename_i hpos
    exact hpos.1
  · cases hlabel

theorem Outside.move_ne_zero (h : Outside entry close atr label) : roundTo 2 (close - entry) ≠ 0 := by
  intro hzero
  have hmoved := h.moved
  rw [hzero, zero_div, zero_mul, roundTo_zero, abs_zero] at hmoved
  norm_num at hmoved

/-- The label and the sign of the move name one direction. -/
theorem Outside.directionOf_eq (h : Outside entry close atr label) :
    directionOf (roundTo 2 (close - entry)) = INV_LABEL label ∧
      (INV_LABEL label = .bullish ∨ INV_LABEL label = .bearish) := by
  have hmove := h.move_ne_zero
  have hentry := h.entry_pos
  have hlabel := h.labelled
  rw [labelForwardReturnV2] at hlabel
  split at hlabel
  · rename_i hpos
    have hband : 0 < NEUTRAL_BAND_ATR_V2 * atr / entry := by
      have hatr := hpos.2.2
      rw [NEUTRAL_BAND_ATR_V2]
      positivity
    dsimp only at hlabel
    split at hlabel
    · rename_i hup
      cases hlabel
      have hfwd := hband.trans hup
      have hclose : 0 ≤ close - entry := ((div_pos_iff_of_pos_right hentry).mp hfwd).le
      have hround : 0 < roundTo 2 (close - entry) := lt_of_le_of_ne (roundTo_nonneg 2 hclose) hmove.symm
      rw [directionOf, if_pos hround]
      exact ⟨rfl, Or.inl rfl⟩
    · split at hlabel
      · rename_i hdown
        cases hlabel
        have hfwd : (close - entry) / entry < 0 := hdown.trans (neg_neg_of_pos hband)
        have hclose : 0 ≤ -(close - entry) := by
          have hneg := (div_lt_iff₀ hentry).mp hfwd
          linarith
        have hround : roundTo 2 (close - entry) < 0 := by
          have hsign := roundTo_nonneg 2 hclose
          rw [roundTo_neg] at hsign
          exact lt_of_le_of_ne (by linarith) hmove
        rw [directionOf, if_neg hround.le.not_gt, if_pos hround]
        exact ⟨rfl, Or.inr rfl⟩
      · cases hlabel
        exact absurd rfl h.banded
  · cases hlabel

/-! ### The agreement -/

/-- The forward candles and the settlement of the row come to the same figures. -/
def Agree (p : ResearchPrediction) (row : ResearchRow) (candles : List ForwardCandle) (close : ℚ) (label now now' : Int) :
    Prop :=
  ∃ outcome, p.evaluateForwardCandles candles now = .ok outcome ∧
    outcome.measured = (buildResearchOutcome row close label (candles.map ForwardCandle.record) now').measured

/-- Away from the neutral bands both rules of correctness are one. -/
theorem isCorrect_eq {p : ResearchPrediction} {actual : Direction} (hkind : actual = .bullish ∨ actual = .bearish)
    {pct : ℚ} (hpct : 1 / 10 ≤ |pct|) (untouched : Bool) :
    (if p.direction = .neutral then decide (|pct| < 1 / 10) else decide (p.direction = actual) && untouched) =
      match p.direction with
      | .bullish | .bearish => decide (p.direction = actual) && untouched
      | _ => decide (p.direction = actual) := by
  cases hd : p.direction with
  | bullish => rfl
  | bearish => rfl
  | neutral =>
    have hother : Direction.neutral ≠ actual := by
      rcases hkind with rfl | rfl <;> exact Direction.noConfusion
    simp only [if_true, hother, decide_false]
    exact decide_eq_false hpct.not_gt
  | unknown =>
    have hother : Direction.unknown ≠ actual := by
      rcases hkind with rfl | rfl <;> exact Direction.noConfusion
    simp [hother]

/-- The touches and the verdict agree in any case, and the excursions alone decide. -/
theorem agree_iff_excursions {p : ResearchPrediction} {row : ResearchRow} (hrow : row.Describes p)
    {candles : List ForwardCandle} {last : ForwardCandle} (hlast : candles.getLast? = some last) {atr : ℚ} {label : Int}
    (hout : Outside p.currentPrice last.close atr label) (now now' : Int) :
    p.Agree row candles last.close label now now' ↔
      excursions p.direction p.currentPrice (candles.map ForwardCandle.bar) =
        (roundTo 2 (p.forwardExcursions candles).1, roundTo 2 (p.forwardExcursions candles).2) := by
  obtain ⟨hdir, hkind⟩ := hout.directionOf_eq
  have htouches := foldl_touch (p := p) candles 0 {}
  have hhit := congrArg Touches.targetHit htouches
  have hstop := congrArg Touches.stopHit htouches
  have htime := congrArg Touches.timeToTargetSec htouches
  simp only [ForwardTouches.asTouches] at hhit hstop htime
  rw [Agree, evaluateForwardCandles, hlast]
  dsimp only
  constructor
  · rintro ⟨outcome, houtcome, hsame⟩
    cases houtcome
    have hmfe := congrArg Measured.mfe hsame
    have hmae := congrArg Measured.mae hsame
    simp only [PredictionOutcome.measured, buildResearchOutcome, ForwardCandle.filterMap_record, hrow.entry,
      hrow.direction] at hmfe hmae
    exact Prod.ext hmfe.symm hmae.symm
  · intro hexcursions
    refine ⟨_, rfl, ?_⟩
    simp only [PredictionOutcome.measured, buildResearchOutcome, ForwardCandle.filterMap_record, hrow.entry,
      hrow.direction, hrow.target, hrow.invalidation, hexcursions, touches, if_pos hout.entry_pos, hdir,
      isCorrect_eq hkind hout.moved, Measured.mk.injEq, true_and]
    refine ⟨hhit, hstop, htime, ?_⟩
    rw [hhit, hstop]
    all_goals cases p.direction <;> rfl

/-- The two evaluations agree exactly on a call or a put, and where the highs reach as far as the lows. -/
theorem agree_iff {p : ResearchPrediction} {row : ResearchRow} (hrow : row.Describes p) {candles : List ForwardCandle}
    {last : ForwardCandle} (hlast : candles.getLast? = some last) {atr : ℚ} {label : Int}
    (hout : Outside p.currentPrice last.close atr label) (now now' : Int) :
    p.Agree row candles last.close label now now' ↔
      p.direction = .bullish ∨ p.direction = .bearish ∨ p.HighsReach candles := by
  have hne : candles ≠ [] := by
    rintro rfl
    cases hlast
  rw [agree_iff_excursions hrow hlast hout]
  by_cases hbull : p.direction = .bullish
  · exact iff_of_true (excursions_directional hne (Or.inl hbull)) (Or.inl hbull)
  by_cases hbear : p.direction = .bearish
  · exact iff_of_true (excursions_directional hne (Or.inr hbear)) (Or.inr (Or.inl hbear))
  rw [excursions_undirected_iff hne hbull hbear]
  simp [hbull, hbear]

def neutralPrediction : ResearchPrediction where
  predictionId := "p1"
  currentPrice := 100
  direction := .neutral
  targetPrice := some 105
  invalidationPrice := some 95

def neutralRow : ResearchRow := { bullishRow with predictionId := "p1", direction := some "NEUTRAL" }

/-- A low five below the entry, and no high further than one from it. -/
def deepCandle : ForwardCandle where
  high := 101
  low := 95
  close := 101

/-- A low as deep, and a high as far. -/
def evenCandle : ForwardCandle where
  high := 105
  low := 95
  close := 101

theorem neutralRow_describes : neutralRow.Describes neutralPrediction := by
  constructor <;> decide +kernel

theorem outside_evenCandle : Outside neutralPrediction.currentPrice evenCandle.close 2 2 := by
  constructor <;> decide +kernel

theorem highsReach_evenCandle : neutralPrediction.HighsReach [evenCandle] := by
  intro c hc
  rw [List.mem_singleton.mp hc]
  exact ⟨evenCandle, List.mem_singleton.mpr rfl, by decide +kernel⟩

/-- The two agree on an even candle. -/
theorem agree_evenCandle : neutralPrediction.Agree neutralRow [evenCandle] evenCandle.close 2 0 0 := by
  have hlast : [evenCandle].getLast? = some evenCandle := rfl
  exact (agree_iff neutralRow_describes hlast outside_evenCandle 0 0).mpr (Or.inr (Or.inr highsReach_evenCandle))

/-- A fall of five is an adverse excursion of one to the measurer, and of five to the settlement. -/
theorem not_agree_deepCandle :
    neutralRow.Describes neutralPrediction ∧ Outside neutralPrediction.currentPrice deepCandle.close 2 2 ∧
      ¬ neutralPrediction.Agree neutralRow [deepCandle] deepCandle.close 2 0 0 := by
  refine ⟨neutralRow_describes, outside_evenCandle, ?_⟩
  rintro ⟨outcome, houtcome, hsame⟩
  cases houtcome
  revert hsame
  decide +kernel

end ResearchPrediction
end Droid.Outcomes
