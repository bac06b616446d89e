import Droid.Lib.Text
import Mathlib.Algebra.Order.Ring.Rat
import Mathlib.Algebra.Order.Group.Unbundled.Abs
import Mathlib.Tactic.Ring

/-! The trigger gate: the geometry of a setup's levels, checked the same way on both sides of the spot. -/
namespace Droid.Signals
open Lib Lib.Text

def gateTick : ℚ := 5 / 100

def minGapPct (scalp : Bool) : ℚ := if scalp then 1 / 10000 else 2 / 10000

def minGapRiskFraction (scalp : Bool) : ℚ := if scalp then 5 / 100 else 8 / 100

def atrGapFraction : ℚ := 12 / 100

def minRiskPct (scalp : Bool) : ℚ := if scalp then 4 / 100000 else 15 / 100000

def minRrT2 (scalp : Bool) : ℚ := if scalp then 1 else 1

def maxEntryWidthR : ℚ := 3 / 2

inductive GateReason where
  | noTrigger | noSpot | triggerWrongSide | riskTooSmall | triggerTooClose | slWrongSide
  | targetWrongSide | targetsMisordered | rrTooLow | entryZoneTooWide
  deriving DecidableEq, Repr

def GateReason.code : GateReason → String
  | .noTrigger => "NO_TRIGGER"
  | .noSpot => "NO_SPOT"
  | .triggerWrongSide => "TRIGGER_WRONG_SIDE"
  | .riskTooSmall => "RISK_TOO_SMALL"
  | .triggerTooClose => "TRIGGER_TOO_CLOSE"
  | .slWrongSide => "SL_WRONG_SIDE"
  | .targetWrongSide => "TARGET_WRONG_SIDE"
  | .targetsMisordered => "TARGETS_MISORDERED"
  | .rrTooLow => "RR_TOO_LOW"
  | .entryZoneTooWide => "ENTRY_ZONE_TOO_WIDE"

/-- The result of the gate, without its message. -/
structure TriggerCheckResult where
  passed : Bool
  reasonCode : Option String := none
  metrics : List (String × ℚ) := []
  deriving DecidableEq, Repr

def TriggerCheckResult.verdict (r : TriggerCheckResult) : Bool × Option String := (r.passed, r.reasonCode)

def gateReject (reason : GateReason) (metrics : List (String × ℚ)) : TriggerCheckResult :=
  { passed := false, reasonCode := some reason.code, metrics }

/-- The arguments that the gate reads; a number that `_dec` refuses is none. -/
structure TriggerInputs where
  direction : String
  spotPrice : Option ℚ
  entryMin : Option ℚ
  entryMax : Option ℚ
  trigger : Option ℚ
  stopLoss : Option ℚ
  target1 : Option ℚ
  target2 : Option ℚ
  riskPoints : Option ℚ
  riskRewardT2 : Option ℚ := some 3
  isScalp : Bool := false
  timeframe : String := "5M"
  atrPoints : Option ℚ := none
  spreadPts : Option ℚ := none
  slipPts : Option ℚ := none

/-- A number that counts only when it is positive. -/
def aboveZero (x : Option ℚ) : Option ℚ := x.filter (0 < ·)

theorem aboveZero_eq_some {x : Option ℚ} {y : ℚ} : aboveZero x = some y ↔ x = some y ∧ 0 < y := by
  simp [aboveZero, Option.filter_eq_some_iff]

theorem aboveZero_eq_self {x : Option ℚ} (h : ∀ y ∈ x, 0 < y) : aboveZero x = x := by
  cases x with
  | none => rfl
  | some y => exact aboveZero_eq_some.mpr ⟨rfl, h y rfl⟩

/-- The least distance of a trigger from the spot: of the spot, of the risk, two ticks, of the volatility; then
spread and slippage on top. -/
def minTriggerGapPts (spot riskPoints : ℚ) (isScalp : Bool) (atrPoints spreadPts slipPts : Option ℚ) : ℚ :=
  let base := max (max (|spot| * minGapPct isScalp) (|riskPoints| * minGapRiskFraction isScalp)) (gateTick * 2)
  let base := (aboveZero atrPoints).elim base fun atr => max base (|atr| * atrGapFraction)
  base + (((aboveZero spreadPts).getD 0) + ((aboveZero slipPts).getD 0))

/-- A level that is not beyond another one, in the direction of the trade. -/
def wrongSide (isPut : Bool) (level from' : ℚ) : Bool := if isPut then from' ≤ level else level ≤ from'

def directionIsPut (direction : String) : Bool :=
  hasText (upper direction) "PUT" ∨ hasText (upper direction) "BEARISH"

namespace TriggerInputs
variable (i : TriggerInputs)

def isPut : Bool := directionIsPut i.direction

def scalpEffective : Bool := i.isScalp ∨ upper i.timeframe ∈ ["1M", "3M", "SCALP"]

/-- The distance of the stop from the edge of the entry zone that is nearer to it. -/
def derivedRisk : Option ℚ :=
  match i.stopLoss, i.entryMin, i.entryMax with
  | some sl, some emn, some emx => some |sl - if i.isPut then emx else emn|
  | _, _, _ => none

/-- The risk that the gate reckons with: the caller's, or without a positive one the derived one. -/
def gateRisk : Option ℚ := (aboveZero i.riskPoints).or (aboveZero i.derivedRisk)

def minGap (spot risk : ℚ) : ℚ :=
  minTriggerGapPts spot risk i.scalpEffective i.atrPoints i.spreadPts i.slipPts

/-- What is wrong with the targets, when both are there. -/
def targetFault (trig : ℚ) : Option TriggerCheckResult :=
  match i.target1, i.target2 with
  | some t1, some t2 =>
    if wrongSide i.isPut t1 trig then some (gateReject .targetWrongSide [("target_1", t1), ("trigger", trig)])
    else if wrongSide i.isPut t2 t1 then some (gateReject .targetsMisordered [("target_1", t1), ("target_2", t2)])
    else none
  | _, _ => none

/-- The reward of the second target in units of risk; without one the caller's figure. -/
def rewardRisk (trig risk : ℚ) : ℚ := i.target2.elim (i.riskRewardT2.getD 0) fun t2 => |t2 - trig| / risk

/-- The width of the entry zone, where it is too wide for the risk. -/
def wideZone (risk : ℚ) : Option ℚ :=
  match i.entryMin, i.entryMax with
  | some emn, some emx => (some |emx - emn|).filter (|risk| * maxEntryWidthR < ·)
  | _, _ => none

def checkLevels (trig spot risk : ℚ) : TriggerCheckResult :=
  let gap := |trig - spot|
  let minGap := i.minGap spot risk
  if gap < minGap then
    gateReject .triggerTooClose
      [("gap_pts", gap), ("min_gap_pts", minGap), ("gap_pct", gap / |spot| * 100), ("risk_pts", risk)]
  else if risk < |spot| * minRiskPct i.scalpEffective then gateReject .riskTooSmall [("risk_pts", risk)]
  else
    match i.stopLoss.filter (wrongSide i.isPut trig ·) with
    | some sl => gateReject .slWrongSide [("stop_loss", sl), ("trigger", trig)]
    | none =>
      match i.targetFault trig with
      | some fault => fault
      | none =>
        let rr2 := i.rewardRisk trig risk
        if rr2 < minRrT2 i.scalpEffective then
          gateReject .rrTooLow [("rr_t2", rr2), ("rr_min", minRrT2 i.scalpEffective)]
        else
          match i.wideZone risk with
          | some width => gateReject .entryZoneTooWide [("zone_width_pts", width), ("risk_pts", risk)]
          | none =>
            { passed := true
              metrics := [("gap_pts", gap), ("min_gap_pts", minGap), ("risk_pts", risk), ("rr_t2", rr2)] }

end TriggerInputs

def checkTriggerIntegrity (i : TriggerInputs) : TriggerCheckResult :=
  match aboveZero i.trigger with
  | none => gateReject .noTrigger []
  | some trig =>
    match aboveZero i.spotPrice with
    | none => gateReject .noSpot []
    | some spot =>
      if wrongSide i.isPut trig spot then gateReject .triggerWrongSide [("trigger", trig), ("spot", spot)]
      else
        match i.gateRisk with
        | none => gateReject .riskTooSmall []
        | some risk => i.checkLevels trig spot risk

/-! ### What a passing check has seen -/

/-- Stop, trigger and targets in the order of the trade. -/
def LevelsOrdered (isPut : Bool) (sl trig t1 t2 : ℚ) : Prop :=
  if isPut then t2 < t1 ∧ t1 < trig ∧ trig < sl else sl < trig ∧ trig < t1 ∧ t1 < t2

/-- What a passing check promises of its levels. The reward is measured against the risk the gate reckons with;
against the distance of the stop it is no smaller when that distance is within the risk. -/
structure GateSound (i : TriggerInputs) (sl t1 t2 spot trig risk : ℚ) : Prop where
  spotKnown : i.spotPrice = some spot
  triggerKnown : i.trigger = some trig
  riskKnown : i.gateRisk = some risk
  ordered : LevelsOrdered i.isPut sl trig t1 t2
  gap : i.minGap spot risk ≤ |trig - spot|
  reward : minRrT2 i.scalpEffective ≤ |t2 - trig| / risk
  levels : |trig - sl| ≤ risk → minRrT2 i.scalpEffective ≤ |t2 - trig| / |trig - sl|

theorem wrongSide_false_iff {isPut : Bool} {level from' : ℚ} :
    wrongSide isPut level from' = false ↔ if isPut then level < from' else from' < level := by
  cases isPut <;> simp [wrongSide]

theorem checkTriggerIntegrity_passed {i : TriggerInputs} (h : (checkTriggerIntegrity i).passed = true) :
    ∃ trig spot risk, i.trigger = some trig ∧ i.spotPrice = some spot ∧ i.gateRisk = some risk ∧
      (i.checkLevels trig spot risk).passed = true := by
  rw [checkTriggerIntegrity] at h
  split at h
  · cases h
  · rename_i trig htrig
    split at h
    · cases h
    · rename_i spot hspot
      split at h
      · cases h
      · split at h
        · cases h
        · rename_i risk hrisk
          exact ⟨trig, spot, risk, (aboveZero_eq_some.mp htrig).1, (aboveZero_eq_some.mp hspot).1, hrisk, h⟩

/-- What the last checks have found in order. -/
structure LevelsChecked (i : TriggerInputs) (trig spot risk : ℚ) : Prop where
  gap : i.minGap spot risk ≤ |trig - spot|
  stop : ∀ sl ∈ i.stopLoss, wrongSide i.isPut trig sl = false
  targets : i.targetFault trig = none
  reward : minRrT2 i.scalpEffective ≤ i.rewardRisk trig risk

theorem checkLevels_passed {i : TriggerInputs} {trig spot risk : ℚ}
    (h : (i.checkLevels trig spot risk).passed = true) : LevelsChecked i trig spot risk := by
  rw [TriggerInputs.checkLevels] at h
  simp only at h
  split at h
  · cases h
  · rename_i hgap
    split at h
    · cases h
    · split at h
      · cases h
      · rename_i hstop
        split at h
        · rename_i fault hfault
          rw [TriggerInputs.targetFault] at hfault
          split at hfault
          · split_ifs at hfault <;> (cases hfault; cases h)
          · cases hfault
        · rename_i htargets
          split at h
          · cases h
          · rename_i hreward
            refine ⟨not_lt.mp hgap, fun sl hsl => ?_, htargets, not_lt.mp hreward⟩
            exact Bool.eq_false_iff.mpr (Option.filter_eq_none_iff.mp hstop sl hsl)

theorem targetFault_none {i : TriggerInputs} {trig t1 t2 : ℚ} (h1 : i.target1 = some t1) (h2 : i.target2 = some t2)
    (h : i.targetFault trig = none) : wrongSide i.isPut t1 trig = false ∧ wrongSide i.isPut t2 t1 = false := by
  rw [TriggerInputs.targetFault, h1, h2] at h
  simp only at h
  split_ifs at h with hfirst hsecond
  exact ⟨Bool.eq_false_iff.mpr hfirst, Bool.eq_false_iff.mpr hsecond⟩

/-- Over a shorter distance the same reward is more. -/
theorem reward_mono {reward distance risk bar : ℚ} (hreward : 0 ≤ reward) (hpos : 0 < distance)
    (hle : distance ≤ risk) (hbar : bar ≤ reward / risk) : bar ≤ reward / distance :=
  hbar.trans (div_le_div_of_nonneg_left hreward hpos hle)

theorem passed_sound {i : TriggerInputs} (h : (checkTriggerIntegrity i).passed = true) {sl t1 t2 : ℚ}
    (hsl : i.stopLoss = some sl) (h1 : i.target1 = some t1) (h2 : i.target2 = some t2) :
    ∃ spot trig risk, GateSound i sl t1 t2 spot trig risk := by
  obtain ⟨trig, spot, risk, htrig, hspot, hrisk, hlevels⟩ := checkTriggerIntegrity_passed h
  have hchecked := checkLevels_passed hlevels
  have hstop := wrongSide_false_iff.mp (hchecked.stop sl hsl)
  obtain ⟨hfirst, hsecond⟩ := targetFault_none h1 h2 hchecked.targets
  rw [wrongSide_false_iff] at hfirst hsecond
  have hreward : minRrT2 i.scalpEffective ≤ |t2 - trig| / risk := by
    have hrr := hchecked.reward
    rwa [TriggerInputs.rewardRisk, h2, Option.elim_some] at hrr
  have hordered : LevelsOrdered i.isPut sl trig t1 t2 := by
    rw [LevelsOrdered]
    split_ifs at hstop hfirst hsecond ⊢
    · exact ⟨hsecond, hfirst, hstop⟩
    · exact ⟨hstop, hfirst, hsecond⟩
  have hdistance : 0 < |trig - sl| := by
    refine abs_pos.mpr (sub_ne_zero.mpr ?_)
    split_ifs at hstop
    · exact hstop.ne
    · exact hstop.ne'
  exact ⟨spot, trig, risk, hspot, htrig, hrisk, hordered, hchecked.gap, hreward,
    fun hle => reward_mono (abs_nonneg _) hdistance hle hreward⟩

/-! ### The other side of the spot -/

/-- The same setup on the other side: its levels reflected about the spot, the ends of the entry zone swapped. -/
def TriggerInputs.mirrored (i : TriggerInputs) (direction : String) : TriggerInputs :=
  let reflect (level : Option ℚ) : Option ℚ := i.spotPrice.elim level fun spot => level.map (2 * spot - ·)
  { i with
    direction
    entryMin := reflect i.entryMax
    entryMax := reflect i.entryMin
    trigger := reflect i.trigger
    stopLoss := reflect i.stopLoss
    target1 := reflect i.target1
    target2 := reflect i.target2 }

theorem wrongSide_reflected (isPut : Bool) (spot level from' : ℚ) :
    wrongSide (!isPut) (2 * spot - level) (2 * spot - from') = wrongSide isPut level from' := by
  cases isPut <;> exact decide_eq_decide.mpr (sub_le_sub_iff_left _)

theorem abs_reflected_sub (spot a b : ℚ) : |2 * spot - a - (2 * spot - b)| = |a - b| := by
  rw [sub_sub_sub_cancel_left, abs_sub_comm]

section Mirrored
variable {i : TriggerInputs} {direction : String} (hside : directionIsPut direction = !i.isPut) {spot : ℚ}
  (hspot : i.spotPrice = some spot)
include hside hspot

theorem gateRisk_mirrored : (i.mirrored direction).gateRisk = i.gateRisk := by
  have hderived : (i.mirrored direction).derivedRisk = i.derivedRisk := by
    have hput : (i.mirrored direction).isPut = !i.isPut := hside
    unfold TriggerInputs.derivedRisk
    rw [hput]
    simp only [TriggerInputs.mirrored, hspot, Option.elim_some]
    cases i.stopLoss <;> cases i.entryMin <;> cases i.entryMax <;> try rfl
    cases i.isPut <;> exact congrArg some (abs_reflected_sub spot _ _)
  rw [TriggerInputs.gateRisk, hderived]
  rfl

theorem targetFault_mirrored (trig : ℚ) :
    ((i.mirrored direction).targetFault (2 * spot - trig)).map TriggerCheckResult.verdict =
      (i.targetFault trig).map TriggerCheckResult.verdict := by
  have hput : (i.mirrored direction).isPut = !i.isPut := hside
  unfold TriggerInputs.targetFault
  rw [hput]
  simp only [TriggerInputs.mirrored, hspot, Option.elim_some]
  cases i.target1 with
  | none => rfl
  | some t1 =>
    cases i.target2 with
    | none => rfl
    | some t2 =>
      simp only [Option.map_some, wrongSide_reflected]
      split_ifs <;> rfl

omit hside in
theorem rewardRisk_mirrored (trig risk : ℚ) :
    (i.mirrored direction).rewardRisk (2 * spot - trig) risk = i.rewardRisk trig risk := by
  simp only [TriggerInputs.rewardRisk, TriggerInputs.mirrored, hspot, Option.elim_some]
  cases i.target2 with
  | none => rfl
  | some t2 => simp only [Option.map_some, Option.elim_some, abs_reflected_sub]

omit hside in
theorem wideZone_mirrored (risk : ℚ) : (i.mirrored direction).wideZone risk = i.wideZone risk := by
  simp only [TriggerInputs.wideZone, TriggerInputs.mirrored, hspot, Option.elim_some]
  cases i.entryMin <;> cases i.entryMax <;> try rfl
  simp only [Option.map_some, abs_reflected_sub, abs_sub_comm]

theorem checkLevels_mirrored (trig risk : ℚ) :
    ((i.mirrored direction).checkLevels (2 * spot - trig) spot risk).verdict =
      (i.checkLevels trig spot risk).verdict := by
  have hput : (i.mirrored direction).isPut = !i.isPut := hside
  have hgap : |2 * spot - trig - spot| = |trig - spot| := by
    rw [← abs_reflected_sub spot trig spot]
    congr 1
    ring
  have hmin : (i.mirrored direction).minGap spot risk = i.minGap spot risk := rfl
  have hscalp : (i.mirrored direction).scalpEffective = i.scalpEffective := rfl
  have hstop : ((i.mirrored direction).stopLoss.filter
      (wrongSide (!i.isPut) (2 * spot - trig) ·)).isSome = (i.stopLoss.filter (wrongSide i.isPut trig ·)).isSome := by
    simp only [TriggerInputs.mirrored, hspot, Option.elim_some]
    cases i.stopLoss with
    | none => rfl
    | some sl =>
      simp only [Option.map_some, Option.filter_some, wrongSide_reflected]
      split_ifs <;> rfl
  have htargets := targetFault_mirrored hside hspot trig
  simp only [TriggerInputs.checkLevels, hgap, hmin, hscalp, hput, rewardRisk_mirrored hspot, wideZone_mirrored hspot]
  split_ifs
  · rfl
  · rfl
  -- the stops are wrong on both sides or on none, and so are the targets
  all_goals
    revert hstop htargets
    cases (i.mirrored direction).stopLoss.filter (wrongSide (!i.isPut) (2 * spot - trig) ·) <;>
      cases i.stopLoss.filter (wrongSide i.isPut trig ·) <;>
      cases (i.mirrored direction).targetFault (2 * spot - trig) <;> cases i.targetFault trig <;>
      simp [gateReject, TriggerCheckResult.verdict]

end Mirrored

/-- The other side is judged the same, as long as neither trigger is at or below zero. -/
theorem verdict_mirrored {i : TriggerInputs} {direction : String} (hside : directionIsPut direction = !i.isPut)
    (htrigger : ∀ trig ∈ i.trigger, 0 < trig) (hmirrored : ∀ trig ∈ (i.mirrored direction).trigger, 0 < trig) :
    (checkTriggerIntegrity (i.mirrored direction)).verdict = (checkTriggerIntegrity i).verdict := by
  have hput : (i.mirrored direction).isPut = !i.isPut := hside
  have hspots : (i.mirrored direction).spotPrice = i.spotPrice := rfl
  rw [checkTriggerIntegrity, checkTriggerIntegrity, aboveZero_eq_self htrigger, aboveZero_eq_self hmirrored,
    hspots, hput]
  cases hspot : i.spotPrice with
  | none =>
    have hsame : (i.mirrored direction).trigger = i.trigger := by
      simp only [TriggerInputs.mirrored, hspot, Option.elim_none]
    rw [hsame]
    cases i.trigger <;> rfl
  | some spot =>
    have hreflected : (i.mirrored direction).trigger = i.trigger.map (2 * spot - ·) := by
      simp only [TriggerInputs.mirrored, hspot, Option.elim_some]
    rw [hreflected]
    cases i.trigger with
    | none => rfl
    | some trig =>
      cases hpositive : aboveZero (some spot) with
      | none => rfl
      | some s =>
        obtain rfl : spot = s := Option.some.inj (aboveZero_eq_some.mp hpositive).1
        have hspotSide : wrongSide (!i.isPut) (2 * spot - trig) spot = wrongSide i.isPut trig spot := by
          rw [← wrongSide_reflected i.isPut spot trig spot]
          congr 1
          ring
        simp only [Option.map_some, hspotSide, gateRisk_mirrored hside hspot]
        split_ifs
        · rfl
        · cases i.gateRisk with
          | none => rfl
          | some risk => exact checkLevels_mirrored hside hspot trig risk

/-- A passing check with a stop and both targets has its levels in order, a trigger clear of the spot, and a reward
of at least the bar against the risk it reckons with; and a setup is judged as its reflection is. -/
theorem checkTriggerIntegrity_sound_symmetric (i : TriggerInputs) :
    ((checkTriggerIntegrity i).passed = true → ∀ sl t1 t2, i.stopLoss = some sl → i.target1 = some t1 →
      i.target2 = some t2 → ∃ spot trig risk, GateSound i sl t1 t2 spot trig risk) ∧
    ∀ direction, directionIsPut direction = (!i.isPut) → (∀ trig ∈ i.trigger, 0 < trig) →
      (∀ trig ∈ (i.mirrored direction).trigger, 0 < trig) →
      (checkTriggerIntegrity (i.mirrored direction)).verdict = (checkTriggerIntegrity i).verdict :=
  ⟨fun h _ _ _ => passed_sound h, fun _ => verdict_mirrored⟩

/-- A call above its entry zone; the risk is given, and less than the distance of the stop. -/
def callAboveZone : TriggerInputs where
  direction := "LONG_CALL"
  spotPrice := some 25000
  entryMin := some 25000
  entryMax := some 25010
  trigger := some 25020
  stopLoss := some 24980
  target1 := some 25040
  target2 := some 25050
  riskPoints := some 20

theorem checkTriggerIntegrity_sound_symmetric_call :
    (∃ spot trig risk, GateSound callAboveZone 24980 25040 25050 spot trig risk) ∧
      (checkTriggerIntegrity (callAboveZone.mirrored "LONG_PUT")).verdict =
        (checkTriggerIntegrity callAboveZone).verdict := by
  obtain ⟨hsound, hmirrored⟩ := checkTriggerIntegrity_sound_symmetric callAboveZone
  refine ⟨hsound (by decide +kernel) 24980 25040 25050 rfl rfl rfl, hmirrored "LONG_PUT" (by decide +kernel) ?_ ?_⟩
  · intro trig htrig
    cases htrig
    decide +kernel
  · intro trig htrig
    cases htrig
    decide +kernel

/-- It passes with a reward of 30 points on a stop 40 points away. -/
theorem call_passes_below_bar :
    ¬ ∀ i : TriggerInputs, (checkTriggerIntegrity i).passed = true → ∀ sl t1 t2 trig, i.stopLoss = some sl →
      i.target1 = some t1 → i.target2 = some t2 → i.trigger = some trig →
      minRrT2 i.scalpEffective ≤ |t2 - trig| / |trig - sl| := by
  intro hall
  have hbar := hall callAboveZone (by decide +kernel) 24980 25040 25050 25020 rfl rfl rfl rfl
  revert hbar
  decide +kernel

end Droid.Signals
