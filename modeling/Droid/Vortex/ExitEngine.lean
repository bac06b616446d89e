import Droid.Lib.Clamp
import Droid.Lib.Text
import Mathlib.Algebra.Order.Field.Basic
import Mathlib.Data.Rat.Floor
import Mathlib.Tactic.Linarith
import Mathlib.Tactic.Positivity

/-! Stop, targets and holding time of a scalp, and when a mirrored market gets the mirrored trade. -/
namespace Droid.Vortex.ExitEngine
open Lib Lib.Text

/-- What the envelope reads of a `VortexFeatureSnapshot`. -/
structure Snapshot where
  instrument : Option String
  snapEnergy : ℚ
  distanceToNearestSupport : Option ℚ
  distanceToNearestResistance : Option ℚ
  energy_nonneg : 0 ≤ snapEnergy
  energy_le_one : snapEnergy ≤ 1

structure ExitTargets where
  entryPrice : ℚ
  stopPrice : ℚ
  target1 : ℚ
  target2 : ℚ
  expectedMove : ℚ
  expectedHoldingMinutes : ℚ
  riskPoints : ℚ
  rewardRiskRatio : ℚ

/-- The values of an instrument; the volatility proxy is a distance, `fallback` without one, and `floor` at least. -/
structure InstrumentDefaults where
  minRisk : ℚ
  maxRisk : ℚ
  fallback : ℚ
  floor : ℚ
  t1Ceil : ℚ
  t2Ceil : ℚ

def instrumentDefaults (instrument : Option String) : InstrumentDefaults :=
  let inst := (instrument.getD "").toUpper
  if hasText inst "SENSEX" then
    { minRisk := 35, maxRisk := 70, fallback := 45, floor := 35, t1Ceil := 100, t2Ceil := 160 }
  else if hasText inst "BANK" then
    { minRisk := 25, maxRisk := 50, fallback := 30, floor := 25, t1Ceil := 75, t2Ceil := 120 }
  else { minRisk := 8, maxRisk := 18, fallback := 15, floor := 10, t1Ceil := 30, t2Ceil := 45 }

/-- A distance that is there and not zero. -/
def truthy (distance : Option ℚ) : Option ℚ := distance.filter fun d => decide (d ≠ 0)

def atrOf (d : InstrumentDefaults) (distance : Option ℚ) : ℚ := max ((truthy distance).getD d.fallback) d.floor

/-- The final rounding of each value is left out. -/
def calculateTradeEnvelope (direction : Int) (entryPrice : ℚ) (snapshot : Snapshot) (interactedLevel : Option ℚ)
    (minRiskPoints maxRiskPoints : Option ℚ) : ExitTargets :=
  let d := instrumentDefaults snapshot.instrument
  let actualMinRisk := minRiskPoints.getD d.minRisk
  let actualMaxRisk := maxRiskPoints.getD d.maxRisk
  let atrProxy := atrOf d snapshot.distanceToNearestResistance
  let energyBoost := 1 + 1 / 2 * snapshot.snapEnergy
  let rawExpectedMove := 18 / 10 * atrProxy * energyBoost
  let expectedMove :=
    if 0 < direction then
      match truthy snapshot.distanceToNearestResistance with
      | some nextRes => min rawExpectedMove (max (nextRes * (9 / 10)) (actualMinRisk * (3 / 2)))
      | none => rawExpectedMove
    else
      match truthy snapshot.distanceToNearestSupport with
      | some nextSupp => min rawExpectedMove (max (nextSupp * (9 / 10)) (actualMinRisk * (3 / 2)))
      | none => rawExpectedMove
  let expectedMove := min expectedMove d.t2Ceil
  let volBuffer := max (2 / 10 * atrProxy) 3
  let risk :=
    if 0 < direction then
      match interactedLevel.filter (fun price => decide (price < entryPrice)) with
      | some price => entryPrice - (price - volBuffer)
      | none => entryPrice - (entryPrice - 85 / 100 * atrProxy)
    else
      match interactedLevel.filter (fun price => decide (entryPrice < price)) with
      | some price => price + volBuffer - entryPrice
      | none => entryPrice + 85 / 100 * atrProxy - entryPrice
  let risk := max actualMinRisk (min risk actualMaxRisk)
  let t1Move := min (8 / 10 * expectedMove) d.t1Ceil
  let stop := if 0 < direction then entryPrice - risk else entryPrice + risk
  let t1 := if 0 < direction then entryPrice + t1Move else entryPrice - t1Move
  let t2 := if 0 < direction then entryPrice + expectedMove else entryPrice - expectedMove
  { entryPrice
    stopPrice := stop
    target1 := t1
    target2 := t2
    expectedMove
    expectedHoldingMinutes := max 2 (min (11 / 2) (3 * (expectedMove / max atrProxy 1)))
    riskPoints := risk
    rewardRiskRatio := |t1 - entryPrice| / max risk (1 / 10 ^ 6) }

/-! ### Mirroring -/

/-- The market seen from below: support and resistance change places. -/
def Snapshot.mirror (s : Snapshot) : Snapshot :=
  { s with distanceToNearestSupport := s.distanceToNearestResistance
           distanceToNearestResistance := s.distanceToNearestSupport }

/-- The prices of a trade reflected about the entry. -/
def ExitTargets.mirror (t : ExitTargets) : ExitTargets :=
  { t with stopPrice := 2 * t.entryPrice - t.stopPrice, target1 := 2 * t.entryPrice - t.target1
           target2 := 2 * t.entryPrice - t.target2 }

/-- The stop, the entry and the targets in their order, and a risk within its bounds. -/
structure Ordered (direction : Int) (minRisk maxRisk : ℚ) (t : ExitTargets) : Prop where
  long : 0 < direction → t.stopPrice < t.entryPrice ∧ t.entryPrice < t.target1 ∧ t.target1 ≤ t.target2 ∧
    t.riskPoints = t.entryPrice - t.stopPrice
  short : direction < 0 → t.entryPrice < t.stopPrice ∧ t.target1 < t.entryPrice ∧ t.target2 ≤ t.target1 ∧
    t.riskPoints = t.stopPrice - t.entryPrice
  bounded : minRisk ≤ t.riskPoints ∧ t.riskPoints ≤ maxRisk

/-! ### The parts of an envelope, by the distance on the trade's side and the proxy -/

/-- The cap on the expected move: the room to the next level on the side of the trade, and the ceiling. -/
def moveCap (d : InstrumentDefaults) (minRisk : ℚ) (side : Option ℚ) : ℚ :=
  match truthy side with
  | some next => min (max (next * (9 / 10)) (minRisk * (3 / 2))) d.t2Ceil
  | none => d.t2Ceil

def rawMove (snapshot : Snapshot) (atr : ℚ) : ℚ := 18 / 10 * atr * (1 + 1 / 2 * snapshot.snapEnergy)

/-- The distance of the level behind the trade. -/
def levelGap (direction : Int) (entryPrice : ℚ) (interactedLevel : Option ℚ) : Option ℚ :=
  if 0 < direction then (interactedLevel.filter fun price => decide (price < entryPrice)).map (entryPrice - ·)
  else (interactedLevel.filter fun price => decide (entryPrice < price)).map (· - entryPrice)

def stopDistance (gap : Option ℚ) (atr : ℚ) : ℚ :=
  match gap with
  | some gap => gap + max (2 / 10 * atr) 3
  | none => 85 / 100 * atr

def assemble (direction : Int) (entryPrice t1Ceil move risk holding : ℚ) : ExitTargets :=
  let sign : ℚ := if 0 < direction then 1 else -1
  { entryPrice
    stopPrice := entryPrice - sign * risk
    target1 := entryPrice + sign * min (8 / 10 * move) t1Ceil
    target2 := entryPrice + sign * move
    expectedMove := move
    expectedHoldingMinutes := holding
    riskPoints := risk
    rewardRiskRatio := |min (8 / 10 * move) t1Ceil| / max risk (1 / 10 ^ 6) }

def holdingOf (move atr : ℚ) : ℚ := max 2 (min (11 / 2) (3 * (move / max atr 1)))

/-- The distance on the side of the trade. -/
def sideOf (direction : Int) (s : Snapshot) : Option ℚ :=
  if 0 < direction then s.distanceToNearestResistance else s.distanceToNearestSupport

theorem cappedMove_eq (d : InstrumentDefaults) (minRisk raw : ℚ) (side : Option ℚ) :
    min (match truthy side with
      | some next => min raw (max (next * (9 / 10)) (minRisk * (3 / 2)))
      | none => raw) d.t2Ceil = min raw (moveCap d minRisk side) := by
  unfold moveCap
  split
  · exact min_assoc _ _ _
  · rfl

theorem longRisk_eq (entryPrice atr : ℚ) (interactedLevel : Option ℚ) :
    (match interactedLevel.filter fun price => decide (price < entryPrice) with
      | some price => entryPrice - (price - max (2 / 10 * atr) 3)
      | none => entryPrice - (entryPrice - 85 / 100 * atr)) =
      stopDistance ((interactedLevel.filter fun price => decide (price < entryPrice)).map (entryPrice - ·)) atr := by
  cases interactedLevel.filter fun price => decide (price < entryPrice) with
  | none => exact sub_sub_cancel _ _
  | some price =>
    rw [Option.map_some, stopDistance]
    ring

theorem shortRisk_eq (entryPrice atr : ℚ) (interactedLevel : Option ℚ) :
    (match interactedLevel.filter fun price => decide (entryPrice < price) with
      | some price => price + max (2 / 10 * atr) 3 - entryPrice
      | none => entryPrice + 85 / 100 * atr - entryPrice) =
      stopDistance ((interactedLevel.filter fun price => decide (entryPrice < price)).map (· - entryPrice)) atr := by
  cases interactedLevel.filter fun price => decide (entryPrice < price) with
  | none => exact add_sub_cancel_left _ _
  | some price =>
    rw [Option.map_some, stopDistance]
    ring

theorem calculateTradeEnvelope_eq (direction : Int) (entryPrice : ℚ) (s : Snapshot) (interactedLevel : Option ℚ)
    (minRiskPoints maxRiskPoints : Option ℚ) :
    let d := instrumentDefaults s.instrument
    let minRisk := minRiskPoints.getD d.minRisk
    let maxRisk := maxRiskPoints.getD d.maxRisk
    let atr := atrOf d s.distanceToNearestResistance
    let move := min (rawMove s atr) (moveCap d minRisk (sideOf direction s))
    calculateTradeEnvelope direction entryPrice s interactedLevel minRiskPoints maxRiskPoints =
      assemble direction entryPrice d.t1Ceil move
        (max minRisk (min (stopDistance (levelGap direction entryPrice interactedLevel) atr) maxRisk))
        (holdingOf move atr) := by
  dsimp only
  unfold calculateTradeEnvelope assemble holdingOf
  by_cases hlong : 0 < direction
  · simp only [if_pos hlong, sideOf, levelGap, cappedMove_eq, longRisk_eq, rawMove, one_mul, add_sub_cancel_left]
  · simp only [if_neg hlong, sideOf, levelGap, cappedMove_eq, shortRisk_eq, rawMove, neg_one_mul, sub_neg_eq_add,
      ← sub_eq_add_neg, sub_sub_cancel_left, abs_neg]

/-! ### Order and bounds -/

theorem defaults_pos (instrument : Option String) :
    10 ≤ (instrumentDefaults instrument).floor ∧ 0 < (instrumentDefaults instrument).t1Ceil ∧
      0 < (instrumentDefaults instrument).t2Ceil := by
  unfold instrumentDefaults
  dsimp only
  split_ifs <;> norm_num

theorem ten_le_atrOf (instrument distance) : 10 ≤ atrOf (instrumentDefaults instrument) distance :=
  (defaults_pos instrument).1.trans (le_max_right _ _)

theorem rawMove_pos (s : Snapshot) {atr : ℚ} (hatr : 0 < atr) : 0 < rawMove s atr := by
  have henergy := s.energy_nonneg
  unfold rawMove
  positivity

theorem moveCap_pos (instrument : Option String) {minRisk : ℚ} (hmin : 0 < minRisk) (side : Option ℚ) :
    0 < moveCap (instrumentDefaults instrument) minRisk side := by
  have hceil := (defaults_pos instrument).2.2
  unfold moveCap
  split
  · exact lt_min (lt_max_of_lt_right (by positivity)) hceil
  · exact hceil

theorem assemble_ordered (direction : Int) (entryPrice : ℚ) {t1Ceil move risk minRisk maxRisk : ℚ} (holding : ℚ)
    (hceil : 0 < t1Ceil) (hmove : 0 < move) (hrisk : 0 < risk) (hbounds : minRisk ≤ risk ∧ risk ≤ maxRisk) :
    Ordered direction minRisk maxRisk (assemble direction entryPrice t1Ceil move risk holding) := by
  have hfirst : 0 < min (8 / 10 * move) t1Ceil := lt_min (by positivity) hceil
  have hsecond : min (8 / 10 * move) t1Ceil ≤ move := (min_le_left _ _).trans (by linarith)
  refine ⟨?_, ?_, hbounds⟩
  · intro hlong
    simp only [assemble, if_pos hlong, one_mul]
    refine ⟨?_, ?_, ?_, ?_⟩ <;> linarith
  · intro hshort
    simp only [assemble, if_neg (not_lt.mpr hshort.le), neg_one_mul]
    refine ⟨?_, ?_, ?_, ?_⟩ <;> linarith

/-! ### The mirrored envelope -/

theorem assemble_mirror {direction : Int} (hdirection : direction ≠ 0) (entryPrice t1Ceil move risk holding : ℚ) :
    (assemble direction entryPrice t1Ceil move risk holding).mirror =
      assemble (-direction) entryPrice t1Ceil move risk holding := by
  unfold assemble ExitTargets.mirror
  rcases lt_or_gt_of_ne hdirection with hshort | hlong
  · have hlong' : 0 < -direction := by omega
    simp only [if_neg (not_lt.mpr hshort.le), if_pos hlong', ExitTargets.mk.injEq, true_and, and_true]
    refine ⟨?_, ?_, ?_⟩ <;> ring
  · have hshort' : ¬0 < -direction := by omega
    simp only [if_pos hlong, if_neg hshort', ExitTargets.mk.injEq, true_and, and_true]
    refine ⟨?_, ?_, ?_⟩ <;> ring

theorem assemble_eq_iff {direction : Int} {entryPrice t1Ceil move risk holding move' risk' holding' : ℚ} :
    assemble direction entryPrice t1Ceil move risk holding = assemble direction entryPrice t1Ceil move' risk' holding' ↔
      move = move' ∧ risk = risk' ∧ holding = holding' := by
  constructor
  · intro h
    have hmove := congrArg ExitTargets.expectedMove h
    have hrisk := congrArg ExitTargets.riskPoints h
    have hholding := congrArg ExitTargets.expectedHoldingMinutes h
    exact ⟨hmove, hrisk, hholding⟩
  · rintro ⟨rfl, rfl, rfl⟩
    rfl

theorem sideOf_mirror {direction : Int} (hdirection : direction ≠ 0) (s : Snapshot) :
    sideOf (-direction) s.mirror = sideOf direction s := by
  unfold sideOf Snapshot.mirror
  rcases lt_or_gt_of_ne hdirection with hshort | hlong
  · have hlong' : 0 < -direction := by omega
    rw [if_pos hlong', if_neg (not_lt.mpr hshort.le)]
  · have hshort' : ¬0 < -direction := by omega
    rw [if_neg hshort', if_pos hlong]

theorem levelGap_mirror {direction : Int} (hdirection : direction ≠ 0) (entryPrice : ℚ) (interactedLevel : Option ℚ) :
    levelGap (-direction) entryPrice (interactedLevel.map (2 * entryPrice - ·)) =
      levelGap direction entryPrice interactedLevel := by
  cases interactedLevel with
  | none => simp [levelGap]
  | some price =>
    unfold levelGap
    simp only [Option.map_some, Option.filter_some]
    rcases lt_or_gt_of_ne hdirection with hshort | hlong
    · have hlong' : 0 < -direction := by omega
      rw [if_pos hlong', if_neg (not_lt.mpr hshort.le)]
      by_cases hbeyond : entryPrice < price
      · have hbeyond' : 2 * entryPrice - price < entryPrice := by linarith
        simp only [decide_eq_true hbeyond, decide_eq_true hbeyond', if_true, Option.map_some]
        congr 1
        ring
      · have hbeyond' : ¬2 * entryPrice - price < entryPrice := by linarith
        simp [hbeyond, hbeyond']
    · have hshort' : ¬0 < -direction := by omega
      rw [if_neg hshort', if_pos hlong]
      by_cases hbeyond : price < entryPrice
      · have hbeyond' : entryPrice < 2 * entryPrice - price := by linarith
        simp only [decide_eq_true hbeyond, decide_eq_true hbeyond', if_true, Option.map_some]
        congr 1
        ring
      · have hbeyond' : ¬entryPrice < 2 * entryPrice - price := by linarith
        simp [hbeyond, hbeyond']

/-! ### When two proxies make no difference -/

theorem rawMove_inj (s : Snapshot) {p q : ℚ} : rawMove s p = rawMove s q ↔ p = q := by
  have henergy := s.energy_nonneg
  have hboost : (1 + 1 / 2 * s.snapEnergy : ℚ) ≠ 0 := by positivity
  unfold rawMove
  constructor
  · intro h
    exact mul_left_cancel₀ (by norm_num) (mul_right_cancel₀ hboost h)
  · rintro rfl
    rfl

theorem stopDistance_eq_iff {gap : Option ℚ} {p q : ℚ} :
    stopDistance gap p = stopDistance gap q ↔ p = q ∨ (gap.isSome = true ∧ p ≤ 15 ∧ q ≤ 15) := by
  cases gap with
  | none =>
    simp only [stopDistance, Option.isSome_none, Bool.false_eq_true, false_and, or_false]
    constructor
    · intro h
      linarith
    · rintro rfl
      rfl
  | some gap =>
    simp only [stopDistance, Option.isSome_some, true_and, add_right_inj]
    rw [max_comm, max_comm (2 / 10 * q), max_eq_max_iff]
    constructor
    · rintro (hsame | ⟨hp, hq⟩)
      · exact Or.inl (by linarith)
      · exact Or.inr ⟨by linarith, by linarith⟩
    · rintro (rfl | ⟨hp, hq⟩)
      · exact Or.inl rfl
      · exact Or.inr ⟨by linarith, by linarith⟩

theorem holdingOf_eq_iff {cap p q : ℚ} (hcap : 0 < cap) (hp : 10 ≤ p) (hq : 10 ≤ q) :
    holdingOf cap p = holdingOf cap q ↔
      p = q ∨ (3 * cap ≤ 2 * p ∧ 3 * cap ≤ 2 * q) ∨ (11 * p ≤ 6 * cap ∧ 11 * q ≤ 6 * cap) := by
  have hppos : 0 < p := by linarith
  have hqpos : 0 < q := by linarith
  have hlow : ∀ {x : ℚ}, 0 < x → (3 * (cap / x) ≤ 2 ↔ 3 * cap ≤ 2 * x) := by
    intro x hx
    rw [← mul_div_assoc, div_le_iff₀ hx]
  have hhigh : ∀ {x : ℚ}, 0 < x → (11 / 2 ≤ 3 * (cap / x) ↔ 11 * x ≤ 6 * cap) := by
    intro x hx
    rw [← mul_div_assoc, le_div_iff₀ hx]
    constructor <;> intro h <;> linarith
  have hsame : 3 * (cap / p) = 3 * (cap / q) ↔ p = q := by
    rw [mul_right_inj' (by norm_num), div_eq_div_iff hppos.ne' hqpos.ne', mul_right_inj' hcap.ne']
    exact eq_comm
  unfold holdingOf
  rw [max_eq_left (by linarith : (1 : ℚ) ≤ p), max_eq_left (by linarith : (1 : ℚ) ≤ q), min_comm,
    min_comm (11 / 2) (3 * (cap / q)), clamp_eq_clamp_iff (by norm_num), hsame, hlow hppos, hlow hqpos, hhigh hppos,
    hhigh hqpos]
  norm_num

/-- Two proxies that differ and give one envelope: the move is capped, the risk is at a bound or does not see them, and
the holding time is at a bound. -/
structure Hidden (s : Snapshot) (cap : ℚ) (gap : Option ℚ) (minRisk maxRisk p q : ℚ) : Prop where
  move : cap ≤ rawMove s p ∧ cap ≤ rawMove s q
  risk : (gap.isSome = true ∧ p ≤ 15 ∧ q ≤ 15) ∨ (stopDistance gap p ≤ minRisk ∧ stopDistance gap q ≤ minRisk) ∨
    (maxRisk ≤ stopDistance gap p ∧ maxRisk ≤ stopDistance gap q) ∨ minRisk = maxRisk
  holding : (3 * cap ≤ 2 * p ∧ 3 * cap ≤ 2 * q) ∨ (11 * p ≤ 6 * cap ∧ 11 * q ≤ 6 * cap)

theorem same_envelope_iff (s : Snapshot) {cap minRisk maxRisk p q : ℚ} (gap : Option ℚ) (hcap : 0 < cap)
    (hbounds : minRisk ≤ maxRisk) (hp : 10 ≤ p) (hq : 10 ≤ q) :
    (min (rawMove s p) cap = min (rawMove s q) cap ∧
      max minRisk (min (stopDistance gap p) maxRisk) = max minRisk (min (stopDistance gap q) maxRisk) ∧
      holdingOf (min (rawMove s p) cap) p = holdingOf (min (rawMove s q) cap) q) ↔
      p = q ∨ Hidden s cap gap minRisk maxRisk p q := by
  constructor
  · rintro ⟨hmove, hrisk, hholding⟩
    by_cases hsame : p = q
    · exact Or.inl hsame
    right
    have hcapped := (min_eq_min_iff.mp hmove).resolve_left (mt (rawMove_inj s).mp hsame)
    rw [min_eq_right hcapped.1, min_eq_right hcapped.2, holdingOf_eq_iff hcap hp hq] at hholding
    rw [clamp_eq_clamp_iff hbounds, stopDistance_eq_iff] at hrisk
    refine ⟨hcapped, ?_, hholding.resolve_left hsame⟩
    rcases hrisk with (hproxies | hblind) | hrest
    · exact absurd hproxies hsame
    · exact Or.inl hblind
    · exact Or.inr hrest
  · rintro (rfl | hhidden)
    · exact ⟨rfl, rfl, rfl⟩
    · refine ⟨min_eq_min_iff.mpr (Or.inr hhidden.move), ?_, ?_⟩
      · rw [clamp_eq_clamp_iff hbounds, stopDistance_eq_iff]
        rcases hhidden.risk with hblind | hrest
        · exact Or.inl (Or.inr hblind)
        · exact Or.inr hrest
      · rw [min_eq_right hhidden.move.1, min_eq_right hhidden.move.2, holdingOf_eq_iff hcap hp hq]
        exact Or.inr hhidden.holding

/-! ### The law -/

/-- An envelope in order, with the mirrored envelope for the mirrored market. -/
structure EnvelopeLaw (direction : Int) (entryPrice : ℚ) (s : Snapshot) (interactedLevel minRiskPoints maxRiskPoints :
    Option ℚ) : Prop where
  ordered : Ordered direction (minRiskPoints.getD (instrumentDefaults s.instrument).minRisk)
    (maxRiskPoints.getD (instrumentDefaults s.instrument).maxRisk)
    (calculateTradeEnvelope direction entryPrice s interactedLevel minRiskPoints maxRiskPoints)
  mirrored :
    calculateTradeEnvelope (-direction) entryPrice s.mirror (interactedLevel.map (2 * entryPrice - ·)) minRiskPoints
      maxRiskPoints =
    (calculateTradeEnvelope direction entryPrice s interactedLevel minRiskPoints maxRiskPoints).mirror

/-- Resistance and support give one proxy, or two that the envelope hides. -/
def Balanced (direction : Int) (entryPrice : ℚ) (s : Snapshot) (interactedLevel minRiskPoints maxRiskPoints : Option ℚ) :
    Prop :=
  let d := instrumentDefaults s.instrument
  let minRisk := minRiskPoints.getD d.minRisk
  let maxRisk := maxRiskPoints.getD d.maxRisk
  let fromResistance := atrOf d s.distanceToNearestResistance
  let fromSupport := atrOf d s.distanceToNearestSupport
  fromSupport = fromResistance ∨
    Hidden s (moveCap d minRisk (sideOf direction s)) (levelGap direction entryPrice interactedLevel) minRisk maxRisk
      fromSupport fromResistance

/-- The envelope is in order always, and mirror-symmetric exactly where the volatility proxy, which is the distance to
the resistance for both directions, does not tell. -/
theorem envelopeLaw_iff {direction : Int} (hdirection : direction ≠ 0) (entryPrice : ℚ) (s : Snapshot)
    (interactedLevel : Option ℚ) {minRiskPoints maxRiskPoints : Option ℚ}
    (hmin : 0 < minRiskPoints.getD (instrumentDefaults s.instrument).minRisk)
    (hmax : minRiskPoints.getD (instrumentDefaults s.instrument).minRisk ≤
      maxRiskPoints.getD (instrumentDefaults s.instrument).maxRisk) :
    EnvelopeLaw direction entryPrice s interactedLevel minRiskPoints maxRiskPoints ↔
      Balanced direction entryPrice s interactedLevel minRiskPoints maxRiskPoints := by
  have hcap := moveCap_pos s.instrument hmin (sideOf direction s)
  have hatr := ten_le_atrOf s.instrument
  have hordered : Ordered direction (minRiskPoints.getD (instrumentDefaults s.instrument).minRisk)
      (maxRiskPoints.getD (instrumentDefaults s.instrument).maxRisk)
      (calculateTradeEnvelope direction entryPrice s interactedLevel minRiskPoints maxRiskPoints) := by
    rw [calculateTradeEnvelope_eq]
    have hmove := rawMove_pos s (lt_of_lt_of_le (by norm_num) (hatr s.distanceToNearestResistance))
    exact assemble_ordered direction entryPrice _ (defaults_pos s.instrument).2.1 (lt_min hmove hcap)
      (lt_max_of_lt_left hmin) ⟨le_max_left _ _, max_le hmax (min_le_right _ _)⟩
  have hmirrored : calculateTradeEnvelope (-direction) entryPrice s.mirror (interactedLevel.map (2 * entryPrice - ·))
        minRiskPoints maxRiskPoints =
      (calculateTradeEnvelope direction entryPrice s interactedLevel minRiskPoints maxRiskPoints).mirror ↔
      Balanced direction entryPrice s interactedLevel minRiskPoints maxRiskPoints := by
    rw [calculateTradeEnvelope_eq, calculateTradeEnvelope_eq, assemble_mirror hdirection, sideOf_mirror hdirection,
      levelGap_mirror hdirection]
    exact assemble_eq_iff.trans (same_envelope_iff s _ hcap hmax (hatr _) (hatr _))
  exact ⟨fun h => hmirrored.mp h.mirrored, fun h => ⟨hordered, hmirrored.mpr h⟩⟩

def nearSupport : Snapshot where
  instrument := some "NIFTY"
  snapEnergy := 0
  distanceToNearestSupport := some 12
  distanceToNearestResistance := some 20
  energy_nonneg := Rat.le_refl
  energy_le_one := zero_le_one

theorem envelopeLaw_iff_nearSupport :
    EnvelopeLaw 1 100 nearSupport none (some 5) (some 10) ↔ Balanced 1 100 nearSupport none (some 5) (some 10) :=
  envelopeLaw_iff (by decide) 100 nearSupport none (by norm_num) (by norm_num)

/-- The long trade risks 17 points, its mirror image 10.2. -/
theorem nearSupport_lopsided : ¬EnvelopeLaw 1 100 nearSupport none none none := by
  intro h
  have hrisk := congrArg ExitTargets.riskPoints h.mirrored
  revert hrisk
  decide +kernel

end Droid.Vortex.ExitEngine
