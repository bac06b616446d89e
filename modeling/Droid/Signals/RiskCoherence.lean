import Droid.Signals.RiskEngine

/-! Accepted risk decisions: stop, entry, targets and lots in order, and the candidates that keep the first target. -/
namespace Droid.Signals
open Lib

namespace StrategySetup
variable (setup : StrategySetup) (rules : RiskEnvelope)

/-- A price at a distance that pays for the risk, within the ceiling. -/
def Reachable (cand : ℚ) : Prop :=
  setup.validatedRisk rules * rules.minRr ≤ |cand - setup.entryTrigger| ∧
    |cand - setup.entryTrigger| ≤ rules.t1CeilingPts

structure TargetCandidate (cand : ℚ) : Prop where
  first : ∃ before after, setup.structuralTargetCandidates = before ++ cand :: after ∧
    ∀ c ∈ before, ¬ setup.Reachable rules c
  reachable : setup.Reachable rules cand
  apart : cand ≠ setup.entryTrigger

/-- On the side of the trade. -/
def Ahead (cand : ℚ) : Prop := if setup.isCall then setup.entryTrigger < cand else cand < setup.entryTrigger

/-- Stop, entry and targets one after the other in the direction of the trade. -/
def Ordered (stopLoss entry target1 target2 : ℚ) : Prop :=
  if setup.isCall then stopLoss ≤ entry ∧ entry ≤ target1 ∧ target1 ≤ target2
  else entry ≤ stopLoss ∧ target1 ≤ entry ∧ target2 ≤ target1

/-- The candidate is ahead of the entry, or so near that its distance rounds to nothing. -/
def CandidateAhead : Prop :=
  ∀ cand, setup.TargetCandidate rules cand → setup.Ahead cand ∨ |cand - setup.entryTrigger| ≤ 1 / 200

end StrategySetup

/-- The prices are the entry with distances rounded to two decimals, the distances in strict and the prices in weak
order, the stop no nearer than the structural one and within the envelope, the first target worth the risk; the lots
are at most ten and within the budget; a first target from a candidate is its price. -/
structure ValidatedRiskDecision.Coherent (d : ValidatedRiskDecision) (req : RiskRequest) (rules : RiskEnvelope) :
    Prop where
  levels : ∃ risk t1 t2, 0 < risk ∧ 0 < t1 ∧ t1 < t2 ∧ req.setup.rawRisk ≤ risk ∧ risk ≤ rules.maxRiskPts ∧
    (rules.minRr - 1 / 200) * risk ≤ t1 ∧ d.entryPrice = req.setup.entryTrigger ∧
    d.stopLoss = req.setup.priceAt (-roundTo 2 risk) ∧ d.target1 = req.setup.priceAt (roundTo 2 t1) ∧
    d.target2 = req.setup.priceAt (roundTo 2 t2)
  ordered : req.setup.Ordered d.stopLoss d.entryPrice d.target1 d.target2
  lots : 1 ≤ d.lots ∧ d.lots ≤ 10
  budget : ∃ riskPerUnit, d.premiumRiskPerUnit = some (roundTo 2 riskPerUnit) ∧
    d.maxRupeeLoss = roundTo 2 (d.lots * d.lotSize * riskPerUnit) ∧
    d.lots * d.lotSize * riskPerUnit ≤ req.allowedRupeeRisk
  candidate : ∀ cand, req.setup.TargetCandidate rules cand →
    d.target1 = req.setup.entryTrigger + roundTo 2 (cand - req.setup.entryTrigger)

namespace StrategySetup
variable {setup : StrategySetup} {rules : RiskEnvelope}

theorem ordered_priceAt {risk t1 t2 : ℚ} (hrisk : 0 ≤ risk) (ht1 : 0 ≤ t1) (ht2 : t1 ≤ t2) :
    setup.Ordered (setup.priceAt (-risk)) setup.entryTrigger (setup.priceAt t1) (setup.priceAt t2) := by
  simp only [Ordered, priceAt]
  cases setup.isCall with
  | true =>
    simp only [if_true]
    exact ⟨by linarith, by linarith, by linarith⟩
  | false =>
    simp only [Bool.false_eq_true, if_false]
    exact ⟨by linarith, by linarith, by linarith⟩

theorem spreadBuffer_nonneg {risk : ℚ} (h : 0 ≤ risk) : 0 ≤ setup.spreadBuffer risk := by
  simp only [spreadBuffer]
  by_cases hfunded : 0 < setup.optionSpreadPts.getD 0 ∧
      3 / 20 ≤ if |setup.optionDelta.getD 0| = 0 then 1 / 2 else |setup.optionDelta.getD 0|
  · rw [if_pos hfunded]
    exact le_min (mul_nonneg h (by norm_num)) (div_nonneg hfunded.1.le (le_trans (by norm_num) hfunded.2))
  · rw [if_neg hfunded]

theorem rawRisk_le_validatedRisk (h : 0 < setup.rawRisk) : setup.rawRisk ≤ setup.validatedRisk rules := by
  have hmax : setup.rawRisk ≤ max (max setup.rawRisk rules.minRiskPts) (setup.atrRisk rules) :=
    (le_max_left _ _).trans (le_max_left _ _)
  have hbuffer : 0 ≤ setup.spreadBuffer (max (max setup.rawRisk rules.minRiskPts) (setup.atrRisk rules)) :=
    spreadBuffer_nonneg (h.le.trans hmax)
  rw [validatedRisk]
  linarith

theorem candidateT1Pts_le {diff : ℚ} (h : setup.candidateT1Pts rules = some diff) :
    0 ≤ diff ∧ diff ≤ rules.t1CeilingPts := by
  have hfound := List.find?_some h
  have hmem := List.mem_of_find?_eq_some h
  simp only [decide_eq_true_eq] at hfound
  obtain ⟨cand, -, rfl⟩ := List.mem_map.mp hmem
  exact ⟨abs_nonneg _, hfound.2⟩

theorem t1Pts_bounds (hrisk : 0 < setup.validatedRisk rules) (hceiling : 0 < rules.t1CeilingPts) :
    0 < setup.t1Pts rules ∧ setup.t1Pts rules ≤ rules.t1CeilingPts := by
  rw [t1Pts]
  cases hcand : (setup.candidateT1Pts rules).filter (· ≠ 0) with
  | none =>
    have hpos : 0 < setup.validatedRisk rules * (3 / 2) := mul_pos hrisk (by norm_num)
    exact ⟨lt_min hpos hceiling, min_le_right _ _⟩
  | some diff =>
    obtain ⟨hdiff, hne⟩ := Option.filter_eq_some_iff.mp hcand
    obtain ⟨hnonneg, hle⟩ := candidateT1Pts_le hdiff
    simp only [ne_eq, decide_eq_true_eq] at hne
    exact ⟨hnonneg.lt_of_ne' hne, hle⟩

theorem t1Pts_lt_t2Pts (hpos : 0 < setup.t1Pts rules) (hle : setup.t1Pts rules ≤ rules.t1CeilingPts)
    (hceilings : rules.t1CeilingPts < rules.t2CeilingPts) : setup.t1Pts rules < setup.t2Pts rules := by
  rw [t2Pts]
  refine lt_min (lt_max_of_lt_left ?_) (hle.trans_lt hceilings)
  linarith

theorem TargetCandidate.mem {cand : ℚ} (h : setup.TargetCandidate rules cand) :
    cand ∈ setup.structuralTargetCandidates := by
  obtain ⟨before, after, hsplit, -⟩ := h.first
  rw [hsplit]
  exact List.mem_append_right before List.mem_cons_self

theorem TargetCandidate.t1Pts_eq {cand : ℚ} (h : setup.TargetCandidate rules cand) :
    setup.t1Pts rules = |cand - setup.entryTrigger| := by
  obtain ⟨before, after, hsplit, hbefore⟩ := h.first
  have hreach : setup.validatedRisk rules * rules.minRr ≤ |cand - setup.entryTrigger| ∧
      |cand - setup.entryTrigger| ≤ rules.t1CeilingPts := h.reachable
  have hfound : setup.candidateT1Pts rules = some |cand - setup.entryTrigger| := by
    rw [candidateT1Pts, hsplit, List.find?_eq_some_iff_append]
    refine ⟨decide_eq_true hreach, before.map fun c => |c - setup.entryTrigger|,
      after.map fun c => |c - setup.entryTrigger|, by simp, fun diff hdiff => ?_⟩
    obtain ⟨c, hc, rfl⟩ := List.mem_map.mp hdiff
    rw [Bool.not_eq_true', decide_eq_false_iff_not]
    exact hbefore c hc
  have hne : |cand - setup.entryTrigger| ≠ 0 := abs_ne_zero.mpr (sub_ne_zero.mpr h.apart)
  rw [t1Pts, hfound, Option.filter_some, if_pos (decide_eq_true hne)]
  rfl

/-- A target at the candidate's distance is the candidate's price just on its side of the entry. -/
theorem priceAt_eq_iff {cand : ℚ} (hne : cand ≠ setup.entryTrigger) :
    setup.priceAt (roundTo 2 |cand - setup.entryTrigger|) =
        setup.entryTrigger + roundTo 2 (cand - setup.entryTrigger) ↔
      setup.Ahead cand ∨ |cand - setup.entryTrigger| ≤ 1 / 200 := by
  have hzero : roundTo 2 |cand - setup.entryTrigger| = 0 ↔ |cand - setup.entryTrigger| ≤ 1 / 200 := by
    rw [roundTo_eq_zero_iff 2 (abs_nonneg _)]
    norm_num
  rw [← hzero, priceAt, Ahead]
  rcases lt_or_gt_of_ne hne with hbelow | habove
  · have habs : |cand - setup.entryTrigger| = -(cand - setup.entryTrigger) := abs_of_neg (sub_neg.mpr hbelow)
    rw [habs, roundTo_neg]
    cases setup.isCall with
    | true =>
      simp only [if_true, not_lt.mpr hbelow.le, false_or]
      constructor <;> intro h <;> linarith
    | false => simp [hbelow]
  · have habs : |cand - setup.entryTrigger| = cand - setup.entryTrigger := abs_of_pos (sub_pos.mpr habove)
    rw [habs]
    cases setup.isCall with
    | true => simp [habove]
    | false =>
      simp only [Bool.false_eq_true, if_false, not_lt.mpr habove.le, false_or]
      constructor <;> intro h <;> linarith

end StrategySetup

namespace CentralRiskEngine
variable {engine : CentralRiskEngine} {ctx : RiskContext} {req : RiskRequest} {rules : RiskEnvelope}

theorem reject_accepted (rejection : RiskRejection) (constraint : Option (RiskExecutionStatus × RiskLevels))
    (terms : OptionTerms) : (engine.reject ctx req rejection constraint terms).accepted = false := rfl

structure Passed (engine : CentralRiskEngine) (ctx : RiskContext) (req : RiskRequest) (rules : RiskEnvelope) : Prop where
  decision : engine.evaluateIn ctx req rules = engine.accept ctx req rules
  rawRisk : 0 < req.setup.rawRisk
  validatedRisk : req.setup.validatedRisk rules ≤ rules.maxRiskPts
  rr : rules.minRr ≤ req.setup.rrT1 rules
  lots : 1 ≤ engine.affordableLots ctx req rules

theorem passed_of_accepted (h : (engine.evaluateIn ctx req rules).accepted = true) : engine.Passed ctx req rules := by
  by_cases hraw : req.setup.rawRisk ≤ 0
  · simp [evaluateIn, hraw, reject_accepted] at h
  by_cases hstructural : rules.maxRiskPts < req.setup.rawRisk
  · simp [evaluateIn, hraw, hstructural, reject_accepted] at h
  by_cases hvolatility : rules.maxRiskPts < req.setup.validatedRisk rules
  · simp [evaluateIn, hraw, hstructural, hvolatility, reject_accepted] at h
  by_cases hrr : req.setup.rrT1 rules < rules.minRr
  · simp [evaluateIn, hraw, hstructural, hvolatility, hrr, reject_accepted] at h
  by_cases hlots : engine.affordableLots ctx req rules < 1
  · simp [evaluateIn, hraw, hstructural, hvolatility, hrr, hlots, reject_accepted] at h
  cases hgate : engine.lastGate ctx req rules with
  | some gate => simp [evaluateIn, hraw, hstructural, hvolatility, hrr, hlots, hgate, reject_accepted] at h
  | none =>
    refine ⟨?_, not_le.mp hraw, not_lt.mp hvolatility, not_lt.mp hrr, not_lt.mp hlots⟩
    simp only [evaluateIn, hraw, hstructural, hvolatility, hrr, hlots, hgate, if_false]

theorem evaluate_of_accepted (henv : engine.envelopeFor req = some rules)
    (h : (engine.evaluate ctx req).accepted = true) :
    engine.evaluate ctx req = engine.accept ctx req rules ∧ engine.Passed ctx req rules := by
  cases hgate : req.firstGate ctx with
  | some rejection => simp [evaluate, hgate, reject_accepted] at h
  | none =>
    have heq : engine.evaluate ctx req = engine.evaluateIn ctx req rules := by
      simp only [evaluate, hgate, henv]
    rw [heq] at h ⊢
    exact ⟨(passed_of_accepted h).decision, passed_of_accepted h⟩

theorem lots_bounds (h : 1 ≤ engine.affordableLots ctx req rules) :
    1 ≤ engine.lots ctx req rules ∧ engine.lots ctx req rules ≤ 10 ∧
      engine.lots ctx req rules ≤ engine.affordableLots ctx req rules := by
  simp only [lots]
  split_ifs <;> omega

theorem budget_kept (h : 1 ≤ engine.affordableLots ctx req rules) {lots : Int}
    (hle : lots ≤ engine.affordableLots ctx req rules) :
    lots * engine.rupeeRiskPerLot ctx req rules ≤ req.allowedRupeeRisk := by
  rw [affordableLots] at h hle
  split at h
  · rename_i hpos
    rw [if_pos hpos, Int.le_floor, le_div_iff₀ hpos] at hle
    exact hle
  · exact absurd h (by decide)

/-- With rising ceilings, what is accepted is coherent exactly when the candidate of the first target is ahead. -/
theorem evaluate_coherent_iff (henv : engine.envelopeFor req = some rules) (hceiling : 0 < rules.t1CeilingPts)
    (hceilings : rules.t1CeilingPts < rules.t2CeilingPts) (h : (engine.evaluate ctx req).accepted = true) :
    (engine.evaluate ctx req).Coherent req rules ↔ req.setup.CandidateAhead rules := by
  obtain ⟨heq, hpassed⟩ := evaluate_of_accepted henv h
  rw [heq]
  have htarget : ∀ cand, req.setup.TargetCandidate rules cand →
      ((engine.accept ctx req rules).target1 = req.setup.entryTrigger + roundTo 2 (cand - req.setup.entryTrigger) ↔
        req.setup.Ahead cand ∨ |cand - req.setup.entryTrigger| ≤ 1 / 200) := by
    intro cand hcand
    rw [← StrategySetup.priceAt_eq_iff hcand.apart, ← hcand.t1Pts_eq]
    rfl
  constructor
  · intro hcoherent cand hcand
    exact (htarget cand hcand).mp (hcoherent.candidate cand hcand)
  · intro hahead
    have hraw : req.setup.rawRisk ≤ req.setup.validatedRisk rules :=
      StrategySetup.rawRisk_le_validatedRisk hpassed.rawRisk
    have hrisk : 0 < req.setup.validatedRisk rules := hpassed.rawRisk.trans_le hraw
    obtain ⟨ht1, hle⟩ := StrategySetup.t1Pts_bounds hrisk hceiling
    obtain ⟨hone, hten, haffordable⟩ := lots_bounds hpassed.lots
    have ht2 : req.setup.t1Pts rules < req.setup.t2Pts rules := StrategySetup.t1Pts_lt_t2Pts ht1 hle hceilings
    refine ⟨⟨req.setup.validatedRisk rules, req.setup.t1Pts rules, req.setup.t2Pts rules, hrisk, ht1, ht2, hraw,
      hpassed.validatedRisk, ?_, rfl, rfl, rfl, rfl⟩,
      StrategySetup.ordered_priceAt (roundTo_nonneg 2 hrisk.le) (roundTo_nonneg 2 ht1.le) (roundTo_mono 2 ht2.le),
      ⟨hone, hten⟩, ⟨engine.optionRiskPerUnit req rules, rfl, ?_, ?_⟩, fun cand hcand =>
        (htarget cand hcand).mpr (hahead cand hcand)⟩
    · -- the ratio was rounded before it was compared
      have hnear := (abs_le.mp (abs_roundTo_sub_le 2 (req.setup.t1Pts rules / req.setup.validatedRisk rules))).2
      have hrr : rules.minRr ≤ roundTo 2 (req.setup.t1Pts rules / req.setup.validatedRisk rules) := hpassed.rr
      rw [← le_div_iff₀ hrisk]
      norm_num at hnear ⊢
      linarith
    · simp only [accept, totalQty, Int.cast_mul]
    · have hbudget := budget_kept hpassed.lots haffordable
      calc ((engine.lots ctx req rules : Int) : ℚ) * engine.lotSize ctx req * engine.optionRiskPerUnit req rules
          = engine.lots ctx req rules * engine.rupeeRiskPerLot ctx req rules := by rw [rupeeRiskPerLot]; ring
        _ ≤ req.allowedRupeeRisk := hbudget

/-- A call whose candidate lies 30 points ahead, at a risk of 15. -/
theorem evaluate_coherent_iff_ahead :
    (defaultRiskConfig.evaluate
      { marketOpen := true, resolveLotSize := fun _ => some 75, ledger := { }, frictionGate := fun _ => none }
      { setup := { underlying := .nifty, isCall := true, spotPrice := 24000, entryTrigger := 24000
                   rawStructuralStop := 23985, structuralTargetCandidates := [24030], atr5m := 14 } }).Coherent
      { setup := { underlying := .nifty, isCall := true, spotPrice := 24000, entryTrigger := 24000
                   rawStructuralStop := 23985, structuralTargetCandidates := [24030], atr5m := 14 } }
      ⟨63 / 5, 35, 55, 80, 1, 1, 600, 4500⟩ := by
  refine (evaluate_coherent_iff (by decide +kernel) (by decide +kernel) (by decide +kernel) (by decide +kernel)).mpr ?_
  intro cand hcand
  rw [List.mem_singleton.mp hcand.mem]
  exact .inl (show (24000 : ℚ) < 24030 by norm_num)

/-- A call whose candidate lies 30 points behind gets its target 30 points ahead. -/
theorem candidate_behind_mirrored :
    ¬ ∀ (engine : CentralRiskEngine) (ctx : RiskContext) (req : RiskRequest) (rules : RiskEnvelope),
      engine.envelopeFor req = some rules → 0 < rules.t1CeilingPts → rules.t1CeilingPts < rules.t2CeilingPts →
      (engine.evaluate ctx req).accepted = true → (engine.evaluate ctx req).Coherent req rules := by
  intro h
  have hcoherent := h defaultRiskConfig
    { marketOpen := true, resolveLotSize := fun _ => some 75, ledger := { }, frictionGate := fun _ => none }
    { setup := { underlying := .nifty, isCall := true, spotPrice := 24000, entryTrigger := 24000
                 rawStructuralStop := 23985, structuralTargetCandidates := [23970], atr5m := 14 } }
    ⟨63 / 5, 35, 55, 80, 1, 1, 600, 4500⟩ (by decide +kernel) (by decide +kernel) (by decide +kernel)
    (by decide +kernel)
  have hpoints : (15 : ℚ) * 1 ≤ |23970 - 24000| ∧ |(23970 : ℚ) - 24000| ≤ 55 := by decide +kernel
  have hrisk : StrategySetup.validatedRisk { underlying := .nifty, isCall := true, spotPrice := 24000
                                             entryTrigger := 24000, rawStructuralStop := 23985
                                             structuralTargetCandidates := [23970], atr5m := 14 }
      ⟨63 / 5, 35, 55, 80, 1, 1, 600, 4500⟩ = 15 := by
    decide +kernel
  have hprice := hcoherent.candidate 23970
    ⟨⟨[], [], rfl, fun _ hc => absurd hc List.not_mem_nil⟩, by rw [StrategySetup.Reachable, hrisk]; exact hpoints,
      by decide +kernel⟩
  exact absurd hprice (by decide +kernel)

end CentralRiskEngine

end Droid.Signals
