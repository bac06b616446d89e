import Droid.Positions.Position

/-! The friction gate, on what its resolvers answer: the cost and the decay of a round trip to the first target. -/
namespace Droid.Signals.Friction
open Lib Positions

/-- What the gate reads of a candidate; its risk is a distance. -/
structure Candidate where
  isCall : Bool
  trigger : ℚ
  target1 : ℚ
  riskPoints : ℚ
  risk_nonneg : 0 ≤ riskPoints

/-- How far the target lies on the profitable side of the trigger. -/
def Candidate.reach (c : Candidate) : ℚ := if c.isCall then c.target1 - c.trigger else c.trigger - c.target1

/-- The move of the option to the target; a target on the wrong side counts as a tenth of a point away. -/
def Candidate.grossPts (c : Candidate) (delta : ℚ) : ℚ := max (1 / 10) c.reach * delta

/-- The answers of the lot, premium, spread, IV, delta, holding time and theta resolvers; what is not known is none, or
zero. -/
structure LiveInputs where
  lotSize : Int
  premium : Option ℚ
  spread : Option ℚ
  iv : Option ℚ
  delta : Option ℚ
  holdingSec : Int
  thetaHour : ℚ
  slippagePct : ℚ := 1 / 500
  slippagePts : Option ℚ := none
  lot_pos : 0 < lotSize
  premium_pos : ∀ p ∈ premium, 0 < p
  spread_pos : ∀ s ∈ spread, 0 < s
  delta_nonneg : ∀ d ∈ delta, 0 ≤ d
  pct_nonneg : 0 ≤ slippagePct

namespace LiveInputs
variable (i : LiveInputs)

def slippage (premium : ℚ) : ℚ :=
  match i.slippagePts.filter (0 ≤ ·) with
  | some pts => pts
  | none => roundTo 2 (premium * i.slippagePct)

/-- The costs of one unit that exits at the target. -/
def costs (premium spread gross : ℚ) : ℚ :=
  let schedule : IndianOptionCosts := { defaultSpreadPts := spread, defaultSlippagePts := i.slippage premium }
  (schedule.calculateTotalCosts premium (premium + gross) i.lotSize).totalFriction / i.lotSize

def thetaDrag : ℚ := i.thetaHour * (i.holdingSec / 3600)

end LiveInputs

structure FrictionGate where
  minNetRewardRisk : ℚ := 7 / 10
  maxCostToTargetRatio : ℚ := 45 / 100

inductive Rejection where
  | noLivePremium | noLiveSpread | noLiveIv | noDelta | noHoldingClock | noThetaClock | netEdge | friction | poorNetRr
  deriving DecidableEq

/-- The figures are rounded for the report, after the verdict. -/
structure NetEdgeResult where
  rejectionReason : Option Rejection
  expectedGrossEdgePts : ℚ := 0
  totalFrictionPts : ℚ := 0
  expectedNetEdgePts : ℚ := 0
  costToTargetRatioPct : ℚ := 100
  netRewardRiskRatio : ℚ := 0

namespace FrictionGate
variable (gate : FrictionGate) (c : Candidate) (i : LiveInputs)

/-- From the gross edge, the friction and the risk, all in points of the option. -/
def judge (gross friction risk : ℚ) : NetEdgeResult :=
  let net := gross - friction
  let costRatio := if 0 < gross then friction / gross else 1
  let netRewardRisk := if 0 < risk + friction then net / (risk + friction) else 0
  { rejectionReason :=
      if net ≤ 0 then some .netEdge
      else if gate.maxCostToTargetRatio < costRatio then some .friction
      else if netRewardRisk < gate.minNetRewardRisk then some .poorNetRr
      else none
    expectedGrossEdgePts := roundTo 2 gross
    totalFrictionPts := roundTo 2 friction
    expectedNetEdgePts := roundTo 2 net
    costToTargetRatioPct := roundTo 1 (costRatio * 100)
    netRewardRiskRatio := roundTo 2 netRewardRisk }

def evaluate : NetEdgeResult :=
  match i.premium, i.spread, i.iv, i.delta with
  | none, _, _, _ => { rejectionReason := some .noLivePremium }
  | some _, none, _, _ => { rejectionReason := some .noLiveSpread }
  | some _, some _, none, _ => { rejectionReason := some .noLiveIv }
  | some _, some _, some _, none => { rejectionReason := some .noDelta }
  | some premium, some spread, some _, some delta =>
    if i.holdingSec ≤ 0 then { rejectionReason := some .noHoldingClock }
    else
      let gross := c.grossPts delta
      if i.thetaDrag ≤ 0 then { rejectionReason := some .noThetaClock, expectedGrossEdgePts := roundTo 2 gross }
      else gate.judge gross (i.costs premium spread gross + i.thetaDrag) (c.riskPoints * delta)

/-- The three tests that end the evaluation. -/
def Clears (gross friction risk : ℚ) : Prop :=
  friction < gross ∧ friction ≤ gate.maxCostToTargetRatio * gross ∧
    gate.minNetRewardRisk * (risk + friction) ≤ gross - friction

theorem judge_passed_iff {gross friction risk : ℚ} (hfriction : 0 < friction) (hrisk : 0 ≤ risk) :
    (gate.judge gross friction risk).rejectionReason = none ↔ gate.Clears gross friction risk := by
  have hsum : 0 < risk + friction := add_pos_of_nonneg_of_pos hrisk hfriction
  simp only [judge, Clears]
  by_cases hnet : gross - friction ≤ 0
  · rw [if_pos hnet]
    simp [sub_nonpos.mp hnet]
  · have hlt : friction < gross := sub_pos.mp (not_le.mp hnet)
    rw [if_neg hnet, if_pos (hfriction.trans hlt), if_pos hsum]
    split_ifs with hcost hreward
    · rw [lt_div_iff₀ (hfriction.trans hlt)] at hcost
      simp [not_le.mpr hcost]
    · rw [div_lt_iff₀ hsum] at hreward
      simp [not_le.mpr hreward]
    · rw [lt_div_iff₀ (hfriction.trans hlt)] at hcost
      rw [div_lt_iff₀ hsum] at hreward
      simp [hlt, not_lt.mp hcost, not_lt.mp hreward]

variable {gate}

/-- Less friction and less risk clear what more of them clear. -/
theorem Clears.mono {gross friction friction' risk risk' : ℚ} (h : gate.Clears gross friction' risk')
    (hpos : 0 < risk + friction) (hf : friction ≤ friction') (hr : risk ≤ risk') : gate.Clears gross friction risk := by
  obtain ⟨hnet, hcost, hreward⟩ := h
  refine ⟨hf.trans_lt hnet, hf.trans hcost, ?_⟩
  rcases le_or_gt 0 gate.minNetRewardRisk with hmin | hmin
  · have hscaled := mul_le_mul_of_nonneg_left (add_le_add hr hf) hmin
    linarith
  · have hneg := mul_neg_of_neg_of_pos hmin hpos
    linarith

end FrictionGate

namespace LiveInputs
variable {i i' : LiveInputs}

theorem slippage_nonneg (i : LiveInputs) {premium : ℚ} (hpremium : 0 ≤ premium) : 0 ≤ i.slippage premium := by
  rw [slippage]
  split
  · rename_i pts hpts
    exact of_decide_eq_true (Option.filter_eq_some_iff.mp hpts).2
  · exact roundTo_nonneg 2 (mul_nonneg hpremium i.pct_nonneg)

theorem lot_or_premium (i : LiveInputs) {premium : ℚ} (h : 0 < premium) : ¬ (i.lotSize ≤ 0 ∨ premium ≤ 0) :=
  not_or.mpr ⟨not_le.mpr i.lot_pos, not_le.mpr h⟩

/-- A wider spread and a greater slippage cost more. -/
theorem costs_mono {premium spread spread' gross : ℚ} (hpremium : 0 < premium) (hlot : i.lotSize = i'.lotSize)
    (hspread : spread ≤ spread') (hslip : i.slippage premium ≤ i'.slippage premium) :
    i.costs premium spread gross ≤ i'.costs premium spread' gross := by
  have hq : (0 : ℚ) ≤ i'.lotSize := by exact_mod_cast i'.lot_pos.le
  simp only [costs, IndianOptionCosts.calculateTotalCosts, hlot, if_neg (i'.lot_or_premium hpremium)]
  refine div_le_div_of_nonneg_right (roundTo_mono 2 (add_le_add_right (roundTo_mono 2 ?_) _)) hq
  exact mul_le_mul_of_nonneg_right (by linarith) hq

theorem le_costs (i : LiveInputs) {premium spread : ℚ} (hpremium : 0 < premium) (hspread : 0 ≤ spread) (gross : ℚ) :
    236 / 5 / i.lotSize ≤ i.costs premium spread gross := by
  have hq : (0 : ℚ) < i.lotSize := by exact_mod_cast i.lot_pos
  have hslip := i.slippage_nonneg hpremium.le
  have hround : roundTo 2 (236 / 5) = 236 / 5 := by decide +kernel
  have hbuy : 0 ≤ premium * i.lotSize := by positivity
  have hsell : 0 ≤ max 0 (premium + gross) * i.lotSize := by positivity
  have hmarket : 0 ≤ roundTo 2 ((spread + i.slippage premium * 2) * i.lotSize) :=
    roundTo_nonneg 2 (by positivity)
  simp only [costs, IndianOptionCosts.calculateTotalCosts, if_neg (i.lot_or_premium hpremium)]
  refine div_le_div_of_nonneg_right ?_ hq.le
  rw [← hround]
  refine roundTo_mono 2 (le_add_of_le_of_nonneg ?_ hmarket)
  rw [← hround]
  refine roundTo_mono 2 ?_
  linarith

end LiveInputs

namespace FrictionGate
variable {gate : FrictionGate} {c c' : Candidate} {i i' : LiveInputs}

/-- A pass has every input, a target on the profitable side, and an edge that clears its costs. -/
structure Passes (gate : FrictionGate) (c : Candidate) (i : LiveInputs) (premium spread delta : ℚ) : Prop where
  premium_eq : i.premium = some premium
  spread_eq : i.spread = some spread
  iv_known : i.iv.isSome
  delta_eq : i.delta = some delta
  holding : 0 < i.holdingSec
  drag : 0 < i.thetaDrag
  clears : gate.Clears (c.grossPts delta) (i.costs premium spread (c.grossPts delta) + i.thetaDrag) (c.riskPoints * delta)

theorem friction_pos {premium spread : ℚ} (hpremium : 0 < premium) (hspread : 0 < spread) (gross : ℚ)
    (hdrag : 0 < i.thetaDrag) : 0 < i.costs premium spread gross + i.thetaDrag := by
  have hq : (0 : ℚ) < i.lotSize := by exact_mod_cast i.lot_pos
  have hcosts := i.le_costs hpremium hspread.le gross
  have hbrokerage : 0 < 236 / 5 / (i.lotSize : ℚ) := by positivity
  linarith

theorem evaluate_passed_iff : (gate.evaluate c i).rejectionReason = none ↔
    ∃ premium spread delta, gate.Passes c i premium spread delta := by
  have hjudge {premium spread delta : ℚ} (hpremium : i.premium = some premium) (hspread : i.spread = some spread)
      (hdelta : i.delta = some delta) (hdrag : 0 < i.thetaDrag) :
      (gate.judge (c.grossPts delta) (i.costs premium spread (c.grossPts delta) + i.thetaDrag)
        (c.riskPoints * delta)).rejectionReason = none ↔ gate.Clears (c.grossPts delta)
          (i.costs premium spread (c.grossPts delta) + i.thetaDrag) (c.riskPoints * delta) := by
    have hd := i.delta_nonneg delta hdelta
    exact gate.judge_passed_iff (friction_pos (i.premium_pos premium hpremium) (i.spread_pos spread hspread) _ hdrag)
      (mul_nonneg c.risk_nonneg hd)
  rw [evaluate]
  constructor
  · intro h
    split at h
    all_goals first | cases h | skip
    rename_i premium spread iv delta hpremium hspread hiv hdelta
    split at h
    · cases h
    · rename_i hholding
      dsimp only at h
      split at h
      · cases h
      · rename_i hdrag
        exact ⟨premium, spread, delta, hpremium, hspread, hiv ▸ rfl, hdelta, not_le.mp hholding, not_le.mp hdrag,
          (hjudge hpremium hspread hdelta (not_le.mp hdrag)).mp h⟩
  · rintro ⟨premium, spread, delta, h⟩
    obtain ⟨iv, hiv⟩ := Option.isSome_iff_exists.mp h.iv_known
    rw [h.premium_eq, h.spread_eq, hiv, h.delta_eq]
    dsimp only
    rw [if_neg (not_le.mpr h.holding), if_neg (not_le.mpr h.drag)]
    exact (hjudge h.premium_eq h.spread_eq h.delta_eq h.drag).mpr h.clears

/-- An option at 100, with half the move of the index. -/
def quoted (spread : ℚ) (holdingSec : Int) (h : 0 < spread) : LiveInputs where
  lotSize := 75
  premium := some 100
  spread := some spread
  iv := some (15 / 100)
  delta := some (1 / 2)
  holdingSec := holdingSec
  thetaHour := 1
  lot_pos := Int.succ_ofNat_pos 74
  premium_pos := by simp
  spread_pos := by simpa using h
  delta_nonneg := by simp
  pct_nonneg := by norm_num

def shortCall : Candidate := ⟨true, 24000, 24040, 10, by norm_num⟩

/-- As far to the target as the call, with more at risk. -/
def riskierPut : Candidate := ⟨false, 24000, 23960, 15, by norm_num⟩

/-- A target on the wrong side counts as a tenth of a point, which never covers the brokerage. -/
theorem passed_profitable (hlot : i.lotSize ≤ 472) (hdelta : ∀ d ∈ i.delta, d ≤ 1)
    (h : (gate.evaluate c i).rejectionReason = none) :
    1 / 10 < c.reach ∧ ∃ premium spread delta, gate.Passes c i premium spread delta := by
  obtain ⟨premium, spread, delta, hpasses⟩ := evaluate_passed_iff.mp h
  refine ⟨?_, premium, spread, delta, hpasses⟩
  by_contra hnear
  have hd := i.delta_nonneg delta hpasses.delta_eq
  have hgross : c.grossPts delta ≤ 1 / 10 := by
    rw [Candidate.grossPts, max_eq_left (not_lt.mp hnear)]
    have hone := hdelta delta hpasses.delta_eq
    linarith
  have hq : (0 : ℚ) < i.lotSize := by exact_mod_cast i.lot_pos
  have hq472 : (i.lotSize : ℚ) ≤ 472 := by exact_mod_cast hlot
  have hbrokerage : 1 / 10 ≤ 236 / 5 / (i.lotSize : ℚ) := by
    rw [le_div_iff₀ hq]
    linarith
  have hcosts := i.le_costs (i.premium_pos premium hpasses.premium_eq) (i.spread_pos spread hpasses.spread_eq).le
    (c.grossPts delta)
  have hclear := hpasses.clears.1
  have hdrag := hpasses.drag
  linarith

theorem passed_profitable_call :
    1 / 10 < shortCall.reach ∧ ∃ premium spread delta,
      ({} : FrictionGate).Passes shortCall (quoted 1 900 one_pos) premium spread delta :=
  passed_profitable (by decide) (by rintro d ⟨⟩; norm_num) (by decide +kernel)

/-- The same contract and reach, from either side, with at most the spread, the slippage, the time, the decay and the risk. -/
structure Milder (c c' : Candidate) (i i' : LiveInputs) : Prop where
  reach : c.reach = c'.reach
  risk : c.riskPoints ≤ c'.riskPoints
  lot : i.lotSize = i'.lotSize
  premium : i.premium = i'.premium
  iv : i.iv = i'.iv
  delta : i.delta = i'.delta
  spread : ∀ s' ∈ i'.spread, ∃ s ∈ i.spread, s ≤ s'
  slippage : ∀ premium, i.slippage premium ≤ i'.slippage premium
  holding : 0 < i.holdingSec ∧ i.holdingSec ≤ i'.holdingSec
  theta : 0 < i.thetaHour ∧ i.thetaHour ≤ i'.thetaHour

theorem passed_of_milder (h : Milder c c' i i') (hpassed : (gate.evaluate c' i').rejectionReason = none) :
    (gate.evaluate c i).rejectionReason = none := by
  obtain ⟨premium, spread', delta, hpasses⟩ := evaluate_passed_iff.mp hpassed
  obtain ⟨spread, hspread, hle⟩ := h.spread spread' hpasses.spread_eq
  have hdelta : i.delta = some delta := h.delta.trans hpasses.delta_eq
  have hpremium : i.premium = some premium := h.premium.trans hpasses.premium_eq
  have hd := i.delta_nonneg delta hdelta
  have hpos := i.premium_pos premium hpremium
  have hhours : (0 : ℚ) < i.holdingSec := by exact_mod_cast h.holding.1
  have hhours' : (i.holdingSec : ℚ) ≤ i'.holdingSec := by exact_mod_cast h.holding.2
  have hdrag : 0 < i.thetaDrag := mul_pos h.theta.1 (by positivity)
  have hdrag' : i.thetaDrag ≤ i'.thetaDrag := by
    refine mul_le_mul h.theta.2 ?_ (by positivity) (h.theta.1.le.trans h.theta.2)
    linarith
  have hcosts : i.costs premium spread (c.grossPts delta) ≤ i'.costs premium spread' (c.grossPts delta) :=
    LiveInputs.costs_mono hpos h.lot hle (h.slippage premium)
  have hfriction := friction_pos hpos (i.spread_pos spread hspread) (c.grossPts delta) hdrag
  refine evaluate_passed_iff.mpr ⟨premium, spread, delta, hpremium, hspread, h.iv ▸ hpasses.iv_known, hdelta,
    h.holding.1, hdrag, ?_⟩
  have hclears := hpasses.clears
  rw [Candidate.grossPts, ← h.reach] at hclears
  exact hclears.mono (add_pos_of_nonneg_of_pos (mul_nonneg c.risk_nonneg hd) hfriction) (add_le_add hcosts hdrag')
    (mul_le_mul_of_nonneg_right h.risk hd)

theorem call_passed_of_put : (({} : FrictionGate).evaluate shortCall (quoted 1 900 one_pos)).rejectionReason = none :=
  have hmilder : Milder shortCall riskierPut (quoted 1 900 one_pos) (quoted 2 1800 two_pos) :=
    { reach := by decide +kernel
      risk := by decide +kernel
      lot := rfl
      premium := rfl
      iv := rfl
      delta := rfl
      spread := fun s' h => ⟨1, rfl, by cases h; norm_num⟩
      slippage := fun _ => le_refl _
      holding := by decide
      theta := by decide +kernel }
  passed_of_milder hmilder (by decide +kernel)

end FrictionGate
end Droid.Signals.Friction
