import Droid.Algo.SignalFusion
import Mathlib.Tactic.Ring

/-! The fusion of mirrored inputs: every score from the other end, every label its opposite. -/
namespace Droid.Algo.Fusion
open Lib Lib.Text

def Direction.opposite : Direction → Direction
  | .long => .short
  | .short => .long
  | .noTrade => .noTrade

def mirrored (score : ℚ) : ℚ := 100 - score

/-- The labels are read as opposites: word for word, and for the words in them. -/
structure OppositeLabels (l l' : Option String) : Prop where
  bullish : l' = some "BULLISH" ↔ l = some "BEARISH"
  bearish : l' = some "BEARISH" ↔ l = some "BULLISH"
  words : SignalInputs.wordTrend l' = (SignalInputs.wordTrend l).map (1 - ·)

structure OppositeRegimes (l l' : Option String) : Prop where
  bull : (l' = some "STRONG_BULL" ∨ l' = some "BULL") ↔ (l = some "STRONG_BEAR" ∨ l = some "BEAR")
  bear : (l' = some "STRONG_BEAR" ∨ l' = some "BEAR") ↔ (l = some "STRONG_BULL" ∨ l = some "BULL")
  range : l' = some "RANGE" ↔ l = some "RANGE"
  trend : SignalInputs.regimeTrend l' = (SignalInputs.regimeTrend l).map (1 - ·)

def oppositeBias (bias : String) : String :=
  if bias = "LONG" then "SHORT" else if bias = "SHORT" then "LONG" else bias

/-- Two inputs without pending event or risk flags that are each other's mirror image. -/
structure Mirror (i j : SignalInputs) : Prop where
  technical : j.technical.technicalScore = i.technical.technicalScore.map mirrored
  trend : OppositeLabels i.technical.trend j.technical.trend
  mtf : j.mtf.score = i.mtf.score.map mirrored
  overallBias : OppositeLabels i.mtf.overallBias j.mtf.overallBias
  fno : j.fno = i.fno.map mirrored
  regimeScore : j.regime.score = i.regime.score.map mirrored
  regime : OppositeRegimes i.regime.regime j.regime.regime
  aiConfidence : j.ai.confidence = i.ai.confidence
  aiBias : j.aiBias = oppositeBias i.aiBias
  riskFlags : i.ai.riskFlags = [] ∧ j.ai.riskFlags = []
  event : j.eventRisk.score = i.eventRisk.score.map mirrored
  eventPending : i.eventRisk.eventPending = false ∧ j.eventRisk.eventPending = false
  weights : j.weights = i.weights

def mirrorLabel (label : String) : String :=
  (([("BULLISH", "BEARISH"), ("BULL", "BEAR"), ("STRONG_BULL", "STRONG_BEAR"), ("UPTREND", "DOWNTREND"),
    ("BEARISH", "BULLISH"), ("BEAR", "BULL"), ("STRONG_BEAR", "STRONG_BULL"), ("DOWNTREND", "UPTREND")] :
    List (String × String)).lookup label).getD label

theorem oppositeRegimes_mirrorLabel : ∀ label ∈ ["STRONG_BULL", "BULL", "BULLISH", "UPTREND", "STRONG_BEAR",
    "BEAR", "BEARISH", "DOWNTREND", "RANGE"], OppositeRegimes (some label) (some (mirrorLabel label)) := by
  have hbull : ∀ label ∈ ["STRONG_BULL", "BULL", "BULLISH", "UPTREND", "STRONG_BEAR", "BEAR", "BEARISH",
      "DOWNTREND", "RANGE"],
      ((some (mirrorLabel label) = some "STRONG_BULL" ∨ some (mirrorLabel label) = some "BULL") ↔
        (some label = some "STRONG_BEAR" ∨ some label = some "BEAR")) ∧
      ((some (mirrorLabel label) = some "STRONG_BEAR" ∨ some (mirrorLabel label) = some "BEAR") ↔
        (some label = some "STRONG_BULL" ∨ some label = some "BULL")) ∧
      (some (mirrorLabel label) = some "RANGE" ↔ some label = some "RANGE") ∧
      SignalInputs.regimeTrend (some (mirrorLabel label)) =
        (SignalInputs.regimeTrend (some label)).map (1 - ·) := by
    decide +kernel
  intro label hlabel
  obtain ⟨h1, h2, h3, h4⟩ := hbull label hlabel
  exact ⟨h1, h2, h3, h4⟩

theorem oppositeLabels_mirrorLabel : ∀ label ∈ ["BULLISH", "BULL", "STRONG_BULL", "BEARISH", "BEAR",
    "STRONG_BEAR", "NEUTRAL"], OppositeLabels (some label) (some (mirrorLabel label)) := by
  have hread : ∀ label ∈ ["BULLISH", "BULL", "STRONG_BULL", "BEARISH", "BEAR", "STRONG_BEAR", "NEUTRAL"],
      (some (mirrorLabel label) = some "BULLISH" ↔ some label = some "BEARISH") ∧
      (some (mirrorLabel label) = some "BEARISH" ↔ some label = some "BULLISH") ∧
      SignalInputs.wordTrend (some (mirrorLabel label)) =
        (SignalInputs.wordTrend (some label)).map (1 - ·) := by
    decide +kernel
  intro label hlabel
  obtain ⟨h1, h2, h3⟩ := hread label hlabel
  exact ⟨h1, h2, h3⟩

namespace Mirror
variable {i j : SignalInputs} (h : Mirror i j)
include h

theorem weightsInUse_eq : j.weightsInUse = i.weightsInUse := by
  rw [SignalInputs.weightsInUse, SignalInputs.weightsInUse, h.weights]

theorem weight_eq (key : String) : j.weight key = i.weight key := by
  rw [SignalInputs.weight, SignalInputs.weight, SignalInputs.totalWeight, SignalInputs.totalWeight,
    h.weightsInUse_eq]

theorem mtfScore_eq : j.mtfScore = i.mtfScore.map mirrored := by
  simp only [SignalInputs.mtfScore, h.mtf]
  cases i.mtf.score with
  | some score => rfl
  | none =>
    have hexclusive : i.mtf.overallBias = some "BULLISH" → i.mtf.overallBias ≠ some "BEARISH" := by
      intro hbull hbear
      rw [hbull] at hbear
      exact absurd hbear (by decide)
    simp only [Option.map_none, h.overallBias.bullish, h.overallBias.bearish]
    split_ifs <;> simp_all [mirrored] <;> norm_num

theorem regimeScore_eq : j.regimeScore = i.regimeScore.map mirrored := by
  simp only [SignalInputs.regimeScore, h.regimeScore]
  cases i.regime.score with
  | some score => rfl
  | none =>
    have hexclusive : (i.regime.regime = some "STRONG_BULL" ∨ i.regime.regime = some "BULL") →
        ¬(i.regime.regime = some "STRONG_BEAR" ∨ i.regime.regime = some "BEAR") := by
      rintro (hbull | hbull) <;> rw [hbull] <;> decide
    simp only [Option.map_none, h.regime.bull, h.regime.bear, h.regime.range]
    split_ifs <;> simp_all [mirrored] <;> norm_num

omit h in
private theorem getD_map_mirrored (score : Option ℚ) : (score.map mirrored).getD 50 = mirrored (score.getD 50) := by
  cases score with
  | none =>
    simp only [Option.map_none, Option.getD_none, mirrored]
    norm_num
  | some s => rfl

theorem aiScore_eq : j.aiScore = mirrored i.aiScore := by
  simp only [SignalInputs.aiScore, h.aiConfidence, h.aiBias, oppositeBias]
  cases i.ai.confidence with
  | none =>
    simp only [mirrored]
    norm_num
  | some confidence =>
    dsimp only
    by_cases hlong : i.aiBias = "LONG"
    · simp [hlong, mirrored]
      ring
    · by_cases hshort : i.aiBias = "SHORT"
      · simp [hshort, mirrored]
        ring
      · simp only [if_neg hlong, if_neg hshort, mirrored]
        norm_num

theorem eventScore_eq : j.eventScore = mirrored i.eventScore := by
  simp only [SignalInputs.eventScore, h.eventPending.1, h.eventPending.2, h.event, Bool.false_eq_true, if_false]
  exact getD_map_mirrored _

omit h in
private theorem trendOfScore_mirrored (score : ℚ) :
    SignalInputs.trendOfScore (mirrored score) = 1 - SignalInputs.trendOfScore score := by
  change SignalInputs.trendOfScore (100 - score) = _
  simp only [SignalInputs.trendOfScore]
  rcases le_or_gt score 40 with hlow | hlow
  · have hhigh : ¬60 ≤ score := by linarith
    have hmirror : 60 ≤ 100 - score := by linarith
    rw [if_pos hmirror, if_neg hhigh, if_pos hlow]
    norm_num
  · have hmirror : ¬60 ≤ 100 - score := by linarith
    rw [if_neg hmirror, if_neg (not_le.mpr hlow)]
    by_cases hhigh : 60 ≤ score
    · have hmirrorLow : 100 - score ≤ 40 := by linarith
      rw [if_pos hmirrorLow, if_pos hhigh]
      norm_num
    · have hmirrorLow : ¬100 - score ≤ 40 := by linarith
      rw [if_neg hmirrorLow, if_neg hhigh]
      norm_num

omit h in
private theorem getD_map_opposite (reading : Option ℚ) {a b : ℚ} (hab : b = 1 - a) :
    (reading.map (1 - ·)).getD b = 1 - reading.getD a := by
  cases reading with
  | none => exact hab
  | some r => rfl

theorem trend01Tech_eq : j.trend01Tech = 1 - i.trend01Tech := by
  rw [SignalInputs.trend01Tech, SignalInputs.trend01Tech, h.trend.words, h.technical, getD_map_mirrored]
  exact getD_map_opposite _ (trendOfScore_mirrored _)

theorem trend01Mtf_eq : j.trend01Mtf = 1 - i.trend01Mtf := by
  rw [SignalInputs.trend01Mtf, SignalInputs.trend01Mtf, h.overallBias.words]
  exact getD_map_opposite _ (by norm_num)

theorem trend01Regime_eq : j.trend01Regime = 1 - i.trend01Regime := by
  rw [SignalInputs.trend01Regime, SignalInputs.trend01Regime, h.regime.trend, h.regimeScore_eq,
    getD_map_mirrored]
  exact getD_map_opposite _ (trendOfScore_mirrored _)

theorem techEff_eq : j.techEff = mirrored i.techEff := by
  rw [SignalInputs.techEff, SignalInputs.techEff, SignalInputs.trendCluster, SignalInputs.trendCluster,
    h.trend01Tech_eq, h.trend01Mtf_eq, h.trend01Regime_eq, h.technical, getD_map_mirrored]
  simp only [mirrored]
  ring

/-- All bullish is all bearish in the mirror, and both are penalised. -/
theorem correlationPenalty_eq : j.correlationPenalty = i.correlationPenalty := by
  have hbull : j.allBull = i.allBear := by
    simp only [SignalInputs.allBull, SignalInputs.allBear, h.trend01Tech_eq, h.trend01Mtf_eq, h.trend01Regime_eq]
    have hflip : ∀ x : ℚ, decide (3 / 4 ≤ 1 - x) = decide (x ≤ 1 / 4) := fun x =>
      decide_eq_decide.mpr ⟨fun hx => by linarith, fun hx => by linarith⟩
    rw [hflip, hflip, hflip]
  have hbear : j.allBear = i.allBull := by
    simp only [SignalInputs.allBull, SignalInputs.allBear, h.trend01Tech_eq, h.trend01Mtf_eq, h.trend01Regime_eq]
    have hflip : ∀ x : ℚ, decide (1 - x ≤ 1 / 4) = decide (3 / 4 ≤ x) := fun x =>
      decide_eq_decide.mpr ⟨fun hx => by linarith, fun hx => by linarith⟩
    rw [hflip, hflip, hflip]
  rw [SignalInputs.correlationPenalty, SignalInputs.correlationPenalty, hbull, hbear, Bool.or_comm]

end Mirror

/-- What the shares of the six domains add up to: 100 where the weights name all of them and nothing else. -/
def SignalInputs.weightSum (i : SignalInputs) : ℚ :=
  i.weight "technical" + i.weight "mtf" + i.weight "fno" + i.weight "regime" + i.weight "ai" +
    i.weight "event_risk"

theorem Mirror.weightedScore_eq {i j : SignalInputs} (h : Mirror i j) :
    j.weightedScore = i.weightSum - i.weightedScore := by
  simp only [SignalInputs.weightedScore, SignalInputs.weightSum, h.weight_eq, h.techEff_eq, h.mtfScore_eq, h.fno,
    h.regimeScore_eq, h.aiScore_eq, h.eventScore_eq, Mirror.getD_map_mirrored, mirrored]
  ring

/-- The fused run and its mirror image agree. -/
structure MirrorSymmetric (i j : SignalInputs) (strategyId symbol : String) (instrumentId : Option String) :
    Prop where
  fused : i.insufficient = false → j.fusedScore = mirrored i.fusedScore
  score : (fuse j strategyId symbol instrumentId).score =
    (fuse i strategyId symbol instrumentId).score.map mirrored
  direction : (fuse j strategyId symbol instrumentId).direction =
    (fuse i strategyId symbol instrumentId).direction.opposite
  confidence : (fuse j strategyId symbol instrumentId).confidence =
    (fuse i strategyId symbol instrumentId).confidence
  haircut : i.insufficient = false → |i.fusedScore - 50| ≤ |SignalInputs.bounded i.weightedScore - 50|

/-- The mirrored score is the mirror image of the score, or both runs end at the same bound. -/
def BoundsMeet (sum score penalty : ℚ) : Prop :=
  sum = 100 + 2 * penalty ∨ (score ≤ penalty ∧ score ≤ sum - penalty - 100) ∨
    (100 + penalty ≤ score ∧ sum - penalty ≤ score)

/-- A haircut of two points takes from a score below 51 what it has to give. -/
def HaircutInwards (score penalty : ℚ) : Prop := penalty = 0 ∨ 51 ≤ score ∨ score ≤ 0

section Bounds
variable {sum score penalty : ℚ}

private theorem bounded_eq_iff {a b : ℚ} : SignalInputs.bounded a = SignalInputs.bounded b ↔
    a = b ∨ (a ≤ 0 ∧ b ≤ 0) ∨ (100 ≤ a ∧ 100 ≤ b) := by
  simp only [SignalInputs.bounded]
  constructor
  · intro heq
    grind
  · rintro (rfl | ⟨ha, hb⟩ | ⟨ha, hb⟩)
    · rfl
    · rw [max_eq_left ((min_le_right _ _).trans ha), max_eq_left ((min_le_right _ _).trans hb)]
    · rw [min_eq_left ha, min_eq_left hb]

private theorem mirrored_bounded (a : ℚ) :
    mirrored (SignalInputs.bounded a) = SignalInputs.bounded (mirrored a) := by
  simp only [SignalInputs.bounded, mirrored]
  grind

theorem boundsMeet_iff : SignalInputs.bounded (sum - score - penalty) =
    mirrored (SignalInputs.bounded (score - penalty)) ↔ BoundsMeet sum score penalty := by
  rw [mirrored_bounded, bounded_eq_iff, BoundsMeet, mirrored]
  constructor
  · rintro (heq | ⟨ha, hb⟩ | ⟨ha, hb⟩)
    · exact Or.inl (by linarith)
    · exact Or.inr (Or.inr ⟨by linarith, by linarith⟩)
    · exact Or.inr (Or.inl ⟨by linarith, by linarith⟩)
  · rintro (heq | ⟨ha, hb⟩ | ⟨ha, hb⟩)
    · exact Or.inl (by linarith)
    · exact Or.inr (Or.inr ⟨by linarith, by linarith⟩)
    · exact Or.inr (Or.inl ⟨by linarith, by linarith⟩)

theorem haircutInwards_iff (hp : penalty = 0 ∨ penalty = 2) :
    |SignalInputs.bounded (score - penalty) - 50| ≤ |SignalInputs.bounded score - 50| ↔
      HaircutInwards score penalty := by
  rcases hp with rfl | rfl
  · simp [HaircutInwards]
  · simp only [SignalInputs.bounded, HaircutInwards]
    grind

end Bounds

namespace Mirror
variable {i j : SignalInputs} (h : Mirror i j)
include h

theorem measured_eq : j.measured = i.measured.map mirrored := by
  simp only [SignalInputs.measured, h.technical, h.mtfScore_eq, h.fno, h.regimeScore_eq]
  cases i.technical.technicalScore <;> cases i.mtfScore <;> cases i.fno <;> cases i.regimeScore <;> rfl

theorem insufficient_eq : j.insufficient = i.insufficient := by
  rw [SignalInputs.insufficient, SignalInputs.insufficient, h.measured_eq, h.aiConfidence, List.isEmpty_map]

theorem thin_eq : j.thin = i.thin := by
  simp only [SignalInputs.thin, SignalInputs.fusionStatus, SignalInputs.partialMissing, h.measured_eq,
    List.length_map, h.technical, h.mtfScore_eq, h.fno, h.regimeScore_eq, h.aiConfidence, h.event,
    h.eventPending.1, h.eventPending.2, Option.isNone_map]

theorem finalScore_eq : i.finalScore = i.fusedScore ∧ j.finalScore = j.fusedScore := by
  constructor <;> simp [SignalInputs.finalScore, SignalInputs.riskFlagged, h.riskFlags.1, h.riskFlags.2]

theorem fusedScore_iff : j.fusedScore = mirrored i.fusedScore ↔
    BoundsMeet i.weightSum i.weightedScore i.correlationPenalty := by
  rw [SignalInputs.fusedScore, SignalInputs.fusedScore, h.weightedScore_eq, h.correlationPenalty_eq,
    boundsMeet_iff]

theorem fusedDirection_eq (hscore : j.fusedScore = mirrored i.fusedScore) :
    j.fusedDirection = i.fusedDirection.opposite := by
  simp only [SignalInputs.fusedDirection, SignalInputs.riskFlagged, h.riskFlags.1, h.riskFlags.2,
    h.finalScore_eq.1, h.finalScore_eq.2, hscore, mirrored, FUSION_LONG_THRESHOLD, FUSION_SHORT_THRESHOLD,
    List.any_nil, Bool.false_eq_true, if_false]
  split_ifs <;> first | rfl | (exfalso; linarith)

theorem agreement_eq (d : Direction) : j.agreement d.opposite = i.agreement d := by
  have hbias : j.aiBias = d.opposite.label ↔ i.aiBias = d.label := by
    rw [h.aiBias, oppositeBias]
    cases d <;> split_ifs <;> simp_all [Direction.opposite, Direction.label]
  simp only [SignalInputs.agreement, h.trend.bullish, h.trend.bearish, h.overallBias.bullish,
    h.overallBias.bearish, hbias]
  cases d <;> simp [Direction.opposite, List.count_cons]

theorem fusedConfidence_eq (hscore : j.fusedScore = mirrored i.fusedScore) :
    j.fusedConfidence = i.fusedConfidence := by
  have hneutral : j.aiBias = "NEUTRAL" ↔ i.aiBias = "NEUTRAL" := by
    rw [h.aiBias, oppositeBias]
    split_ifs <;> simp_all
  have hdistance : |mirrored i.fusedScore - 50| = |i.fusedScore - 50| := by
    rw [mirrored, show 100 - i.fusedScore - 50 = -(i.fusedScore - 50) by ring, abs_neg]
  simp only [SignalInputs.fusedConfidence, h.finalScore_eq.1, h.finalScore_eq.2, h.fusedDirection_eq hscore,
    h.agreement_eq, hscore, hdistance, hneutral]

end Mirror

private theorem roundTo_mirrored (x : ℚ) : roundTo 2 (mirrored x) = mirrored (roundTo 2 x) := by
  have hshift := roundTo_add_intCast 1 (-x) 100
  rw [roundTo_neg] at hshift
  have hsum : mirrored x = -x + (100 : ℤ) := by
    rw [mirrored]
    push_cast
    ring
  rw [hsum, hshift, mirrored]
  push_cast
  ring

private theorem penalty_cases (i : SignalInputs) : i.correlationPenalty = 0 ∨ i.correlationPenalty = 2 := by
  rw [SignalInputs.correlationPenalty]
  split
  · exact Or.inr rfl
  · exact Or.inl rfl

private theorem symmetric_of_insufficient {i j : SignalInputs} (h : Mirror i j) (hmissing : i.insufficient = true)
    (strategyId symbol : String) (instrumentId : Option String) :
    MirrorSymmetric i j strategyId symbol instrumentId := by
  have hmissing' := h.insufficient_eq.trans hmissing
  refine ⟨fun hmeasured => ?_, ?_, ?_, ?_, fun hmeasured => ?_⟩
  · exact absurd (hmissing.symm.trans hmeasured) (by decide)
  · simp [fuse, hmissing, hmissing']
  · simp [fuse, hmissing, hmissing', Direction.opposite]
  · simp [fuse, hmissing, hmissing']
  · exact absurd (hmissing.symm.trans hmeasured) (by decide)

private theorem symmetric_of_measured {i j : SignalInputs} (h : Mirror i j) (hmeasured : i.insufficient = false)
    (hscore : j.fusedScore = mirrored i.fusedScore)
    (hinwards : HaircutInwards i.weightedScore i.correlationPenalty)
    (strategyId symbol : String) (instrumentId : Option String) :
    MirrorSymmetric i j strategyId symbol instrumentId := by
  have hmeasured' := h.insufficient_eq.trans hmeasured
  refine ⟨fun _ => hscore, ?_, ?_, ?_, fun _ => (haircutInwards_iff (penalty_cases i)).mpr hinwards⟩
  · simp [fuse, hmeasured, hmeasured', h.finalScore_eq.1, h.finalScore_eq.2, hscore, roundTo_mirrored]
  · simp only [fuse, hmeasured, hmeasured', Bool.false_eq_true, if_false, h.thin_eq, h.fusedDirection_eq hscore]
    split <;> rfl
  · simp only [fuse, hmeasured, hmeasured', Bool.false_eq_true, if_false, h.thin_eq, h.fusedConfidence_eq hscore]

/-- The haircut is taken off bullish and bearish trends alike. What is left is symmetric only
where there is none, up to shares that do not add up to 100 and scores at the bounds. -/
theorem mirrorSymmetric_iff {i j : SignalInputs} (h : Mirror i j) (strategyId symbol : String)
    (instrumentId : Option String) : MirrorSymmetric i j strategyId symbol instrumentId ↔
      i.insufficient = true ∨ (BoundsMeet i.weightSum i.weightedScore i.correlationPenalty ∧
        HaircutInwards i.weightedScore i.correlationPenalty) := by
  constructor
  · intro hs
    cases hmissing : i.insufficient with
    | true => exact Or.inl rfl
    | false =>
      exact Or.inr ⟨h.fusedScore_iff.mp (hs.fused hmissing),
        (haircutInwards_iff (penalty_cases i)).mp (hs.haircut hmissing)⟩
  · rintro (hmissing | ⟨hbounds, hinwards⟩)
    · exact symmetric_of_insufficient h hmissing strategyId symbol instrumentId
    · cases hmeasured : i.insufficient with
      | true => exact symmetric_of_insufficient h hmeasured strategyId symbol instrumentId
      | false =>
        exact symmetric_of_measured h hmeasured (h.fusedScore_iff.mpr hbounds) hinwards strategyId symbol
          instrumentId

/-- With the default weights, a strong bullish trend confirmed by everything else. -/
def bullishDay : SignalInputs :=
  { technical := { technicalScore := some 70, trend := some "BULLISH" }
    mtf := { score := some 70, overallBias := some "BULLISH" }
    fno := some 60
    regime := { score := some 70, regime := some "BULL" }
    ai := { confidence := some (7 / 10), bias := some "LONG" }
    eventRisk := { score := some 50 } }

def bearishDay : SignalInputs :=
  { technical := { technicalScore := some 30, trend := some "BEARISH" }
    mtf := { score := some 30, overallBias := some "BEARISH" }
    fno := some 40
    regime := { score := some 30, regime := some "BEAR" }
    ai := { confidence := some (7 / 10), bias := some "SHORT" }
    eventRisk := { score := some 50 } }

theorem mirror_bullishDay : Mirror bullishDay bearishDay where
  technical := by decide +kernel
  trend := oppositeLabels_mirrorLabel "BULLISH" (by decide)
  mtf := by decide +kernel
  overallBias := oppositeLabels_mirrorLabel "BULLISH" (by decide)
  fno := by decide +kernel
  regimeScore := by decide +kernel
  regime := oppositeRegimes_mirrorLabel "BULL" (by decide)
  aiConfidence := rfl
  aiBias := by decide +kernel
  riskFlags := ⟨rfl, rfl⟩
  event := by decide +kernel
  eventPending := ⟨rfl, rfl⟩
  weights := rfl

theorem mirrorSymmetric_bullishDay : MirrorSymmetric bullishDay bearishDay "TREND" "NIFTY" none ↔
    bullishDay.insufficient = true ∨
      (BoundsMeet bullishDay.weightSum bullishDay.weightedScore bullishDay.correlationPenalty ∧
        HaircutInwards bullishDay.weightedScore bullishDay.correlationPenalty) :=
  mirrorSymmetric_iff mirror_bullishDay "TREND" "NIFTY" none

/-- 71.5 for the bullish day, and 24.5 for the bearish one. -/
theorem bullishDay_not_symmetric : Mirror bullishDay bearishDay ∧ bullishDay.fusedScore = 143 / 2 ∧
    bearishDay.fusedScore = 49 / 2 ∧ ¬MirrorSymmetric bullishDay bearishDay "TREND" "NIFTY" none := by
  have hscores : bullishDay.insufficient = false ∧ bullishDay.fusedScore = 143 / 2 ∧
      bearishDay.fusedScore = 49 / 2 ∧ bearishDay.fusedScore ≠ mirrored bullishDay.fusedScore := by
    decide +kernel
  obtain ⟨hmeasured, hbull, hbear, hne⟩ := hscores
  exact ⟨mirror_bullishDay, hbull, hbear, fun hs => hne (hs.fused hmeasured)⟩

end Droid.Algo.Fusion
