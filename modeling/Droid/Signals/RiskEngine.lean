import Droid.Signals.Fsm
import Droid.Positions.PortfolioGreeks

/-! The central risk engine: risk, targets and lots of a setup, and the gates that reject it. -/
namespace Droid.Signals
open Lib Positions

inductive SetupUnderlying where
  | nifty | banknifty | sensex
  deriving DecidableEq, Repr

def SetupUnderlying.name : SetupUnderlying → String
  | .nifty => "NIFTY"
  | .banknifty => "BANKNIFTY"
  | .sensex => "SENSEX"

inductive SetupTimeframe where
  | m1 | m3 | m5 | m15 | d1
  deriving DecidableEq, Repr

def resolveDeskKey (timeframe : SetupTimeframe) (isScalp : Bool) : String :=
  if isScalp ∨ timeframe = .m1 ∨ timeframe = .m3 then "1m_scalp"
  else if timeframe = .m15 then "15m_intraday"
  else if timeframe = .d1 then "1d_positional"
  else "5m_intraday"

/-- A strategy's proposal; isCall is the direction LONG_CALL, else LONG_PUT. -/
structure StrategySetup where
  underlying : SetupUnderlying
  isCall : Bool
  timeframe : SetupTimeframe := .m5
  isScalp : Bool := false
  spotPrice : ℚ
  entryTrigger : ℚ
  rawStructuralStop : ℚ
  structuralTargetCandidates : List ℚ := []
  atr5m : ℚ := 22
  confidence : ℚ := 75
  optionDelta : Option ℚ := none
  optionPremium : Option ℚ := none
  optionThetaHour : Option ℚ := none
  optionIv : Option ℚ := none
  optionGamma : Option ℚ := none
  optionSpreadPts : Option ℚ := none
  optionSlippagePts : Option ℚ := none
  optionStrike : Option ℚ := none
  optionExpiry : Option String := none
  deriving DecidableEq, Repr

structure RiskEnvelope where
  minRiskPts : ℚ
  maxRiskPts : ℚ
  t1CeilingPts : ℚ
  t2CeilingPts : ℚ
  atrMultiplier : ℚ := 1
  minRr : ℚ
  triggerTtlSeconds : Int
  activeTimeStopSeconds : Int
  deriving DecidableEq, Repr

structure CentralRiskEngine where
  version : Int := 1
  envelopes : Dict String (Dict String RiskEnvelope)
  lotSizes : Dict String Int
  defaultAtmDelta : ℚ := 1 / 2
  expiryDayTimeStopFactor : ℚ := 1 / 2

/-- The envelopes of `DEFAULT_RISK_CONFIG`: least and greatest risk, the two ceilings, the multiple of the ATR, the least
ratio, and the clocks. -/
def defaultEnvelopes : Dict String (Dict String RiskEnvelope) :=
  ⟨[
    ("NIFTY", ⟨[
      ("1m_scalp", ⟨28 / 5, 18, 30, 45, 1, 1, 300, 900⟩),
      ("5m_intraday", ⟨63 / 5, 35, 55, 80, 1, 1, 600, 4500⟩),
      ("15m_intraday", ⟨25, 50, 75, 110, 5 / 4, 7 / 5, 900, 7200⟩),
      ("1d_positional", ⟨60, 120, 180, 280, 13 / 10, 3 / 2, 1800, 20000⟩)], by decide⟩),
    ("BANKNIFTY", ⟨[
      ("1m_scalp", ⟨25, 50, 75, 120, 11 / 10, 5 / 4, 300, 900⟩),
      ("5m_intraday", ⟨50, 95, 140, 220, 6 / 5, 27 / 20, 600, 4500⟩),
      ("15m_intraday", ⟨70, 130, 190, 300, 5 / 4, 7 / 5, 900, 7200⟩),
      ("1d_positional", ⟨180, 350, 520, 800, 13 / 10, 3 / 2, 1800, 20000⟩)], by decide⟩),
    ("SENSEX", ⟨[
      ("1m_scalp", ⟨35, 70, 100, 160, 11 / 10, 5 / 4, 300, 900⟩),
      ("5m_intraday", ⟨70, 130, 180, 300, 6 / 5, 27 / 20, 600, 4500⟩),
      ("15m_intraday", ⟨95, 180, 260, 420, 5 / 4, 7 / 5, 900, 7200⟩),
      ("1d_positional", ⟨250, 480, 700, 1100, 13 / 10, 3 / 2, 1800, 20000⟩)], by decide⟩)],
    by decide⟩

def defaultRiskConfig : CentralRiskEngine where
  envelopes := defaultEnvelopes
  lotSizes :=
    ⟨[("NIFTY", 75), ("BANKNIFTY", 30), ("SENSEX", 10), ("FINNIFTY", 65), ("MIDCPNIFTY", 120)], by decide⟩

structure EventOverlay where
  canEnter : Bool := true
  rejectionReason : String := "EVENT_RISK_OVERLAY_REJECTION"
  sizingMultiplier : ℚ := 1
  deriving DecidableEq, Repr

structure RiskRequest where
  setup : StrategySetup
  availableCapital : ℚ := 100000
  riskPerTradePct : ℚ := 1
  isExpiryDay : Bool := false
  allowClosedMarket : Bool := false
  eventOverlay : Option EventOverlay := none
  dailyPnlInr : Option ℚ := none
  maxDailyLossInr : Option ℚ := none
  deriving DecidableEq, Repr

/-- The candidate that the friction gate gets, with what is passed beside it; the rest it reads of the setup. -/
structure FrictionQuery where
  setup : StrategySetup
  stopLoss : ℚ
  target1 : ℚ
  target2 : ℚ
  riskPoints : ℚ
  riskRewardT1 : ℚ
  riskRewardT2 : ℚ
  delta : ℚ
  livePremium : ℚ
  holdingSeconds : Int
  deriving DecidableEq, Repr

structure NetEdge where
  passed : Bool
  netRewardRiskRatio : ℚ
  deriving DecidableEq, Repr

/-- What the engine asks of the rest of the system: the calendar, the lot resolver, the portfolio ledger and the
friction gate, none where a call raises. -/
structure RiskContext where
  marketOpen : Bool
  resolveLotSize : String → Option Int
  ledger : PortfolioGreeksLedger
  frictionGate : FrictionQuery → Option NetEdge

inductive RiskRejection where
  | marketClosed | eventRiskRejected (reason : String) | lowConfidence | dailyLossCap | configMissing
  | invalidStopOrientation | structuralRiskExceedsEnvelope | volatilityRiskExceedsEnvelope | insufficientRr
  | insufficientCapitalForOneLot | portfolioVeto (reason : Option GreekRejection) | frictionNetRr | excessiveThetaDrag
  deriving DecidableEq, Repr

def RiskRejection.code : RiskRejection → String
  | .marketClosed => "MARKET_CLOSED"
  | .eventRiskRejected _ => "EVENT_RISK_REJECTED"
  | .lowConfidence => "LOW_CONFIDENCE"
  | .dailyLossCap => "DAILY_LOSS_CAP"
  | .configMissing => "CONFIG_MISSING"
  | .invalidStopOrientation => "INVALID_STOP_ORIENTATION"
  | .structuralRiskExceedsEnvelope => "STRUCTURAL_RISK_EXCEEDS_ENVELOPE"
  | .volatilityRiskExceedsEnvelope => "VOLATILITY_RISK_EXCEEDS_ENVELOPE"
  | .insufficientRr => "INSUFFICIENT_RR"
  | .insufficientCapitalForOneLot => "INSUFFICIENT_CAPITAL_FOR_1_LOT"
  | .portfolioVeto _ => "PORTFOLIO_VETO"
  | .frictionNetRr => "FRICTION_NET_RR"
  | .excessiveThetaDrag => "EXCESSIVE_THETA_DRAG"

inductive RiskExecutionStatus where
  | safetyBlocked | blockedEnvelope | blockedRr | blockedCapital | blockedPortfolio | blockedFriction | liveExecutable
  deriving DecidableEq, Repr

inductive ViabilityNote where
  | highThetaDrag (thetaHour dragPct : ℚ) | thetaDragAcceptable (dragPct : ℚ) | premiumStop (entry risk : ℚ)
  deriving DecidableEq, Repr

structure RiskLevels where
  stopLoss : ℚ
  target1 : ℚ := 0
  target2 : ℚ := 0
  riskPoints : ℚ := 0
  rewardT1Points : ℚ := 0
  rewardT2Points : ℚ := 0
  riskRewardT1 : ℚ := 0
  riskRewardT2 : ℚ := 0
  triggerTtlSeconds : Int := 0
  activeTimeStopSeconds : Int := 0
  deriving DecidableEq, Repr

structure OptionTerms where
  optionDelta : Option ℚ := none
  optionThetaHour : Option ℚ := none
  optionEconomicViability : Option Bool := none
  optionViabilityRationale : List ViabilityNote := []
  premiumRiskPerUnit : Option ℚ := none
  premiumEntry : Option ℚ := none
  deriving DecidableEq, Repr

structure ValidatedRiskDecision extends RiskLevels, OptionTerms where
  accepted : Bool
  rejection : Option RiskRejection := none
  configVersion : Int := 1
  entryPrice : ℚ
  lots : Int
  quantity : Int
  maxRupeeLoss : ℚ
  lotSize : Int
  liveExecutable : Bool
  paperEligible : Bool
  observationEligible : Bool
  executionStatus : RiskExecutionStatus
  liveLots : Int
  hypotheticalPaperLots : Int
  opportunityScore : Option ℚ
  executionScore : ℚ
  deriving DecidableEq, Repr

def premiumStopRisk (entryPremium delta gamma spotRiskPts spreadPts slippagePts : ℚ) : ℚ :=
  let s := max 0 spotRiskPts
  let linear := |delta| * s
  let convex := 1 / 2 * max 0 gamma * s * s
  let risk := max (1 / 2 * linear) (linear - convex)
  let risk := if 0 < entryPremium then min risk (entryPremium * (9 / 10)) else risk
  roundTo 2 (max (1 / 2) (risk + max 0 spreadPts + max 0 slippagePts))

namespace StrategySetup
variable (setup : StrategySetup) (rules : RiskEnvelope)

/-- A price at a distance from the entry, on the side of the trade for a positive distance. -/
def priceAt (distance : ℚ) : ℚ :=
  if setup.isCall then setup.entryTrigger + distance else setup.entryTrigger - distance

def rawRisk : ℚ :=
  if setup.isCall then setup.entryTrigger - setup.rawStructuralStop else setup.rawStructuralStop - setup.entryTrigger

def atrRisk : ℚ := setup.atr5m * rules.atrMultiplier

/-- The buffer for the spread that the stop funds, of at most a fifth of the risk. -/
def spreadBuffer (risk : ℚ) : ℚ :=
  let spread := setup.optionSpreadPts.getD 0
  let delta := |setup.optionDelta.getD 0|
  let delta := if delta = 0 then 1 / 2 else delta
  if 0 < spread ∧ 3 / 20 ≤ delta then min (risk * (1 / 5)) (spread / delta) else 0

def validatedRisk : ℚ :=
  let risk := max (max setup.rawRisk rules.minRiskPts) (setup.atrRisk rules)
  risk + setup.spreadBuffer risk

/-- The distance of the first candidate that is reachable within the ceiling; it is taken on either side. -/
def candidateT1Pts : Option ℚ :=
  (setup.structuralTargetCandidates.map fun cand => |cand - setup.entryTrigger|).find? fun diff =>
    setup.validatedRisk rules * rules.minRr ≤ diff ∧ diff ≤ rules.t1CeilingPts

/-- A distance of zero counts as no candidate. -/
def t1Pts : ℚ :=
  ((setup.candidateT1Pts rules).filter (· ≠ 0)).getD (min (setup.validatedRisk rules * (3 / 2)) rules.t1CeilingPts)

def t2Pts : ℚ := min (max (setup.t1Pts rules * (8 / 5)) (setup.validatedRisk rules * 2)) rules.t2CeilingPts

def rrT1 : ℚ := roundTo 2 (setup.t1Pts rules / setup.validatedRisk rules)

def rrT2 : ℚ := roundTo 2 (setup.t2Pts rules / setup.validatedRisk rules)

def levels : RiskLevels where
  stopLoss := setup.priceAt (-roundTo 2 (setup.validatedRisk rules))
  target1 := setup.priceAt (roundTo 2 (setup.t1Pts rules))
  target2 := setup.priceAt (roundTo 2 (setup.t2Pts rules))
  riskPoints := roundTo 2 (setup.validatedRisk rules)
  rewardT1Points := roundTo 2 (setup.t1Pts rules)
  rewardT2Points := roundTo 2 (setup.t2Pts rules)
  riskRewardT1 := setup.rrT1 rules
  riskRewardT2 := setup.rrT2 rules
  triggerTtlSeconds := rules.triggerTtlSeconds
  activeTimeStopSeconds := rules.activeTimeStopSeconds

/-- The levels shown with a risk that exceeds the envelope: the stop as proposed, targets at one and a half and twice
the risk. -/
def exceededLevels (risk : ℚ) : RiskLevels where
  stopLoss := setup.rawStructuralStop
  target1 := setup.priceAt (roundTo 2 (risk * (3 / 2)))
  target2 := setup.priceAt (roundTo 2 (risk * 2))
  riskPoints := roundTo 2 risk
  rewardT1Points := roundTo 2 (risk * (3 / 2))
  rewardT2Points := roundTo 2 (risk * 2)
  riskRewardT1 := 3 / 2
  riskRewardT2 := 2
  triggerTtlSeconds := rules.triggerTtlSeconds
  activeTimeStopSeconds := rules.activeTimeStopSeconds

/-- The selector's delta, unless it is too small. -/
def liveDelta : Option ℚ := (setup.optionDelta.map fun delta => |delta|).filter (3 / 20 ≤ ·)

def entryPremium : Option ℚ := setup.optionPremium.filter (0 < ·)

/-- `float(setup.confidence or 75.0)`. -/
def conf : ℚ := if setup.confidence = 0 then 75 else setup.confidence

def confidenceHalve : Bool := setup.conf < 50

def horizon : String :=
  if setup.isScalp ∨ setup.timeframe = .m1 ∨ setup.timeframe = .m3 then "SCALP"
  else if setup.timeframe = .d1 then "SWING"
  else "INTRADAY"

end StrategySetup

namespace RiskRequest
variable (req : RiskRequest)

/-- The risk per trade in percent, cut by the event overlay. -/
def riskPct : ℚ :=
  match req.eventOverlay with
  | some overlay =>
    if overlay.sizingMultiplier < 1 then req.riskPerTradePct * max (1 / 10) overlay.sizingMultiplier
    else req.riskPerTradePct
  | none => req.riskPerTradePct

def allowedRupeeRisk : ℚ := req.availableCapital * (req.riskPct / 100)

def dailyLossHit : Bool :=
  match req.dailyPnlInr, req.maxDailyLossInr with
  | some pnl, some maxLoss => pnl ≤ -|maxLoss|
  | _, _ => false

/-- The gates before the envelope. -/
def firstGate (ctx : RiskContext) : Option RiskRejection :=
  let shut := req.eventOverlay.filter fun overlay => ¬ overlay.canEnter
  if ¬ req.allowClosedMarket ∧ ¬ ctx.marketOpen then some .marketClosed
  else match shut with
    | some overlay => some (.eventRiskRejected overlay.rejectionReason)
    | none =>
      if req.setup.conf < 32 then some .lowConfidence
      else if req.dailyLossHit then some .dailyLossCap
      else none

end RiskRequest

namespace CentralRiskEngine
variable (engine : CentralRiskEngine) (ctx : RiskContext) (req : RiskRequest) (rules : RiskEnvelope)

/-- `_resolve_envelope`; a desk that the file does not have is taken for the 5m one. -/
def resolveEnvelope (underlying deskKey : String) : Option RiskEnvelope :=
  let env := (engine.envelopes.get? underlying).getD Dict.empty
  (env.get? deskKey).or (env.get? "5m_intraday")

def lotSizeFor (underlying : String) : Int :=
  (ctx.resolveLotSize underlying).getD ((engine.lotSizes.get? underlying).getD 75)

def lotSize : Int := engine.lotSizeFor ctx req.setup.underlying.name

def delta : ℚ := req.setup.liveDelta.getD engine.defaultAtmDelta

/-- The risk of one unit: of the premium where the selector priced it, else of the underlying through its delta. -/
def optionRiskPerUnit : ℚ :=
  match req.setup.entryPremium with
  | some entry =>
    premiumStopRisk entry (engine.delta req) (req.setup.optionGamma.getD 0) (req.setup.validatedRisk rules)
      (req.setup.optionSpreadPts.getD 0) (req.setup.optionSlippagePts.getD 0)
  | none => req.setup.validatedRisk rules * engine.delta req

def rupeeRiskPerLot : ℚ := engine.optionRiskPerUnit req rules * engine.lotSize ctx req

def affordableLots : Int :=
  if 0 < engine.rupeeRiskPerLot ctx req rules then ⌊req.allowedRupeeRisk / engine.rupeeRiskPerLot ctx req rules⌋
  else 0

/-- At most ten, and half of them at a low confidence. -/
def lots : Int :=
  let lots := min (engine.affordableLots ctx req rules) 10
  if req.setup.confidenceHalve ∧ 1 < lots then max 1 (lots / 2) else lots

def totalQty : Int := engine.lots ctx req rules * engine.lotSize ctx req

def optionTerms : OptionTerms where
  optionDelta := some (roundTo 4 (engine.delta req))
  optionThetaHour := req.setup.optionThetaHour
  premiumRiskPerUnit := some (roundTo 2 (engine.optionRiskPerUnit req rules))
  premiumEntry := req.setup.entryPremium.map (roundTo 2)

/-- The trade that the portfolio is checked with, when strike and expiry are there. -/
def portfolioTrade : Option PortfolioGreekPosition :=
  match req.setup.optionStrike.filter (· ≠ 0), req.setup.optionExpiry.filter (· ≠ "") with
  | some strike, some expiryDate =>
    some
      { positionId := "", underlying := req.setup.underlying.name, horizon := req.setup.horizon
        optionType := if req.setup.isCall then "CE" else "PE"
        strike, expiryDate, quantity := engine.totalQty ctx req rules
        unitDelta := if req.setup.isCall then engine.delta req else -engine.delta req
        unitGamma := (req.setup.optionGamma.filter (· ≠ 0)).getD (1 / 2000)
        unitThetaDay := req.setup.optionThetaHour.getD 0 * (25 / 4)
        unitVega := 10 }
  | _, _ => none

def frictionQuery (livePremium : ℚ) : FrictionQuery where
  setup := req.setup
  stopLoss := (req.setup.levels rules).stopLoss
  target1 := (req.setup.levels rules).target1
  target2 := (req.setup.levels rules).target2
  riskPoints := (req.setup.levels rules).riskPoints
  riskRewardT1 := (req.setup.levels rules).riskRewardT1
  riskRewardT2 := (req.setup.levels rules).riskRewardT2
  delta := if req.setup.isCall then engine.delta req else -engine.delta req
  livePremium
  holdingSeconds := rules.activeTimeStopSeconds

/-- The friction gate's veto, for a leg that the selector priced; an error of the gate is passed over. -/
def frictionVeto : Bool :=
  match req.setup.entryPremium, req.setup.liveDelta with
  | some premium, some _ =>
    (ctx.frictionGate (engine.frictionQuery req rules premium)).any fun edge =>
      ¬ edge.passed ∨ edge.netRewardRiskRatio < 7 / 10
  | _, _ => false

/-- The theta of an hour in percent of the gain to the first target. -/
def thetaDragPct (thetaHour : ℚ) : Option ℚ :=
  let expectedGain := req.setup.t1Pts rules * engine.delta req
  if 0 < expectedGain then some (|thetaHour| / expectedGain * 100) else none

def dragNotes (thetaHour : ℚ) : List ViabilityNote :=
  match engine.thetaDragPct req rules thetaHour with
  | some pct => if 50 < pct then [.highThetaDrag |thetaHour| pct] else [.thetaDragAcceptable pct]
  | none => []

def thetaVeto : Bool :=
  (req.setup.optionThetaHour.bind (engine.thetaDragPct req rules)).any fun pct =>
    70 < pct ∧ (req.setup.isScalp ∨ resolveDeskKey req.setup.timeframe req.setup.isScalp = "1m_scalp")

def viabilityNotes : List ViabilityNote :=
  match req.setup.optionThetaHour with
  | some theta =>
    engine.dragNotes req rules theta ++
      (req.setup.entryPremium.map fun entry =>
        ViabilityNote.premiumStop entry (engine.optionRiskPerUnit req rules)).toList
  | none => []

def lastGate : Option (RiskRejection × RiskExecutionStatus × OptionTerms) :=
  let terms := engine.optionTerms req rules
  let check := (engine.portfolioTrade ctx req rules).map ctx.ledger.evaluateMarginalTrade
  match check.filter fun chk => ¬ chk.allowed with
  | some chk => some (.portfolioVeto chk.rejection, .blockedPortfolio, terms)
  | none =>
    if engine.frictionVeto ctx req rules then some (.frictionNetRr, .blockedFriction, terms)
    else if engine.thetaVeto req rules then
      some (.excessiveThetaDrag, .blockedFriction,
        { terms with
          optionEconomicViability := some false
          optionViabilityRationale := engine.dragNotes req rules (req.setup.optionThetaHour.getD 0) })
    else none

def timeStop : Int :=
  if req.isExpiryDay then truncate (rules.activeTimeStopSeconds * engine.expiryDayTimeStopFactor)
  else rules.activeTimeStopSeconds

/-- `_reject`; a constraint of the execution alone leaves the setup to paper and observation. -/
def reject (rejection : RiskRejection) (constraint : Option (RiskExecutionStatus × RiskLevels) := none)
    (terms : OptionTerms := { }) : ValidatedRiskDecision where
  toRiskLevels := (constraint.map Prod.snd).getD { stopLoss := req.setup.rawStructuralStop }
  toOptionTerms := terms
  accepted := false
  rejection := some rejection
  entryPrice := req.setup.entryTrigger
  lots := 0
  quantity := 0
  maxRupeeLoss := 0
  lotSize := engine.lotSize ctx req
  liveExecutable := false
  paperEligible := constraint.isSome
  observationEligible := constraint.isSome
  executionStatus := (constraint.map Prod.fst).getD .safetyBlocked
  liveLots := 0
  hypotheticalPaperLots := if constraint.isSome then 1 else 0
  opportunityScore := some req.setup.confidence |>.filter (· ≠ 0)
  executionScore := 0

def accept : ValidatedRiskDecision where
  toRiskLevels := { req.setup.levels rules with activeTimeStopSeconds := engine.timeStop req rules }
  toOptionTerms :=
    { engine.optionTerms req rules with
      optionEconomicViability := some true
      optionViabilityRationale := engine.viabilityNotes req rules }
  accepted := true
  configVersion := engine.version
  entryPrice := req.setup.entryTrigger
  lots := engine.lots ctx req rules
  quantity := engine.totalQty ctx req rules
  maxRupeeLoss := roundTo 2 (engine.totalQty ctx req rules * engine.optionRiskPerUnit req rules)
  lotSize := engine.lotSize ctx req
  liveExecutable := true
  paperEligible := true
  observationEligible := true
  executionStatus := .liveExecutable
  liveLots := engine.lots ctx req rules
  hypotheticalPaperLots := engine.lots ctx req rules
  opportunityScore := some req.setup.confidence |>.filter (· ≠ 0)
  executionScore := roundTo 1 (req.setup.rrT1 rules * 20)

def evaluateIn : ValidatedRiskDecision :=
  let setup := req.setup
  if setup.rawRisk ≤ 0 then engine.reject ctx req .invalidStopOrientation
  -- a stop beyond the envelope is rejected, never pulled in
  else if rules.maxRiskPts < setup.rawRisk then
    engine.reject ctx req .structuralRiskExceedsEnvelope
      (some (.blockedEnvelope, setup.exceededLevels rules setup.rawRisk))
  else if rules.maxRiskPts < setup.validatedRisk rules then
    engine.reject ctx req .volatilityRiskExceedsEnvelope
      (some (.blockedEnvelope, setup.exceededLevels rules (setup.validatedRisk rules)))
  else if setup.rrT1 rules < rules.minRr then
    engine.reject ctx req .insufficientRr (some (.blockedRr, setup.levels rules))
  else if engine.affordableLots ctx req rules < 1 then
    engine.reject ctx req .insufficientCapitalForOneLot (some (.blockedCapital, setup.levels rules))
      (engine.optionTerms req rules)
  else match engine.lastGate ctx req rules with
    | some (rejection, status, terms) =>
      engine.reject ctx req rejection (some (status, setup.levels rules)) terms
    | none => engine.accept ctx req rules

def envelopeFor : Option RiskEnvelope :=
  engine.resolveEnvelope req.setup.underlying.name (resolveDeskKey req.setup.timeframe req.setup.isScalp)

def evaluate : ValidatedRiskDecision :=
  match req.firstGate ctx with
  | some rejection => engine.reject ctx req rejection
  | none =>
    match engine.envelopeFor req with
    | none => engine.reject ctx req .configMissing
    | some rules => engine.evaluateIn ctx req rules

end CentralRiskEngine

end Droid.Signals
