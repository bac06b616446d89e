import Droid.Signals.FsmManager

/-! Historical performance attribution over the signals in memory. -/
namespace Droid.Signals
open Lib

/-! ### What a signal counts as -/

/-- The state of a signal and the labels of its outcome, which the tests of the metrics read. -/
structure OutcomeLabels where
  state : SignalFsmState
  status : Option String
  outcome : Option String
  deriving DecidableEq, Repr

namespace OutcomeLabels

def t1 (l : OutcomeLabels) : Bool := l.state = .target1Hit ∨ l.status = some "WIN_T1"

def t2 (l : OutcomeLabels) : Bool := l.state = .target2Hit ∨ l.status = some "WIN_T2"

def sl (l : OutcomeLabels) : Bool := l.state = .stopLossHit ∨ l.status = some "LOSS_SL"

def runnerStopped (l : OutcomeLabels) : Bool :=
  l.state = .runnerTimeStopHit ∨ l.status = some "RUNNER_TIME_STOP"

def runnerTimeStop (l : OutcomeLabels) : Bool := l.runnerStopped ∨ l.outcome = some "PARTIAL_WIN"

def pureTimeStop (l : OutcomeLabels) : Bool :=
  (l.state = .timeStopHit ∨ l.status = some "TIME_STOP" ∨ l.outcome = some "TIME_STOP_LOSS") ∧
    ¬ l.runnerStopped

/-- The test of `_signal_is_win`, which the breakdowns and desks repeat. -/
def isWin (l : OutcomeLabels) : Bool :=
  l.state ∈ [.target1Hit, .target2Hit, .runnerTimeStopHit] ∨
    l.status ∈ [some "WIN_T1", some "WIN_T2", some "RUNNER_TIME_STOP"] ∨
    l.outcome ∈ [some "FULL_WIN", some "PARTIAL_WIN"]

def losing (l : OutcomeLabels) : Bool :=
  l.state ∈ [.stopLossHit, .timeStopHit] ∨ l.status ∈ [some "LOSS_SL", some "TIME_STOP"] ∨
    l.outcome ∈ [some "STOP_LOSS_HIT", some "TIME_STOP_LOSS"]

/-- The test of the strategy and underlying breakdowns. -/
def isLoss (l : OutcomeLabels) : Bool := l.losing ∧ ¬ l.isWin

def deskLoss (l : OutcomeLabels) : Bool := l.losing ∧ ¬ l.runnerStopped

def completed (l : OutcomeLabels) : Bool :=
  l.state ∈ [.target1Hit, .target2Hit, .stopLossHit, .timeStopHit, .runnerTimeStopHit] ∨
    l.status ∈ [some "WIN_T1", some "WIN_T2", some "LOSS_SL", some "TIME_STOP",
      some "RUNNER_TIME_STOP"] ∨
    l.outcome ∈ [some "FULL_WIN", some "PARTIAL_WIN", some "STOP_LOSS_HIT", some "TIME_STOP_LOSS",
      some "BREAKEVEN"]

end OutcomeLabels

namespace SignalInstance

def labels (sig : SignalInstance) : OutcomeLabels where
  state := sig.fsmState
  status := sig.outcomeStatus
  outcome := sig.terminalOutcome

/-! ### The R of a completed trade -/

def targetRef (sig : SignalInstance) : ℚ :=
  (truthy (some (if sig.labels.t2 then sig.riskRewardT2 else sig.riskRewardT1))).getD (3 / 2)

def recordedNetR (sig : SignalInstance) : Option ℚ :=
  sig.realizedRrNet.or (sig.realizedRrGross.or sig.realizedRr)

def expectancyR (sig : SignalInstance) : ℚ :=
  sig.recordedNetR.getD (if sig.labels.isWin then sig.targetRef else -1)

def netR (sig : SignalInstance) : ℚ :=
  sig.recordedNetR.getD (if sig.labels.isWin then sig.targetRef else if sig.labels.sl then -1 else 0)

def grossR (sig : SignalInstance) : ℚ :=
  (sig.realizedRrGross.or sig.realizedRr).getD
    (if sig.labels.isWin then sig.targetRef else if sig.labels.sl then -1 else 0)

end SignalInstance

/-! ### Breakdowns -/

def percentage (part whole : Nat) : ℚ := if 0 < whole then part / whole * 100 else 0

structure BreakdownEntry where
  total : Nat := 0
  wins : Nat := 0
  losses : Nat := 0
  winRate : ℚ := 0
  deriving DecidableEq, Repr

def BreakdownEntry.count (entry : BreakdownEntry) (sig : SignalInstance) : BreakdownEntry :=
  let wins := entry.wins + if sig.labels.isWin then 1 else 0
  let losses := entry.losses + if sig.labels.isLoss then 1 else 0
  { total := entry.total + 1, wins, losses, winRate := roundTo 1 (percentage wins (wins + losses)) }

/-- The strategy and the underlying breakdown. -/
def breakdownBy (key : SignalInstance → String) (sigs : List SignalInstance) : Dict String BreakdownEntry :=
  sigs.foldl (fun b sig => b.insert (key sig) (((b.get? (key sig)).getD { }).count sig)) Dict.empty

structure DeskSummary where
  total : Nat
  completed : Nat
  wins : Nat
  losses : Nat
  winRatePct : ℚ
  deriving DecidableEq, Repr

def calcDesk (subList : List SignalInstance) : DeskSummary :=
  let subW := subList.countP (·.labels.isWin)
  let subL := subList.countP (·.labels.deskLoss)
  { total := subList.length, completed := subW + subL, wins := subW, losses := subL
    winRatePct := roundTo 1 (percentage subW (subW + subL)) }

structure CalibrationBucket where
  total : Nat := 0
  completed : Nat := 0
  wins : Nat := 0
  losses : Nat := 0
  winRatePct : ℚ := 0
  expectancyR : ℚ := 0
  netRSum : ℚ := 0
  deriving DecidableEq, Repr

def bucketKey (confidence : ℚ) : String :=
  if confidence < 75 then "70-75" else if confidence < 80 then "75-80"
  else if confidence < 85 then "80-85" else "85+"

def CalibrationBucket.count (bucket : CalibrationBucket) (sig : SignalInstance) : CalibrationBucket :=
  let bucket := { bucket with total := bucket.total + 1 }
  if sig.labels.completed then
    { bucket with
      completed := bucket.completed + 1
      wins := bucket.wins + if sig.labels.isWin then 1 else 0
      losses := bucket.losses + if sig.labels.isWin then 0 else 1
      netRSum := roundTo 2 (bucket.netRSum + sig.netR) }
  else bucket

def calibrationBucket (sigs : List SignalInstance) (key : String) : CalibrationBucket :=
  let bucket := (sigs.filter fun sig => bucketKey sig.confidence = key).foldl CalibrationBucket.count { }
  { bucket with
    winRatePct := roundTo 1 (percentage bucket.wins bucket.completed)
    expectancyR := if 0 < bucket.completed then roundTo 2 (bucket.netRSum / bucket.completed) else 0 }

/-! ### The metrics -/

structure PerformanceMetrics where
  totalSignals : Nat
  activeSignals : Nat
  completedSignals : Nat
  winningSignals : Nat
  losingSignals : Nat
  expiredSignals : Nat
  winRatePct : ℚ
  confirmationRatePct : ℚ
  expiryRatePct : ℚ
  profitFactor : ℚ
  averageRr : ℚ
  expectancyR : ℚ
  realizedRrGrossSum : ℚ
  realizedRrNetSum : ℚ
  target1Hits : Nat
  target2Hits : Nat
  stopLossHits : Nat
  timeStopHits : Nat
  runnerTimeStopHits : Nat
  fullWins : Nat
  partialWins : Nat
  breakevenHits : Nat
  strategyBreakdown : Dict String BreakdownEntry
  underlyingBreakdown : Dict String BreakdownEntry
  scalpSummary : DeskSummary
  intradaySummary : DeskSummary
  calibrationBuckets : List (String × CalibrationBucket)

def mean (xs : List ℚ) : ℚ := if xs = [] then 0 else xs.sum / xs.length

def profitFactorOf (netRs : List ℚ) : ℚ :=
  let grossProfitR := (netRs.filter (0 < ·)).sum
  let grossLossR := ((netRs.filter (· < 0)).map fun r => |r|).sum
  if 0 < grossLossR then grossProfitR / grossLossR else if 0 < grossProfitR then grossProfitR else 1

def excludedId (signalId : SignalId) : Bool :=
  let lower := signalId.toList.map Char.toLower
  "sig-test-".toList <+: lower ∨ "sig-wallet-".toList <+: lower ∨ "test-".toList <+: lower ∨
    "sig-persist-sanitize".toList <+: lower ∨
    signalId ∈ ["SIG-NIFTY-BKO-01", "SIG-BNF-TRP-02", "SIG-SNX-MRV-03", "SIG-NIFTY-ORB-04"]

def SignalFsmManager.attributed (m : SignalFsmManager) : List SignalInstance :=
  m.signals.values.filter fun sig => ¬ excludedId sig.signalId

def performanceMetrics (sigs : List SignalInstance) : PerformanceMetrics :=
  let t1Hits := sigs.countP (·.labels.t1)
  let t2Hits := sigs.countP (·.labels.t2)
  let slHits := sigs.countP (·.labels.sl)
  let runnerTimeStops := sigs.countP (·.labels.runnerTimeStop)
  let pureTimeStops := sigs.countP (·.labels.pureTimeStop)
  let timeStops := pureTimeStops + runnerTimeStops
  let expired := sigs.countP fun sig => sig.fsmState = .expired ∨ sig.outcomeStatus = some "EXPIRED"
  let completedTrades := (t1Hits + t2Hits) + slHits + timeStops
  let wins := t1Hits + t2Hits + runnerTimeStops
  let losses := slHits + pureTimeStops
  let completed := sigs.filter (·.labels.completed)
  let netRs := completed.map (·.expectancyR)
  { totalSignals := sigs.length
    activeSignals := sigs.countP fun sig =>
      sig.fsmState ∈ [.detected, .validated, .armed, .triggered, .confirmed, .target1Hit]
    completedSignals := completedTrades
    winningSignals := wins
    losingSignals := losses
    expiredSignals := expired
    winRatePct := roundTo 1 (percentage wins completedTrades)
    confirmationRatePct := roundTo 1 (percentage completedTrades sigs.length)
    expiryRatePct := roundTo 1 (percentage expired sigs.length)
    profitFactor := roundTo 2 (profitFactorOf netRs)
    averageRr := roundTo 2 (mean ((completed.filter (·.labels.isWin)).map fun sig =>
      sig.recordedNetR.getD sig.targetRef))
    expectancyR := roundTo 2 (mean netRs)
    realizedRrGrossSum := roundTo 2 (completed.map (·.grossR)).sum
    realizedRrNetSum := roundTo 2 (completed.map (·.netR)).sum
    target1Hits := t1Hits
    target2Hits := t2Hits
    stopLossHits := slHits
    timeStopHits := pureTimeStops
    runnerTimeStopHits := runnerTimeStops
    fullWins := t2Hits
    partialWins := t1Hits + runnerTimeStops
    breakevenHits := sigs.countP fun sig => sig.terminalOutcome = some "BREAKEVEN"
    strategyBreakdown := breakdownBy (·.strategy) sigs
    underlyingBreakdown := breakdownBy (·.underlying) sigs
    scalpSummary := calcDesk (sigs.filter (·.isScalp))
    intradaySummary := calcDesk (sigs.filter fun sig => ¬ sig.isScalp)
    calibrationBuckets := ["70-75", "75-80", "80-85", "85+"].map fun key => (key, calibrationBucket sigs key) }

/-- `get_performance_metrics`, but for the counts of other services. -/
def SignalFsmManager.getPerformanceMetrics (m : SignalFsmManager) : PerformanceMetrics :=
  performanceMetrics m.attributed

end Droid.Signals
