import Mathlib.Data.Rat.Floor
import Mathlib.Data.List.Basic

/-! States, transition table, audit entries and the signal record of the signal FSM. -/
namespace Droid.Signals

abbrev SignalId := String

inductive SignalFsmState where
  | detected | preArmed | validated | armed | triggered | confirmed
  | target1Hit | target2Hit | stopLossHit | timeStopHit | runnerTimeStopHit
  | invalidated | expired | closed
  deriving DecidableEq, Repr

def allowedTransitions : SignalFsmState → List SignalFsmState
  | .detected => [.preArmed, .validated, .armed, .invalidated, .expired]
  | .preArmed => [.armed, .triggered, .validated, .expired, .invalidated, .closed]
  | .validated => [.preArmed, .armed, .triggered, .invalidated, .expired]
  | .armed => [.triggered, .expired, .invalidated]
  | .triggered => [.confirmed, .invalidated, .expired]
  | .confirmed =>
    [.target1Hit, .target2Hit, .stopLossHit, .timeStopHit, .invalidated, .expired, .closed]
  | .target1Hit => [.target2Hit, .stopLossHit, .runnerTimeStopHit, .closed]
  | .target2Hit => [.closed]
  | .stopLossHit => [.closed]
  | .timeStopHit => [.closed]
  | .runnerTimeStopHit => [.closed]
  | .invalidated => [.closed]
  | .expired => [.closed]
  | .closed => []

def terminalStates : List SignalFsmState :=
  [.target2Hit, .stopLossHit, .timeStopHit, .runnerTimeStopHit, .invalidated, .expired, .closed]

/-- `FSMTransitionAudit`; `tombstone` is the mark `delete` puts into the guard snapshot. -/
structure TransitionAudit where
  signalId : SignalId
  fromState : SignalFsmState
  toState : SignalFsmState
  marketPrice : Option ℚ := none
  reasonCode : String := "STATE_UPDATE"
  tombstone : Bool := false
  deriving DecidableEq, Repr

/-- The two directions the engine trades; of any other text only whether it
contains CALL or PUT is asked. -/
inductive Direction where
  | longCall | longPut
  | other (namesOption : Bool)
  deriving DecidableEq, Repr

def Direction.namesOption : Direction → Bool
  | .longCall | .longPut => true
  | .other b => b

/-- The entries of a non-empty `option_contract` dictionary that the engine reads. -/
structure OptionContract where
  brokerSymbol : Option String := none
  strike : Option ℚ := none
  optionType : Option String := none
  lotSize : Option Int := none
  deriving DecidableEq, Repr

structure Greeks where
  delta : ℚ := 0
  gamma : ℚ := 0
  deriving DecidableEq, Repr

/-- Age, source and spread of an exit mark, kept beside the costs. -/
structure MarkMeta where
  exitSource : Option String := none
  markAgeMs : Option Int := none
  spreadPts : Option ℚ := none
  spreadPct : Option ℚ := none
  deriving DecidableEq, Repr

/-- `cost_breakdown_r`: the friction of a sale, or of an assignment at expiry. -/
inductive CostBreakdown where
  | friction (brokerage stt txnCharges gst sebiStamp slippageCost totalFriction frictionR
      riskPointsPremium riskInr sttRate : ℚ) (markMeta : MarkMeta)
  | assignment (intrinsicPerShare : ℚ) (quantity : Int) (stt exchange sebi gst total sttExerciseRate
      frictionR : ℚ) (markMeta : MarkMeta)
  deriving DecidableEq, Repr

/-- The entries of a non-empty `paper_order` dictionary that the exits read. -/
structure PaperReceipt where
  symbol : String
  quantity : Int
  deriving DecidableEq, Repr

/-- `SignalInstance`: the fields that the FSM, the cost engine, the exits and the metrics use. -/
structure SignalInstance where
  signalId : SignalId
  underlying : String
  direction : Direction
  spotPrice : ℚ
  entryMin : ℚ
  entryMax : ℚ
  trigger : ℚ
  stopLoss : ℚ
  target1 : ℚ
  target2 : ℚ
  riskRewardT1 : ℚ
  riskRewardT2 : ℚ
  strategy : String := ""
  confidence : ℚ := 0
  fnoDegraded : Bool := false
  optionContract : Option OptionContract := none
  greeks : Option Greeks := none
  isScalp : Bool := false
  initialStopLoss : Option ℚ := none
  currentStopLoss : Option ℚ := none
  riskR : Option ℚ := none
  breakevenActivated : Bool := false
  breakevenTriggerPrice : Option ℚ := none
  breakevenActivationPrice : Option ℚ := none
  timeStopSeconds : Option Int := none
  timeStopAtUtc : Option Int := none
  runnerTimeStopAtUtc : Option Int := none
  runnerTtlSeconds : Option Int := none
  lots : Option Int := none
  quantity : Option Int := none
  t1Price : Option ℚ := none
  t2Price : Option ℚ := none
  t1Hit : Bool := false
  t1FillTimestamp : Option Int := none
  t2Hit : Bool := false
  entryPrice : Option ℚ := none
  actualFillPrice : Option ℚ := none
  remainingQty : ℚ := 0
  intendedQty : ℚ := 0
  t1RealizedQty : Option ℚ := none
  fsmState : SignalFsmState := .detected
  createdAtUtc : Int
  expiresAtUtc : Int
  ttlSeconds : Int := 300
  lastUpdatedUtc : Int
  triggeredAtUtc : Option Int := none
  confirmedAtUtc : Option Int := none
  exitPrice : Option ℚ := none
  realizedRr : Option ℚ := none
  realizedRrGross : Option ℚ := none
  realizedRrNet : Option ℚ := none
  costBreakdownR : Option CostBreakdown := none
  terminalOutcome : Option String := none
  outcomeStatus : Option String := none
  paperOrder : Option PaperReceipt := none
  stateHistory : List TransitionAudit := []
  version : Int := 1
  positionId : Option String := none
  deriving DecidableEq, Repr

/-- A Python number where its truth is tested: zero and null are false. -/
def truthy {α : Type} [DecidableEq α] [OfNat α 0] (x : Option α) : Option α := x.filter (· ≠ 0)

def truncate (x : ℚ) : Int := if 0 ≤ x then ⌊x⌋ else ⌈x⌉

end Droid.Signals
