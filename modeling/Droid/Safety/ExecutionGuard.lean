import Droid.Safety.DecimalTypes
import Droid.Safety.ExecutionIntent
import Droid.Safety.FeedCircuit
import Droid.Signals.Fsm

/-! The final execution guard: its checks in order, and what a pass means. -/
namespace Droid.Safety
open Lib Signals

/-- The checks, numbered as the source numbers them. -/
inductive GuardCheck where
  | ttlValidity | marketSession | signalActionable | setupValidity
  | contractSpec | priceTickAlignment | quantityStepValidation | slippagePolicy
  | feedHealth | clockDrift | riskApproval | intentOwnership | duplicateOrderGuard
  | persistenceDurability
  deriving DecidableEq, Repr

namespace GuardCheck

def label : GuardCheck → String
  | .ttlValidity => "2_TTL_VALIDITY"
  | .marketSession => "3_MARKET_SESSION"
  | .signalActionable => "4_SIGNAL_ACTIONABLE"
  | .setupValidity => "5_SETUP_VALIDITY"
  | .contractSpec => "6_CONTRACT_SPEC"
  | .priceTickAlignment => "7_PRICE_TICK_ALIGNMENT"
  | .quantityStepValidation => "8_QUANTITY_STEP_VALIDATION"
  | .slippagePolicy => "9_SLIPPAGE_POLICY"
  | .feedHealth => "10_FEED_HEALTH"
  | .clockDrift => "11_CLOCK_DRIFT"
  | .riskApproval => "12_RISK_APPROVAL"
  | .intentOwnership => "13_INTENT_OWNERSHIP"
  | .duplicateOrderGuard => "14_DUPLICATE_ORDER_GUARD"
  | .persistenceDurability => "15_PERSISTENCE_DURABILITY"

def level : GuardCheck → Nat
  | .ttlValidity | .marketSession | .signalActionable | .setupValidity => 1
  | .contractSpec | .priceTickAlignment | .quantityStepValidation | .slippagePolicy => 2
  | .feedHealth | .clockDrift | .riskApproval | .intentOwnership | .duplicateOrderGuard => 3
  | .persistenceDurability => 4

def order : List GuardCheck :=
  [.ttlValidity, .marketSession, .signalActionable, .setupValidity, .contractSpec,
    .priceTickAlignment, .quantityStepValidation, .slippagePolicy, .feedHealth, .clockDrift,
    .riskApproval, .intentOwnership, .duplicateOrderGuard, .persistenceDurability]

theorem mem_order (c : GuardCheck) : c ∈ order := by cases c <;> decide

end GuardCheck

structure ContractSpec where
  tickSize : Option Numeral := none
  minOrderQty : Option Numeral := none
  quantityStep : Option Numeral := none
  lotSize : Option Numeral := none
  deriving DecidableEq, Repr

/-- What the guard reads of a signal. -/
structure GuardedSignal where
  fsmState : SignalFsmState
  expiresAtUtc : Int
  underlying : InstrumentId
  optionContract : Option ContractSpec := none
  executionIntentId : Option String := none
  deriving DecidableEq, Repr

def GuardedSignal.isExpired (signal : GuardedSignal) (nowMs : Int) : Bool :=
  signal.expiresAtUtc < nowMs ∧ signal.fsmState ∈ [.detected, .validated, .armed]

/-- What the guard takes from the feed health monitor. -/
structure Telemetry where
  isOpen : Bool
  status : Option String
  deriving DecidableEq, Repr

/-- The surroundings of one evaluation; the monitor is absent when it raises, and the drift of the
event clock when there is none. -/
structure GuardEnv where
  nowMs : Int
  feedMonitor : Option Telemetry
  circuit : FeedCircuitBreaker
  clockDriftMs : Option ℚ := none
  ledger : ExecutionIntentLedger := { }

/-- The arguments of `final_execution_guard`; an empty specification or id counts as absent. -/
structure GuardArgs where
  signal : GuardedSignal
  executionIntentId : Option String := none
  orderPrice : Option Numeral := none
  orderQuantity : Option Numeral := none
  latestPrice : Option Numeral := none
  feedHealth : Option String := none
  marketSessionState : Option String := none
  contractSpec : Option ContractSpec := none
  maxSlippagePct : ℚ := 1 / 2
  riskApproved : Bool := false
  riskStale : Bool := false
  hasDuplicateOrder : Bool := false
  setupInvalidated : Bool := false
  clockDriftMs : Option ℚ := none
  maxClockDriftMs : ℚ := 2000
  allowClosedMarket : Bool := false
  auditAvailable : Bool := false
  dbAvailable : Bool := false
  deriving DecidableEq, Repr

structure GuardCheckResult where
  passed : Bool
  failedCheck : Option GuardCheck := none
  checksEvaluated : List GuardCheck
  deriving DecidableEq, Repr

namespace GuardArgs
variable (env : GuardEnv) (args : GuardArgs)

/-- The session as given, else as the monitor tells it; without the monitor it is closed. -/
def effectiveSession : String :=
  match args.marketSessionState with
  | some session => session
  | none => if env.feedMonitor.any (·.isOpen) then "OPEN" else "CLOSED"

def resolvedSpec : Option ContractSpec := args.contractSpec.or args.signal.optionContract

def tickSize (spec : ContractSpec) : Numeral := spec.tickSize.getD (.text ⟨5, -2⟩)

/-- The strict reading of a price that is not a float. -/
def orderDecimal (price : Numeral) : Option Decimal := if price.isFloat then price.D else price.DStrict

/-- Check 7: a price is its own rounding to ticks; what raises fails. -/
def priceAligned (spec : ContractSpec) : Bool :=
  args.orderPrice.all fun price =>
    ((orderDecimal price).bind fun op =>
      ((tickSize spec).D.bind (normalizePriceToTick op.value)).map fun quantized =>
        decide (op.value = quantized)).getD false

def quantityValid (spec : ContractSpec) : Bool :=
  args.orderQuantity.all fun quantity =>
    validateQuantity quantity (spec.minOrderQty.getD (.text ⟨1, 0⟩))
      (spec.quantityStep.getD (.text ⟨1, 0⟩)) spec.lotSize = some .valid

/-- The slippage against an order price, in percent. -/
def slippagePct (latest order : ℚ) : ℚ :=
  Decimal.toPrecision prec
    (Decimal.toPrecision prec (|Decimal.toPrecision prec (latest - order)| / order) * 100)

/-- Check 9: only a positive order price has slippage; what raises fails. -/
def slippageOk : Bool :=
  match args.latestPrice, args.orderPrice with
  | some latest, some order =>
    match latest.D, order.D with
    | some lp, some op => op.value ≤ 0 ∨ slippagePct lp.value op.value ≤ args.maxSlippagePct
    | _, _ => false
  | _, _ => true

/-- The feed health as given, else as the monitor's status maps to it; `none` is left to the circuit. -/
def reportedFeed : Option String :=
  match args.feedHealth with
  | some health => some health
  | none =>
    match env.feedMonitor with
    | none => some "UNKNOWN"
    | some tel =>
      let status := (tel.status.filter (· ≠ "")).getD "UNKNOWN"
      if status = "LIVE" then some "HEALTHY"
      else if status ∈ ["CLOSED", "AUTH_REQUIRED", "CHAIN_UNAVAILABLE", "SYNCING"] then none
      else some status

/-- A degraded circuit of the instrument overrides every report. -/
def effectiveFeed : String :=
  if env.circuit.isDegraded args.signal.underlying then "FEED_DEGRADED"
  else (args.reportedFeed env).getD "HEALTHY"

def blockingFeeds : List String := ["FEED_DEGRADED", "UNKNOWN", "STALE", "DOWN", "RECOVERING"]

/-- The drift as given, else of the event clock; a missing one is tolerated. -/
def effectiveDrift : ℚ := (args.clockDriftMs.or env.clockDriftMs).getD 0

/-- The intent id where the source tests its truth. -/
def intentId : Option String := args.executionIntentId.filter (· ≠ "")

def ownsIntent : Bool :=
  match args.signal.executionIntentId.filter (· ≠ ""), args.intentId with
  | some own, some id => own = id
  | _, _ => true

def duplicate : Bool :=
  args.hasDuplicateOrder || args.intentId.any fun id =>
    ExecutionIntentLedger.reportsSubmitted (env.ledger.get id)

/-- Whether a check lets the order through. -/
def passes : GuardCheck → Bool
  | .ttlValidity => !args.signal.isExpired env.nowMs
  | .marketSession => args.allowClosedMarket || args.effectiveSession env = "OPEN"
  | .signalActionable => args.signal.fsmState ∈ [.armed, .triggered, .confirmed]
  | .setupValidity => !args.setupInvalidated
  | .contractSpec => args.resolvedSpec.isSome
  | .priceTickAlignment => args.resolvedSpec.all args.priceAligned
  | .quantityStepValidation => args.resolvedSpec.all args.quantityValid
  | .slippagePolicy => args.slippageOk
  | .feedHealth => args.effectiveFeed env ∉ blockingFeeds
  | .clockDrift => |args.effectiveDrift env| ≤ args.maxClockDriftMs
  | .riskApproval => args.riskApproved && !args.riskStale
  | .intentOwnership => args.ownsIntent
  | .duplicateOrderGuard => !args.duplicate env
  | .persistenceDurability => args.auditAvailable && args.dbAvailable

end GuardArgs

def finalExecutionGuard (env : GuardEnv) (args : GuardArgs) : GuardCheckResult :=
  match GuardCheck.order.find? fun c => !args.passes env c with
  | none => { passed := true, checksEvaluated := GuardCheck.order }
  | some c =>
    { passed := false, failedCheck := some c
      checksEvaluated := GuardCheck.order.takeWhile (· ≠ c) ++ [c] }

theorem guard_passed_iff (env : GuardEnv) (args : GuardArgs) :
    (finalExecutionGuard env args).passed = true ↔ ∀ c, args.passes env c = true := by
  rw [finalExecutionGuard]
  cases hfind : GuardCheck.order.find? fun c => !args.passes env c with
  | none =>
    refine iff_of_true rfl fun c => ?_
    have hc := List.find?_eq_none.mp hfind c c.mem_order
    simpa using hc
  | some c =>
    refine iff_of_false Bool.false_ne_true fun hall => ?_
    have hc := List.find?_some hfind
    rw [hall c] at hc
    cases hc

end Droid.Safety
