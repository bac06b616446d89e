import Droid.Signals.Fsm
import Droid.Lib.Rounding

/-! Realized outcome of a signal that reaches a target, a stop or its expiry. -/
namespace Droid.Signals
open Lib

/-! ### Schedule -/

structure IndianFnoCostSchedule where
  brokeragePerSide : ℚ := 20
  sttSellPct : ℚ := 1 / 1000
  exchangeTxnPct : ℚ := 5 / 10000
  gstPct : ℚ := 18 / 100
  sebiPct : ℚ := 1 / 1000000
  stampPct : ℚ := 3 / 100000
  sttExercisePct : ℚ := 125 / 100000
  slippageFloor : ℚ := 1 / 2
  slippagePct : ℚ := 5 / 1000

/-- The option mark registry: the usable exit price of a symbol, and what is known of its mark. -/
structure OptionMarks where
  usable : String → Option ℚ := fun _ => none
  markMeta : String → MarkMeta := fun _ => { }

def SignalInstance.brokerSymbol (sig : SignalInstance) : Option String :=
  ((sig.optionContract.bind OptionContract.brokerSymbol).map
    fun s => s.trimAscii.toString).filter (· ≠ "")

/-- Premium-domain risk per share. A signal carries no premium stop of its own,
so the delta-gamma projection of the spot risk comes first. -/
def resolvePremiumRiskPoints (sig : SignalInstance) (entryPremium spotRisk : ℚ) : ℚ :=
  let projected : Option ℚ := do
    let g ← sig.greeks
    guard (0 < spotRisk)
    let d := |g.delta|
    guard (5 / 100 ≤ d)
    let proj := max (d * spotRisk / 2) (d * spotRisk - max 0 g.gamma * spotRisk ^ 2 / 2)
    let proj := if 0 < entryPremium then min proj (entryPremium * (9 / 10)) else proj
    guard (0 < proj)
    return proj
  match projected with
  | some proj => proj
  | none =>
    if 0 < spotRisk then spotRisk
    else max 1 (if 0 < entryPremium then entryPremium * (35 / 100) else 20)

/-- Round-trip costs and slippage in units of the risk, with their breakdown. -/
def computeOptionFrictionR (schedule : IndianFnoCostSchedule) (entryPremium exitPremium : ℚ)
    (lots lotSize : Int) (riskPointsPremium : ℚ) (markMeta : MarkMeta) : ℚ × CostBreakdown :=
  let qty : ℚ := (max 1 lots * max 1 lotSize : Int)
  let turnoverEntry := entryPremium * qty
  let turnoverExit := exitPremium * qty
  let brokerage := schedule.brokeragePerSide * 2
  let stt := schedule.sttSellPct * turnoverExit
  let txnCharges := schedule.exchangeTxnPct * (turnoverEntry + turnoverExit)
  let gst := schedule.gstPct * (brokerage + txnCharges)
  let sebiStamp := schedule.sebiPct * turnoverEntry + schedule.stampPct * (turnoverEntry + turnoverExit)
  let slippageCost :=
    max schedule.slippageFloor ((entryPremium + exitPremium) * schedule.slippagePct) * qty
  let total := brokerage + stt + txnCharges + gst + sebiStamp + slippageCost
  let riskInr := max 100 (riskPointsPremium * qty)
  let frictionR := roundTo 4 (total / riskInr)
  (frictionR,
    .friction (roundTo 2 brokerage) (roundTo 2 stt) (roundTo 2 txnCharges) (roundTo 2 gst)
      (roundTo 2 sebiStamp) (roundTo 2 slippageCost) (roundTo 2 total) frictionR
      (roundTo 2 riskPointsPremium) (roundTo 2 riskInr) schedule.sttSellPct markMeta)

/-- Statutory charges of an exercise at intrinsic value, and the total. -/
structure AssignmentFriction where
  stt : ℚ
  exchange : ℚ
  sebi : ℚ
  gst : ℚ
  total : ℚ
  quantity : Int

def computeExpiryAssignmentFriction (schedule : IndianFnoCostSchedule) (intrinsicPerShare : ℚ)
    (lots lotSize : Int) : AssignmentFriction :=
  let quantity := max 1 lots * max 1 lotSize
  let turnover := max 0 intrinsicPerShare * quantity
  let stt := schedule.sttExercisePct * turnover
  let txn := schedule.exchangeTxnPct * turnover
  let sebi := schedule.sebiPct * turnover
  let gst := schedule.gstPct * txn
  { stt := roundTo 2 stt, exchange := roundTo 2 txn, sebi := roundTo 2 sebi, gst := roundTo 2 gst
    total := roundTo 2 (stt + txn + sebi + gst), quantity }

/-- The exit price in the domain of the entry: a usable mark for an option, the
tick itself otherwise. -/
def resolveRealizedExitPremium (marks : OptionMarks) (sig : SignalInstance)
    (marketPrice : Option ℚ) : Option ℚ :=
  if sig.optionContract.isSome ∨ sig.direction.namesOption then
    (sig.brokerSymbol.bind marks.usable).filter (0 < ·)
  else marketPrice

def resolveExitMarkMeta (marks : OptionMarks) (sig : SignalInstance) : MarkMeta :=
  (sig.brokerSymbol.map marks.markMeta).getD { }

def resolveContractLotSize (sig : SignalInstance) : Int :=
  match (sig.optionContract.bind OptionContract.lotSize).filter (0 < ·) with
  | some lot => lot
  | none =>
    match sig.underlying.toUpper with
    | "BANKNIFTY" => 30
    | "SENSEX" => 10
    | _ => 75

/-- Intrinsic value of an expired long option: it needs a strike, a type and a spot. -/
def resolveIntrinsicAtExpiry (sig : SignalInstance) (marketPrice : Option ℚ) : Option ℚ := do
  let c ← sig.optionContract
  let strike := c.strike.getD 0
  let otype := (c.optionType.getD "").toUpper
  guard (0 < strike ∧ (otype = "CE" ∨ otype = "PE"))
  let spot := marketPrice.getD sig.spotPrice
  guard (0 < spot)
  return if otype = "CE" then max 0 (spot - strike) else max 0 (strike - spot)

/-! ### Outcome -/

inductive OutcomeField where
  | exitPrice (v : Option ℚ)
  | t1Hit
  | t2Hit
  | outcomeStatus (v : String)
  | terminalOutcome (v : String)
  | intrinsicPerShare (v : ℚ)
  | realizedRr (v : Option ℚ)
  | realizedRrGross (v : Option ℚ)
  | realizedRrNet (v : Option ℚ)
  | costBreakdownR (v : Option CostBreakdown)
  deriving DecidableEq, Repr

def SignalInstance.entryPremium (sig : SignalInstance) : ℚ :=
  (truthy sig.actualFillPrice).getD ((truthy (some sig.trigger)).getD 100)

def SignalInstance.spotRisk (sig : SignalInstance) : ℚ :=
  |(truthy (some sig.trigger)).getD 100 - (truthy (some sig.stopLoss)).getD 80|

def recordFrictionR (schedule : IndianFnoCostSchedule) (marks : OptionMarks) (sig : SignalInstance)
    (grossR : ℚ) (price : Option ℚ) : List OutcomeField :=
  match (resolveRealizedExitPremium marks sig price).filter (0 < ·) with
  | none => [.realizedRrNet none, .costBreakdownR none]
  | some exitP =>
    let entryP := sig.entryPremium
    let risk := resolvePremiumRiskPoints sig entryP sig.spotRisk
    let (frictionR, breakdown) := computeOptionFrictionR schedule entryP exitP
      ((truthy sig.lots).getD 1) (resolveContractLotSize sig) risk (resolveExitMarkMeta marks sig)
    [.realizedRrNet (some (roundTo 4 (grossR - frictionR))), .costBreakdownR (some breakdown)]

def exitOutcome (schedule : IndianFnoCostSchedule) (marks : OptionMarks) (sig : SignalInstance)
    (marketPrice : Option ℚ) (hit : List OutcomeField) (status outcome : String) (grossR : ℚ)
    (fallback : Option ℚ) : List OutcomeField :=
  [.exitPrice marketPrice] ++ hit ++
    [.outcomeStatus status, .terminalOutcome outcome, .realizedRr (some grossR),
      .realizedRrGross (some grossR)] ++
    recordFrictionR schedule marks sig grossR (marketPrice.or fallback)

/-- The EXPIRED branch: unknown, worthless, or assigned at intrinsic value. -/
def expiryOutcome (schedule : IndianFnoCostSchedule) (marks : OptionMarks) (sig : SignalInstance)
    (marketPrice : Option ℚ) : List OutcomeField :=
  match resolveIntrinsicAtExpiry sig marketPrice with
  | none =>
    [.exitPrice marketPrice, .outcomeStatus "EXPIRED", .terminalOutcome "EXPIRED", .realizedRr none,
      .realizedRrGross none, .realizedRrNet none, .costBreakdownR none]
  | some intrinsic =>
    let entryP := sig.entryPremium
    let risk := resolvePremiumRiskPoints sig entryP sig.spotRisk
    let lots := (truthy sig.lots).getD 1
    let lotSize := resolveContractLotSize sig
    let qty : ℚ := (max 1 (lots * lotSize) : Int)
    let riskInr := max 100 (risk * qty)
    let grossR := if intrinsic ≤ 0 then (if 0 < risk then -(entryP / risk) else -1)
      else (intrinsic - entryP) * qty / riskInr
    let assign := computeExpiryAssignmentFriction schedule (if intrinsic ≤ 0 then 0 else intrinsic)
      lots lotSize
    let frictionR := assign.total / riskInr
    let perShare := if intrinsic ≤ 0 then 0 else roundTo 2 intrinsic
    [.exitPrice marketPrice,
      .outcomeStatus (if intrinsic ≤ 0 then "EXPIRED_OTM" else "EXPIRED_ITM"),
      .terminalOutcome (if intrinsic ≤ 0 then "EXPIRED" else "ASSIGNED"),
      .intrinsicPerShare perShare,
      .realizedRr (some (roundTo 4 grossR)), .realizedRrGross (some (roundTo 4 grossR)),
      .realizedRrNet (some (roundTo 4 (grossR - frictionR))),
      .costBreakdownR (some (.assignment perShare assign.quantity assign.stt assign.exchange
        assign.sebi assign.gst assign.total schedule.sttExercisePct (roundTo 4 frictionR)
        (resolveExitMarkMeta marks sig)))]

/-- `compute_terminal_outcome`: the attribute values in the order they are set. -/
def computeTerminalOutcome (schedule : IndianFnoCostSchedule) (marks : OptionMarks)
    (sig : SignalInstance) (marketPrice : Option ℚ) : SignalFsmState → List OutcomeField
  | .target1Hit => exitOutcome schedule marks sig marketPrice [.t1Hit] "WIN_T1" "PARTIAL_WIN"
      sig.riskRewardT1 (some ((truthy (some sig.target1)).getD 150))
  | .target2Hit => exitOutcome schedule marks sig marketPrice [.t2Hit] "WIN_T2" "FULL_WIN"
      sig.riskRewardT2 (some ((truthy (some sig.target2)).getD 200))
  | .stopLossHit => exitOutcome schedule marks sig marketPrice [] "LOSS_SL"
      (if sig.breakevenActivated then "BREAKEVEN" else "STOP_LOSS_HIT")
      (if sig.breakevenActivated then 0 else -1) (some ((truthy (some sig.stopLoss)).getD 80))
  | .timeStopHit => exitOutcome schedule marks sig marketPrice [] "TIME_STOP" "TIME_STOP_LOSS" 0 none
  | .runnerTimeStopHit => exitOutcome schedule marks sig marketPrice [] "RUNNER_TIME_STOP"
      "PARTIAL_WIN" sig.riskRewardT1 (some ((truthy (some sig.target1)).getD 150))
  | .expired => expiryOutcome schedule marks sig marketPrice
  | .invalidated =>
    [.exitPrice marketPrice, .outcomeStatus "INVALIDATED", .terminalOutcome "INVALIDATED"]
  | _ => [.exitPrice marketPrice]

/-- `setattr`; the model declares no `intrinsic_per_share`, and assigning it raises. -/
def SignalInstance.setattr (sig : SignalInstance) : OutcomeField → Option SignalInstance
  | .exitPrice v => some { sig with exitPrice := v }
  | .t1Hit => some { sig with t1Hit := true }
  | .t2Hit => some { sig with t2Hit := true }
  | .outcomeStatus v => some { sig with outcomeStatus := some v }
  | .terminalOutcome v => some { sig with terminalOutcome := some v }
  | .intrinsicPerShare _ => none
  | .realizedRr v => some { sig with realizedRr := v }
  | .realizedRrGross v => some { sig with realizedRrGross := v }
  | .realizedRrNet v => some { sig with realizedRrNet := v }
  | .costBreakdownR v => some { sig with costBreakdownR := v }

/-- The copying loop: the signal as far as it got, and whether it got to the end. -/
def SignalInstance.setattrs (sig : SignalInstance) : List OutcomeField → SignalInstance × Bool
  | [] => (sig, true)
  | f :: fs =>
    match sig.setattr f with
    | some sig => sig.setattrs fs
    | none => (sig, false)

end Droid.Signals
