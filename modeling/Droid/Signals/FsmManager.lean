import Droid.Signals.TransactionCosts
import Droid.Lib.Dict

/-! The pure transition step and the signal manager: register, transition,
breakeven ratchet, sweep and tombstone delete. -/
namespace Droid.Signals
open Lib

inductive TransitionError where
  | notFound
  | versionConflict (version expected : Int)
  | illegal (source target : SignalFsmState)
  | fnoDegraded
  deriving DecidableEq, Repr

/-- What the process reads around a call: the wall clock in milliseconds, the
option marks, and whether the exchange is closed for trading. -/
structure Surroundings where
  now : Int
  marks : OptionMarks := { }
  marketClosed : Bool := false

/-! ### The pure step -/

/-- A spot price for the breakeven stop: a fill on the trigger's scale, else the
first positive price of the entry zone. -/
def spotBeReference (sig : SignalInstance) : Option ℚ :=
  let onScale (v : ℚ) : Bool :=
    0 < v ∧ 0 < sig.trigger ∧ sig.trigger * (1 / 2) < v ∧ v < sig.trigger * (3 / 2)
  match (sig.actualFillPrice.filter onScale).or (sig.entryPrice.filter onScale) with
  | some v => some v
  | none => [sig.entryMin, sig.entryMax, sig.trigger, sig.spotPrice].find? (0 < ·)

/-- State, time and version move first. -/
def SignalInstance.enter (sig : SignalInstance) (now : Int) (target : SignalFsmState) :
    SignalInstance :=
  { sig with fsmState := target, lastUpdatedUtc := now, version := sig.version + 1 }

/-- The holding clock starts at confirmation, unless it is running already. -/
def SignalInstance.confirm (sig : SignalInstance) (now : Int) : SignalInstance :=
  let duration := (truthy sig.timeStopSeconds).getD (if sig.isScalp then 900 else 4500)
  { sig with
    confirmedAtUtc := some now
    timeStopAtUtc := some (sig.timeStopAtUtc.getD (now + duration * 1000)) }

/-- After the first target the runner clock starts and the stop moves to cost. -/
def SignalInstance.startRunner (sig : SignalInstance) (now : Int) : SignalInstance :=
  let sig := { sig with
    t1FillTimestamp := some now
    runnerTimeStopAtUtc := some (now + (truthy sig.runnerTtlSeconds).getD 300 * 1000) }
  if sig.breakevenActivated then sig
  else
    let costRef := (spotBeReference sig).getD sig.stopLoss
    let current := (truthy sig.currentStopLoss).getD sig.stopLoss
    { sig with
      breakevenActivated := true
      currentStopLoss :=
        some (if sig.direction = .longCall then max current costRef else min current costRef) }

def outcomeStates : List SignalFsmState :=
  [.target1Hit, .target2Hit, .stopLossHit, .timeStopHit, .runnerTimeStopHit, .expired, .invalidated]

/-- What the step did: refused and left the signal alone, found it in the target
state already, moved it, or raised with the signal as it then was. -/
inductive StepResult where
  | refused (e : TransitionError)
  | same
  | moved (sig : SignalInstance)
  | raised (sig : SignalInstance)

/-- The timestamps, clocks and outcome fields of the state just entered. -/
def advance (env : Surroundings) (sig : SignalInstance) (target : SignalFsmState)
    (marketPrice : Option ℚ) : StepResult :=
  match target with
  | .triggered => .moved { sig with triggeredAtUtc := some env.now }
  | .confirmed => .moved (sig.confirm env.now)
  | _ =>
    if target ∈ outcomeStates then
      match sig.setattrs (computeTerminalOutcome { } env.marks sig marketPrice target) with
      | (sig, true) => .moved (if target = .target1Hit then sig.startRunner env.now else sig)
      | (sig, false) => .raised sig
    else .moved sig

def applyFsmTransitionPure (env : Surroundings) (sig : SignalInstance) (target : SignalFsmState)
    (marketPrice : Option ℚ) (expectedVersion : Option Int) : StepResult :=
  if expectedVersion.any (· ≠ sig.version) then
    .refused (.versionConflict sig.version (expectedVersion.getD sig.version))
  else if sig.fsmState = target then .same
  else if target ∉ allowedTransitions sig.fsmState then .refused (.illegal sig.fsmState target)
  else if target ∈ [.armed, .triggered, .confirmed] ∧ sig.fnoDegraded then .refused .fnoDegraded
  else advance env (sig.enter env.now target) target marketPrice

/-! ### The manager -/

/-- The key of a settlement intent is hashed from these entries. -/
structure SettlementKey where
  signalId : SignalId
  signalVersion : Int
  terminal : SignalFsmState
  positionId : String
  deriving DecidableEq, Repr

structure SettlementIntent where
  key : SettlementKey
  intendedQuantity : Int
  deriving DecidableEq, Repr

structure SignalFsmManager where
  signals : Dict SignalId SignalInstance := Dict.empty
  auditLog : List TransitionAudit := []
  settlements : List SettlementIntent := []

/-- One more entry in the signal's own history. -/
def SignalInstance.note (sig : SignalInstance) (audit : TransitionAudit) : SignalInstance :=
  { sig with stateHistory := sig.stateHistory ++ [audit] }

namespace SignalFsmManager

def fsmMaxSignalsInMemory : Nat := 200
def fsmMaxAuditLogEntries : Nat := 1000

/-- Store a signal with one more history entry, which the audit log gets as well. -/
def record (m : SignalFsmManager) (id : SignalId) (sig : SignalInstance) (audit : TransitionAudit) :
    SignalFsmManager :=
  { m with
    signals := m.signals.insert id (sig.note audit)
    auditLog := m.auditLog ++ [audit] }

/-- A signal as its builder hands it over: without history. -/
abbrev NewSignal := { sig : SignalInstance // sig.stateHistory = [] }

/-- The levels and clocks `register` fills in. -/
def initialLevels (sig : SignalInstance) : SignalInstance :=
  let entryRef := if 0 < sig.trigger then sig.trigger else sig.spotPrice
  let riskR := |entryRef - sig.stopLoss|
  let step := if riskR = 0 then 1 else riskR * (8 / 10)
  let bePrice := if sig.direction = .longCall then entryRef + step else entryRef - step
  { sig with
    initialStopLoss := some (sig.initialStopLoss.getD sig.stopLoss)
    currentStopLoss := some (sig.currentStopLoss.getD sig.stopLoss)
    t1Price := some (sig.t1Price.getD sig.target1)
    t2Price := some (sig.t2Price.getD sig.target2)
    riskR := some riskR
    breakevenTriggerPrice := some bePrice
    breakevenActivationPrice := some bePrice
    expiresAtUtc :=
      if 0 < sig.ttlSeconds then sig.createdAtUtc + sig.ttlSeconds * 1000 else sig.expiresAtUtc }

/-- A known id is answered with the stored signal; a new one enters the books. -/
def register (m : SignalFsmManager) (new : NewSignal) : SignalFsmManager × SignalInstance :=
  match m.signals.get? new.val.signalId with
  | some existing => (m, existing)
  | none =>
    let sig := initialLevels new.val
    let audit : TransitionAudit :=
      { signalId := sig.signalId, fromState := .detected, toState := sig.fsmState
        marketPrice := some sig.spotPrice, reasonCode := "SIGNAL_REGISTERED" }
    (m.record sig.signalId sig audit, sig.note audit)

inductive TransitionResult where
  | ok
  | refused (e : TransitionError)
  | raised
  deriving DecidableEq, Repr

/-- The key of the intent for the state just entered; a version of zero is taken for one. -/
def settlementKey (id : SignalId) (sig : SignalInstance) (target : SignalFsmState) : SettlementKey :=
  { signalId := id, signalVersion := (truthy (some sig.version)).getD 1, terminal := target
    positionId := sig.positionId.getD "" }

/-- A terminal state enqueues one settlement intent, unless its key is in the ledger. -/
def enqueueSettlement (m : SignalFsmManager) (id : SignalId) (sig : SignalInstance)
    (target : SignalFsmState) : SignalFsmManager :=
  if target ∈ terminalStates ∧ ∀ intent ∈ m.settlements, intent.key ≠ settlementKey id sig target then
    { m with settlements := m.settlements ++
        [{ key := settlementKey id sig target, intendedQuantity := truncate sig.remainingQty }] }
  else m

/-- A raised exception passes through, with the signal as the step left it. -/
def transition (env : Surroundings) (m : SignalFsmManager) (id : SignalId)
    (target : SignalFsmState) (marketPrice : Option ℚ) (reason : String)
    (expectedVersion : Option Int) : SignalFsmManager × TransitionResult :=
  match m.signals.get? id with
  | none => (m, .refused .notFound)
  | some sig =>
    if sig.fsmState = target then (m, .ok)
    else
      match applyFsmTransitionPure env sig target marketPrice expectedVersion with
      | .refused e => (m, .refused e)
      | .same => (m, .ok)
      | .raised sig' => ({ m with signals := m.signals.insert id sig' }, .raised)
      | .moved sig' =>
        let audit : TransitionAudit :=
          { signalId := id, fromState := sig.fsmState, toState := target, marketPrice
            reasonCode := reason }
        ((m.record id sig' audit).enqueueSettlement id sig' target, .ok)

/-- `ratchet_breakeven`: the new stop, when it improves on the current one. -/
def ratchetStop (sig : SignalInstance) (marketPrice : ℚ) : Option ℚ := do
  let costRef ← spotBeReference sig
  if sig.direction = .longCall then
    let newSl := if costRef ≥ marketPrice then marketPrice - 5 / 100 else costRef
    guard (sig.currentStopLoss.all (· < newSl))
    return newSl
  else
    let newSl := if costRef ≤ marketPrice then marketPrice + 5 / 100 else costRef
    guard (sig.currentStopLoss.all (newSl < ·))
    return newSl

def ratchetBreakeven (m : SignalFsmManager) (id : SignalId) (marketPrice : ℚ) :
    SignalFsmManager × Bool :=
  match m.signals.get? id with
  | none => (m, false)
  | some sig =>
    if sig.breakevenActivated ∨ sig.fsmState ∉ [.confirmed, .target1Hit] then (m, false)
    else
      match ratchetStop sig marketPrice with
      | none => (m, false)
      | some newSl =>
        (m.record id { sig with currentStopLoss := some newSl, breakevenActivated := true }
          { signalId := id, fromState := sig.fsmState, toState := sig.fsmState
            marketPrice := some marketPrice, reasonCode := "BREAKEVEN_RATCHET_ACTIVATED" }, true)

/-- `delete`: a signal that may be closed is closed; a CLOSED step is recorded in any case. -/
def delete (env : Surroundings) (m : SignalFsmManager) (id : SignalId) : SignalFsmManager × Bool :=
  match m.signals.get? id with
  | none => (m, false)
  | some sig =>
    let sig' :=
      if sig.fsmState ≠ .closed ∧
          (.closed ∈ allowedTransitions sig.fsmState ∨ sig.fsmState ∈ terminalStates) then
        sig.enter env.now .closed
      else sig
    (m.record id sig'
      { signalId := id, fromState := sig.fsmState, toState := .closed
        marketPrice := some sig.spotPrice, reasonCode := "USER_VOID", tombstone := true }, true)

/-! ### Sweep -/

/-- The day of a timestamp in Indian Standard Time, counted from the epoch. -/
def istDay (ms : Int) : Int := (ms + 19800000) / 86400000

def sweepTarget (env : Surroundings) (nowMs : Int) (sig : SignalInstance) :
    Option (SignalFsmState × String) :=
  let priorDay : Bool := istDay sig.createdAtUtc < istDay nowMs
  let unfilled : Bool := truthy sig.actualFillPrice = none ∧ sig.paperOrder = none
  if sig.fsmState ∈ [.detected, .validated, .armed, .triggered] ∨
      (sig.fsmState = .confirmed ∧ unfilled) then
    if priorDay ∨ env.marketClosed then
      some (.expired, if env.marketClosed then "MARKET_CLOSED" else "PRIOR_DAY_EXPIRED")
    else if (if nowMs = 0 then env.now else nowMs) > sig.expiresAtUtc ∧
        sig.fsmState ∈ [.detected, .validated, .armed] then
      some (.expired, "TTL_EXCEEDED")
    else none
  else if priorDay ∧ sig.fsmState ∈ [.confirmed, .target1Hit] then
    -- an open paper leg is left to the end-of-day settlement
    if sig.paperOrder.isSome ∧ 0 < sig.remainingQty then none
    else some (.closed, "EOD_SESSION_SQUARE_OFF")
  else if sig.fsmState = .target1Hit then
    if env.marketClosed then some (.runnerTimeStopHit, "MARKET_CLOSED_RUNNER_CLOSED")
    else if (truthy sig.runnerTimeStopAtUtc).any (· < nowMs) ∨
        (truthy sig.t1FillTimestamp).any (fun t => nowMs - t > 1800000) then
      some (.runnerTimeStopHit, "RUNNER_TTL_EXCEEDED")
    else none
  else if sig.fsmState = .confirmed ∧ (truthy sig.timeStopAtUtc).any (· < nowMs) then
    some (.timeStopHit, "TIME_STOP_EXCEEDED")
  else none

structure SweepCounts where
  expired : Nat := 0
  runnerStopped : Nat := 0
  pruned : Nat := 0
  deriving DecidableEq, Repr

def sweepOne (env : Surroundings) (nowMs : Int) (acc : SignalFsmManager × SweepCounts)
    (id : SignalId) : SignalFsmManager × SweepCounts :=
  match (acc.1.signals.get? id).bind (sweepTarget env nowMs) with
  | none => acc
  | some (target, reason) =>
    match acc.1.transition env id target none reason none with
    | (m, .ok) =>
      (m, if target = .expired then { acc.2 with expired := acc.2.expired + 1 }
        else { acc.2 with runnerStopped := acc.2.runnerStopped + 1 })
    | (m, _) => (m, acc.2)

def overflowIds (m : SignalFsmManager) : List SignalId :=
  ((m.signals.entries.filter fun e => e.2.fsmState ∈ terminalStates).mergeSort
      fun a b => a.2.lastUpdatedUtc ≤ b.2.lastUpdatedUtc).map Prod.fst |>.take
    (m.signals.size - fsmMaxSignalsInMemory)

def prune (m : SignalFsmManager) : SignalFsmManager :=
  let dropped := m.overflowIds
  { m with
    signals := m.signals.filterKeys fun k => decide (k ∉ dropped)
    auditLog := m.auditLog.drop (m.auditLog.length - fsmMaxAuditLogEntries) }

def sweepLoop (env : Surroundings) (m : SignalFsmManager) (nowMs : Option Int) :
    SignalFsmManager × SweepCounts :=
  (m.signals.entries.map Prod.fst).foldl (sweepOne env (nowMs.getD env.now)) (m, { })

def sweepExpired (env : Surroundings) (m : SignalFsmManager) (nowMs : Option Int) :
    SignalFsmManager × SweepCounts :=
  let swept := m.sweepLoop env nowMs
  (swept.1.prune, { swept.2 with pruned := swept.1.overflowIds.length })

end SignalFsmManager

end Droid.Signals
