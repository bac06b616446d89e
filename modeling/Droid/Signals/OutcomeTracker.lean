import Droid.Signals.PaperEngine

/-! The outcome tracker: what a tick means for a signal, and what one price update does. -/
namespace Droid.Signals
open Lib Paper

/-! ### Tick evaluation -/

/-- What a tick asks for: a state, or the breakeven ratchet. -/
inductive TickAction where
  | enter (target : SignalFsmState)
  | breakeven
  deriving DecidableEq, Repr

def SignalInstance.reached (sig : SignalInstance) (price level : ℚ) : Bool :=
  (sig.direction = .longCall ∧ price ≥ level) ∨ (sig.direction = .longPut ∧ price ≤ level)

def SignalInstance.stopped (sig : SignalInstance) (price : ℚ) : Bool :=
  let level := (truthy sig.currentStopLoss).getD sig.stopLoss
  (sig.direction = .longCall ∧ price ≤ level) ∨ (sig.direction = .longPut ∧ price ≥ level)

def SignalInstance.breakevenDue (sig : SignalInstance) (price : ℚ) : Bool :=
  ¬ sig.breakevenActivated ∧
    ((truthy sig.breakevenTriggerPrice).or (truthy sig.breakevenActivationPrice)).any (sig.reached price)

/-- `evaluate_tick`: the stop first, then the target of the state, its time stop, and breakeven. -/
def evaluateTick (sig : SignalInstance) (price : ℚ) (ts : Int) : Option TickAction :=
  let after (target : ℚ) (hit : SignalFsmState) (clock : Option Int) (timeStop : SignalFsmState) :
      Option TickAction :=
    if sig.reached price target then some (.enter hit)
    else if (truthy clock).any (· < ts) then some (.enter timeStop)
    else if sig.breakevenDue price then some .breakeven
    else none
  if price ≤ 0 then none
  else if sig.stopped price then some (.enter .stopLossHit)
  else if sig.fsmState = .target1Hit then
    after ((truthy sig.t2Price).getD sig.target2) .target2Hit sig.runnerTimeStopAtUtc .runnerTimeStopHit
  else if sig.fsmState = .confirmed then
    after ((truthy sig.t1Price).getD sig.target1) .target1Hit sig.timeStopAtUtc .timeStopHit
  else none

/-- The name a state goes by in reasons and keys. -/
def SignalFsmState.label : SignalFsmState → String
  | .detected => "DETECTED"
  | .preArmed => "PRE_ARMED"
  | .validated => "VALIDATED"
  | .armed => "ARMED"
  | .triggered => "TRIGGERED"
  | .confirmed => "CONFIRMED"
  | .target1Hit => "TARGET_1_HIT"
  | .target2Hit => "TARGET_2_HIT"
  | .stopLossHit => "STOP_LOSS_HIT"
  | .timeStopHit => "TIME_STOP_HIT"
  | .runnerTimeStopHit => "RUNNER_TIME_STOP_HIT"
  | .invalidated => "INVALIDATED"
  | .expired => "EXPIRED"
  | .closed => "CLOSED"

def TickAction.label : TickAction → String
  | .enter target => target.label
  | .breakeven => "BE_ACTIVATED"

/-! ### One signal of an update -/

/-- One price update as one signal's turn meets it: the price and its timestamp, the clock and
the option marks, the paper service's conditions, what the entry checks allow, and which keys
of this signal and timestamp were processed already. -/
structure Tick where
  price : ℚ
  ts : Int
  env : Surroundings
  cond : Conditions
  ticket : Option Ticket := none
  paperEligible : Bool := true
  duplicate : String → Bool := fun _ => false

def exitMark (marks : OptionMarks) (sig : SignalInstance) : Option ℚ :=
  (((sig.optionContract.bind (·.brokerSymbol)).map strip).filter (· ≠ "")).bind marks.usable

/-- A sweep took the signal to a time stop while it still held paper units. -/
def SignalInstance.preEmpted (sig : SignalInstance) : Bool :=
  sig.fsmState ∈ [.runnerTimeStopHit, .timeStopHit] ∧ sig.paperOrder.isSome ∧ 0 < sig.remainingQty

/-- What a turn of the update does with a signal. -/
inductive TurnKind where
  | skip
  | entry
  | fullyBooked
  | breakeven
  | target1
  | final (target : SignalFsmState)
  deriving DecidableEq, Repr

def skippedStates : List SignalFsmState :=
  [.target2Hit, .stopLossHit, .timeStopHit, .runnerTimeStopHit, .closed, .expired, .invalidated]

def turnOf (tick : Tick) (sig : SignalInstance) : TurnKind :=
  if sig.outcomeStatus.isSome ∧ sig.fsmState ≠ .target1Hit ∧ ¬ sig.preEmpted then .skip
  else if sig.fsmState ∈ skippedStates ∧ ¬ sig.preEmpted then .skip
  else if sig.fsmState ∈ [.validated, .armed] then
    if sig.reached tick.price sig.trigger ∧ ¬ tick.duplicate "TRIGGERED" then .entry else .skip
  else if sig.fsmState ∈ [.confirmed, .target1Hit] ∨ sig.preEmpted then
    if sig.fsmState = .target1Hit ∧ sig.t1Hit ∧ 0 < sig.intendedQty ∧ sig.remainingQty ≤ 0 then .fullyBooked
    else
      match if sig.preEmpted then some (.enter sig.fsmState) else evaluateTick sig tick.price tick.ts with
      | none => .skip
      | some action =>
        if tick.duplicate action.label then .skip
        else
          match action with
          | .breakeven => .breakeven
          | .enter .target1Hit => .target1
          | .enter target => .final target
  else .skip

/-- The fill a successful entry reports. -/
def ExecutionResult.fill? : ExecutionResult → Option (ℚ × Int)
  | .refused => none
  | .replayed fillPrice quantity | .executed fillPrice quantity => some (fillPrice, quantity)

namespace Desk

/-- A turn that raised ends the whole update, with the desk as it then is. -/
def unlessRaised : Desk × SignalFsmManager.TransitionResult → Except Desk Desk
  | (d, .raised) => .error d
  | (d, _) => .ok d

/-- `reconcile_entry` as the tracker calls it after a successful entry. -/
def registerFill (now : Int) (d : Desk) (id : SignalId) (fillPrice : ℚ) (quantity : Int) : Desk :=
  match d.signal? id with
  | none => d
  | some sig =>
    let res := reconcileEntry now sig fillPrice quantity
      (some ((sig.optionContract.bind (·.lotSize)).getD 75))
    d.setRecord id (res.1, res.2.1)

def trigger (tick : Tick) (d : Desk) (id : SignalId) : Desk × SignalFsmManager.TransitionResult :=
  d.transition tick.env id .triggered (some tick.price) "TRIGGER_LEVEL_HIT"

/-- The paper entry of a trigger; a signal that is not eligible has none. -/
def attemptEntry (tick : Tick) (d : Desk) (id : SignalId) : Desk × ExecutionResult :=
  if tick.paperEligible then d.executeSignal tick.env tick.cond id tick.ticket else (d, .refused)

/-- A trigger: TRIGGERED, the paper entry, then CONFIRMED or INVALIDATED. -/
def enterPosition (tick : Tick) (d : Desk) (id : SignalId) : Except Desk Desk :=
  match d.trigger tick id with
  | (d, .raised) => .error d
  | (d, .refused e) =>
    if e = .fnoDegraded then
      unlessRaised (d.transition tick.env id .invalidated (some tick.price) "FNO_DATA_DEGRADED_CANNOT_ARM")
    else .ok d
  | (d, .ok) =>
    let (d, res) := d.attemptEntry tick id
    match res.fill? with
    | none => unlessRaised (d.transition tick.env id .invalidated (some tick.price) "EXECUTION_FAILED")
    | some (fillPrice, quantity) =>
      if tick.duplicate "CONFIRMED" then .ok d
      else
        match d.transition tick.env id .confirmed (some tick.price) "ENTRY_CONFIRMED" with
        | (d, .raised) => .error d
        | (d, _) => .ok (d.registerFill tick.env.now id fillPrice quantity)

/-- What the staged exit asks the paper engine for. -/
def target1Request (mark : ℚ) (t1Qty : Int) : CloseRequest where
  exitPrice := some mark
  reason := "TARGET_1_HIT"
  quantityToClose := some t1Qty

/-- The staged exit: the reconciler books, and then the paper exit is tried; what comes of it
is not looked at. Without a mark neither happens. -/
def bookTarget1 (tick : Tick) (d : Desk) (mark : Option ℚ) (id : SignalId) : Desk :=
  match mark, d.signal? id with
  | some mark, some sig =>
    let res := reconcileT1Exit tick.ts sig (d.reconciler.get? id) mark
    ((d.setRecord id res).closeSignalPosition tick.env tick.cond id (target1Request mark res.2.t1Qty)).1
  | _, _ => d

/-- The first target: the state moves before anything is booked. -/
def takeTarget1 (tick : Tick) (mark : Option ℚ) (d : Desk) (id : SignalId) : Except Desk Desk :=
  match d.transition tick.env id .target1Hit (some tick.price) "TARGET_1_ACHIEVED" with
  | (d, .raised) => .error d
  | (d, _) => .ok (d.bookTarget1 tick mark id)

def reconcileFinal (ts : Int) (d : Desk) (id : SignalId) (mark : Option ℚ) (reason : String) : Desk :=
  match mark, d.signal? id with
  | some mark, some sig => d.setRecord id (reconcileFinalExit ts sig (d.reconciler.get? id) mark reason)
  | _, _ => d

/-- The final exit: the position is closed first; only a settled close is reconciled and
moves the state. The ledger sync after it rewrites the result of the settled row only. -/
def takeFinal (tick : Tick) (mark : Option ℚ) (d : Desk) (id : SignalId) (target : SignalFsmState) :
    Except Desk Desk :=
  match d.closeSignalPosition tick.env tick.cond id { exitPrice := mark, reason := target.label } with
  | (d, .audited _) =>
    unlessRaised ((d.reconcileFinal tick.ts id mark target.label).transition tick.env id target
      (some tick.price) (target.label ++ "_TRIGGERED"))
  | (d, _) => .ok d

def visit (tick : Tick) (d : Desk) (id : SignalId) : Except Desk Desk :=
  match d.signal? id with
  | none => .ok d
  | some sig =>
    match turnOf tick sig with
    | .skip => .ok d
    | .entry => d.enterPosition tick id
    | .fullyBooked =>
      unlessRaised (d.transition tick.env id .closed (some tick.price) "T1_FULLY_BOOKED_NO_RUNNER")
    | .breakeven => .ok { d with fsm := (d.fsm.ratchetBreakeven id tick.price).1 }
    | .target1 => d.takeTarget1 tick (exitMark tick.env.marks sig) id
    | .final target => d.takeFinal tick (exitMark tick.env.marks sig) id target

/-! ### The update -/

/-- One turn of the sweep; an exception is swallowed. -/
def sweepOne (env : Surroundings) (d : Desk) (id : SignalId) : Desk :=
  match (d.signal? id).bind (SignalFsmManager.sweepTarget env env.now) with
  | none => d
  | some (target, reason) => (d.transition env id target none reason).1

def sweepExpired (env : Surroundings) (d : Desk) : Desk :=
  let d := (d.fsm.signals.entries.map Prod.fst).foldl (sweepOne env) d
  { d with fsm := d.fsm.prune }

def stateOrder : SignalFsmState → Nat
  | .confirmed => 0
  | .target1Hit => 1
  | .triggered => 2
  | .armed => 3
  | .validated => 4
  | .detected => 5
  | .target2Hit => 6
  | .stopLossHit => 7
  | .timeStopHit => 8
  | .runnerTimeStopHit => 9
  | .expired => 10
  | .invalidated => 11
  | .closed => 12
  | .preArmed => 99

def listActive (d : Desk) (underlying : String) : List SignalId :=
  ((d.fsm.signals.entries.filter fun e => e.2.underlying = underlying.toUpper).mergeSort fun a b =>
    stateOrder a.2.fsmState < stateOrder b.2.fsmState ∨
      (stateOrder a.2.fsmState = stateOrder b.2.fsmState ∧ b.2.createdAtUtc ≤ a.2.createdAtUtc)).map Prod.fst

def visitAll (tick : SignalId → Tick) : List SignalId → Desk → Desk
  | [], d => d
  | id :: ids, d =>
    match d.visit (tick id) id with
    | .ok d => visitAll tick ids d
    | .error d => d

/-- `process_price_update_async`: nothing in a closed session or at a price that is none; else
the sweep, then the signals of the underlying in turn, each as its turn meets the update. -/
def processPriceUpdate (env : Surroundings) (d : Desk) (underlying : String) (price : ℚ)
    (allowClosedMarket : Bool) (tick : SignalId → Tick) : Desk :=
  if (env.marketClosed ∧ ¬ allowClosedMarket) ∨ price ≤ 0 then d
  else
    let d := d.sweepExpired env
    visitAll (fun id => { tick id with price }) (d.listActive underlying) d

end Desk

end Droid.Signals
