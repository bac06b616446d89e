import Droid.Algo.Positions
import Droid.Lib.Dict

/-! The position manager: what upserts, closes, prices and broker rows make of its positions, and the exit engine's
verdict on one. -/
namespace Droid.Algo
open Lib

/-- `Position`, with the fields that the manager and the exit engine use. -/
structure ManagedPosition where
  accountId : AccountId
  positionId : String
  symbol : String
  underlying : Option String := none
  instrumentId : Option String := none
  side : String
  quantity : Int
  averageEntry : ℚ := 0
  currentPrice : ℚ := 0
  stopPrice : Option ℚ := none
  targetPrice : Option ℚ := none
  trailingStop : Option ℚ := none
  entryTimestamp : Int
  unrealizedPnl : ℚ := 0
  realizedPnl : ℚ := 0
  exitState : ExitState := .none
  isOpen : Bool := true
  updatedAt : Int
  deriving DecidableEq, Repr

namespace ManagedPosition
variable (pos : ManagedPosition)

def orphaned : Bool := pos.exitState = .orphanedAlert

def mult : ℚ := if pos.side = "LONG" then 1 else -1

def refreshPnl (now : Int) : ManagedPosition :=
  if pos.isOpen then
    { pos with
      unrealizedPnl := (pos.currentPrice - pos.averageEntry) * pos.quantity * pos.mult, updatedAt := now }
  else pos

/-- A price that is at the level or beyond it, against the position. -/
def against (level : ℚ) : Bool :=
  if pos.side = "LONG" then pos.currentPrice ≤ level else level ≤ pos.currentPrice

/-- A price that is at the level or beyond it, for the position. -/
def infavor (level : ℚ) : Bool :=
  if pos.side = "LONG" then level ≤ pos.currentPrice else pos.currentPrice ≤ level

/-- A stop of zero is none. -/
def isStopHit : Bool := pos.isOpen && (pos.stopPrice.filter (· ≠ 0)).any pos.against

def isTargetHit : Bool := pos.isOpen && (pos.targetPrice.filter (· ≠ 0)).any pos.infavor

def markClosed (now : Int) (exitPrice : Option ℚ) : ManagedPosition :=
  { pos with
    realizedPnl := exitPrice.elim pos.realizedPnl fun price =>
      pos.realizedPnl + (price - pos.averageEntry) * pos.quantity * pos.mult
    isOpen := false, exitState := .closed, updatedAt := now }

/-- The stop that a price trails to, where it is better than the one in force. -/
def trail (distance price : ℚ) : Option ℚ :=
  if pos.side = "LONG" then
    let newStop := price - distance
    if pos.stopPrice.all (· < newStop) then some newStop else pos.stopPrice
  else
    let newStop := price + distance
    if pos.stopPrice.all (newStop < ·) then some newStop else pos.stopPrice

def updatePrice (now : Int) (price : ℚ) : ManagedPosition :=
  let pos := { pos with currentPrice := price }.refreshPnl now
  match pos.trailingStop with
  | some distance => if pos.isOpen then { pos with stopPrice := pos.trail distance price } else pos
  | none => pos

end ManagedPosition

/-- A broker's row; an entry can be missing. -/
structure BrokerPosition where
  positionId : Option String := none
  symbol : Option String := none
  underlying : Option String := none
  instrumentId : Option String := none
  side : Option String := none
  quantity : Option Int := none
  averagePrice : Option ℚ := none
  ltp : Option ℚ := none
  deriving DecidableEq, Repr

/-- `bp.get("position_id") or bp.get("symbol")`, as a key prints it. -/
def BrokerPosition.pid (bp : BrokerPosition) : String :=
  ((bp.positionId.filter (· ≠ "")).or bp.symbol).getD "None"

/-- The row of a position that the manager has; side, P&L and an earlier close stay. -/
def ManagedPosition.adopt (pos : ManagedPosition) (bp : BrokerPosition) : ManagedPosition :=
  let quantity := bp.quantity.getD pos.quantity
  let pos := { pos with quantity, averageEntry := bp.averagePrice.getD pos.averageEntry }
  if quantity = 0 then { pos with isOpen := false, exitState := .closed } else pos

def BrokerPosition.opened (bp : BrokerPosition) (now : Int) (accountId : AccountId) : ManagedPosition where
  accountId
  positionId := bp.pid
  symbol := bp.symbol.getD bp.pid
  underlying := bp.underlying
  instrumentId := bp.instrumentId
  side := bp.side.getD "LONG"
  quantity := bp.quantity.getD 0
  averageEntry := bp.averagePrice.getD 0
  currentPrice := bp.ltp.getD 0
  entryTimestamp := now
  updatedAt := now

abbrev PositionManager := Dict String ManagedPosition

namespace PositionManager

def key (accountId : AccountId) (positionId : String) : String := accountId ++ ":" ++ positionId

variable (m : PositionManager)

def find (accountId : AccountId) (positionId : String) : Option ManagedPosition := m.get? (key accountId positionId)

/-- `upsert`; an orphaned position stays orphaned. -/
def upsert (now : Int) (pos : ManagedPosition) : PositionManager :=
  let k := key pos.accountId pos.positionId
  let pos := { pos with
    exitState := if (m.get? k).any ManagedPosition.orphaned then .orphanedAlert else pos.exitState }
  m.insert k (pos.refreshPnl now)

def listAll (accountId : AccountId) : List ManagedPosition :=
  (m.entries.filter fun e => (accountId ++ ":").toList <+: e.1.toList).map Prod.snd

def listOpen (accountId : AccountId) : List ManagedPosition := (m.listAll accountId).filter (·.isOpen)

def modify (accountId : AccountId) (positionId : String) (f : ManagedPosition → ManagedPosition) : PositionManager :=
  match m.find accountId positionId with
  | some pos => m.insert (key accountId positionId) (f pos)
  | none => m

def markClosed (now : Int) (accountId : AccountId) (positionId : String) (exitPrice : Option ℚ) : PositionManager :=
  m.modify accountId positionId (·.markClosed now exitPrice)

def updatePrice (now : Int) (accountId : AccountId) (positionId : String) (price : ℚ) : PositionManager :=
  m.modify accountId positionId (·.updatePrice now price)

def syncRow (now : Int) (accountId : AccountId) (m : PositionManager) (bp : BrokerPosition) : PositionManager :=
  match m.find accountId bp.pid with
  | some pos => m.insert (key accountId bp.pid) (pos.adopt bp)
  | none => m.upsert now (bp.opened now accountId)

/-- `sync_from_broker`; open positions that the broker does not list are only logged. -/
def syncFromBroker (now : Int) (accountId : AccountId) (brokerPositions : List BrokerPosition) : PositionManager :=
  brokerPositions.foldl (syncRow now accountId) m

end PositionManager

/-! ### The exit engine -/

inductive ExitTrigger where
  | stopLoss | takeProfit | trailingStop | timeExit | technicalReversal | trendReversal | aiRegimeReversal
  | dailyRiskLimit | endOfSession | brokerFailure | circuitRecovery | emergency
  deriving DecidableEq, Repr

inductive ExitReason where
  | positionAlreadyClosed | orphanedRetry | endOfSessionExit | dailyLossLimitHit | circuitClearedRetry
  | stopHit (stopPrice : Option ℚ) | targetHit (targetPrice : Option ℚ) | maxHoldExceeded
  | technicalReversalSignal | trendReversalSignal | aiRegimeReversal | brokerFailureEmergency
  deriving DecidableEq, Repr

/-- The entries of the context that the engine reads; a missing one is false. -/
structure ExitContext where
  isEndOfSession : Bool := false
  dailyLossHit : Bool := false
  hasCircuit : Bool := false
  maxHoldSeconds : Option ℚ := none
  technicalReversal : Bool := false
  trendReversal : Bool := false
  aiRegimeReversal : Bool := false
  brokerFailure : Bool := false
  deriving DecidableEq, Repr

structure ExitVerdict where
  shouldExit : Bool
  trigger : Option ExitTrigger := none
  reason : Option ExitReason := none
  deriving DecidableEq, Repr

def exitFor (trigger : ExitTrigger) (reason : ExitReason) : ExitVerdict :=
  { shouldExit := true, trigger := some trigger, reason := some reason }

def evaluate (now : Int) (pos : ManagedPosition) (context : ExitContext) : ExitVerdict :=
  if ¬ pos.isOpen then { shouldExit := false, reason := some .positionAlreadyClosed }
  else if pos.orphaned then exitFor .emergency .orphanedRetry
  else if context.isEndOfSession then exitFor .endOfSession .endOfSessionExit
  else if context.dailyLossHit then exitFor .dailyRiskLimit .dailyLossLimitHit
  else if pos.exitState = .exitBlockedByCircuit ∧ ¬ context.hasCircuit then
    exitFor .circuitRecovery .circuitClearedRetry
  else if pos.isStopHit then exitFor .stopLoss (.stopHit pos.stopPrice)
  else if pos.isTargetHit then exitFor .takeProfit (.targetHit pos.targetPrice)
  else if (context.maxHoldSeconds.filter (· ≠ 0)).any (· ≤ ((now - pos.entryTimestamp : Int) : ℚ)) then
    exitFor .timeExit .maxHoldExceeded
  else if context.technicalReversal then exitFor .technicalReversal .technicalReversalSignal
  else if context.trendReversal then exitFor .trendReversal .trendReversalSignal
  else if context.aiRegimeReversal then exitFor .aiRegimeReversal .aiRegimeReversal
  else if context.brokerFailure then exitFor .brokerFailure .brokerFailureEmergency
  else { shouldExit := false }

end Droid.Algo
