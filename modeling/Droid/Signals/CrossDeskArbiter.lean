import Droid.Lib.Rounding
import Droid.Lib.Text
import Droid.Positions.Position

/-! Permissions between the scalp desk and the intraday desk. -/
namespace Droid.Signals.CrossDeskArbiter
open Lib Positions

inductive ArbiterAction where
  | allow | suppress | harvestWarning | reduceSize
  deriving DecidableEq, Repr

def activeSignalStates : List String := ["CONFIRMED", "TARGET_1_HIT", "ACTIVE", "PARTIALLY_FILLED"]

def activePositionStates : List String := ["OPEN", "T1_PARTIAL_EXIT", "PARTIALLY_FILLED", "ASSIGNED"]

def indexFamily : List String := ["NIFTY", "BANKNIFTY", "SENSEX"]

def crossIndexBetaHaircut : ℚ := 7 / 10

/-- What a trade has as its position state: nothing, a text, or a member of the enumeration. -/
inductive StateAttr where
  | absent
  | text (s : String)
  | member (state : PositionState)
  deriving DecidableEq, Repr

def StateAttr.str : StateAttr → String
  | .absent => ""
  | .text s => s
  | .member state => "PositionState." ++ state.value

/-- An attribute that `float` may refuse. -/
inductive NumberAttr where
  | absent
  | notNumber
  | number (value : ℚ)
  deriving DecidableEq, Repr

/-- The attributes of a trade. A direction that is none is `None`, one that is missing is empty. -/
structure Trade where
  signalId : String := ""
  underlying : Option String := none
  direction : Option String := some ""
  isScalp : Bool := false
  timeframe : String := "5M"
  fsmState : Option String := none
  positionState : StateAttr := .absent
  rMultiple : NumberAttr := .absent
  unrealizedR : NumberAttr := .absent
  realizedRr : NumberAttr := .absent
  pnlR : NumberAttr := .absent
  deriving DecidableEq, Repr

def isActiveTrade (t : Trade) : Bool :=
  let first := Text.upper (if t.fsmState.getD "" = "" then t.positionState.str else t.fsmState.getD "")
  let st :=
    if first = "" then
      match t.positionState with
      | .member state => Text.upper state.value
      | other => Text.upper other.str
    else first
  decide (st ∈ activeSignalStates ∨ st ∈ activePositionStates)

def tradeRMultiple (t : Trade) : ℚ :=
  ([t.rMultiple, t.unrealizedR, t.realizedRr, t.pnlR].findSome? fun
    | .number value => some value
    | _ => none).getD 0

def isScalpTrade (t : Trade) : Bool := t.isScalp || decide (t.timeframe ∈ ["1M", "3M"])

/-- A conflict that suppresses, with the identifier of the intraday trade and its multiple. -/
inductive Conflict where
  | underwater (direction signalId : String) (r : ℚ)
  | nearBreakeven (signalId : String) (r : ℚ)
  deriving DecidableEq, Repr

inductive Reason where
  | portfolioVeto (rejection : String)
  | betaHaircut (siblings : Nat)
  | noTrades
  | noIntraday
  | crossDeskConflict (conflicts : List Conflict)
  | counterTrend (r : ℚ)
  | mildPullback
  | checkPassed
  | precedence (direction : String) (scalps : List (Option String))
  | both (reason note : Reason)
  deriving DecidableEq, Repr

structure ArbiterDecision where
  action : ArbiterAction := .allow
  passed : Bool := true
  reason : Reason
  suggestedIntradayAction : Option String := none
  sizingMultiplier : ℚ := 1
  deriving DecidableEq, Repr

/-- The candidate, with the rejection of the portfolio ledger where it refuses the trade. -/
structure Candidate where
  isScalp : Bool
  underlying : String
  direction : String
  veto : Option String := none
  deriving DecidableEq, Repr

namespace Candidate
variable (c : Candidate)

def underlyingTrades (trades : List Trade) : List Trade :=
  trades.filter fun t => decide (t.underlying.getD "" = c.underlying) && isActiveTrade t

def sibOpposing (trades : List Trade) : List Trade :=
  if c.underlying ∈ indexFamily then
    trades.filter fun t => decide (t.underlying.getD "" ∈ indexFamily) &&
      decide (t.underlying.getD "" ≠ c.underlying) && isActiveTrade t && decide (t.direction.getD "" ≠ c.direction)
  else []

/-- The variables of the loop over the intraday trades. -/
structure Survey where
  suppressReasons : List Conflict := []
  harvest : Option ArbiterDecision := none
  sizingNote : ℚ := 1

def look (s : Survey) (it : Trade) : Survey :=
  let r := tradeRMultiple it
  if r < 0 then
    if it.direction ≠ some c.direction then
      { s with suppressReasons := s.suppressReasons ++ [.underwater c.direction it.signalId r] }
    else if r < -1 / 2 then { s with sizingNote := min s.sizingNote (3 / 4) }
    else s
  else if 1 ≤ r then
    if it.direction ≠ some c.direction ∧ s.harvest = none then
      { s with
        harvest := some
          { action := .harvestWarning, reason := .counterTrend r,
            suggestedIntradayAction := some "TIGHTEN_STOP_TO_BE", sizingMultiplier := 1 / 2 } }
    else s
  else if it.direction ≠ some c.direction then
    { s with suppressReasons := s.suppressReasons ++ [.nearBreakeven it.signalId r] }
  else s

/-- `_with_beta`, for the opposing positions in sibling indices. -/
def withBeta (siblings : List Trade) (dec : ArbiterDecision) : ArbiterDecision :=
  if siblings ≠ [] ∧ dec.passed then
    let sized := roundTo 2 (dec.sizingMultiplier * crossIndexBetaHaircut)
    { dec with
      sizingMultiplier := sized
      reason := .both dec.reason (.betaHaircut siblings.length)
      action := if dec.action = .allow ∧ sized < 1 then .reduceSize else dec.action }
  else dec

/-- What the intraday trades leave of a scalp. -/
def ofSurvey (siblings : List Trade) (s : Survey) : ArbiterDecision :=
  if s.suppressReasons ≠ [] then
    { action := .suppress, passed := false, reason := .crossDeskConflict s.suppressReasons }
  else match s.harvest with
    | some harvest => withBeta siblings harvest
    | none =>
      if s.sizingNote < 1 then
        withBeta siblings { reason := .mildPullback, sizingMultiplier := s.sizingNote }
      else withBeta siblings { reason := .checkPassed }

def arbitrate (trades : List Trade) : ArbiterDecision :=
  match c.veto with
  | some rejection =>
    { action := .suppress, passed := false, reason := .portfolioVeto rejection, sizingMultiplier := 0 }
  | none =>
    let siblings := c.sibOpposing trades
    let underlyingTrades := c.underlyingTrades trades
    if underlyingTrades = [] then
      if siblings ≠ [] then
        { action := .reduceSize, reason := .betaHaircut siblings.length, sizingMultiplier := crossIndexBetaHaircut }
      else { reason := .noTrades }
    else if c.isScalp then
      let intraday := underlyingTrades.filter fun t => !isScalpTrade t
      if intraday = [] then withBeta siblings { reason := .noIntraday }
      else ofSurvey siblings (intraday.foldl c.look {})
    else
      let opposed := (underlyingTrades.filter isScalpTrade).filter fun t => decide (t.direction ≠ some c.direction)
      if opposed ≠ [] then
        withBeta siblings
          { reason := .precedence c.direction (opposed.map (·.direction))
            suggestedIntradayAction := some "MONITOR_SCALP_EXIT" }
      else withBeta siblings { reason := .checkPassed }

end Candidate
end Droid.Signals.CrossDeskArbiter
