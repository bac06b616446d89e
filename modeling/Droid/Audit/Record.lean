import Droid.Signals.PaperEngine

/-! The record of one audited trade, the statuses it takes and the texts it is given. -/
namespace Droid.Audit
open Lib Signals Paper

structure AuditStateEvent where
  timestampUtc : Int
  fromState : String
  toState : String
  marketPrice : Option ℚ := none
  reason : String := "STATE_UPDATE"
  deriving DecidableEq, Repr

def settledStatuses : List String := ["WON", "LOST", "CLOSED", "VOID"]

def liveStatuses : List String := ["ARMED", "TRIGGERED", "CONFIRMED", "EXECUTED", "TARGET_1_HIT"]

/-- `AUDIT_TO_FSM_STATUS`, with what it does not list left as it is. -/
def auditToFsmStatus (status : String) : String :=
  match status with
  | "EXECUTED" => "CONFIRMED"
  | "WON" => "TARGET_2_HIT"
  | "LOST" => "STOP_LOSS_HIT"
  | "VOID" => "CLOSED"
  | other => other

/-- `AuditTradeRecord`, without the planned levels that no booking reads. -/
structure AuditTradeRecord where
  signalId : SignalId
  underlying : String
  strategy : String := ""
  direction : String
  optionSymbol : Option String := none
  optionType : Option String := none
  optionStrike : Option ℚ := none
  lotSize : Int := 75
  lots : Int := 1
  quantity : Int := 75
  triggerPrice : ℚ := 0
  paperOrderId : Option String := none
  paperSide : Option String := none
  actualFillPrice : Option ℚ := none
  executedAtUtc : Option Int := none
  slippagePoints : Option ℚ := none
  marginUsed : Option ℚ := none
  exitPrice : Option ℚ := none
  exitedAtUtc : Option Int := none
  exitReason : Option String := none
  holdingTimeSeconds : Option Int := none
  holdingTimeStr : Option String := none
  actualPnlInr : Option ℚ := none
  actualPnlPoints : Option ℚ := none
  actualPnlPct : Option ℚ := none
  theoreticalPnlPoints : Option ℚ := none
  theoreticalPnlInr : Option ℚ := none
  currentPrice : Option ℚ := none
  unrealizedPnlInr : Option ℚ := none
  unrealizedPnlPoints : Option ℚ := none
  unrealizedPnlPct : Option ℚ := none
  totalPnlInr : Option ℚ := none
  liveDurationSeconds : Option Int := none
  liveDurationStr : Option String := none
  markSource : Option String := none
  markAgeMs : Option Int := none
  markNote : Option String := none
  economicsUnavailable : Bool := false
  status : String := "ARMED"
  fsmState : Option String := none
  outcomeLabel : Option String := none
  isWinner : Option Bool := none
  stateHistory : List AuditStateEvent := []
  createdAtUtc : Int
  updatedAtUtc : Int
  deriving DecidableEq, Repr

/-! ### Texts -/

/-- A text where its truth is tested: the empty one and null are false. -/
def givenText (text : Option String) : Option String := text.filter (· ≠ "")

/-- Digits, the last one first, with a comma after every third. -/
def commas : List Char → List Char
  | a :: b :: c :: d :: rest => a :: b :: c :: ',' :: commas (d :: rest)
  | digits => digits

/-- An amount with its sign, its thousands apart and two decimals. -/
def signedAmount (x : ℚ) : String :=
  let cents := (roundHalfEven (x * 100)).natAbs
  let whole := String.ofList (commas (Nat.toDigits 10 (cents / 100)).reverse).reverse
  (if x < 0 then "-" else "+") ++ whole ++ "." ++ toString (cents / 10 % 10) ++ toString (cents % 10)

def durationText (seconds : Int) : String :=
  let mins := seconds / 60
  let hrs := mins / 60
  if 0 < hrs then s!"{hrs}h {mins % 60}m {seconds % 60}s" else s!"{mins}m {seconds % 60}s"

namespace AuditTradeRecord
variable (row : AuditTradeRecord)

def settled : Bool := row.status ∈ settledStatuses

def isOption : Bool :=
  (givenText row.optionSymbol).isSome ∨ (givenText row.optionType).isSome ∨ (truthy row.optionStrike).isSome

def isBullish : Bool :=
  (hasText row.direction "CALL" ∨ hasText row.direction "BULLISH") ∧
    ¬ (hasText row.direction "PUT" ∨ hasText row.direction "BEARISH")

def side : String := ((givenText row.paperSide).getD "BUY").toUpper

/-- The buyer of an option, who cannot lose more than the premium. -/
def buysOption : Bool := row.isOption ∧ row.side = "BUY"

/-- The quantity of the trade; without one, that of its lots. -/
def tradeQty : Int := if row.quantity ≠ 0 then row.quantity else row.lots * row.lotSize

def liveDuration (nowMs : Int) : Int :=
  let start := (truthy row.executedAtUtc).getD row.createdAtUtc
  max 1 ((nowMs - start).tdiv 1000)

def append (event : AuditStateEvent) : AuditTradeRecord :=
  { row with stateHistory := row.stateHistory ++ [event], updatedAtUtc := event.timestampUtc }

end AuditTradeRecord

end Droid.Audit
