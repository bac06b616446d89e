import Droid.Lib.Dict
import Droid.Lib.Run

/-! Execution intents, their ledger with its file, and the lookup of duplicates. -/
namespace Droid.Safety
open Lib

inductive IntentState where
  | created | guardPassed | submitted | filled | partiallyFilled | rejected | expired
  | reconciliationRequired
  deriving DecidableEq, Repr

namespace IntentState

def name : IntentState → String
  | .created => "CREATED"
  | .guardPassed => "GUARD_PASSED"
  | .submitted => "SUBMITTED"
  | .filled => "FILLED"
  | .partiallyFilled => "PARTIALLY_FILLED"
  | .rejected => "REJECTED"
  | .expired => "EXPIRED"
  | .reconciliationRequired => "RECONCILIATION_REQUIRED"

def value (s : IntentState) : String := s.name

/-- `str(s)` of a member of a `(str, Enum)` class prints the class with the name. -/
def str (s : IntentState) : String := "IntentState." ++ s.name

end IntentState

def allowedIntentTransitions : IntentState → List IntentState
  | .created => [.guardPassed, .rejected, .expired]
  | .guardPassed => [.submitted, .rejected, .expired, .reconciliationRequired]
  | .submitted => [.filled, .partiallyFilled, .rejected, .reconciliationRequired, .expired]
  | .partiallyFilled => [.filled, .reconciliationRequired]
  | .reconciliationRequired => [.filled, .partiallyFilled, .rejected, .expired]
  | .filled | .rejected | .expired => []

/-- The fields of an intent that the ledger and its transitions use. -/
structure ExecutionIntent where
  executionIntentId : String
  signalId : String
  state : IntentState := .created
  brokerClientOrderId : String := ""
  reconciliationDetails : Dict String String := Dict.empty
  updatedAtUtc : Int

def makeFyersOrderTag (executionIntentId : String) : String :=
  "DRD_" ++ (executionIntentId.take 20).toString

def ExecutionIntent.transitionTo (intent : ExecutionIntent) (newState : IntentState) (reason : String)
    (details : List (String × String)) (nowMs : Int) : ExecutionIntent × Bool :=
  if newState ∉ allowedIntentTransitions intent.state then (intent, false)
  else
    let noted := details.foldl (fun d e => d.insert e.1 e.2) intent.reconciliationDetails
    ({ intent with
      state := newState, updatedAtUtc := nowMs
      reconciliationDetails :=
        if reason = "" then noted else noted.insert "last_transition_reason" reason }, true)

/-- The intents in memory, and those in the file. -/
structure ExecutionIntentLedger where
  intents : Dict String ExecutionIntent := Dict.empty
  file : Dict String ExecutionIntent := Dict.empty

namespace ExecutionIntentLedger

def get (l : ExecutionIntentLedger) (id : String) : Option ExecutionIntent := l.intents.get? id

def persist (l : ExecutionIntentLedger) : ExecutionIntentLedger := { l with file := l.intents }

/-- A known id is answered with the stored intent. -/
def register (l : ExecutionIntentLedger) (intent : ExecutionIntent) :
    ExecutionIntentLedger × ExecutionIntent × Bool :=
  match l.intents.get? intent.executionIntentId with
  | some existing => (l, existing, true)
  | none =>
    let intent :=
      if intent.brokerClientOrderId = "" then
        { intent with brokerClientOrderId := makeFyersOrderTag intent.executionIntentId }
      else intent
    (persist { l with intents := l.intents.insert intent.executionIntentId intent }, intent, false)

/-- `transition_to` of the intent that the ledger holds; the file is left as it is. -/
def transition (l : ExecutionIntentLedger) (id : String) (newState : IntentState) (reason : String)
    (details : List (String × String)) (nowMs : Int) : ExecutionIntentLedger × Bool :=
  match l.intents.get? id with
  | none => (l, false)
  | some intent =>
    let (intent, ok) := intent.transitionTo newState reason details nowMs
    ({ l with intents := l.intents.insert id intent }, ok)

/-- A new process starts from the file. -/
def restore (l : ExecutionIntentLedger) : ExecutionIntentLedger := { l with intents := l.file }

/-- The test of a stored intent for one of the states of a submitted order. -/
def reportsSubmitted (existing : Option ExecutionIntent) : Bool :=
  existing.any fun intent => intent.state.str ∈
    [IntentState.submitted.value, IntentState.filled.value, IntentState.partiallyFilled.value]

def isDuplicateIntent (l : ExecutionIntentLedger) (id : String) : Bool := reportsSubmitted (l.get id)

/-- What `str` prints of a state is no state's value, so that no intent tests as submitted. -/
theorem reportsSubmitted_false (existing : Option ExecutionIntent) : reportsSubmitted existing = false := by
  cases existing with
  | none => rfl
  | some intent =>
    rw [reportsSubmitted, Option.any_some]
    cases intent.state <;> decide

end ExecutionIntentLedger

end Droid.Safety
