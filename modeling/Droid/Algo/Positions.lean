import Droid.Algo.OrderManager
import Droid.Lib.Run

/-! The exit engine, and which adapter live orders and exits reach. -/
namespace Droid.Algo
open Lib

inductive ExitState where
  | none | exitTriggered | exitSubmitted | exitPartiallyFilled | exitFilled | exitRejected
  | exitBlockedByCircuit | exitNetworkUnknown | exitRetrying | orphanedAlert | closed
  deriving DecidableEq, Repr

structure Position where
  accountId : AccountId
  symbol : String
  instrumentId : Option String
  side : String
  quantity : Int
  currentPrice : ℚ
  exitState : ExitState
  deriving Repr

structure PositionRow where
  accountId : AccountId
  symbol : String
  instrumentId : Option String
  side : String
  quantity : Int
  averageEntry : Option ℚ
  currentPrice : Option ℚ
  exitState : ExitState
  isOpen : Bool
  deriving Repr

/-- `D(row.current_price or row.average_entry or 0)`; a zero price is false. -/
def PositionRow.price (row : PositionRow) : ℚ :=
  ((row.currentPrice.filter (· ≠ 0)).or row.averageEntry).getD 0

def PositionRow.position (row : PositionRow) : Position where
  accountId := row.accountId
  symbol := row.symbol
  instrumentId := row.instrumentId
  side := row.side
  quantity := row.quantity
  currentPrice := row.price
  exitState := row.exitState

/-- What an exit left behind: `status` is the status it reports, absent when the
awaiting task was cancelled. -/
structure ExitOutcome where
  manager : OrderManager
  position : Position
  status : Option (OrderStatus ⊕ ExitState)
  calls : List (Adapter × BrokerCall) := []

def exitStateOf : OrderStatus → ExitState
  | .filled => .exitFilled
  | .partiallyFilled => .exitPartiallyFilled
  | .rejected => .exitRejected
  | .unknown => .exitNetworkUnknown
  | .timedOut | .reconciling => .exitRetrying
  | _ => .exitSubmitted

/-- The intent `trigger_exit` places; the client id is left to `create_intent`. -/
def Position.exitIntent (pos : Position) (isEmergency : Bool) : IntentArgs where
  accountId := pos.accountId
  symbol := pos.symbol
  side := if pos.side = "LONG" then "SELL" else "BUY"
  quantity := pos.quantity
  price := some pos.currentPrice
  orderType := if isEmergency then "MARKET" else "MARKETABLE_LIMIT"
  instrumentId := pos.instrumentId
  expectedPrice := some pos.currentPrice
  isPaper := true

/-- `ExitEngine.trigger_exit`; the text of a refused submission names the order's
status, and an error text with "circuit" in it is taken for a circuit block. -/
def triggerExit (reg : BrokerRegistry) (m : OrderManager) (pos : Position) (isEmergency : Bool)
    (fresh : Uuid) (answer : Answer) : ExitOutcome :=
  let (manager, ref) := m.createIntent (pos.exitIntent isEmergency) fresh
  match manager.records[ref]? with
  | none => { manager, position := { pos with exitState := .exitTriggered }, status := none }
  | some record =>
    match submitBegin reg record with
    | .error _ =>
      let exitState := if record.status = .exitBlockedByCircuit then .exitBlockedByCircuit
        else .exitNetworkUnknown
      { manager, position := { pos with exitState }, status := some (.inr exitState) }
    | .ok t =>
      let t := submitEnd t answer
      let manager := { manager with records := manager.records.set ref t.record }
      if answer = .aborted then
        { manager, position := { pos with exitState := .exitSubmitted }, status := none
          calls := t.calls }
      else
        { manager, position := { pos with exitState := exitStateOf t.record.status }
          status := some (.inl t.record.status), calls := t.calls }

/-- `AlgoOrderService.exit_position` on the row found for the account; `none`
when there is no open row. A cancelled task commits nothing. -/
def exitPosition (reg : BrokerRegistry) (m : OrderManager) (row : Option PositionRow)
    (isEmergency : Bool) (fresh : Uuid) (answer : Answer) : Option (PositionRow × ExitOutcome) :=
  match row with
  | none => none
  | some row =>
    if row.isOpen then
      let outcome := triggerExit reg m row.position isEmergency fresh answer
      match outcome.status with
      | none => some (row, outcome)
      | some status =>
        if status = .inl .filled then
          some ({ row with isOpen := false, exitState := .closed }, outcome)
        else some ({ row with exitState := outcome.position.exitState }, outcome)
    else none

/-! ### Routing -/

/-- The three operations pass no provider, so the registry answers with its simulator. -/
@[simp] theorem BrokerRegistry.get_none (reg : BrokerRegistry) (paper : Bool) :
    reg.get none paper = .paperSimulator := rfl

/-- No simulator is called, and a FILLED status comes only from the answer of a
registered adapter. -/
structure LiveOnly (reg : BrokerRegistry) (p : OrderProcess) (e : OrderEvent) : Prop where
  calls : ∀ c ∈ (p.trace reg e).calls, c.1 ≠ .paperSimulator
  fills : ∀ i answer, e = .answer i answer → OrderStatus.filled ∈ (p.trace reg e).writes →
    ∃ a provider, p.awaiting[i]? = some (a, .registered provider)

def ReachesNoBroker (p : OrderProcess) : OrderEvent → Prop
  | .call .submit => ¬ p.record.status.submittable
  | .call .reconcile => p.record.status.unresolved → p.record.brokerId = none
  | .call .cancel => p.record.brokerId = none
  | .transition _ _ | .answer _ _ => True

theorem begin_calls (reg : BrokerRegistry) (p : OrderProcess) (a : Awaiting) :
    (ReachesNoBroker p (.call a) ∧ (a.begin reg p.record).calls = []) ∨
      (¬ ReachesNoBroker p (.call a) ∧
        ∃ c, (a.begin reg p.record).calls = [(.paperSimulator, c)]) := by
  cases a with
  | submit =>
    rw [submitBegin_eq, ReachesNoBroker]
    by_cases h : p.record.status.submittable <;> simp [h]
  | reconcile =>
    simp only [Awaiting.begin, reconcileBegin, ReachesNoBroker]
    by_cases hu : p.record.status.unresolved
    · cases hb : p.record.brokerId <;> simp [hu]
    · simp [hu]
  | cancel =>
    simp only [Awaiting.begin, cancelBegin, ReachesNoBroker]
    cases hb : p.record.brokerId <;> simp

/-- An order none of whose calls is in flight meets the property just when the event
reaches no broker. -/
theorem liveOnly_iff {reg : BrokerRegistry} {p : OrderProcess} (hp : p.awaiting = [])
    (e : OrderEvent) : LiveOnly reg p e ↔ ReachesNoBroker p e := by
  cases e with
  | transition target metadata =>
    refine iff_of_true ⟨?_, fun i answer he => nomatch he⟩ trivial
    intro c hc
    simp only [OrderProcess.trace] at hc
    split at hc
    · rename_i t ht
      rw [transitionRecord_calls ht] at hc
      cases hc
    · cases hc
  | call a =>
    rcases begin_calls reg p a with ⟨hn, hc⟩ | ⟨hn, c, hc⟩
    · refine iff_of_true ⟨?_, fun i answer he => nomatch he⟩ hn
      simp [OrderProcess.trace, hc]
    · refine iff_of_false (fun h => ?_) hn
      exact h.calls (.paperSimulator, c) (by simp [OrderProcess.trace, hc]) rfl
  | answer i answer =>
    refine iff_of_true ⟨?_, ?_⟩ trivial
    · simp [OrderProcess.trace, hp]
    · intro j answer' he hf
      simp [OrderProcess.trace, hp] at hf

private theorem idle_step {reg : BrokerRegistry} {p : OrderProcess} (hp : p.awaiting = [])
    {e : OrderEvent} (he : ReachesNoBroker p e) : (p.step reg e).awaiting = [] := by
  cases e with
  | transition target metadata => exact hp
  | call a =>
    rcases begin_calls reg p a with ⟨-, hc⟩ | ⟨hn, -⟩
    · simp [OrderProcess.step, OrderProcess.trace, hc, hp]
    · exact absurd he hn
  | answer i answer => simp [OrderProcess.step, hp]

/-- A client id the manager holds no order under, as a new UUID is. -/
structure FreshId (m : OrderManager) where
  id : Uuid
  unused : ∀ a, m.prune.find a id = none

/-- An exit calls no simulator, and closes the row only on a registered adapter's fill. -/
def LiveExit : Option (PositionRow × ExitOutcome) → Prop
  | none => True
  | some (row, outcome) => (∀ c ∈ outcome.calls, c.1 ≠ .paperSimulator) ∧
      (row.isOpen = false → ∃ provider, (.registered provider, .submitOrder) ∈ outcome.calls)

theorem triggerExit_calls (reg : BrokerRegistry) (m : OrderManager) (pos : Position)
    (isEmergency : Bool) (fresh : FreshId m) (answer : Answer) :
    (triggerExit reg m pos isEmergency fresh.id answer).calls =
      [(.paperSimulator, .submitOrder)] := by
  have hnone := Option.or_eq_none_iff.mp (fresh.unused pos.accountId)
  rcases m.createIntent_cases (pos.exitIntent isEmergency) fresh.id with
    ⟨r, hk, -⟩ | ⟨r, -, hb, -⟩ | ⟨-, -, he⟩
  · exact absurd (hnone.1.symm.trans hk) (by simp)
  · exact absurd (hnone.2.symm.trans hb) (by simp)
  · have hend := submitEnd_calls
      (Awaiting.submit.begin reg ((pos.exitIntent isEmergency).record fresh.id)) answer
    have hbegin : submitBegin reg ((pos.exitIntent isEmergency).record fresh.id) =
        .ok (Awaiting.submit.begin reg ((pos.exitIntent isEmergency).record fresh.id)) := rfl
    have hid : (pos.exitIntent isEmergency).clientOrderId.getD fresh.id = fresh.id := rfl
    rw [hid] at he
    simp only [triggerExit, he, List.getElem?_concat_length, hbegin]
    split <;> exact hend

/-- A live order keeps away from the simulator exactly along the runs that reach
no broker at all, and a position exit exactly when there is no open row. -/
theorem live_only_iff (reg : BrokerRegistry) :
    (∀ (record : OrderRecord) (events : List OrderEvent),
      Guarded (OrderProcess.step reg) (LiveOnly reg) { record := { record with isPaper := false } } events ↔
        Guarded (OrderProcess.step reg) ReachesNoBroker
          { record := { record with isPaper := false } } events) ∧
    (∀ (m : OrderManager) (row : Option PositionRow) (isEmergency : Bool) (fresh : FreshId m)
        (answer : Answer),
      LiveExit (exitPosition reg m row isEmergency fresh.id answer) ↔
        ∀ r, row = some r → r.isOpen = false) := by
  constructor
  · intro record events
    refine guarded_congr (I := fun p => p.awaiting = []) ?_ (fun p e hp => liveOnly_iff hp e) rfl events
    intro p e hp hlive
    exact idle_step hp ((liveOnly_iff hp e).mp hlive)
  · intro m row isEmergency fresh answer
    cases row with
    | none => exact iff_of_true trivial fun r h => nomatch h
    | some row =>
      have hcalls := triggerExit_calls reg m row.position isEmergency fresh answer
      cases ho : row.isOpen with
      | false => exact iff_of_true (by simp [exitPosition, ho, LiveExit]) fun r h => by cases h; exact ho
      | true =>
        refine iff_of_false ?_ fun h => ?_
        · have hmem : (Adapter.paperSimulator, BrokerCall.submitOrder) ∈
              (triggerExit reg m row.position isEmergency fresh.id answer).calls := by
            rw [hcalls]
            exact List.mem_singleton_self _
          simp only [exitPosition, ho, if_true]
          intro h
          split at h
          · exact h.1 _ hmem rfl
          · split at h <;> exact h.1 _ hmem rfl
        · exact absurd (h row rfl) (by simp [ho])

/-- A live order is filled by the simulator. -/
theorem live_order_simulated :
    ¬ Guarded (OrderProcess.step { }) (LiveOnly { })
      { record := {
          accountId := "a", clientOrderId := 1, symbol := "NIFTY", side := "BUY", quantity := 50
          price := some 100, orderType := "LIMIT", status := .riskApproved, isPaper := false } }
      [.call .submit,
        .answer 0 (.result ⟨some "PAPER-1", some .filled, .number 100, .value 50⟩)] := by
  intro h
  exact h.1.calls (.paperSimulator, .submitOrder) (by decide) rfl

end Droid.Algo
