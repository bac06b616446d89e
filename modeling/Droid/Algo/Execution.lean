import Mathlib.Data.Rat.Defs
import Mathlib.Data.List.Basic

/-! Order records, the broker registry and the order operations of the algo
execution module, split at the points where the source awaits the broker. -/
namespace Droid.Algo

/-- A UUID4; only equality is used. -/
abbrev Uuid := Nat

/-- An account id as `str(account_id)` prints it. -/
abbrev AccountId := String

inductive OrderStatus where
  | created | riskApproved | submitted | acknowledged | partiallyFilled | filled
  | rejected | cancelled | timedOut | unknown | reconciling | cancelPending
  | exitTriggered | exitSubmitted | exitPartiallyFilled | exitFilled
  | exitRejected | exitBlockedByCircuit | exitNetworkUnknown | exitRetrying
  | orphanedAlert | closed
  deriving DecidableEq, Repr

def allowedTransitions : OrderStatus → List OrderStatus
  | .created => [.riskApproved, .rejected, .cancelled]
  | .riskApproved => [.submitted, .rejected, .cancelled]
  | .submitted =>
    [.acknowledged, .partiallyFilled, .filled, .rejected, .timedOut, .unknown, .cancelPending]
  | .acknowledged => [.partiallyFilled, .filled, .rejected, .cancelPending, .timedOut]
  | .partiallyFilled => [.filled, .cancelPending, .timedOut, .unknown, .reconciling]
  | .filled => [.closed, .reconciling]
  | .rejected => [.closed, .reconciling]
  | .cancelled => [.closed, .reconciling]
  | .timedOut => [.reconciling, .cancelPending, .closed, .unknown]
  | .unknown => [.reconciling, .closed]
  | .reconciling => [.filled, .rejected, .cancelled, .unknown, .closed, .partiallyFilled]
  | .cancelPending => [.cancelled, .reconciling, .timedOut, .filled, .partiallyFilled]
  | .exitTriggered => [.exitSubmitted, .exitRejected]
  | .exitSubmitted =>
    [.exitFilled, .exitPartiallyFilled, .exitRejected, .exitBlockedByCircuit, .exitNetworkUnknown,
      .timedOut]
  | .exitPartiallyFilled => [.exitFilled, .exitRetrying, .orphanedAlert]
  | .exitFilled => [.closed]
  | .exitRejected => [.exitRetrying, .reconciling, .orphanedAlert]
  | .exitBlockedByCircuit => [.exitRetrying, .reconciling, .orphanedAlert]
  | .exitNetworkUnknown => [.reconciling, .exitRetrying, .orphanedAlert]
  | .exitRetrying => [.exitSubmitted, .orphanedAlert, .reconciling]
  | .orphanedAlert => [.exitRetrying, .reconciling, .closed]
  | .closed => []

structure OrderRecord where
  accountId : AccountId
  clientOrderId : Uuid
  symbol : String
  side : String
  quantity : Int
  price : Option ℚ
  orderType : String
  status : OrderStatus := .created
  brokerOrderId : Option String := none
  instrumentId : Option String := none
  spreadId : Option Uuid := none
  expectedPrice : Option ℚ := none
  fillPrice : Option ℚ := none
  fillQuantity : Int := 0
  slippage : Option ℚ := none
  isPaper : Bool := true
  attemptCount : Nat := 0
  originalClientOrderId : Option Uuid := none
  deriving DecidableEq, Repr

/-- `rec.broker_order_id` where the source tests its truth: the empty string is no id. -/
def OrderRecord.brokerId (rec : OrderRecord) : Option String := rec.brokerOrderId.filter (· ≠ "")

/-! ### Broker answers -/

/-- The statuses the manager compares a broker's answer with; any other text is `other`. -/
inductive BrokerStatus where
  | filled | partiallyFilled | rejected | cancelled
  | other (text : String)
  deriving DecidableEq, Repr

/-- A price entry of a broker dictionary. A text price is a non-empty string, so
it is true where a numeric zero is false; `D` raises on a malformed entry. -/
inductive PriceField where
  | absent | null
  | number (q : ℚ)
  | text (q : ℚ)
  | malformed
  deriving DecidableEq, Repr

/-- A quantity entry of a broker dictionary; `int` raises on null and malformed entries. -/
inductive QuantityField where
  | absent | null
  | value (n : Int)
  | malformed
  deriving DecidableEq, Repr

structure BrokerResult where
  brokerOrderId : Option String
  status : Option BrokerStatus
  fillPrice : PriceField := .absent
  fillQuantity : QuantityField := .absent
  deriving DecidableEq, Repr

/-- What an awaited adapter call comes back with. `aborted` is the cancellation
of the awaiting task, which no `except Exception` catches. -/
inductive Answer where
  | result (r : BrokerResult)
  | timeout
  | error
  | aborted
  deriving DecidableEq, Repr

/-- `D(fill_price) if fill_price is not None else None`; `none` when `D` raises. -/
def PriceField.decimal : PriceField → Option (Option ℚ)
  | .absent | .null => some none
  | .number q | .text q => some (some q)
  | .malformed => none

/-- `D(result["fill_price"]) if result.get("fill_price") else old`; `none` when `D` raises. -/
def PriceField.orElse (old : Option ℚ) : PriceField → Option (Option ℚ)
  | .absent | .null => some old
  | .number q => some (if q = 0 then old else some q)
  | .text q => some (some q)
  | .malformed => none

/-- `int(result.get("fill_quantity", default))`; `none` when `int` raises. -/
def QuantityField.orDefault (default : Int) : QuantityField → Option Int
  | .absent => some default
  | .value n => some n
  | .null | .malformed => none

/-! ### Broker registry -/

inductive Adapter where
  | paperSimulator
  | registered (provider : String)
  deriving DecidableEq, Repr

structure BrokerRegistry where
  adapters : List String := ["fyers"]
  deriving Repr

def BrokerRegistry.get (reg : BrokerRegistry) (provider : Option String) (paper : Bool) : Adapter :=
  match provider with
  | none => .paperSimulator
  | some p => if paper ∨ p = "" ∨ p ∉ reg.adapters then .paperSimulator else .registered p

inductive BrokerCall where
  | submitOrder
  | queryOrder (brokerOrderId : String)
  | cancelOrder (brokerOrderId : String)
  deriving DecidableEq, Repr

/-! ### Order operations -/

inductive OrderError where
  | notFound (clientOrderId : Uuid)
  | illegalTransition (source target : OrderStatus)
  | cannotSubmit (source : OrderStatus)
  deriving DecidableEq, Repr

structure TransitionMetadata where
  brokerOrderId : Option (Option String) := none
  fillPrice : Option ℚ := none
  fillQuantity : Option Int := none
  slippage : Option ℚ := none
  deriving DecidableEq, Repr

/-- A record under an operation, with every status the operation has assigned
and every adapter call it has made, oldest first. -/
structure Traced where
  record : OrderRecord
  writes : List OrderStatus := []
  calls : List (Adapter × BrokerCall) := []
  deriving Repr

def Traced.setStatus (t : Traced) (s : OrderStatus) : Traced :=
  { t with record := { t.record with status := s }, writes := t.writes ++ [s] }

def Traced.call (t : Traced) (adapter : Adapter) (c : BrokerCall) : Traced :=
  { t with calls := t.calls ++ [(adapter, c)] }

@[simp] theorem setStatus_writes (t : Traced) (s : OrderStatus) :
    (t.setStatus s).writes = t.writes ++ [s] := rfl

@[simp] theorem setStatus_calls (t : Traced) (s : OrderStatus) : (t.setStatus s).calls = t.calls := rfl

@[simp] theorem call_writes (t : Traced) (a : Adapter) (c : BrokerCall) :
    (t.call a c).writes = t.writes := rfl

@[simp] theorem call_calls (t : Traced) (a : Adapter) (c : BrokerCall) :
    (t.call a c).calls = t.calls ++ [(a, c)] := rfl

/-- The table check and the assignments of `OrderManager.transition` on a found record. -/
def transitionRecord (record : OrderRecord) (target : OrderStatus)
    (metadata : Option TransitionMetadata) : Except OrderError Traced :=
  if record.status = target then .ok { record }
  else if target ∉ allowedTransitions record.status then .error (.illegalTransition record.status target)
  else
    let t := Traced.setStatus { record } target
    match metadata with
    | none => .ok t
    | some m =>
      .ok { t with record := { t.record with
        brokerOrderId := m.brokerOrderId.getD t.record.brokerOrderId
        fillPrice := m.fillPrice.orElse fun _ => t.record.fillPrice
        fillQuantity := m.fillQuantity.getD t.record.fillQuantity
        slippage := m.slippage.orElse fun _ => t.record.slippage } }

theorem transitionRecord_defined {record : OrderRecord} {target : OrderStatus}
    (metadata : Option TransitionMetadata)
    (h : ¬ record.status ≠ target ∨ ¬ target ∉ allowedTransitions record.status) :
    ∃ t, transitionRecord record target metadata = .ok t := by
  rw [transitionRecord]
  by_cases hs : record.status = target
  · rw [if_pos hs]
    exact ⟨_, rfl⟩
  · have hin : target ∈ allowedTransitions record.status := by
      rcases h with h | h
      · exact absurd (not_not.mp h) hs
      · exact not_not.mp h
    rw [if_neg hs, if_neg (not_not.mpr hin)]
    cases metadata <;> exact ⟨_, rfl⟩

/-- `OrderManager.submit` up to its await: guard, SUBMITTED, adapter call. -/
def submitBegin (reg : BrokerRegistry) (record : OrderRecord) : Except OrderError Traced :=
  if record.status ≠ .created ∧ record.status ≠ .riskApproved then .error (.cannotSubmit record.status)
  else
    let t := Traced.setStatus { record } .submitted
    let t := { t with record := { t.record with attemptCount := t.record.attemptCount + 1 } }
    .ok (t.call (reg.get none t.record.isPaper) .submitOrder)

/-- The mapping of a broker status to the manager's own in `OrderManager.submit`. -/
def internalStatus : Option BrokerStatus → OrderStatus
  | some .filled => .filled
  | some .partiallyFilled => .partiallyFilled
  | some .rejected => .rejected
  | _ => .acknowledged

/-- `OrderManager.submit` after its await. -/
def submitEnd (t : Traced) : Answer → Traced
  | .result r =>
    let record := { t.record with brokerOrderId := r.brokerOrderId }
    match r.fillPrice.decimal with
    | none => Traced.setStatus { t with record } .unknown
    | some fillPrice =>
      let slippage := match fillPrice, record.expectedPrice with
        | some p, some e => some (p - e)
        | _, _ => record.slippage
      let record := { record with slippage, fillPrice }
      match r.fillQuantity.orDefault record.quantity with
      | none => Traced.setStatus { t with record } .unknown
      | some fillQuantity =>
        Traced.setStatus { t with record := { record with fillQuantity } }
          (internalStatus r.status)
  | .timeout => t.setStatus .timedOut
  | .error => t.setStatus .unknown
  | .aborted => t

theorem submitEnd_calls (t : Traced) (answer : Answer) : (submitEnd t answer).calls = t.calls := by
  cases answer with
  | timeout => rfl
  | error => rfl
  | aborted => rfl
  | result r =>
    simp only [submitEnd]
    split
    · rfl
    · split <;> rfl

def submit (reg : BrokerRegistry) (record : OrderRecord) (answer : Answer) : Except OrderError Traced :=
  (submitBegin reg record).map fun t => submitEnd t answer

/-- The statuses `OrderManager.reconcile` acts on. -/
def OrderStatus.unresolved (s : OrderStatus) : Bool := s ∈ [.timedOut, .unknown, .reconciling]

/-- `OrderManager.reconcile` up to its await; without a broker id it ends here. -/
def reconcileBegin (reg : BrokerRegistry) (record : OrderRecord) : Traced :=
  if record.status.unresolved then
    let t := Traced.setStatus { record } .reconciling
    match record.brokerId with
    | none => t.setStatus .unknown
    | some id => t.call (reg.get none record.isPaper) (.queryOrder id)
  else { record }

/-- `OrderManager.reconcile` after its await. A FILLED answer is written before
its price and quantity are parsed. -/
def reconcileEnd (t : Traced) : Answer → Traced
  | .result r =>
    match r.status with
    | some .filled =>
      let t := t.setStatus .filled
      match r.fillPrice.orElse t.record.fillPrice with
      | none => t.setStatus .unknown
      | some fillPrice =>
        let t := { t with record := { t.record with fillPrice } }
        match r.fillQuantity.orDefault t.record.fillQuantity with
        | none => t.setStatus .unknown
        | some fillQuantity => { t with record := { t.record with fillQuantity } }
    | some .partiallyFilled => t.setStatus .partiallyFilled
    | some .rejected => t.setStatus .rejected
    | some .cancelled => t.setStatus .cancelled
    | _ => t.setStatus .unknown
  | .timeout | .error => t.setStatus .unknown
  | .aborted => t

def reconcile (reg : BrokerRegistry) (record : OrderRecord) (answer : Answer) : Traced :=
  let t := reconcileBegin reg record
  if t.calls = [] then t else reconcileEnd t answer

/-- `OrderManager.cancel` up to its await; without a broker id it ends here. -/
def cancelBegin (reg : BrokerRegistry) (record : OrderRecord) : Traced :=
  match record.brokerId with
  | none => Traced.setStatus { record } .cancelled
  | some id =>
    (Traced.setStatus { record } .cancelPending).call (reg.get none record.isPaper) (.cancelOrder id)

/-- `OrderManager.cancel` after its await: a broker fill wins over the cancel. -/
def cancelEnd (t : Traced) : Answer → Traced
  | .result r =>
    let won (s : OrderStatus) : Traced :=
      let t := t.setStatus s
      match r.fillPrice.orElse t.record.fillPrice with
      | none => t.setStatus .reconciling
      | some fillPrice =>
        let t := { t with record := { t.record with fillPrice } }
        match r.fillQuantity.orDefault t.record.fillQuantity with
        | none => t.setStatus .reconciling
        | some fillQuantity => { t with record := { t.record with fillQuantity } }
    match r.status with
    | some .filled => won .filled
    | some .partiallyFilled => won .partiallyFilled
    | some .cancelled => t.setStatus .cancelled
    | _ => t.setStatus .reconciling
  | .timeout | .error => t.setStatus .reconciling
  | .aborted => t

def cancel (reg : BrokerRegistry) (record : OrderRecord) (answer : Answer) : Traced :=
  let t := cancelBegin reg record
  if t.calls = [] then t else cancelEnd t answer

/-! ### One record under overlapping calls -/

inductive Awaiting where
  | submit | reconcile | cancel
  deriving DecidableEq, Repr

/-- The call up to its await; a raised error leaves the record as it was. -/
def Awaiting.begin (reg : BrokerRegistry) (record : OrderRecord) : Awaiting → Traced
  | .submit =>
    match submitBegin reg record with
    | .ok t => t
    | .error _ => { record }
  | .reconcile => reconcileBegin reg record
  | .cancel => cancelBegin reg record

/-- The call after its await, on the record as it then is. -/
def Awaiting.finish (t : Traced) (answer : Answer) : Awaiting → Traced
  | .submit => submitEnd t answer
  | .reconcile => reconcileEnd t answer
  | .cancel => cancelEnd t answer

structure OrderProcess where
  record : OrderRecord
  awaiting : List (Awaiting × Adapter) := []
  deriving Repr

inductive OrderEvent where
  | transition (target : OrderStatus) (metadata : Option TransitionMetadata)
  | call (a : Awaiting)
  | answer (i : Nat) (answer : Answer)
  deriving Repr

def OrderProcess.trace (reg : BrokerRegistry) (p : OrderProcess) : OrderEvent → Traced
  | .transition target metadata =>
    match transitionRecord p.record target metadata with
    | .ok t => t
    | .error _ => { record := p.record }
  | .call a => a.begin reg p.record
  | .answer i answer =>
    match p.awaiting[i]? with
    | none => { record := p.record }
    | some (a, _) => a.finish { record := p.record } answer

def OrderProcess.step (reg : BrokerRegistry) (p : OrderProcess) (e : OrderEvent) : OrderProcess :=
  let t := p.trace reg e
  match e with
  | .transition _ _ => { p with record := t.record }
  | .call a => { record := t.record, awaiting := p.awaiting ++ t.calls.map fun c => (a, c.1) }
  | .answer i _ => { record := t.record, awaiting := p.awaiting.eraseIdx i }

/-! ### What the operations leave alone -/

/-- The records agree in all but status, broker id, fill and attempts. -/
def OrderRecord.SameOrder (r r' : OrderRecord) : Prop :=
  r' = { r with
    status := r'.status, brokerOrderId := r'.brokerOrderId, fillPrice := r'.fillPrice
    fillQuantity := r'.fillQuantity, slippage := r'.slippage, attemptCount := r'.attemptCount }

theorem OrderRecord.SameOrder.accountId {r r' : OrderRecord} (h : r.SameOrder r') :
    r'.accountId = r.accountId := by
  rw [h]

theorem OrderRecord.SameOrder.clientOrderId {r r' : OrderRecord} (h : r.SameOrder r') :
    r'.clientOrderId = r.clientOrderId := by
  rw [h]

theorem OrderRecord.SameOrder.isPaper {r r' : OrderRecord} (h : r.SameOrder r') :
    r'.isPaper = r.isPaper := by
  rw [h]

/-- A transition that succeeds stands still, or follows an edge of the table. -/
theorem transitionRecord_cases {record : OrderRecord} {target : OrderStatus}
    {metadata : Option TransitionMetadata} {t : Traced}
    (h : transitionRecord record target metadata = .ok t) :
    t = { record } ∨ target ∈ allowedTransitions record.status ∧ t.record.status = target ∧
      t.writes = [target] ∧ t.calls = [] ∧ record.SameOrder t.record := by
  unfold transitionRecord at h
  split at h
  · cases h
    exact .inl rfl
  · split at h
    · cases h
    · rename_i hin
      have hin := not_not.mp hin
      cases metadata with
      | none =>
        cases h
        exact .inr ⟨hin, rfl, rfl, rfl, rfl⟩
      | some m =>
        cases h
        exact .inr ⟨hin, rfl, rfl, rfl, rfl⟩

theorem transitionRecord_calls {record : OrderRecord} {target : OrderStatus}
    {metadata : Option TransitionMetadata} {t : Traced}
    (h : transitionRecord record target metadata = .ok t) : t.calls = [] := by
  rcases transitionRecord_cases h with rfl | ⟨-, -, -, hcalls, -⟩
  · rfl
  · exact hcalls

theorem transitionRecord_sameOrder {record : OrderRecord} {target : OrderStatus}
    {metadata : Option TransitionMetadata} {t : Traced}
    (h : transitionRecord record target metadata = .ok t) : record.SameOrder t.record := by
  rcases transitionRecord_cases h with rfl | ⟨-, -, -, -, hsame⟩
  · rfl
  · exact hsame

theorem begin_sameOrder (reg : BrokerRegistry) (record : OrderRecord) (a : Awaiting) :
    record.SameOrder (a.begin reg record).record := by
  cases a with
  | submit =>
    simp only [Awaiting.begin, submitBegin]
    by_cases h : record.status ≠ .created ∧ record.status ≠ .riskApproved
    · rw [if_pos h]
      rfl
    · rw [if_neg h]
      rfl
  | reconcile =>
    simp only [Awaiting.begin, reconcileBegin]
    split
    · split <;> rfl
    · rfl
  | cancel =>
    simp only [Awaiting.begin, cancelBegin]
    split <;> rfl

theorem finish_sameOrder (t : Traced) (answer : Answer) (a : Awaiting) :
    t.record.SameOrder (a.finish t answer).record := by
  cases answer with
  | timeout => cases a <;> rfl
  | error => cases a <;> rfl
  | aborted => cases a <;> rfl
  | result r =>
    obtain ⟨id, status, price, quantity⟩ := r
    cases a with
    | submit => cases price <;> cases quantity <;> rfl
    | reconcile =>
      cases status with
      | none => rfl
      | some status => cases status <;> cases price <;> cases quantity <;> rfl
    | cancel =>
      cases status with
      | none => rfl
      | some status => cases status <;> cases price <;> cases quantity <;> rfl

theorem OrderRecord.SameOrder.refl (r : OrderRecord) : r.SameOrder r := rfl

theorem OrderRecord.SameOrder.trans {r r' r'' : OrderRecord} (h : r.SameOrder r')
    (h' : r'.SameOrder r'') : r.SameOrder r'' := by
  rw [OrderRecord.SameOrder, h', h]

theorem submit_sameOrder {reg : BrokerRegistry} {record : OrderRecord} {answer : Answer} {t : Traced}
    (h : submit reg record answer = .ok t) : record.SameOrder t.record := by
  unfold submit at h
  cases hb : submitBegin reg record with
  | error e =>
    rw [hb] at h
    cases h
  | ok t₀ =>
    rw [hb] at h
    cases h
    have hbegin : Awaiting.submit.begin reg record = t₀ := by simp [Awaiting.begin, hb]
    exact (hbegin ▸ begin_sameOrder reg record .submit).trans (finish_sameOrder t₀ answer .submit)

def OrderStatus.submittable (s : OrderStatus) : Bool := s ∈ [.created, .riskApproved]

theorem submitBegin_eq (reg : BrokerRegistry) (record : OrderRecord) :
    Awaiting.submit.begin reg record =
      if record.status.submittable then
        { record := { record with status := .submitted, attemptCount := record.attemptCount + 1 }
          writes := [.submitted]
          calls := [(reg.get none record.isPaper, .submitOrder)] }
      else { record } := by
  simp only [Awaiting.begin, submitBegin]
  by_cases hc : record.status = .created
  · simp [hc, OrderStatus.submittable, Traced.setStatus, Traced.call]
  · by_cases hr : record.status = .riskApproved
    · simp [hr, OrderStatus.submittable, Traced.setStatus, Traced.call]
    · simp [hc, hr, OrderStatus.submittable]

/-- Only `submit`, on a record it accepts, asks an adapter to submit. -/
theorem begin_sent (reg : BrokerRegistry) (record : OrderRecord) (a : Awaiting) :
    (a.begin reg record).calls.filter (fun c => c.2 = .submitOrder) =
      if a = .submit ∧ record.status.submittable then [(reg.get none record.isPaper, .submitOrder)]
      else [] := by
  cases a with
  | submit =>
    rw [submitBegin_eq]
    by_cases h : record.status.submittable <;> simp [h]
  | reconcile =>
    simp only [Awaiting.begin, reconcileBegin]
    split
    · split <;> simp
    · simp
  | cancel =>
    simp only [Awaiting.begin, cancelBegin]
    split <;> simp

/-- No operation makes a record submittable again. -/
theorem begin_submittable {reg : BrokerRegistry} {record : OrderRecord} {a : Awaiting}
    (h : (a.begin reg record).record.status.submittable) :
    record.status.submittable ∧ (a.begin reg record).calls = [] := by
  cases a with
  | submit =>
    rw [submitBegin_eq] at h ⊢
    by_cases hs : record.status.submittable
    · rw [if_pos hs] at h
      cases h
    · rw [if_neg hs] at h
      exact absurd h hs
  | reconcile =>
    simp only [Awaiting.begin, reconcileBegin] at h ⊢
    split at h
    · split at h <;> cases h
    · rename_i hu
      rw [if_neg hu]
      exact ⟨h, rfl⟩
  | cancel =>
    simp only [Awaiting.begin, cancelBegin] at h
    split at h <;> cases h

theorem finish_submittable {record : OrderRecord} {answer : Answer} {a : Awaiting}
    (h : (a.finish { record } answer).record.status.submittable) : record.status.submittable := by
  cases answer with
  | timeout => cases a <;> cases h
  | error => cases a <;> cases h
  | aborted => cases a <;> exact h
  | result r =>
    obtain ⟨id, status, price, quantity⟩ := r
    have hi : ∀ b, ¬ (internalStatus b).submittable := by
      intro b
      unfold internalStatus
      split <;> decide
    cases a with
    | submit =>
      cases price <;> cases quantity <;> first | cases h | exact absurd h (hi status)
    | reconcile =>
      cases status with
      | none => cases h
      | some status => cases status <;> cases price <;> cases quantity <;> cases h
    | cancel =>
      cases status with
      | none => cases h
      | some status => cases status <;> cases price <;> cases quantity <;> cases h

theorem transitionRecord_submittable {record : OrderRecord} {target : OrderStatus}
    {metadata : Option TransitionMetadata} {t : Traced}
    (h : transitionRecord record target metadata = .ok t) (hs : t.record.status.submittable) :
    record.status.submittable := by
  have hedge : ∀ s, (∃ s' ∈ allowedTransitions s, s'.submittable) → s.submittable := by
    intro s
    cases s <;> decide
  rcases transitionRecord_cases h with rfl | ⟨hin, hto, -⟩
  · exact hs
  · rw [hto] at hs
    exact hedge record.status ⟨target, hin, hs⟩

end Droid.Algo
