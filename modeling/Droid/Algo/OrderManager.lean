import Droid.Algo.Execution
import Droid.Lib.Dict

/-! The order cache of `OrderManager`, and runs of calls on it that overlap at
the awaits of the order operations. -/
namespace Droid.Algo
open Lib

/-- `account:cid`, or the bare id under which a record is stored as well. -/
inductive CacheKey where
  | scoped (accountId : AccountId) (clientOrderId : Uuid)
  | bare (clientOrderId : Uuid)
  deriving DecidableEq, Repr

/-- The identity of a record object: its place among all records ever created. -/
abbrev Ref := Nat

structure OrderManager where
  records : List OrderRecord := []
  orders : Dict CacheKey Ref := Dict.empty

namespace OrderManager

def maxCachedOrders : Nat := 10000

/-- The statuses whose records pruning may drop. -/
def terminal (s : OrderStatus) : Bool := s ∈ [.closed, .rejected, .cancelled]

def terminalKeys (m : OrderManager) : List CacheKey :=
  (m.orders.entries.filter fun e => (m.records[e.2]?).any fun r => terminal r.status).map Prod.fst

/-- At capacity the first thousand terminal keys are dropped. -/
def prune (m : OrderManager) : OrderManager :=
  if maxCachedOrders ≤ m.orders.size then
    let dropped := m.terminalKeys.take 1000
    { m with orders := m.orders.filterKeys fun k => decide (k ∉ dropped) }
  else m

end OrderManager

structure IntentArgs where
  accountId : AccountId
  symbol : String
  side : String
  quantity : Int
  price : Option ℚ
  orderType : String := "LIMIT"
  instrumentId : Option String := none
  spreadId : Option Uuid := none
  expectedPrice : Option ℚ := none
  isPaper : Bool := true
  clientOrderId : Option Uuid := none
  deriving Repr

def IntentArgs.record (args : IntentArgs) (cid : Uuid) : OrderRecord where
  accountId := args.accountId
  clientOrderId := cid
  originalClientOrderId := some cid
  symbol := args.symbol
  side := args.side
  quantity := args.quantity
  price := args.price
  orderType := args.orderType
  instrumentId := args.instrumentId
  spreadId := args.spreadId
  expectedPrice := args.expectedPrice.orElse fun _ => args.price
  isPaper := args.isPaper

namespace OrderManager

/-- `self._orders.get(key) or self._orders.get(str(cid))`. -/
def find (m : OrderManager) (accountId : AccountId) (cid : Uuid) : Option Ref :=
  (m.orders.get? (.scoped accountId cid)).or (m.orders.get? (.bare cid))

/-- `create_intent`; `fresh` is the UUID drawn when the caller gives no id. -/
def createIntent (m : OrderManager) (args : IntentArgs) (fresh : Uuid) : OrderManager × Ref :=
  let m := m.prune
  let cid := args.clientOrderId.getD fresh
  let key := CacheKey.scoped args.accountId cid
  match m.find args.accountId cid with
  | some existing =>
    if m.orders.contains key then (m, existing)
    else ({ m with orders := m.orders.insert key existing }, existing)
  | none =>
    let ref := m.records.length
    ({ records := m.records ++ [args.record cid]
       orders := (m.orders.insert key ref).insert (.bare cid) ref }, ref)

def get (m : OrderManager) (cid : Uuid) (accountId : Option AccountId) : Option Ref :=
  match accountId with
  | some a => m.find a cid
  | none => m.orders.get? (.bare cid)

/-- The record `transition` acts on: the bare alias, else the first record with that id. -/
def lookup (m : OrderManager) (cid : Uuid) : Option Ref :=
  (m.orders.get? (.bare cid)).or
    (m.orders.values.find? fun r => (m.records[r]?).any fun record => record.clientOrderId = cid)

def transition (m : OrderManager) (cid : Uuid) (target : OrderStatus)
    (metadata : Option TransitionMetadata) : Except OrderError (OrderManager × Ref) :=
  match m.lookup cid with
  | none => .error (.notFound cid)
  | some ref =>
    match m.records[ref]? with
    | none => .error (.notFound cid)
    | some record =>
      (transitionRecord record target metadata).map fun t =>
        ({ m with records := m.records.set ref t.record }, ref)

def listForAccount (m : OrderManager) (accountId : AccountId) : List Ref :=
  m.orders.values.filter fun r => (m.records[r]?).any fun record => record.accountId = accountId

@[simp] theorem prune_records (m : OrderManager) : m.prune.records = m.records := by
  unfold prune
  split <;> rfl

theorem get?_of_prune {m : OrderManager} {k : CacheKey} {r : Ref}
    (h : m.prune.orders.get? k = some r) : m.orders.get? k = some r := by
  unfold prune at h
  split at h
  · simp only [Dict.get?_filterKeys] at h
    split at h
    · exact h
    · cases h
  · exact h

/-- The three outcomes of `create_intent`: the cached record, the record of the
bare alias under a new scoped key, or a new record under both keys. -/
theorem createIntent_cases (m : OrderManager) (args : IntentArgs) (fresh : Uuid) :
    (∃ r, m.prune.orders.get? (.scoped args.accountId (args.clientOrderId.getD fresh)) = some r ∧
      m.createIntent args fresh = (m.prune, r)) ∨
    (∃ r, m.prune.orders.get? (.scoped args.accountId (args.clientOrderId.getD fresh)) = none ∧
      m.prune.orders.get? (.bare (args.clientOrderId.getD fresh)) = some r ∧
      m.createIntent args fresh = ({ m.prune with
        orders := m.prune.orders.insert
          (.scoped args.accountId (args.clientOrderId.getD fresh)) r }, r)) ∨
    (m.prune.orders.get? (.scoped args.accountId (args.clientOrderId.getD fresh)) = none ∧
      m.prune.orders.get? (.bare (args.clientOrderId.getD fresh)) = none ∧
      m.createIntent args fresh =
        ({ records := m.records ++ [args.record (args.clientOrderId.getD fresh)]
           orders := (m.prune.orders.insert
              (.scoped args.accountId (args.clientOrderId.getD fresh)) m.records.length).insert
                (.bare (args.clientOrderId.getD fresh)) m.records.length }, m.records.length)) := by
  simp only [createIntent, find, Dict.contains, prune_records]
  cases hs : m.prune.orders.get? (.scoped args.accountId (args.clientOrderId.getD fresh)) with
  | some r => exact .inl ⟨r, rfl, by simp⟩
  | none =>
    cases hb : m.prune.orders.get? (.bare (args.clientOrderId.getD fresh)) with
    | some r => exact .inr (.inl ⟨r, rfl, rfl, by simp⟩)
    | none => exact .inr (.inr ⟨rfl, rfl, by simp⟩)

theorem transition_ok {m m' : OrderManager} {cid : Uuid} {target : OrderStatus}
    {metadata : Option TransitionMetadata} {ref : Ref}
    (h : m.transition cid target metadata = .ok (m', ref)) :
    ∃ record t, m.lookup cid = some ref ∧ m.records[ref]? = some record ∧
      transitionRecord record target metadata = .ok t ∧
      m' = { m with records := m.records.set ref t.record } := by
  unfold transition at h
  split at h
  · cases h
  · rename_i r hr
    split at h
    · cases h
    · rename_i record hrec
      cases ht : transitionRecord record target metadata with
      | error e =>
        rw [ht] at h
        cases h
      | ok t =>
        rw [ht] at h
        cases h
        exact ⟨record, t, hr, hrec, ht, rfl⟩

end OrderManager

/-! ### Interleaved calls -/

/-- The manager with the calls that await the broker, and, as ghosts, the order
of every `submit_order` call and what `create_intent` returned for every id. -/
structure Session where
  manager : OrderManager := { }
  awaiting : List (Ref × Awaiting) := []
  submitted : List (AccountId × Uuid) := []
  issued : List ((AccountId × Uuid) × Ref) := []

/-- A call, or the arrival of a broker answer. The source's `transition` does not
know for which account it is called; the caller is recorded beside it. -/
inductive ManagerEvent where
  | createIntent (args : IntentArgs) (fresh : Uuid)
  | get (cid : Uuid) (accountId : Option AccountId)
  | transition (caller : AccountId) (cid : Uuid) (target : OrderStatus)
      (metadata : Option TransitionMetadata)
  | listForAccount (accountId : AccountId)
  | call (ref : Ref) (a : Awaiting)
  | answer (i : Nat) (answer : Answer)
  deriving Repr

namespace Session

/-- Write a record back after an operation. -/
def put (s : Session) (ref : Ref) (t : Traced) : Session :=
  { s with manager := { s.manager with records := s.manager.records.set ref t.record } }

def step (reg : BrokerRegistry) (s : Session) : ManagerEvent → Session
  | .createIntent args fresh =>
    let (manager, ref) := s.manager.createIntent args fresh
    { s with manager, issued := ((args.accountId, args.clientOrderId.getD fresh), ref) :: s.issued }
  | .get _ _ | .listForAccount _ => s
  | .transition _ cid target metadata =>
    match s.manager.transition cid target metadata with
    | .ok (manager, _) => { s with manager }
    | .error _ => s
  | .call ref a =>
    match s.manager.records[ref]? with
    | none => s
    | some record =>
      let t := a.begin reg record
      let sent := t.calls.filter fun c => c.2 = .submitOrder
      { s.put ref t with
        awaiting := s.awaiting ++ t.calls.map fun _ => (ref, a)
        submitted := sent.map (fun _ => (record.accountId, record.clientOrderId)) ++ s.submitted }
  | .answer i answer =>
    match s.awaiting[i]? with
    | none => s
    | some (ref, a) =>
      match s.manager.records[ref]? with
      | none => s
      | some record =>
        { s.put ref (a.finish { record } answer) with awaiting := s.awaiting.eraseIdx i }

end Session

end Droid.Algo
