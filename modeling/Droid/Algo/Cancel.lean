import Droid.Algo.Capital
import Droid.Algo.Submission

/-! `cancel_order` of the order service, and the three views of the order it cancels. -/
namespace Droid.Algo
open Lib

/-- The order rows and the reservation rows, each unique by account and client id. -/
structure OrderTables where
  orderRows : Dict (AccountId × Uuid) OrderStatus := Dict.empty
  reservations : Dict (AccountId × Uuid) Reservation := Dict.empty

def OrderTables.cancelRow (tables : OrderTables) (key : AccountId × Uuid) : OrderTables :=
  if tables.orderRows.contains key then
    { tables with orderRows := tables.orderRows.insert key .cancelled }
  else tables

/-- The user's account, the order's id, the broker's answer, and whether the write goes through. -/
structure CancelCall where
  accountId : AccountId
  clientOrderId : Uuid
  answer : Answer
  written : Bool := true
  deriving DecidableEq, Repr

/-- Why `cancel_order` raises. -/
inductive CancelError where
  | notFound | database | aborted
  deriving DecidableEq, Repr

structure CancelOutcome where
  manager : OrderManager
  tables : Option OrderTables
  returned : Except CancelError OrderStatus

def cancelUnknown (m : OrderManager) (session : Option OrderTables) (call : CancelCall) : CancelOutcome :=
  let key := (call.accountId, call.clientOrderId)
  match session with
  | none => ⟨m, session, .error .notFound⟩
  | some tables =>
    if (tables.orderRows.get? key).any (· ∈ [.created, .riskApproved, .submitted]) then
      if call.written then ⟨m, some (tables.cancelRow key), .ok .cancelled⟩
      else ⟨m, session, .error .database⟩
    else ⟨m, session, .error .notFound⟩

/-- `cancel_order`. The test of what the manager's cancel returns never fails, since it is the record,
and a failed write is ignored. -/
def cancelOrder (reg : BrokerRegistry) (m : OrderManager) (session : Option OrderTables)
    (call : CancelCall) : CancelOutcome :=
  match m.get call.clientOrderId none with
  | none => cancelUnknown m session call
  | some ref =>
    match m.records[ref]? with
    | none => cancelUnknown m session call
    | some record =>
      let t := cancel reg record call.answer
      let m := { m with records := m.records.set ref t.record }
      if t.calls ≠ [] ∧ call.answer = .aborted then ⟨m, session, .error .aborted⟩
      else
        ⟨m, session.map fun tables =>
          if call.written then tables.cancelRow (call.accountId, call.clientOrderId) else tables,
          .ok .cancelled⟩

def reservationAfter : OrderStatus → ReservationStatus
  | .cancelled => .released
  | .filled => .consumed
  | _ => .reserved

/-- The answer, the order row and the reservation say what the record says. -/
structure Truthful (record : OrderRecord) (tables : Option OrderTables) (returned : OrderStatus) :
    Prop where
  returned : returned = record.status
  row : ∀ t status, tables = some t → t.orderRows.get? record.key = some status →
    status = record.status
  reservation : ∀ t r, tables = some t → t.reservations.get? record.key = some r →
    r.status = reservationAfter record.status

/-- The order never reached the broker or the broker cancels it, its row is the caller's and written
or says so already, and its reservation is released before. -/
structure Cancellable (record : OrderRecord) (session : Option OrderTables) (call : CancelCall) :
    Prop where
  cancelled : record.brokerId = none ∨ ∃ r, call.answer = .result r ∧ r.status = some .cancelled
  row : ∀ t status, session = some t → t.orderRows.get? record.key = some status →
    status = .cancelled ∨ (call.written = true ∧ (call.accountId, call.clientOrderId) = record.key)
  reservation : ∀ t r, session = some t → t.reservations.get? record.key = some r →
    r.status = .released

@[simp] theorem cancelRow_reservations (tables : OrderTables) (key : AccountId × Uuid) :
    (tables.cancelRow key).reservations = tables.reservations := by
  rw [OrderTables.cancelRow]
  split <;> rfl

theorem cancelRow_get? (tables : OrderTables) (key x : AccountId × Uuid) :
    (tables.cancelRow key).orderRows.get? x =
      if x = key then (tables.orderRows.get? x).map fun _ => .cancelled else tables.orderRows.get? x := by
  rw [OrderTables.cancelRow, Dict.contains]
  by_cases hx : x = key
  · subst hx
    rw [if_pos rfl]
    cases hrow : tables.orderRows.get? x with
    | none => exact hrow
    | some status =>
      rw [Option.isSome_some, if_pos rfl, Dict.get?_insert, if_pos rfl]
      rfl
  · rw [if_neg hx]
    split
    · rw [Dict.get?_insert, if_neg hx]
    · rfl

theorem cancel_key (reg : BrokerRegistry) (record : OrderRecord) (answer : Answer) :
    (cancel reg record answer).record.key = record.key := by
  have hbegin := begin_sameOrder reg record .cancel
  rw [cancel]
  split
  · exact hbegin.key
  · exact (hbegin.trans (finish_sameOrder _ answer .cancel)).key

/-- An answered cancel ends in CANCELLED exactly when the broker says so. -/
theorem cancelEnd_status_iff (t : Traced) {answer : Answer} (hanswered : answer ≠ .aborted) :
    (cancelEnd t answer).record.status = .cancelled ↔
      ∃ r, answer = .result r ∧ r.status = some .cancelled := by
  have hwon : ∀ (r : BrokerResult) (s : BrokerStatus), r.status = some s → s ≠ .cancelled →
      ¬ ∃ r', Answer.result r = .result r' ∧ r'.status = some .cancelled := by
    rintro r s hs hne ⟨r', ⟨⟩, hcancelled⟩
    exact hne (Option.some.inj (hs.symm.trans hcancelled))
  cases answer with
  | timeout => exact iff_of_false OrderStatus.noConfusion (by rintro ⟨r, ⟨⟩, -⟩)
  | error => exact iff_of_false OrderStatus.noConfusion (by rintro ⟨r, ⟨⟩, -⟩)
  | aborted => exact absurd rfl hanswered
  | result r =>
    cases hstatus : r.status with
    | none =>
      refine iff_of_false ?_ ?_
      · simp [cancelEnd, hstatus, Traced.setStatus]
      · rintro ⟨r', ⟨⟩, hcancelled⟩
        cases hstatus.symm.trans hcancelled
    | some status =>
      cases status with
      | cancelled =>
        refine iff_of_true ?_ ⟨r, rfl, hstatus⟩
        simp [cancelEnd, hstatus, Traced.setStatus]
      | rejected =>
        refine iff_of_false ?_ (hwon r _ hstatus fun h => by cases h)
        simp [cancelEnd, hstatus, Traced.setStatus]
      | other text =>
        refine iff_of_false ?_ (hwon r _ hstatus fun h => by cases h)
        simp [cancelEnd, hstatus, Traced.setStatus]
      | filled =>
        -- the fill is taken, or it does not parse and the order goes to RECONCILING
        refine iff_of_false ?_ (hwon r _ hstatus fun h => by cases h)
        simp only [cancelEnd, hstatus]
        split
        · exact OrderStatus.noConfusion
        · split <;> exact OrderStatus.noConfusion
      | partiallyFilled =>
        refine iff_of_false ?_ (hwon r _ hstatus fun h => by cases h)
        simp only [cancelEnd, hstatus]
        split
        · exact OrderStatus.noConfusion
        · split <;> exact OrderStatus.noConfusion

/-- A cancel that returns ends in CANCELLED exactly when the broker was never involved or says so. -/
theorem cancel_status_iff (reg : BrokerRegistry) (record : OrderRecord) {answer : Answer}
    (hreturns : ¬ ((cancel reg record answer).calls ≠ [] ∧ answer = .aborted)) :
    (cancel reg record answer).record.status = .cancelled ↔
      record.brokerId = none ∨ ∃ r, answer = .result r ∧ r.status = some .cancelled := by
  cases hid : record.brokerId with
  | none =>
    refine iff_of_true ?_ (.inl rfl)
    simp [cancel, cancelBegin, hid, Traced.setStatus]
  | some id =>
    have hcancel : cancel reg record answer = cancelEnd (cancelBegin reg record) answer := by
      rw [cancel, if_neg]
      simp [cancelBegin, hid]
    have hcalls : (cancelEnd (cancelBegin reg record) .aborted).calls ≠ [] := by
      simp [cancelEnd, cancelBegin, hid]
    have hanswered : answer ≠ .aborted := by
      rintro rfl
      rw [hcancel] at hreturns
      exact hreturns ⟨hcalls, rfl⟩
    rw [hcancel, cancelEnd_status_iff _ hanswered]
    exact (or_iff_right (Option.some_ne_none id)).symm

/-- What a call on a known order does when it returns: the record is the manager's, the answer is
CANCELLED, and so is the row when it is the caller's and written. -/
theorem cancelOrder_known (reg : BrokerRegistry) {m : OrderManager} (session : Option OrderTables)
    {call : CancelCall} {ref : Ref} {record : OrderRecord}
    (hget : m.get call.clientOrderId none = some ref) (hrecord : m.records[ref]? = some record)
    {status : OrderStatus} (hreturned : (cancelOrder reg m session call).returned = .ok status) :
    status = .cancelled ∧
      ¬ ((cancel reg record call.answer).calls ≠ [] ∧ call.answer = .aborted) ∧
      (cancelOrder reg m session call).manager.records[ref]? = some (cancel reg record call.answer).record ∧
      (cancelOrder reg m session call).tables = session.map fun tables =>
        if call.written then tables.cancelRow (call.accountId, call.clientOrderId) else tables := by
  have hlt : ref < m.records.length := (List.getElem?_eq_some_iff.mp hrecord).1
  rw [cancelOrder, hget] at hreturned ⊢
  simp only [hrecord] at hreturned ⊢
  by_cases haborted : (cancel reg record call.answer).calls ≠ [] ∧ call.answer = .aborted
  · rw [if_pos haborted] at hreturned
    cases hreturned
  · rw [if_neg haborted] at hreturned ⊢
    cases hreturned
    exact ⟨rfl, haborted, List.getElem?_set_self hlt, rfl⟩

/-- A cancel that returns tells the truth exactly when the order is cancellable. -/
theorem cancelOrder_truthful_iff (reg : BrokerRegistry) {m : OrderManager}
    (session : Option OrderTables) {call : CancelCall} {ref : Ref} {record record' : OrderRecord}
    (hget : m.get call.clientOrderId none = some ref) (hrecord : m.records[ref]? = some record)
    {status : OrderStatus} (hreturned : (cancelOrder reg m session call).returned = .ok status)
    (hrecord' : (cancelOrder reg m session call).manager.records[ref]? = some record') :
    Truthful record' (cancelOrder reg m session call).tables status ↔
      Cancellable record session call := by
  obtain ⟨rfl, hreturns, hafter, htables⟩ := cancelOrder_known reg session hget hrecord hreturned
  obtain rfl := Option.some.inj (hrecord'.symm.trans hafter)
  have hstatus := cancel_status_iff reg record hreturns
  have hkey := cancel_key reg record call.answer
  rw [htables]
  constructor
  · rintro ⟨hanswer, hrow, hreservation⟩
    refine ⟨hstatus.mp hanswer.symm, ?_, ?_⟩
    · rintro t s rfl hs
      rw [hkey] at hrow
      by_cases hwritten : call.written = true ∧ (call.accountId, call.clientOrderId) = record.key
      · exact .inr hwritten
      · refine .inl ((hrow _ s rfl ?_).trans hanswer.symm)
        rw [← hs]
        split
        · rename_i hw
          rw [cancelRow_get?, if_neg fun hc => hwritten ⟨hw, hc.symm⟩]
        · rfl
    · rintro t r rfl hr
      rw [hkey] at hreservation
      have hreleased := hreservation _ r rfl (by split <;> simpa using hr)
      rw [← hanswer] at hreleased
      exact hreleased
  · rintro ⟨hcancelled, hrow, hreservation⟩
    have hended := hstatus.mpr hcancelled
    refine ⟨hended.symm, ?_, ?_⟩
    · intro t s ht hs
      obtain ⟨tables, rfl, rfl⟩ := Option.map_eq_some_iff.mp ht
      rw [hended]
      rw [hkey] at hs
      split at hs
      · rw [cancelRow_get?] at hs
        split at hs
        · obtain ⟨old, -, rfl⟩ := Option.map_eq_some_iff.mp hs
          rfl
        · rename_i hother
          rcases hrow tables s rfl hs with hcancelled | ⟨-, hc⟩
          · exact hcancelled
          · exact absurd hc.symm hother
      · rename_i hunwritten
        rcases hrow tables s rfl hs with hcancelled | ⟨hw, -⟩
        · exact hcancelled
        · exact absurd hw hunwritten
    · intro t r ht hr
      obtain ⟨tables, rfl, rfl⟩ := Option.map_eq_some_iff.mp ht
      rw [hended]
      rw [hkey] at hr
      refine hreservation tables r rfl ?_
      split at hr
      · rw [cancelRow_reservations] at hr
        exact hr
      · exact hr

private def working : OrderRecord where
  accountId := "a"
  clientOrderId := 1
  symbol := "NIFTY"
  side := "BUY"
  quantity := 100
  price := some 60
  orderType := "LIMIT"
  status := .acknowledged
  brokerOrderId := some "B-1"

private def workingManager : OrderManager where
  records := [working]
  orders := Dict.empty.insert (.bare 1) 0

private def answered (status : BrokerStatus) : CancelCall where
  accountId := "a"
  clientOrderId := 1
  answer := .result { brokerOrderId := some "B-1", status := some status }

private def workingTables (reservation : ReservationStatus) : OrderTables where
  orderRows := Dict.empty.insert ("a", 1) .acknowledged
  reservations := Dict.empty.insert ("a", 1) ⟨7, 900, reservation⟩

theorem unreserved_truthful :
    Truthful (cancel { } working (answered .cancelled).answer).record
      (cancelOrder { } workingManager (some (workingTables .released)) (answered .cancelled)).tables
      .cancelled := by
  have hget : workingManager.get 1 none = some 0 := rfl
  have hrecord : workingManager.records[0]? = some working := rfl
  refine (cancelOrder_truthful_iff { } _ hget hrecord rfl rfl).mpr ?_
  refine ⟨.inr ⟨_, rfl, rfl⟩, ?_, ?_⟩
  · rintro t status ⟨⟩ -
    exact .inr ⟨rfl, rfl⟩
  · rintro t r ⟨⟩ hr
    rw [workingTables, Dict.get?_insert, if_pos (by decide)] at hr
    cases hr
    rfl

/-- A fill that wins the race is reported, and stored, as CANCELLED; and when the broker does cancel,
the capital stays reserved. -/
theorem filled_reported_cancelled :
    let filled := cancelOrder { } workingManager (some (workingTables .reserved)) (answered .filled)
    let cancelled := cancelOrder { } workingManager (some (workingTables .reserved)) (answered .cancelled)
    (filled.returned.toOption = some .cancelled ∧
        ¬ Truthful (cancel { } working (answered .filled).answer).record filled.tables .cancelled) ∧
      ¬ Truthful (cancel { } working (answered .cancelled).answer).record cancelled.tables .cancelled := by
  refine ⟨⟨rfl, fun h => ?_⟩, fun h => ?_⟩
  · have hreturned := h.returned
    revert hreturned
    decide
  · have hreserved := h.reservation _ ⟨7, 900, .reserved⟩ rfl rfl
    revert hreserved
    decide

end Droid.Algo
