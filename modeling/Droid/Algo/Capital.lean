import Droid.Algo.OrderManager
import Droid.Lib.Run
import Mathlib.Data.Rat.Floor
import Mathlib.Algebra.Order.BigOperators.Group.List

/-! The capital engine and the order pipeline that reserves, submits and settles. -/
namespace Droid.Algo
open Lib

/-- The row of the capital table that `reserve` reads. -/
structure CapitalConfig where
  investmentLimit : ℚ := 3000
  maxCapitalPerTrade : Option ℚ := some 1000

inductive ReservationStatus where
  | reserved | released | consumed
  deriving DecidableEq, Repr

structure Reservation where
  reservationId : Uuid
  amount : ℚ
  status : ReservationStatus
  deriving Repr

inductive ReserveError where
  | invalidAmount
  | insufficientCapital (amount available limit deployed reserved : ℚ)
  | exceedsMaxCapitalPerTrade (amount maxPerTrade : ℚ)
  | lockContention
  deriving Repr

/-- A positive amount as a `Numeric(18,2)` column holds it. -/
def numeric2 (x : ℚ) : ℚ := ⌊x * 100 + 1 / 2⌋ / 100

/-- The sum over the rows with status RESERVED. -/
def reservedPending (rows : List Reservation) : ℚ :=
  ((rows.filter fun r => r.status = .reserved).map Reservation.amount).sum

/-- `CapitalEngine.reserve`; `deployed` is the margin of the account's open position rows. -/
def reserve (cfg : CapitalConfig) (deployed : ℚ) (lockFree : Bool) (rows : List Reservation)
    (reservationId : Uuid) (amount : ℚ) : Except ReserveError (List Reservation) :=
  if amount ≤ 0 then .error .invalidAmount
  else if ¬ lockFree then .error .lockContention
  else
    let reserved := reservedPending rows
    let available := cfg.investmentLimit - deployed - reserved
    if amount > available then
      .error (.insufficientCapital amount available cfg.investmentLimit deployed reserved)
    else
      match cfg.maxCapitalPerTrade.filter (· ≠ 0) with
      | some maxPerTrade =>
        if amount > maxPerTrade then .error (.exceedsMaxCapitalPerTrade amount maxPerTrade)
        else .ok (rows ++ [⟨reservationId, numeric2 amount, .reserved⟩])
      | none => .ok (rows ++ [⟨reservationId, numeric2 amount, .reserved⟩])

/-- `release` and `consume`: move a reservation out of RESERVED. -/
def closeReservation (status : ReservationStatus) (reservationId : Uuid) (rows : List Reservation) :
    List Reservation :=
  rows.map fun r =>
    if r.reservationId = reservationId ∧ r.status = .reserved then { r with status } else r

def release : Uuid → List Reservation → List Reservation := closeReservation .released

def consume : Uuid → List Reservation → List Reservation := closeReservation .consumed

/-! ### The order pipeline -/

structure AlgoAccount where
  id : AccountId
  isPaper : Bool := true

structure OrderPayload where
  clientOrderId : Option Uuid := none
  symbol : String
  side : String
  quantity : Int
  price : Option ℚ
  orderType : Option String := none
  instrumentId : Option String := none
  spreadId : Option Uuid := none
  deriving Repr

/-- What one call meets outside the pipeline: the ids it draws, the verdict of the
risk stack, the margin of the open position rows, whether the capital row's lock
is free, whether the two database writes go through, and the broker's answer. -/
structure CallContext where
  fresh : Uuid
  reservationId : Uuid
  approved : Bool := true
  deployed : ℚ := 0
  lockFree : Bool := true
  persisted : Bool := true
  answer : Answer
  settled : Bool := true
  deriving Repr

/-- Orders in memory, the ids of the order rows, and the reservation rows. -/
structure OrderBook where
  manager : OrderManager := { }
  orderRows : List Uuid := []
  reservations : List Reservation := []

/-- `price * quantity * 0.15`, for a price other than zero. -/
def marginOf (price : ℚ) (quantity : Int) : ℚ := price * quantity * (15 / 100)

def OrderPayload.orderPrice (payload : OrderPayload) : ℚ := payload.price.getD 0

/-- `intent.estimated_margin` where its truth is tested. -/
def OrderPayload.estimatedMargin (payload : OrderPayload) : Option ℚ :=
  (some (marginOf payload.orderPrice payload.quantity)).filter (· ≠ 0)

def OrderPayload.intent (payload : OrderPayload) (account : AlgoAccount) (cid : Uuid) :
    IntentArgs where
  accountId := account.id
  symbol := payload.symbol
  side := payload.side.toUpper
  quantity := payload.quantity
  price := some payload.orderPrice
  orderType := payload.orderType.getD "LIMIT"
  instrumentId := payload.instrumentId
  spreadId := payload.spreadId
  expectedPrice := some payload.orderPrice
  isPaper := account.isPaper
  clientOrderId := some cid

/-- A known id is answered from the record or row it has. -/
def OrderBook.known (book : OrderBook) (account : AlgoAccount) (cid : Uuid) : Bool :=
  (book.manager.get cid (some account.id)).isSome ∨ (book.manager.get cid none).isSome ∨
    cid ∈ book.orderRows

/-- The reservation stage: no reservation is made for a zero margin. -/
def OrderBook.reserveFor (cfg : CapitalConfig) (book : OrderBook) (payload : OrderPayload)
    (ctx : CallContext) : Except ReserveError (List Reservation) :=
  match payload.estimatedMargin with
  | none => .ok book.reservations
  | some amount =>
    reserve cfg ctx.deployed ctx.lockFree book.reservations ctx.reservationId amount

def settle (status : OrderStatus) (reservationId : Uuid) (rows : List Reservation) :
    List Reservation :=
  match status with
  | .filled => consume reservationId rows
  | .rejected | .cancelled | .timedOut | .unknown => release reservationId rows
  | _ => rows

/-- The attempted move to RISK_APPROVED; its failure is ignored. -/
def OrderManager.approve (m : OrderManager) (cid : Uuid) : OrderManager :=
  match m.transition cid .riskApproved none with
  | .ok (m, _) => m
  | .error _ => m

/-- The end of `create_order`: submission and, if the second write goes through,
the settlement of the reservation. -/
def submitAndSettle (reg : BrokerRegistry) (book : OrderBook) (ref : Ref) (ctx : CallContext) :
    OrderBook :=
  match book.manager.records[ref]? with
  | none => book
  | some record =>
    match submit reg record ctx.answer with
    | .error _ => book
    | .ok t =>
      { book with
        manager := { book.manager with records := book.manager.records.set ref t.record }
        reservations :=
          if ctx.persisted ∧ ctx.settled ∧ ctx.answer ≠ .aborted then
            settle t.record.status ctx.reservationId book.reservations
          else book.reservations }

/-- `create_order` on a database session. A failed first write rolls the
reservation back and the order is submitted all the same; a failed second
write, or a cancelled task, leaves the reservation as it is. -/
def createOrder (cfg : CapitalConfig) (reg : BrokerRegistry) (account : AlgoAccount)
    (book : OrderBook) (payload : OrderPayload) (ctx : CallContext) : OrderBook :=
  let cid := payload.clientOrderId.getD ctx.fresh
  if book.known account cid then book
  else if ¬ ctx.approved then
    { book with orderRows := if ctx.persisted then cid :: book.orderRows else book.orderRows }
  else
    match book.reserveFor cfg payload ctx with
    | .error _ => book
    | .ok rows =>
      let (manager, ref) := book.manager.createIntent (payload.intent account cid) ctx.fresh
      let manager := manager.approve cid
      submitAndSettle reg
        (if ctx.persisted then
          { manager, reservations := rows, orderRows := cid :: book.orderRows }
        else { book with manager })
        ref ctx

def OrderBook.step (cfg : CapitalConfig) (reg : BrokerRegistry) (account : AlgoAccount)
    (book : OrderBook) (call : OrderPayload × CallContext) : OrderBook :=
  createOrder cfg reg account book call.1 call.2

/-- Filled, or with an outcome still open at the broker. -/
def exposed (s : OrderStatus) : Bool :=
  s ∈ [.filled, .submitted, .acknowledged, .partiallyFilled, .timedOut, .unknown]

def OrderRecord.margin (record : OrderRecord) : ℚ := marginOf (record.price.getD 0) record.quantity

def exposure (records : List OrderRecord) : ℚ :=
  ((records.filter fun r => exposed r.status).map OrderRecord.margin).sum

def WithinLimit (cfg : CapitalConfig) (book : OrderBook) : Prop :=
  exposure book.manager.records ≤ cfg.investmentLimit

/-- When the amount fits what `reserve` takes for available, open positions and
pending reservations cover the exposure so far. -/
def Covered (cfg : CapitalConfig) (book : OrderBook) (call : OrderPayload × CallContext) : Prop :=
  ∀ rows, book.reserveFor cfg call.1 call.2 = .ok rows → call.1.estimatedMargin ≠ none →
    exposure book.manager.records ≤ call.2.deployed + reservedPending book.reservations

/-! ### What one call does to the orders -/

theorem reserve_fits {cfg : CapitalConfig} {deployed : ℚ} {lockFree : Bool}
    {rows rows' : List Reservation} {rid : Uuid} {amount : ℚ}
    (h : reserve cfg deployed lockFree rows rid amount = .ok rows') :
    0 < amount ∧ amount ≤ cfg.investmentLimit - deployed - reservedPending rows := by
  unfold reserve at h
  split at h
  · cases h
  · rename_i hpos
    split at h
    · cases h
    · simp only at h
      split at h
      · cases h
      · rename_i hfit
        exact ⟨not_le.mp hpos, not_lt.mp hfit⟩

theorem OrderRecord.SameOrder.margin {r r' : OrderRecord} (h : r.SameOrder r') :
    r'.margin = r.margin := by
  rw [h]
  rfl

theorem approved_records (m : OrderManager) (args : IntentArgs) (fresh : Uuid) {cid : Uuid}
    (hid : args.clientOrderId.getD fresh = cid) (hnew : m.find args.accountId cid = none) :
    (m.createIntent args fresh).2 = m.records.length ∧
      ∃ record, (args.record cid).SameOrder record ∧
        ((m.createIntent args fresh).1.approve cid).records = m.records ++ [record] := by
  subst hid
  have hnone := Option.or_eq_none_iff.mp hnew
  rcases m.createIntent_cases args fresh with ⟨r, hk, -⟩ | ⟨r, -, hb, -⟩ | ⟨-, -, he⟩
  · exact absurd (hnone.1.symm.trans (OrderManager.get?_of_prune hk)) (by simp)
  · exact absurd (hnone.2.symm.trans (OrderManager.get?_of_prune hb)) (by simp)
  · rw [he]
    refine ⟨rfl, ?_⟩
    rw [OrderManager.approve]
    split
    · rename_i m' ref h
      obtain ⟨record, t, hl, hr, ht, rfl⟩ := OrderManager.transition_ok h
      have href : ref = m.records.length := by
        simpa [OrderManager.lookup] using hl.symm
      subst href
      rw [List.getElem?_concat_length] at hr
      cases hr
      exact ⟨t.record, transitionRecord_sameOrder ht, by simp⟩
    · exact ⟨args.record _, OrderRecord.SameOrder.refl _, rfl⟩

theorem submitAndSettle_records (reg : BrokerRegistry) (book : OrderBook) (ctx : CallContext)
    {records : List OrderRecord} {record : OrderRecord}
    (h : book.manager.records = records ++ [record]) :
    ∃ record', record.SameOrder record' ∧
      (submitAndSettle reg book records.length ctx).manager.records = records ++ [record'] := by
  simp only [submitAndSettle, h, List.getElem?_concat_length]
  cases hs : submit reg record ctx.answer with
  | error e => exact ⟨record, OrderRecord.SameOrder.refl record, h⟩
  | ok t => exact ⟨t.record, submit_sameOrder hs, by simp⟩

theorem createOrder_records (cfg : CapitalConfig) (reg : BrokerRegistry) (account : AlgoAccount)
    (book : OrderBook) (payload : OrderPayload) (ctx : CallContext) :
    (createOrder cfg reg account book payload ctx).manager.records = book.manager.records ∨
      ∃ rows record, book.reserveFor cfg payload ctx = .ok rows ∧
        record.margin = marginOf payload.orderPrice payload.quantity ∧
        (createOrder cfg reg account book payload ctx).manager.records =
          book.manager.records ++ [record] := by
  rw [createOrder]
  by_cases hk : book.known account (payload.clientOrderId.getD ctx.fresh)
  · simp [hk]
  · rw [if_neg hk]
    by_cases ha : ctx.approved
    · rw [if_neg (not_not.mpr ha)]
      cases hres : book.reserveFor cfg payload ctx with
      | error e => exact .inl rfl
      | ok rows =>
        have hnew : book.manager.find account.id (payload.clientOrderId.getD ctx.fresh) = none := by
          simp only [OrderBook.known, decide_eq_true_eq, not_or] at hk
          simpa [OrderManager.get] using hk.1
        obtain ⟨href, record, hsame, hrecords⟩ := approved_records book.manager
          (payload.intent account (payload.clientOrderId.getD ctx.fresh)) ctx.fresh rfl hnew
        simp only [href]
        obtain ⟨record', hsame', hrecords'⟩ := submitAndSettle_records reg
          (if ctx.persisted then
            { manager := OrderManager.approve _ _, reservations := rows
              orderRows := payload.clientOrderId.getD ctx.fresh :: book.orderRows }
          else { book with manager := OrderManager.approve _ _ }) ctx
          (by split <;> exact hrecords)
        refine .inr ⟨rows, record', rfl, ?_, hrecords'⟩
        rw [(hsame.trans hsame').margin]
        rfl
    · rw [if_pos ha]
      exact .inl rfl

theorem exposure_append (records : List OrderRecord) (record : OrderRecord) :
    exposure (records ++ [record]) =
      exposure records + if exposed record.status then record.margin else 0 := by
  unfold exposure
  rw [List.filter_append, List.map_append, List.sum_append]
  by_cases h : exposed record.status <;> simp [h]

theorem withinLimit_step (cfg : CapitalConfig) (reg : BrokerRegistry) (account : AlgoAccount)
    (book : OrderBook) (call : OrderPayload × CallContext) (hw : WithinLimit cfg book)
    (hc : Covered cfg book call) : WithinLimit cfg (book.step cfg reg account call) := by
  obtain ⟨payload, ctx⟩ := call
  rw [WithinLimit, OrderBook.step]
  rcases createOrder_records cfg reg account book payload ctx with h | ⟨rows, record, hres, hm, h⟩
  · rw [h]
    exact hw
  · rw [h, exposure_append, hm]
    cases he : payload.estimatedMargin with
    | none =>
      have hzero : marginOf payload.orderPrice payload.quantity = 0 := by
        simpa [OrderPayload.estimatedMargin, Option.filter_eq_none_iff] using he
      rw [hzero, ite_self, add_zero]
      exact hw
    | some amount =>
      have hamount : marginOf payload.orderPrice payload.quantity = amount :=
        (Option.filter_eq_some_iff.mp he).1 |> Option.some.inj
      have hcov := hc rows hres (by simp [he])
      simp only [OrderBook.reserveFor, he] at hres
      obtain ⟨hpos, hfit⟩ := reserve_fits hres
      rw [hamount]
      simp only at hcov
      split
      · linarith
      · linarith

/-- Along every run whose reservations are covered by open positions and pending
reservations, filled and unresolved orders never hold more margin than the limit. -/
theorem always_withinLimit (cfg : CapitalConfig) (reg : BrokerRegistry) (account : AlgoAccount)
    (book : OrderBook) (hw : WithinLimit cfg book) (calls : List (OrderPayload × CallContext))
    (hc : Guarded (OrderBook.step cfg reg account) (Covered cfg) book calls) :
    Always (OrderBook.step cfg reg account) (WithinLimit cfg) book calls :=
  always_of_guarded (withinLimit_step cfg reg account) hw hc

private def buy (id : Uuid) (answer : Answer) : OrderPayload × CallContext :=
  ({ clientOrderId := some id, symbol := "NIFTY", side := "buy", quantity := 100, price := some 60 },
    { fresh := 0, reservationId := id, answer })

private def fill : Answer := .result ⟨some "PAPER-1", some .filled, .number 60, .value 100⟩

private def ack : Answer := .result ⟨some "B-1", none, .absent, .absent⟩

/-- Two resting orders stay covered by their own reservations. -/
theorem acknowledged_withinLimit :
    Always (OrderBook.step { } { } { id := "a" }) (WithinLimit { }) { } [buy 1 ack, buy 2 ack] := by
  have hzero : WithinLimit { } { } := by
    rw [WithinLimit]
    decide +kernel
  refine always_withinLimit { } { } { id := "a" } { } hzero [buy 1 ack, buy 2 ack] ?_
  refine ⟨fun rows _ _ => ?_, fun rows _ _ => ?_, trivial⟩
  · decide +kernel
  · decide +kernel

/-- Four filled orders of 900 each pass a limit of 3000. -/
theorem filled_orders_over_limit :
    ¬ Always (OrderBook.step { } { } { id := "a" }) (WithinLimit { }) { }
      [buy 1 fill, buy 2 fill, buy 3 fill, buy 4 fill] := by
  intro h
  have hover : ¬ WithinLimit { } (run (OrderBook.step { } { } { id := "a" }) { }
      [buy 1 fill, buy 2 fill, buy 3 fill, buy 4 fill]) := by
    rw [WithinLimit]
    decide +kernel
  exact hover (run_of_always h)

end Droid.Algo
