import Droid.Paper.Service
import Droid.Lib.Run
import Mathlib.Algebra.BigOperators.Group.List.Basic
import Mathlib.Tactic.Linarith

/-! The positions of a shard against the filled orders of its log. -/
namespace Droid.Paper
open Lib

def OrderPayload.signed (payload : OrderPayload) : Int := payload.side.mult * payload.quantity

def VirtualPosition.signed (pos : VirtualPosition) : Int :=
  if pos.isOpen then pos.side.mult * pos.quantity else 0

/-- What an order contributes to a position once it is FILLED. -/
def VirtualOrder.booked (order : VirtualOrder) (id : PositionId) : Int :=
  if order.status = .filled ∧ order.payload.positionId = id then order.payload.signed else 0

/-- One for an order of this client that was not rejected. -/
def VirtualOrder.submission (order : VirtualOrder) (c : String) : Int :=
  if order.payload.clientOrderId = some c ∧ order.status ≠ .rejected then 1 else 0

namespace Shard

def held (s : Shard) (id : PositionId) : Int := ((s.positions.get? id).map (·.signed)).getD 0

def filledQty (s : Shard) (id : PositionId) : Int := (s.orders.map (·.booked id)).sum

def gap (s : Shard) (id : PositionId) : Int := s.held id - s.filledQty id

def submissions (s : Shard) (c : String) : Int := (s.orders.map (·.submission c)).sum

end Shard

/-! ### Spec lemmas of the order path -/

theorem sum_map_set {α : Type} (f : α → Int) (l : List α) (i : Nat) {a : α}
    (h : l[i]? = some a) (b : α) : ((l.set i b).map f).sum = (l.map f).sum - f a + f b := by
  induction l generalizing i with
  | nil => cases h
  | cons x xs ih =>
    cases i with
    | zero =>
      cases Option.some.inj h
      simp only [List.set_cons_zero, List.map_cons, List.sum_cons]
      omega
    | succ i =>
      have hi := ih i h
      simp only [List.set_cons_succ, List.map_cons, List.sum_cons, hi]
      omega

namespace Shard

/-- The order path answers with the remembered order, rejects, rests or fills; what it fills
has passed the gates, at a price that is not negative. -/
theorem placeOrderLocked_passes (cond : Conditions) (s : Shard) (payload : OrderPayload)
    (allowClosedMarket : Bool) (forcedFill : Option (ℚ × FillSource)) :
    (∃ id, (payload.clientOrderId.filter (· ≠ "")).bind s.idempotency.get? = some id ∧
        s.placeOrderLocked cond payload allowClosedMarket forcedFill = (s, id)) ∨
      (payload.clientOrderId.filter (· ≠ "")).bind s.idempotency.get? = none ∧
        ((∃ reason, s.placeOrderLocked cond payload allowClosedMarket forcedFill =
            s.reject payload reason) ∨
          s.placeOrderLocked cond payload allowClosedMarket forcedFill =
            s.submit { payload, status := .pending } ∨
          ∃ fillPrice source, (0 ≤ fillPrice ∧ s.riskGate payload = none ∧
              s.marginShort payload fillPrice = none) ∧
            s.placeOrderLocked cond payload allowClosedMarket forcedFill =
              (s.applyFill payload fillPrice).submit
                { payload, status := .filled, fillPrice := some fillPrice, fillSource := some source
                  estimatedCosts := some (estimateCosts payload.side fillPrice payload.quantity) }) := by
  rw [placeOrderLocked]
  cases hseen : (payload.clientOrderId.filter (· ≠ "")).bind s.idempotency.get? with
  | some id => exact .inl ⟨id, rfl, rfl⟩
  | none =>
    refine .inr ⟨rfl, ?_⟩
    simp only
    split
    · exact .inl ⟨_, rfl⟩
    · rename_i hgate
      have hrisk : s.riskGate payload = none := (Option.or_eq_none_iff.mp hgate).2
      split
      · exact .inr (.inl rfl)
      · exact .inl ⟨_, rfl⟩
      · rw [execute]
        split
        · exact .inl ⟨_, rfl⟩
        · rename_i hprice
          simp only
          split
          · exact .inl ⟨_, rfl⟩
          · rename_i hshort
            have hpaid := (Option.or_eq_none_iff.mp hshort).2
            exact .inr (.inr ⟨_, _, ⟨roundTo_nonneg 2 (not_le.mp hprice).le, hrisk, hpaid⟩, rfl⟩)

theorem placeOrderLocked_cases (cond : Conditions) (s : Shard) (payload : OrderPayload)
    (allowClosedMarket : Bool) (forcedFill : Option (ℚ × FillSource)) :
    (∃ id, (payload.clientOrderId.filter (· ≠ "")).bind s.idempotency.get? = some id ∧
        s.placeOrderLocked cond payload allowClosedMarket forcedFill = (s, id)) ∨
      (payload.clientOrderId.filter (· ≠ "")).bind s.idempotency.get? = none ∧
        ((∃ reason, s.placeOrderLocked cond payload allowClosedMarket forcedFill =
            s.reject payload reason) ∨
          s.placeOrderLocked cond payload allowClosedMarket forcedFill =
            s.submit { payload, status := .pending } ∨
          ∃ fillPrice source, s.placeOrderLocked cond payload allowClosedMarket forcedFill =
            (s.applyFill payload fillPrice).submit
              { payload, status := .filled, fillPrice := some fillPrice, fillSource := some source
                estimatedCosts := some (estimateCosts payload.side fillPrice payload.quantity) }) := by
  rcases placeOrderLocked_passes cond s payload allowClosedMarket forcedFill with
    hseen | ⟨hnew, hrejected | hresting | ⟨fillPrice, source, -, heq⟩⟩
  · exact .inl hseen
  · exact .inr ⟨hnew, .inl hrejected⟩
  · exact .inr ⟨hnew, .inr (.inl hresting)⟩
  · exact .inr ⟨hnew, .inr (.inr ⟨fillPrice, source, heq⟩)⟩

@[simp] theorem store_orders (s : Shard) (id : PositionId) (pos : VirtualPosition) :
    (s.store id pos).orders = s.orders := rfl

@[simp] theorem store_idempotency (s : Shard) (id : PositionId) (pos : VirtualPosition) :
    (s.store id pos).idempotency = s.idempotency := rfl

theorem held_store (s : Shard) (id : PositionId) (pos : VirtualPosition) (k : PositionId) :
    (s.store id pos).held k = if k = id then pos.signed else s.held k := by
  rw [held, store]
  rw [Dict.get?_insert]
  split <;> rfl

theorem held_of_openPosition {s : Shard} {id : PositionId} {pos : VirtualPosition}
    (h : s.openPosition id = some pos) : s.held id = pos.side.mult * pos.quantity := by
  obtain ⟨hget, hopen⟩ := Option.filter_eq_some_iff.mp h
  simp [held, hget, VirtualPosition.signed, hopen]

theorem held_of_none {s : Shard} {id : PositionId} (h : s.openPosition id = none) : s.held id = 0 := by
  rw [held]
  cases hget : s.positions.get? id with
  | none => rfl
  | some pos =>
    have hclosed : pos.isOpen = false := by simpa [openPosition, hget, Option.filter] using h
    simp [VirtualPosition.signed, hclosed]

/-- A fill moves one position by the signed quantity of the order, whether it opens,
adds, reduces, closes or flips; besides, only the realized result moves. -/
theorem applyFill_spec (s : Shard) (payload : OrderPayload) (fillPrice : ℚ) :
    ∃ realized pos, s.applyFill payload fillPrice =
        { s with realized }.store payload.positionId pos ∧
      pos.signed = s.held payload.positionId + payload.signed := by
  rw [applyFill]
  cases hopen : s.openPosition payload.positionId with
  | none =>
    simp only
    refine ⟨s.realized, _, rfl, ?_⟩
    simp [held_of_none hopen, VirtualPosition.signed, VirtualPosition.openAt, OrderPayload.signed]
  | some existing =>
    have hexisting := (Option.filter_eq_some_iff.mp hopen).2
    rw [held_of_openPosition hopen]
    simp only
    by_cases hside : existing.side = payload.side
    · rw [if_pos hside]
      refine ⟨s.realized, _, rfl, ?_⟩
      simp only [VirtualPosition.signed, VirtualPosition.add, VirtualPosition.refresh, hexisting, if_true,
        OrderPayload.signed, hside]
      ring
    · rw [if_neg hside]
      have hmult : existing.side.mult = -payload.side.mult := by
        revert hside
        cases existing.side <;> cases payload.side <;> decide
      split
      · refine ⟨_, _, rfl, ?_⟩
        simp only [VirtualPosition.signed, VirtualPosition.reduce, VirtualPosition.refresh, hexisting,
          if_true, OrderPayload.signed, hmult]
        ring
      · split
        · have hq : payload.quantity = existing.quantity := by omega
          refine ⟨_, _, rfl, ?_⟩
          simp [VirtualPosition.signed, VirtualPosition.close, OrderPayload.signed, hmult, hq]
        · refine ⟨_, _, rfl, ?_⟩
          simp only [VirtualPosition.signed, VirtualPosition.openAt, if_true, OrderPayload.signed, hmult]
          ring

/-! ### What a call keeps -/

/-- A client id stands for no more orders than the shard remembers. -/
def Recorded (s : Shard) : Prop :=
  ∀ c, c ≠ "" → s.submissions c ≤ if (s.idempotency.get? c).isSome then 1 else 0

/-- The gap stays, and client ids stay recorded. -/
structure Keeps (s s' : Shard) : Prop where
  gap : ∀ k, s'.gap k = s.gap k
  recorded : s.Recorded → s'.Recorded

theorem Keeps.refl (s : Shard) : Keeps s s := ⟨fun _ => rfl, id⟩

theorem Keeps.trans {s s' s'' : Shard} (h : Keeps s s') (h' : Keeps s' s'') : Keeps s s'' :=
  ⟨fun k => (h'.gap k).trans (h.gap k), fun hr => h'.recorded (h.recorded hr)⟩

theorem filledQty_log (s : Shard) (order : VirtualOrder) (k : PositionId) :
    (s.log order).1.filledQty k = s.filledQty k + order.booked k := by
  simp [filledQty, log]

theorem submissions_log (s : Shard) (order : VirtualOrder) (c : String) :
    (s.log order).1.submissions c = s.submissions c + order.submission c := by
  simp [submissions, log]

theorem reject_keeps (s : Shard) (payload : OrderPayload) (reason : RejectReason) :
    Keeps s (s.reject payload reason).1 := by
  refine ⟨fun k => ?_, fun hr c hc => ?_⟩
  · have hheld : (s.reject payload reason).1.held k = s.held k := rfl
    rw [gap, hheld, reject, filledQty_log]
    simp [VirtualOrder.booked, gap]
  · have hidem : (s.reject payload reason).1.idempotency = s.idempotency := rfl
    rw [hidem, reject, submissions_log]
    simpa [VirtualOrder.submission] using hr c hc

theorem remember_books (s : Shard) (payload : OrderPayload) (id : OrderId) :
    (s.remember payload id).orders = s.orders ∧ (s.remember payload id).positions = s.positions := by
  rw [remember]
  split <;> exact ⟨rfl, rfl⟩

theorem submit_orders (s : Shard) (order : VirtualOrder) :
    (s.submit order).1.orders = s.orders ++ [order] :=
  (remember_books _ _ _).1

theorem gap_submit (s : Shard) (order : VirtualOrder) (k : PositionId) :
    (s.submit order).1.gap k = s.gap k - order.booked k := by
  have hheld : (s.submit order).1.held k = s.held k := by
    unfold held
    rw [show (s.submit order).1.positions = s.positions from (remember_books _ _ _).2]
  rw [gap, hheld, filledQty, submit_orders]
  simp only [List.map_append, List.map_singleton, List.sum_append, List.sum_singleton, gap, filledQty]
  omega

theorem recorded_submit {s : Shard} {order : VirtualOrder} (hr : s.Recorded)
    (hnew : (order.payload.clientOrderId.filter (· ≠ "")).bind s.idempotency.get? = none) :
    (s.submit order).1.Recorded := by
  intro c hc
  have hsub : (s.submit order).1.submissions c = s.submissions c + order.submission c := by
    rw [submissions, submit_orders]
    simp [submissions]
  rw [hsub]
  have hle : order.submission c ≤ 1 := by
    rw [VirtualOrder.submission]
    split <;> omega
  by_cases hid : order.payload.clientOrderId = some c
  · have hnone : s.idempotency.get? c = none := by simpa [hid, Option.filter, hc] using hnew
    have hsome : (s.submit order).1.idempotency.get? c = some s.orders.length := by
      simp [submit, remember, log, hid, Option.filter, hc]
    have h0 : s.submissions c ≤ 0 := by simpa [hnone] using hr c hc
    simp only [hsome, Option.isSome_some, if_true]
    omega
  · have hzero : order.submission c = 0 := by simp [VirtualOrder.submission, hid]
    have hsame : (s.submit order).1.idempotency.get? c = s.idempotency.get? c := by
      simp only [submit, remember, log]
      split
      · rename_i c' hc'
        have hne : c ≠ c' := by
          rintro rfl
          exact hid (Option.filter_eq_some_iff.mp hc').1
        simp [hne]
      · rfl
    rw [hzero, hsame, add_zero]
    exact hr c hc

theorem applyFill_gap (s : Shard) (payload : OrderPayload) (fillPrice : ℚ) (k : PositionId) :
    (s.applyFill payload fillPrice).gap k =
      s.gap k + if payload.positionId = k then payload.signed else 0 := by
  obtain ⟨realized, pos, heq, hpos⟩ := applyFill_spec s payload fillPrice
  have hfilled : (s.applyFill payload fillPrice).filledQty k = s.filledQty k := by
    rw [heq]
    rfl
  have hsame : Shard.held { s with realized } k = s.held k := rfl
  rw [gap, hfilled, heq, held_store, hsame, gap]
  by_cases hk : k = payload.positionId
  · subst hk
    simp only [if_true, hpos]
    omega
  · simp only [hk, Ne.symm hk, if_false]
    omega

/-- Every order through the order path keeps the gap: a fill books as much as it logs. -/
theorem placeOrderLocked_keeps (cond : Conditions) (s : Shard) (payload : OrderPayload)
    (allowClosedMarket : Bool) (forcedFill : Option (ℚ × FillSource)) :
    Keeps s (s.placeOrderLocked cond payload allowClosedMarket forcedFill).1 := by
  rcases placeOrderLocked_cases cond s payload allowClosedMarket forcedFill with
    ⟨id, -, heq⟩ | ⟨hnew, ⟨reason, heq⟩ | heq | ⟨fillPrice, source, heq⟩⟩
  · rw [heq]
    exact Keeps.refl s
  · rw [heq]
    exact reject_keeps s payload reason
  · rw [heq]
    refine ⟨fun k => ?_, fun hr => recorded_submit hr hnew⟩
    rw [gap_submit]
    simp [VirtualOrder.booked]
  · rw [heq]
    obtain ⟨realized, pos, hfill, -⟩ := applyFill_spec s payload fillPrice
    refine ⟨fun k => ?_, fun hr => recorded_submit ?_ ?_⟩
    · rw [gap_submit, applyFill_gap]
      simp only [VirtualOrder.booked, true_and]
      omega
    · rw [hfill]
      exact hr
    · rw [hfill]
      exact hnew

/-- Rewriting an order of the log. -/
theorem gap_set (s : Shard) {id : OrderId} {order : VirtualOrder} (h : s.orders[id]? = some order)
    (order' : VirtualOrder) (k : PositionId) :
    Shard.gap { s with orders := s.orders.set id order' } k = s.gap k + order.booked k - order'.booked k := by
  have hheld : Shard.held { s with orders := s.orders.set id order' } k = s.held k := rfl
  rw [gap, hheld, filledQty, sum_map_set _ _ _ h, gap, filledQty]
  omega

theorem recorded_set {s : Shard} {id : OrderId} {order order' : VirtualOrder}
    (h : s.orders[id]? = some order) (hsub : ∀ c, order'.submission c = order.submission c)
    (hr : s.Recorded) : Shard.Recorded { s with orders := s.orders.set id order' } := by
  intro c hc
  rw [submissions, sum_map_set _ _ _ h, hsub]
  have hle := hr c hc
  unfold submissions at hle
  simp only at hle ⊢
  omega

theorem cancelOrder_ok {s s' : Shard} {id : OrderId} (h : s.cancelOrder id = .ok s') :
    ∃ order, s.orders[id]? = some order ∧ order.status = .pending ∧
      s' = { s with orders := s.orders.set id { order with status := .cancelled } } := by
  unfold cancelOrder at h
  split at h
  · cases h
  · rename_i order horder
    split at h
    · cases h
    · rename_i hpending
      cases h
      exact ⟨order, horder, not_not.mp hpending, rfl⟩

theorem cancelOrder_keeps {s s' : Shard} {id : OrderId} (h : s.cancelOrder id = .ok s') : Keeps s s' := by
  obtain ⟨order, horder, hpending, rfl⟩ := cancelOrder_ok h
  refine ⟨fun k => ?_, recorded_set horder fun c => ?_⟩
  · rw [gap_set s horder]
    simp [VirtualOrder.booked, hpending]
  · simp [VirtualOrder.submission, hpending]

/-- A square-off marks the open position at a quote, or leaves it, and stops there or places the
order that closes it. -/
theorem squareOffPosition_cases (cond : Conditions) (s : Shard) (id : PositionId) (allowClosedMarket : Bool) :
    (s.openPosition id = none ∧ (s.squareOffPosition cond id allowClosedMarket).1 = s) ∨
      ∃ pos refreshed, s.openPosition id = some pos ∧
        (refreshed = pos ∨ ∃ ltp, refreshed = pos.refresh ltp) ∧
        ((s.squareOffPosition cond id allowClosedMarket).1 = s.store id refreshed ∨
          ∃ payload forced, exitOrder refreshed = some payload ∧
            (s.squareOffPosition cond id allowClosedMarket).1 =
              ((s.store id refreshed).placeOrderLocked cond payload true (some forced)).1) := by
  rw [squareOffPosition]
  cases hopen : s.openPosition id with
  | none => exact .inl ⟨rfl, rfl⟩
  | some pos =>
    have hrefreshed : (exitFill cond.market pos).1 = pos ∨ ∃ ltp, (exitFill cond.market pos).1 = pos.refresh ltp := by
      rw [exitFill]
      split
      · exact .inr ⟨_, rfl⟩
      · exact .inl rfl
    refine .inr ⟨pos, (exitFill cond.market pos).1, rfl, hrefreshed, ?_⟩
    simp only
    split
    · exact .inl rfl
    · split
      · exact .inl rfl
      · split
        · exact .inl rfl
        · rename_i payload hpayload
          exact .inr ⟨payload, _, hpayload, rfl⟩

/-- A mark leaves what is held. -/
theorem held_refreshed {s : Shard} {id : PositionId} {pos refreshed : VirtualPosition}
    (hopen : s.openPosition id = some pos) (h : refreshed = pos ∨ ∃ ltp, refreshed = pos.refresh ltp)
    (k : PositionId) : (s.store id refreshed).held k = s.held k := by
  obtain ⟨-, hisOpen⟩ := Option.filter_eq_some_iff.mp hopen
  rw [held_store]
  split
  · rename_i hk
    rw [hk, held_of_openPosition hopen]
    rcases h with rfl | ⟨ltp, rfl⟩ <;> simp [VirtualPosition.signed, VirtualPosition.refresh, hisOpen]
  · rfl

end Shard

def VirtualOrder.markedFilled (order : VirtualOrder) (fillAt : ℚ) : VirtualOrder :=
  { order with
    status := .filled, fillPrice := some (roundTo 2 fillAt), fillSource := some .limit
    estimatedCosts := some (estimateCosts order.payload.side (roundTo 2 fillAt) order.payload.quantity) }

/-- What a resting order contributes to a sweep at this price. -/
def VirtualOrder.swept (order : VirtualOrder) (ltp : ℚ) (id : PositionId) : Int :=
  if order.status = .pending ∧ (touchPrice order ltp).isSome ∧ order.payload.positionId = id then
    order.payload.signed
  else 0

namespace Shard

/-- The signed quantity of the resting orders that a sweep fills. -/
def sweptQty (s : Shard) (symbol : String) (ltp : ℚ) (id : PositionId) : Int :=
  if ltp ≤ 0 then 0
  else ((s.candidates symbol).map fun i => ((s.orders[i]?).map (·.swept ltp id)).getD 0).sum

theorem placeOrderLocked_older (cond : Conditions) (s : Shard) (payload : OrderPayload)
    (allowClosedMarket : Bool) (forcedFill : Option (ℚ × FillSource)) :
    s.orders <+: (s.placeOrderLocked cond payload allowClosedMarket forcedFill).1.orders := by
  rcases placeOrderLocked_cases cond s payload allowClosedMarket forcedFill with
    ⟨id, -, heq⟩ | ⟨-, ⟨reason, heq⟩ | heq | ⟨fillPrice, source, heq⟩⟩
  · rw [heq]
  · rw [heq]
    exact List.prefix_append _ _
  · rw [heq, submit_orders]
    exact List.prefix_append _ _
  · obtain ⟨realized, pos, hfill, -⟩ := applyFill_spec s payload fillPrice
    rw [heq, submit_orders, hfill]
    exact List.prefix_append _ _

/-- What a candidate of the sweep comes to: nothing, where it does not rest or its price is not
touched; else it is marked as filled in the log, and its leg is placed, if it has one. -/
theorem fillPending_cases (cond : Conditions) (ltp : ℚ) (s : Shard) (id : OrderId) :
    (s.fillPending cond ltp id = s ∧
        ∀ order, s.orders[id]? = some order → touchPrice order ltp = none ∨ order.status ≠ .pending) ∨
      ∃ order fillAt, s.orders[id]? = some order ∧ touchPrice order ltp = some fillAt ∧
        order.status = .pending ∧
        (s.fillPending cond ltp id = { s with orders := s.orders.set id (order.markedFilled fillAt) } ∨
          ∃ leg, legOrder order.payload (roundTo 2 fillAt) = some leg ∧
            s.fillPending cond ltp id =
              (placeOrderLocked cond { s with orders := s.orders.set id (order.markedFilled fillAt) } leg true
                (some (roundTo 2 fillAt, .limit))).1) := by
  rw [fillPending]
  cases horder : s.orders[id]? with
  | none =>
    refine .inl ⟨rfl, fun _ ho => ?_⟩
    cases ho
  | some order =>
    simp only
    cases htouch : touchPrice order ltp with
    | none =>
      refine .inl ⟨rfl, fun _ ho => ?_⟩
      cases ho
      exact .inl htouch
    | some fillAt =>
      by_cases hpending : order.status = .pending
      · simp only [hpending, ne_eq, not_true_eq_false, if_false]
        refine .inr ⟨order, fillAt, rfl, htouch, hpending, ?_⟩
        cases hleg : legOrder order.payload (roundTo 2 fillAt) with
        | none => exact .inl rfl
        | some leg => exact .inr ⟨leg, rfl, rfl⟩
      · simp only [ne_eq, hpending, not_false_eq_true, if_true]
        refine .inl ⟨trivial, fun _ ho => ?_⟩
        cases ho
        exact .inr hpending

/-- A touched resting order is booked in the log and not by its leg, which keeps
the gap: the gap falls by the order's quantity. Older orders stay. -/
theorem fillPending_spec (cond : Conditions) (ltp : ℚ) (s : Shard) (id : OrderId) :
    (∀ k, (s.fillPending cond ltp id).gap k =
        s.gap k - ((s.orders[id]?).map (·.swept ltp k)).getD 0) ∧
      (s.Recorded → (s.fillPending cond ltp id).Recorded) ∧
      s.orders.length ≤ (s.fillPending cond ltp id).orders.length ∧
      ∀ i < s.orders.length, i ≠ id → (s.fillPending cond ltp id).orders[i]? = s.orders[i]? := by
  rcases fillPending_cases cond ltp s id with
    ⟨heq, hidle⟩ | ⟨order, fillAt, horder, htouch, hpending, heq⟩
  · rw [heq]
    refine ⟨fun k => ?_, fun hr => hr, le_rfl, fun _ _ _ => rfl⟩
    cases horder : s.orders[id]? with
    | none => simp
    | some order =>
      rcases hidle order horder with hnone | hstatus
      · simp [VirtualOrder.swept, hnone]
      · simp [VirtualOrder.swept, hstatus]
  · have hgap : ∀ k, Shard.gap { s with orders := s.orders.set id (order.markedFilled fillAt) } k =
        s.gap k - ((s.orders[id]?).map (·.swept ltp k)).getD 0 := by
      intro k
      rw [gap_set s horder, horder]
      simp [VirtualOrder.markedFilled, VirtualOrder.booked, VirtualOrder.swept, hpending, htouch]
    have hrec : s.Recorded →
        Shard.Recorded { s with orders := s.orders.set id (order.markedFilled fillAt) } := by
      refine recorded_set horder fun c => ?_
      simp [VirtualOrder.markedFilled, VirtualOrder.submission, hpending]
    have holder : ∀ i < s.orders.length, i ≠ id →
        (s.orders.set id (order.markedFilled fillAt))[i]? = s.orders[i]? :=
      fun i _ hne => List.getElem?_set_ne (Ne.symm hne)
    rcases heq with heq | ⟨leg, -, heq⟩
    · rw [heq]
      exact ⟨hgap, hrec, by simp, holder⟩
    · obtain ⟨hleg, hlegrec⟩ := placeOrderLocked_keeps cond
        { s with orders := s.orders.set id (order.markedFilled fillAt) } leg true
        (some (roundTo 2 fillAt, .limit))
      obtain ⟨more, hmore⟩ := placeOrderLocked_older cond
        { s with orders := s.orders.set id (order.markedFilled fillAt) } leg true
        (some (roundTo 2 fillAt, .limit))
      rw [heq]
      refine ⟨fun k => (hleg k).trans (hgap k), fun hr => hlegrec (hrec hr), ?_, fun i hi hne => ?_⟩
      · rw [← hmore]
        simp
      · rw [← hmore, List.getElem?_append_left (by simpa using hi)]
        exact holder i hi hne

end Shard

inductive PaperCall where
  | placeOrder (cond : Conditions) (payload : OrderPayload) (allowClosedMarket : Bool)
  | placeBasket (legs : List (Conditions × OrderPayload)) (allowClosedMarket : Bool)
  | cancelOrder (id : OrderId)
  | squareOffPosition (cond : Conditions) (id : PositionId) (allowClosedMarket : Bool)
  | squareOffAll (conds : PositionId → Conditions) (allowClosedMarket : Bool)
  | evaluatePendingOrders (cond : Conditions) (symbol : String) (ltp : ℚ)

namespace Shard

def step (s : Shard) : PaperCall → Shard
  | .placeOrder cond payload allowClosedMarket => (s.placeOrder cond payload allowClosedMarket).1
  | .placeBasket legs allowClosedMarket => s.placeBasket legs allowClosedMarket
  | .cancelOrder id =>
    match s.cancelOrder id with
    | .ok s => s
    | .error _ => s
  | .squareOffPosition cond id allowClosedMarket => (s.squareOffPosition cond id allowClosedMarket).1
  | .squareOffAll conds allowClosedMarket => s.squareOffAll conds allowClosedMarket
  | .evaluatePendingOrders cond symbol ltp => s.evaluatePendingOrders cond symbol ltp

/-- Positions and filled orders agree, and no client id stands for two orders. -/
structure Balanced (s : Shard) : Prop where
  conserved : ∀ k, s.held k = s.filledQty k
  once : ∀ c, c ≠ "" → s.submissions c ≤ 1

/-- A sweep fills resting orders of no net quantity in any position. -/
def Settles (s : Shard) : PaperCall → Prop
  | .evaluatePendingOrders _ symbol ltp => ∀ k, s.sweptQty symbol ltp k = 0
  | _ => True

def restingBuy : OrderPayload where
  symbol := "NIFTY24AUG23800CE"
  underlying := "NIFTY"
  side := .buy
  orderType := .limit
  quantity := 75
  price := 100
  quantity_pos := by decide
  price_nonneg := by decide

end Shard

end Droid.Paper
