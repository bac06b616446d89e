import Droid.Paper.Conservation

/-! What one order does to the held quantities, and when the market order against a
position fills. -/
namespace Droid.Paper
open Lib

def VirtualPosition.positionId (pos : VirtualPosition) : PositionId := (pos.symbol, pos.product)

namespace Shard

/-- Positions are stored under their own key, and an open one is not empty. -/
def Tidy (s : Shard) : Prop :=
  ∀ id pos, s.positions.get? id = some pos → pos.positionId = id ∧ (pos.isOpen → 0 < pos.quantity)

theorem Tidy.of_positions {s s' : Shard} (h : s.Tidy) (hp : s'.positions = s.positions) : s'.Tidy := by
  rw [Tidy]
  rw [hp]
  exact h

theorem Tidy.store {s : Shard} (h : s.Tidy) {id : PositionId} {pos : VirtualPosition}
    (hid : pos.positionId = id) (hq : pos.isOpen → 0 < pos.quantity) : (s.store id pos).Tidy := by
  intro k p hk
  rw [Shard.store, Dict.get?_insert] at hk
  split at hk
  · cases Option.some.inj hk
    rename_i hkid
    exact ⟨hid.trans hkid.symm, hq⟩
  · exact h k p hk

theorem Tidy.buy {s : Shard} (h : s.Tidy) {id : PositionId} {pos : VirtualPosition}
    (hopen : s.openPosition id = some pos) (hnonneg : 0 ≤ s.held id) :
    pos.positionId = id ∧ pos.side = .buy ∧ 0 < pos.quantity ∧ pos.quantity = s.held id := by
  obtain ⟨hget, hisOpen⟩ := Option.filter_eq_some_iff.mp hopen
  obtain ⟨hid, hq⟩ := h id pos hget
  have hheld := held_of_openPosition hopen
  have hqty := hq hisOpen
  cases hside : pos.side with
  | buy =>
    rw [hside, OrderSide.mult, one_mul] at hheld
    exact ⟨hid, rfl, hqty, hheld.symm⟩
  | sell =>
    rw [hside, OrderSide.mult] at hheld
    omega

/-- There is one where something is held. -/
theorem Tidy.long {s : Shard} (h : s.Tidy) {id : PositionId} (hpos : 0 < s.held id) :
    ∃ pos, s.openPosition id = some pos ∧ pos.positionId = id ∧ pos.side = .buy ∧
      pos.quantity = s.held id := by
  cases hopen : s.openPosition id with
  | none =>
    rw [held_of_none hopen] at hpos
    exact absurd hpos (lt_irrefl 0)
  | some pos =>
    obtain ⟨hid, hside, -, hq⟩ := h.buy hopen hpos.le
    exact ⟨pos, rfl, hid, hside, hq⟩

theorem Tidy.flat {s : Shard} (h : s.Tidy) {id : PositionId} (hzero : s.held id = 0) :
    s.openPosition id = none := by
  cases hopen : s.openPosition id with
  | none => rfl
  | some pos =>
    obtain ⟨hget, hisOpen⟩ := Option.filter_eq_some_iff.mp hopen
    have hq := (h id pos hget).2 hisOpen
    rw [held_of_openPosition hopen] at hzero
    cases hside : pos.side with
    | buy => rw [hside, OrderSide.mult] at hzero; omega
    | sell => rw [hside, OrderSide.mult] at hzero; omega

/-! ### One order -/

private theorem applyFill_tidy {s : Shard} (h : s.Tidy) (payload : OrderPayload) (fillPrice : ℚ) :
    (s.applyFill payload fillPrice).Tidy := by
  have hq := payload.quantity_pos
  rw [applyFill]
  cases hopen : s.openPosition payload.positionId with
  | none =>
    simp only
    refine h.store rfl fun _ => ?_
    exact hq
  | some existing =>
    obtain ⟨hget, hisOpen⟩ := Option.filter_eq_some_iff.mp hopen
    obtain ⟨hid, hpos⟩ := h _ _ hget
    have hpos := hpos hisOpen
    simp only
    split
    · refine h.store hid fun _ => ?_
      simp only [VirtualPosition.add, VirtualPosition.refresh]
      omega
    · have h' : Tidy { s with
          realized := s.realized + roundTo 2 (existing.tradeRealized payload.quantity fillPrice) } := h
      split
      · refine h'.store hid fun _ => ?_
        simp only [VirtualPosition.reduce, VirtualPosition.refresh]
        omega
      · split
        · exact h'.store hid fun hc => absurd hc (by simp [VirtualPosition.close])
        · refine h'.store rfl fun _ => ?_
          simp only [VirtualPosition.openAt]
          omega

theorem submit_positions (s : Shard) (order : VirtualOrder) :
    (s.submit order).1.positions = s.positions :=
  (remember_books _ _ _).2

theorem held_congr {s s' : Shard} (h : s'.positions = s.positions) (k : PositionId) :
    s'.held k = s.held k := by
  unfold held
  rw [h]

theorem Tidy.placeOrderLocked {s : Shard} (h : s.Tidy) (cond : Conditions) (payload : OrderPayload)
    (allowClosedMarket : Bool) (forcedFill : Option (ℚ × FillSource)) :
    (s.placeOrderLocked cond payload allowClosedMarket forcedFill).1.Tidy := by
  rcases placeOrderLocked_cases cond s payload allowClosedMarket forcedFill with
    ⟨id, -, heq⟩ | ⟨-, ⟨reason, heq⟩ | heq | ⟨fillPrice, source, heq⟩⟩
  · rw [heq]
    exact h
  · rw [heq]
    exact h
  · rw [heq]
    exact h.of_positions (submit_positions _ _)
  · rw [heq]
    exact (applyFill_tidy h payload fillPrice).of_positions (submit_positions _ _)

theorem filled_held (s : Shard) (payload : OrderPayload) (fillPrice : ℚ) (order : VirtualOrder)
    (k : PositionId) :
    ((s.applyFill payload fillPrice).submit order).1.held k =
      s.held k + if payload.positionId = k then payload.signed else 0 := by
  obtain ⟨realized, pos, hfill, hpos⟩ := applyFill_spec s payload fillPrice
  rw [held_congr (submit_positions _ _), hfill, held_store]
  by_cases hk : k = payload.positionId
  · subst hk
    simpa using hpos
  · simp only [hk, Ne.symm hk, if_false, add_zero]
    rfl

/-- An order leaves all held quantities alone, or moves its own key by its signed quantity. -/
theorem placeOrderLocked_held (cond : Conditions) (s : Shard) (payload : OrderPayload)
    (allowClosedMarket : Bool) (forcedFill : Option (ℚ × FillSource)) :
    (∀ k, (s.placeOrderLocked cond payload allowClosedMarket forcedFill).1.held k = s.held k) ∨
      ∀ k, (s.placeOrderLocked cond payload allowClosedMarket forcedFill).1.held k =
        s.held k + if payload.positionId = k then payload.signed else 0 := by
  rcases placeOrderLocked_cases cond s payload allowClosedMarket forcedFill with
    ⟨id, -, heq⟩ | ⟨-, ⟨reason, heq⟩ | heq | ⟨fillPrice, source, heq⟩⟩
  · exact .inl fun k => by rw [heq]
  · exact .inl fun k => by rw [heq]; rfl
  · exact .inl fun k => by rw [heq]; exact held_congr (submit_positions _ _) k
  · exact .inr fun k => by rw [heq]; exact filled_held s payload fillPrice _ k

theorem submit_answer (s : Shard) (order : VirtualOrder) :
    (s.submit order).1.orders[(s.submit order).2]? = some order := by
  rw [submit_orders]
  simp [submit, log]

/-- The answer to an order: one remembered under its client id, or a new one, which moves
the held quantity of its key exactly when it is filled. -/
theorem placeOrder_answer (cond : Conditions) (s : Shard) (payload : OrderPayload)
    (allowClosedMarket : Bool) :
    (∃ id, (payload.clientOrderId.filter (· ≠ "")).bind s.idempotency.get? = some id ∧
        s.placeOrder cond payload allowClosedMarket = (s, id)) ∨
      (payload.clientOrderId.filter (· ≠ "")).bind s.idempotency.get? = none ∧
        ∃ o, (s.placeOrder cond payload allowClosedMarket).1.orders[
            (s.placeOrder cond payload allowClosedMarket).2]? = some o ∧ o.payload = payload ∧
          ((o.status = .rejected ∨ o.status = .pending) ∧
              (∀ k, (s.placeOrder cond payload allowClosedMarket).1.held k = s.held k) ∨
            o.status = .filled ∧ ∀ k, (s.placeOrder cond payload allowClosedMarket).1.held k =
              s.held k + if payload.positionId = k then payload.signed else 0) := by
  rw [placeOrder]
  rcases placeOrderLocked_cases cond s payload allowClosedMarket none with
    ⟨id, hid, heq⟩ | ⟨hnew, ⟨reason, heq⟩ | heq | ⟨fillPrice, source, heq⟩⟩
  · exact .inl ⟨id, hid, heq⟩
  · refine .inr ⟨hnew, { payload, status := .rejected, rejectionReason := some reason }, ?_, rfl,
      .inl ⟨.inl rfl, fun k => by rw [heq]; rfl⟩⟩
    rw [heq]
    simp [reject, log]
  · refine .inr ⟨hnew, { payload, status := .pending }, ?_, rfl, .inl ⟨.inr rfl, fun k => ?_⟩⟩
    · rw [heq]
      exact submit_answer s _
    · rw [heq]
      exact held_congr (submit_positions _ _) k
  · refine .inr ⟨hnew, { payload, status := .filled, fillPrice := some fillPrice, fillSource := some source
                         estimatedCosts := some (estimateCosts payload.side fillPrice payload.quantity) },
      ?_, rfl, .inr ⟨rfl, fun k => ?_⟩⟩
    · rw [heq]
      exact submit_answer _ _
    · rw [heq]
      exact filled_held s payload fillPrice _ k

theorem cancelOrder_positions {s s' : Shard} {id : OrderId} (h : s.cancelOrder id = .ok s') :
    s'.positions = s.positions := by
  obtain ⟨order, -, -, rfl⟩ := cancelOrder_ok h
  rfl

/-! ### Square-off -/

theorem exitOrder_eq {pos : VirtualPosition} {payload : OrderPayload} (h : exitOrder pos = some payload) :
    payload.positionId = pos.positionId ∧ payload.side = pos.side.opposite ∧
      payload.quantity = pos.quantity := by
  unfold exitOrder at h
  split at h
  · cases h
    exact ⟨rfl, rfl, rfl⟩
  · cases h

theorem mult_opposite (side : OrderSide) : side.opposite.mult = -side.mult := by
  cases side <;> rfl

theorem squareOffPosition_held (cond : Conditions) {s : Shard} (h : s.Tidy) (id : PositionId)
    (allowClosedMarket : Bool) :
    (s.squareOffPosition cond id allowClosedMarket).1.Tidy ∧
      ((∀ k, (s.squareOffPosition cond id allowClosedMarket).1.held k = s.held k) ∨
        ∀ k, (s.squareOffPosition cond id allowClosedMarket).1.held k =
          if k = id then 0 else s.held k) := by
  rcases squareOffPosition_cases cond s id allowClosedMarket with
    ⟨-, heq⟩ | ⟨pos, refreshed, hopen, hrefreshed, heq⟩
  · rw [heq]
    exact ⟨h, .inl fun _ => rfl⟩
  · obtain ⟨hget, hisOpen⟩ := Option.filter_eq_some_iff.mp hopen
    obtain ⟨hid, hq⟩ := h id pos hget
    obtain ⟨hid', hside', hq'⟩ : refreshed.positionId = pos.positionId ∧ refreshed.side = pos.side ∧
        refreshed.quantity = pos.quantity := by
      rcases hrefreshed with rfl | ⟨ltp, rfl⟩ <;> exact ⟨rfl, rfl, rfl⟩
    have htidy : (s.store id refreshed).Tidy := h.store (hid'.trans hid) fun _ => hq' ▸ hq hisOpen
    have hheld := held_refreshed hopen hrefreshed
    rcases heq with heq | ⟨payload, forced, hpayload, heq⟩
    · rw [heq]
      exact ⟨htidy, .inl hheld⟩
    · rw [heq]
      refine ⟨htidy.placeOrderLocked cond payload true _, ?_⟩
      obtain ⟨hkey, hpside, hpq⟩ := exitOrder_eq hpayload
      rcases placeOrderLocked_held cond (s.store id refreshed) payload true (some forced) with hsame | hmoved
      · exact .inl fun k => (hsame k).trans (hheld k)
      · refine .inr fun k => ?_
        have hneg : payload.signed = -s.held id := by
          rw [OrderPayload.signed, hpside, mult_opposite, hpq, hside', hq', held_of_openPosition hopen]
          ring
        rw [hmoved, hheld, hkey, hid', hid, hneg]
        by_cases hk : k = id
        · rw [hk, if_pos rfl, if_pos rfl]
          omega
        · rw [if_neg (Ne.symm hk), if_neg hk, add_zero]

/-! ### The market order against a position -/

/-- The order path fills a market order of this quantity against the position: the
session is open or permitted, the order is not too large, and there is a quote. -/
def takesExit (cond : Conditions) (s : Shard) (pos : VirtualPosition) (quantity : Int)
    (allowClosedMarket : Bool) : Bool :=
  (cond.sessionGate pos.underlying pos.symbol allowClosedMarket).isNone ∧
    quantity ≤ s.limits.maxSingleOrderQty ∧
    (resolveLiveLtp cond.market pos.symbol pos.underlying).any fun live =>
      0 < applyFriction live pos.side.opposite

structure Against (pos : VirtualPosition) (payload : OrderPayload) : Prop where
  symbol : payload.symbol = pos.symbol
  underlying : payload.underlying = pos.underlying
  product : payload.product = pos.product
  side : payload.side = pos.side.opposite
  market : payload.orderType = .market
  anonymous : payload.clientOrderId = none

theorem riskGate_exit {s : Shard} {pos : VirtualPosition} {payload : OrderPayload}
    (hopen : s.openPosition payload.positionId = some pos) (hside : payload.side = pos.side.opposite) :
    s.riskGate payload = none ↔ payload.quantity ≤ s.limits.maxSingleOrderQty := by
  have hq : ¬ payload.quantity ≤ 0 := by
    have := payload.quantity_pos
    omega
  have hne : ¬ pos.side = payload.side := by
    rw [hside]
    cases pos.side <;> decide
  rw [riskGate]
  simp only [hopen, hq, if_false, Option.filter, hne, decide_false, Option.isNone_some,
    Bool.false_eq_true, false_and, and_false, Option.map_none, Option.any_none]
  by_cases hmax : payload.quantity > s.limits.maxSingleOrderQty
  · rw [if_pos hmax]
    exact iff_of_false (fun h => nomatch h) (by omega)
  · rw [if_neg hmax]
    exact iff_of_true rfl (by omega)

theorem placeOrder_exit (cond : Conditions) {s : Shard} {pos : VirtualPosition} {payload : OrderPayload}
    (hopen : s.openPosition payload.positionId = some pos) (ha : Against pos payload)
    (allowClosedMarket : Bool) :
    (∃ fillPrice source, s.takesExit cond pos payload.quantity allowClosedMarket = true ∧
        s.placeOrder cond payload allowClosedMarket = (s.applyFill payload fillPrice).submit
          { payload, status := .filled, fillPrice := some fillPrice, fillSource := some source
            estimatedCosts := some (estimateCosts payload.side fillPrice payload.quantity) }) ∨
      (s.takesExit cond pos payload.quantity allowClosedMarket = false ∧
        ∃ reason, s.placeOrder cond payload allowClosedMarket = s.reject payload reason) := by
  have hrisk := riskGate_exit hopen ha.side
  have hshort : ∀ fillPrice, s.marginShort payload fillPrice = none := by
    intro fillPrice
    have hne : ¬ pos.side = payload.side := by
      rw [ha.side]
      cases pos.side <;> decide
    simp [marginShort, hopen, hne]
  have hfat : ∀ market source, fatFinger market payload source = none := by
    intro market source
    simp [fatFinger, ha.market]
  rw [placeOrder, placeOrderLocked, takesExit]
  rw [← ha.symbol, ← ha.underlying]
  simp only [ha.anonymous, Option.filter_none, Option.bind_none]
  cases hgate : cond.sessionGate payload.underlying payload.symbol allowClosedMarket with
  | some reason => exact .inr ⟨by simp, _, rfl⟩
  | none =>
    cases hr : s.riskGate payload with
    | some reason =>
      have hmax : ¬ payload.quantity ≤ s.limits.maxSingleOrderQty := fun h => by
        rw [hrisk.mpr h] at hr
        cases hr
      exact .inr ⟨by simp [hmax], _, rfl⟩
    | none =>
      have hmax := hrisk.mp hr
      simp only [Option.map_none, Option.or_none, resolveFill, ha.market]
      cases hlive : resolveLiveLtp cond.market payload.symbol payload.underlying with
      | none => exact .inr ⟨by simp, _, rfl⟩
      | some live =>
        simp only [execute, hshort, hfat, Option.or_none, ← ha.side]
        by_cases hpos : applyFriction live payload.side ≤ 0
        · rw [if_pos hpos]
          exact .inr ⟨by simp [hpos], _, rfl⟩
        · rw [if_neg hpos]
          exact .inl ⟨_, .live, by simp [hmax, not_le.mp hpos], rfl⟩

end Shard

end Droid.Paper
