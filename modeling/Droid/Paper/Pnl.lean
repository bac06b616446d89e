import Droid.Paper.Kept

/-! Realized and unrealized results of a shard against the filled orders of its log. -/
namespace Droid.Paper
open Lib

/-- What a FILLED order paid out for what it bought, or took in. -/
def VirtualOrder.cash (order : VirtualOrder) : ℚ :=
  if order.status = .filled then order.payload.signed * order.fillPrice.getD 0 else 0

inductive TradeCall where
  | placeOrder (cond : Conditions) (payload : OrderPayload) (allowClosedMarket : Bool)
  | cancelOrder (id : OrderId)
  | squareOffPosition (cond : Conditions) (id : PositionId) (allowClosedMarket : Bool)
  | getPositions (markets : PositionId → Market)

namespace Shard

def lastPrice (s : Shard) (id : PositionId) : ℚ := ((s.positions.get? id).map (·.ltp)).getD 0

/-- Realized plus unrealized result. -/
def bookPnl (s : Shard) : ℚ := s.realized + (s.openPositions.map (·.unrealizedPnl)).sum

def filledPnl (s : Shard) : ℚ :=
  (s.orders.map fun o =>
    if o.status = .filled then o.payload.signed * (s.lastPrice o.payload.positionId - o.fillPrice.getD 0)
    else 0).sum

/-- What rounding may cost at a fill: half a paisa on each unit of the position that an add
averages, half a paisa in all where it closes. -/
def fillSlack (s : Shard) (payload : OrderPayload) : ℚ :=
  match s.shape payload.positionId with
  | none => 0
  | some (side, quantity) =>
    if side = payload.side then (quantity + payload.quantity : Int) / 200 else 1 / 200

/-- What rounding may cost at the fills that a step has logged. -/
def stepSlack (s s' : Shard) : ℚ :=
  ((s'.orders.drop s.orders.length).map fun o =>
    if o.status = .filled then s.fillSlack o.payload else 0).sum

def trade (s : Shard) : TradeCall → Shard
  | .placeOrder cond payload allowClosedMarket => (s.placeOrder cond payload allowClosedMarket).1
  | .cancelOrder id =>
    match s.cancelOrder id with
    | .ok s => s
    | .error _ => s
  | .squareOffPosition cond id allowClosedMarket => (s.squareOffPosition cond id allowClosedMarket).1
  | .getPositions markets => s.getPositions markets

def slack : Shard → List TradeCall → ℚ
  | _, [] => 0
  | s, call :: calls => s.stepSlack (s.trade call) + slack (s.trade call) calls

/-! ### Cash, cost and mark -/

def cash (s : Shard) : ℚ := (s.orders.map (·.cash)).sum

def basis (s : Shard) : ℚ := s.positions.sum fun _ pos => pos.signed * pos.averagePrice

def worth (s : Shard) : ℚ := s.positions.sum fun _ pos => pos.signed * pos.ltp

/-- The rounding that the books have gathered. -/
def drift (s : Shard) : ℚ := s.realized + s.cash - s.basis

/-- An order weighs on the position under its key only. -/
private theorem booked_worth (s : Shard) (order : VirtualOrder) :
    (s.positions.sum fun id pos => (order.booked id : ℚ) * pos.ltp) =
      if order.status = .filled then order.payload.signed * s.lastPrice order.payload.positionId else 0 := by
  have hsingle := Dict.sum_single (fun _ (pos : VirtualPosition) =>
    if order.status = .filled then (order.payload.signed : ℚ) * pos.ltp else 0) s.positions
    order.payload.positionId
  have hweight : (s.positions.sum fun id pos => (order.booked id : ℚ) * pos.ltp) =
      s.positions.sum fun id pos => if id = order.payload.positionId then
        (if order.status = .filled then (order.payload.signed : ℚ) * pos.ltp else 0) else 0 := by
    refine Dict.sum_congr fun id pos _ => ?_
    rw [VirtualOrder.booked]
    by_cases hid : id = order.payload.positionId
    · subst hid
      by_cases hfilled : order.status = .filled <;> simp [hfilled]
    · simp [hid, Ne.symm hid]
  rw [hweight, hsingle, lastPrice]
  cases s.positions.get? order.payload.positionId <;> simp

private theorem booked_sum_worth (s : Shard) (orders : List VirtualOrder) :
    (s.positions.sum fun id pos => (((orders.map (·.booked id)).sum : Int) : ℚ) * pos.ltp) =
      (orders.map fun o =>
        if o.status = .filled then o.payload.signed * s.lastPrice o.payload.positionId else 0).sum := by
  induction orders with
  | nil => simp [Dict.sum]
  | cons o orders ih =>
    rw [List.map_cons, List.sum_cons, ← ih, ← booked_worth, ← Dict.sum_add]
    refine Dict.sum_congr fun id pos _ => ?_
    rw [List.map_cons, List.sum_cons, Int.cast_add, add_mul]

/-- The signed quantities of the log, at the current prices, are worth what is held. -/
theorem filled_worth {s : Shard} (h : ∀ k, s.gap k = 0) :
    (s.orders.map fun o =>
      if o.status = .filled then o.payload.signed * s.lastPrice o.payload.positionId else 0).sum = s.worth := by
  rw [← booked_sum_worth]
  refine Dict.sum_congr fun id pos hk => ?_
  have hg := h id
  unfold gap held filledQty at hg
  rw [hk] at hg
  simp only [Option.map_some, Option.getD_some] at hg
  have hq : (s.orders.map (·.booked id)).sum = pos.signed := by omega
  rw [hq]

theorem filledPnl_eq {s : Shard} (h : ∀ k, s.gap k = 0) : s.filledPnl = s.worth - s.cash := by
  rw [← filled_worth h]
  rw [filledPnl, cash]
  induction s.orders with
  | nil => simp
  | cons o orders ih =>
    simp only [List.map_cons, List.sum_cons, ih, VirtualOrder.cash]
    split <;> ring

/-! ### Storing a position -/

/-- A position moves what is held by its own cost, less that of the one it replaces. -/
theorem basis_store (s : Shard) (id : PositionId) (pos : VirtualPosition) :
    (s.store id pos).basis = s.basis + pos.signed * pos.averagePrice -
      (s.openPosition id).elim 0 fun old => (old.side.mult * old.quantity : Int) * old.averagePrice := by
  have hold : ((s.positions.get? id).map fun old => (old.signed : ℚ) * old.averagePrice).getD 0 =
      (s.openPosition id).elim 0 fun old => (old.side.mult * old.quantity : Int) * old.averagePrice := by
    unfold openPosition VirtualPosition.signed
    cases s.positions.get? id with
    | none => rfl
    | some old => cases h : old.isOpen <;> simp [Option.filter_some, h]
  rw [← hold]
  exact Dict.sum_insert (fun _ (pos : VirtualPosition) => (pos.signed : ℚ) * pos.averagePrice) s.positions id pos

theorem abs_roundTo_two_sub_le (x : ℚ) : |roundTo 2 x - x| ≤ 1 / 200 := by
  have h := abs_roundTo_sub_le 2 x
  norm_num at h ⊢
  exact h

private theorem average_error {total : Int} (ht : 0 < total) (value : ℚ) :
    |roundTo 2 (value / total) * total - value| ≤ (total : ℚ) / 200 := by
  have htr : (0 : ℚ) < total := by exact_mod_cast ht
  have hdiff : roundTo 2 (value / total) * total - value =
      (roundTo 2 (value / total) - value / total) * total := by
    rw [sub_mul, div_mul_cancel₀ _ htr.ne']
  rw [hdiff, abs_mul, abs_of_pos htr]
  have hmul := mul_le_mul_of_nonneg_right (abs_roundTo_two_sub_le (value / total)) htr.le
  linarith

theorem abs_mult_mul (side : OrderSide) (x : ℚ) : |(side.mult : ℚ) * x| = |x| := by
  cases side <;> simp [OrderSide.mult]

/-! ### A fill -/

private theorem add_drift {s : Shard} {payload : OrderPayload} {existing : VirtualPosition}
    (hopen : s.openPosition payload.positionId = some existing) (hside : existing.side = payload.side)
    (htotal : 0 < existing.quantity + payload.quantity) (fillPrice reqMargin : ℚ) :
    |s.basis - (s.store payload.positionId (existing.add payload.quantity fillPrice reqMargin)).basis +
      payload.signed * fillPrice| ≤ ((existing.quantity + payload.quantity : Int) : ℚ) / 200 := by
  obtain ⟨-, hisOpen⟩ := Option.filter_eq_some_iff.mp hopen
  have herror := average_error htotal (existing.quantity * existing.averagePrice + payload.quantity * fillPrice)
  rw [← abs_neg, ← abs_mult_mul payload.side] at herror
  refine le_trans (le_of_eq ?_) herror
  rw [basis_store, hopen, Option.elim_some, hside]
  simp only [VirtualPosition.signed, VirtualPosition.add, VirtualPosition.refresh, hisOpen, if_true, hside,
    OrderPayload.signed]
  push_cast
  congr 1
  ring

/-- A fill against a position that leaves pos under its key realizes what it closes, up to
rounding. -/
private theorem against_drift {s : Shard} {payload : OrderPayload} {existing : VirtualPosition}
    (hopen : s.openPosition payload.positionId = some existing) (fillPrice : ℚ) (pos : VirtualPosition)
    (hpos : (pos.signed : ℚ) * pos.averagePrice =
      payload.signed * fillPrice + existing.side.mult * existing.quantity * existing.averagePrice +
        (fillPrice - existing.averagePrice) * (min existing.quantity payload.quantity : Int) *
          existing.side.mult) :
    |roundTo 2 (existing.tradeRealized payload.quantity fillPrice) + s.basis -
      (s.store payload.positionId pos).basis + payload.signed * fillPrice| ≤ 1 / 200 := by
  have herror := abs_roundTo_two_sub_le (existing.tradeRealized payload.quantity fillPrice)
  refine le_trans (le_of_eq ?_) herror
  rw [basis_store, hopen, Option.elim_some, hpos]
  congr 1
  rw [VirtualPosition.tradeRealized]
  push_cast
  ring

theorem applyFill_drift {s : Shard} (h : s.Tidy) (payload : OrderPayload) (fillPrice : ℚ) :
    |(s.applyFill payload fillPrice).realized - s.realized + s.basis - (s.applyFill payload fillPrice).basis +
      payload.signed * fillPrice| ≤ s.fillSlack payload := by
  have hq := payload.quantity_pos
  have hfill := applyFill_as s payload fillPrice
  generalize s.applyFill payload fillPrice = s' at hfill ⊢
  have hmult : ∀ {existing : VirtualPosition}, existing.side ≠ payload.side →
      payload.side.mult = -existing.side.mult := by
    intro existing hside
    revert hside
    cases existing.side <;> cases payload.side <;> decide
  have hrealized : ∀ existing pos, |roundTo 2 (existing.tradeRealized payload.quantity fillPrice) + s.basis -
      (s.store payload.positionId pos).basis + payload.signed * fillPrice| ≤ 1 / 200 →
      |((s.booked existing payload.quantity fillPrice).store payload.positionId pos).realized - s.realized + s.basis -
        ((s.booked existing payload.quantity fillPrice).store payload.positionId pos).basis +
        payload.signed * fillPrice| ≤ 1 / 200 := by
    intro existing pos hle
    refine le_trans (le_of_eq ?_) hle
    have hstored : ((s.booked existing payload.quantity fillPrice).store payload.positionId pos).realized =
        s.realized + roundTo 2 (existing.tradeRealized payload.quantity fillPrice) := rfl
    rw [hstored, add_sub_cancel_left]
    rfl
  rw [fillSlack]
  cases hfill with
  | opens hnone =>
    have hshape : s.shape payload.positionId = none := by rw [shape, hnone]; rfl
    have hexact : (s.store payload.positionId (.openAt payload payload.quantity fillPrice
        (requiredMargin payload payload.quantity fillPrice))).realized = s.realized := rfl
    rw [basis_store, hnone, hshape, hexact]
    simp [VirtualPosition.signed, VirtualPosition.openAt, OrderPayload.signed]
  | adds existing hopen hside =>
    obtain ⟨hget, hisOpen⟩ := Option.filter_eq_some_iff.mp hopen
    have hpos := (h _ _ hget).2 hisOpen
    have hadd := add_drift hopen hside (by omega) fillPrice (requiredMargin payload payload.quantity fillPrice)
    have hsame : (s.store payload.positionId (existing.add payload.quantity fillPrice
        (requiredMargin payload payload.quantity fillPrice))).realized = s.realized := rfl
    simp only [shape_of_open hopen, if_pos hside, hsame, sub_self, zero_add]
    exact hadd
  | reduces existing hopen hside hqty =>
    obtain ⟨-, hisOpen⟩ := Option.filter_eq_some_iff.mp hopen
    have hmin : min existing.quantity payload.quantity = payload.quantity := by omega
    have hagainst := against_drift hopen fillPrice (VirtualPosition.reduce { existing with
      realizedPnl := roundTo 2 (existing.realizedPnl + existing.tradeRealized payload.quantity fillPrice) }
      payload.quantity fillPrice) (by
        simp only [VirtualPosition.signed, VirtualPosition.reduce, VirtualPosition.refresh, hisOpen, if_true,
          OrderPayload.signed, hmult hside, hmin]
        push_cast
        ring)
    simp only [shape_of_open hopen, if_neg hside]
    exact hrealized existing _ hagainst
  | closes existing hopen hside hqty =>
    have hagainst := against_drift hopen fillPrice (VirtualPosition.close { existing with
      realizedPnl := roundTo 2 (existing.realizedPnl + existing.tradeRealized payload.quantity fillPrice) }
      fillPrice) (by
        simp only [VirtualPosition.signed, VirtualPosition.close, Bool.false_eq_true, if_false,
          OrderPayload.signed, hmult hside, hqty, min_self]
        push_cast
        ring)
    simp only [shape_of_open hopen, if_neg hside]
    exact hrealized existing _ hagainst
  | flips existing hopen hside hqty =>
    have hmin : min existing.quantity payload.quantity = existing.quantity := by omega
    have hagainst := against_drift hopen fillPrice (.openAt payload (payload.quantity - existing.quantity)
      fillPrice (requiredMargin payload (payload.quantity - existing.quantity) fillPrice)) (by
        simp only [VirtualPosition.signed, VirtualPosition.openAt, if_true, OrderPayload.signed, hmult hside, hmin]
        push_cast
        ring)
    simp only [shape_of_open hopen, if_neg hside]
    exact hrealized existing _ hagainst

end Shard

/-- The unrealized result of an open position is that of its prices, up to rounding. -/
def VirtualPosition.Quoted (pos : VirtualPosition) : Prop :=
  pos.isOpen = true → |pos.unrealizedPnl - pos.signed * (pos.ltp - pos.averagePrice)| ≤ 1 / 200

theorem refresh_quoted (pos : VirtualPosition) (ltp : ℚ) : (pos.refresh ltp).Quoted := by
  intro hopen
  have hisOpen : pos.isOpen = true := hopen
  have herror := Shard.abs_roundTo_two_sub_le ((ltp - pos.averagePrice) * pos.quantity * pos.side.mult)
  refine le_trans (le_of_eq ?_) herror
  simp only [VirtualPosition.refresh, VirtualPosition.mark, VirtualPosition.signed, hisOpen, if_true]
  congr 1
  push_cast
  ring

namespace Shard

/-- The books are in order: each key holds what the log has filled, and positions carry
their unrealized results. -/
structure Accounted (s : Shard) : Prop where
  tidy : s.Tidy
  gap : ∀ k, s.gap k = 0
  quoted : ∀ id pos, s.positions.get? id = some pos → pos.Quoted

/-! ### A step -/

theorem quoted_store {s : Shard} (h : ∀ id pos, s.positions.get? id = some pos → pos.Quoted)
    (id : PositionId) {pos : VirtualPosition} (hpos : pos.Quoted) :
    ∀ k p, (s.store id pos).positions.get? k = some p → p.Quoted := by
  intro k p hk
  simp only [store, Dict.get?_insert] at hk
  split at hk
  · cases hk
    exact hpos
  · exact h k p hk

theorem applyFill_quoted {s : Shard} (h : ∀ id pos, s.positions.get? id = some pos → pos.Quoted)
    (payload : OrderPayload) (fillPrice : ℚ) :
    ∀ k p, (s.applyFill payload fillPrice).positions.get? k = some p → p.Quoted := by
  have hopened : ∀ quantity margin, (VirtualPosition.openAt payload quantity fillPrice margin).Quoted := by
    intro quantity margin _
    simp [VirtualPosition.openAt]
  have hfill := applyFill_as s payload fillPrice
  generalize s.applyFill payload fillPrice = s' at hfill ⊢
  have hbooked : ∀ existing id pos, (s.booked existing payload.quantity fillPrice).positions.get? id = some pos →
      pos.Quoted := fun _ => h
  cases hfill with
  | opens hnone => exact quoted_store h _ (hopened _ _)
  | adds existing hopen hside => exact quoted_store h _ (refresh_quoted _ _)
  | reduces existing hopen hside hqty => exact quoted_store (hbooked existing) _ (refresh_quoted _ _)
  | closes existing hopen hside hqty =>
    refine quoted_store (hbooked existing) _ fun hclosed => ?_
    cases hclosed
  | flips existing hopen hside hqty => exact quoted_store (hbooked existing) _ (hopened _ _)

/-- One more order in the log moves the drift by its cash, against realized result and cost. -/
theorem drift_logged {s s' : Shard} {order : VirtualOrder} (h : s'.orders = s.orders ++ [order]) :
    s'.drift - s.drift = s'.realized - s.realized + s.basis - s'.basis + order.cash ∧
      s.stepSlack s' = if order.status = .filled then s.fillSlack order.payload else 0 := by
  unfold drift cash stepSlack
  rw [h]
  refine ⟨?_, by simp⟩
  rw [List.map_append, List.sum_append, List.map_singleton, List.sum_singleton]
  ring

theorem stepSlack_same {s s' : Shard} (h : s'.orders.length = s.orders.length) : s.stepSlack s' = 0 := by
  rw [stepSlack]
  rw [List.drop_of_length_le (by omega)]
  rfl

private theorem submit_books (s : Shard) (order : VirtualOrder) :
    (s.submit order).1.realized = s.realized ∧ (s.submit order).1.basis = s.basis ∧
      (s.submit order).1.positions = s.positions := by
  have hp := submit_positions s order
  refine ⟨?_, by rw [basis, hp, basis], hp⟩
  unfold submit remember log
  simp only
  split <;> rfl

private theorem placeOrderLocked_accounted {s : Shard} (h : s.Accounted) (cond : Conditions)
    (payload : OrderPayload) (allowClosedMarket : Bool) (forcedFill : Option (ℚ × FillSource)) :
    (s.placeOrderLocked cond payload allowClosedMarket forcedFill).1.Accounted ∧
      |(s.placeOrderLocked cond payload allowClosedMarket forcedFill).1.drift - s.drift| ≤
        s.stepSlack (s.placeOrderLocked cond payload allowClosedMarket forcedFill).1 := by
  have htidy := h.tidy.placeOrderLocked cond payload allowClosedMarket forcedFill
  have hgap : ∀ k, (s.placeOrderLocked cond payload allowClosedMarket forcedFill).1.gap k = 0 :=
    fun k => ((placeOrderLocked_keeps cond s payload allowClosedMarket forcedFill).gap k).trans (h.gap k)
  rcases placeOrderLocked_cases cond s payload allowClosedMarket forcedFill with
    ⟨id, -, heq⟩ | ⟨-, ⟨reason, heq⟩ | heq | ⟨fillPrice, source, heq⟩⟩ <;> rw [heq] at htidy hgap ⊢
  · refine ⟨h, ?_⟩
    rw [stepSlack_same rfl, sub_self, abs_zero]
  · obtain ⟨hdrift, hslack⟩ := drift_logged (show (s.reject payload reason).1.orders = s.orders ++ _ from rfl)
    have hbooks : (s.reject payload reason).1.realized = s.realized ∧
        (s.reject payload reason).1.basis = s.basis := ⟨rfl, rfl⟩
    refine ⟨⟨htidy, hgap, h.quoted⟩, ?_⟩
    rw [hdrift, hslack, hbooks.1, hbooks.2]
    simp [VirtualOrder.cash]
  · obtain ⟨hdrift, hslack⟩ := drift_logged (submit_orders s { payload, status := .pending })
    obtain ⟨hrealized, hbasis, hpositions⟩ := submit_books s { payload, status := .pending }
    refine ⟨⟨htidy, hgap, fun id pos hk => h.quoted id pos (hpositions ▸ hk)⟩, ?_⟩
    rw [hdrift, hslack, hrealized, hbasis]
    simp [VirtualOrder.cash]
  · have horders : (s.applyFill payload fillPrice).orders = s.orders := by
      obtain ⟨realized, pos, hfill, -⟩ := applyFill_spec s payload fillPrice
      rw [hfill]
      rfl
    generalize horder : ({ payload, status := .filled, fillPrice := some fillPrice, fillSource := some source
                           estimatedCosts := some (estimateCosts payload.side fillPrice payload.quantity) } :
      VirtualOrder) = order at htidy hgap ⊢
    have hcash : order.cash = payload.signed * fillPrice := by simp [← horder, VirtualOrder.cash]
    have hpayload : order.payload = payload := by rw [← horder]
    have hfilled : order.status = .filled := by rw [← horder]
    obtain ⟨hrealized, hbasis, hpositions⟩ := submit_books (s.applyFill payload fillPrice) order
    have hlog : ((s.applyFill payload fillPrice).submit order).1.orders = s.orders ++ [order] := by
      rw [submit_orders, horders]
    obtain ⟨hdrift, hslack⟩ := drift_logged hlog
    refine ⟨⟨htidy, hgap, fun id pos hk => ?_⟩, ?_⟩
    · exact applyFill_quoted h.quoted payload fillPrice id pos (hpositions ▸ hk)
    · rw [hdrift, hslack, hrealized, hbasis, hcash, if_pos hfilled, hpayload]
      exact applyFill_drift h.tidy payload fillPrice

private theorem cancelOrder_accounted {s s' : Shard} (h : s.Accounted) {id : OrderId}
    (hcancel : s.cancelOrder id = .ok s') : s'.Accounted ∧ |s'.drift - s.drift| ≤ s.stepSlack s' := by
  have hgap := (cancelOrder_keeps hcancel).gap
  obtain ⟨order, horder, hpending, rfl⟩ := cancelOrder_ok hcancel
  have hcash : cash { s with orders := s.orders.set id { order with status := .cancelled } } = s.cash := by
    rw [cash]
    congr 1
    refine List.ext_getElem? fun i => ?_
    rw [List.getElem?_map, List.getElem?_map, List.getElem?_set]
    split
    · rename_i hi
      subst hi
      rw [if_pos (List.getElem?_eq_some_iff.mp horder).1, horder]
      simp [VirtualOrder.cash, hpending]
    · rfl
  refine ⟨⟨h.tidy, fun k => (hgap k).trans (h.gap k), h.quoted⟩, ?_⟩
  rw [stepSlack_same (by simp), drift, hcash]
  have hsame : ∀ x : ℚ, |x - x| ≤ 0 := fun x => by simp
  exact hsame s.drift

private theorem refreshed_accounted {s : Shard} (h : s.Accounted) {id : PositionId}
    {pos refreshed : VirtualPosition} (hopen : s.openPosition id = some pos)
    (hrefreshed : refreshed = pos ∨ ∃ ltp, refreshed = pos.refresh ltp) :
    (s.store id refreshed).Accounted ∧ (s.store id refreshed).drift = s.drift := by
  obtain ⟨hget, hisOpen⟩ := Option.filter_eq_some_iff.mp hopen
  obtain ⟨hid, hq⟩ := h.tidy id pos hget
  have hfields : refreshed.positionId = pos.positionId ∧ refreshed.isOpen = pos.isOpen ∧
      refreshed.quantity = pos.quantity ∧ refreshed.signed = pos.signed ∧
      refreshed.averagePrice = pos.averagePrice ∧ refreshed.Quoted := by
    rcases hrefreshed with rfl | ⟨ltp, rfl⟩
    · exact ⟨rfl, rfl, rfl, rfl, rfl, h.quoted id _ hget⟩
    · exact ⟨rfl, rfl, rfl, rfl, rfl, refresh_quoted pos ltp⟩
  obtain ⟨hid', hopen', hq', hsigned, haverage, hquoted⟩ := hfields
  refine ⟨⟨h.tidy.store (hid'.trans hid) fun ho => hq' ▸ hq (hopen' ▸ ho), fun k => ?_,
    quoted_store h.quoted id hquoted⟩, ?_⟩
  · have hgap := h.gap k
    have hfilled : (s.store id refreshed).filledQty k = s.filledQty k := rfl
    unfold gap at hgap ⊢
    rw [hfilled, held_store, hsigned]
    split
    · rename_i hk
      subst hk
      have hheld : s.held k = pos.signed := by simp [held, hget]
      omega
    · exact hgap
  · have hbooks : (s.store id refreshed).realized = s.realized ∧ (s.store id refreshed).cash = s.cash :=
      ⟨rfl, rfl⟩
    unfold drift
    rw [hbooks.1, hbooks.2, basis_store, hopen, Option.elim_some, hsigned, haverage,
      VirtualPosition.signed, if_pos hisOpen]
    ring

private theorem squareOffPosition_accounted {s : Shard} (h : s.Accounted) (cond : Conditions)
    (id : PositionId) (allowClosedMarket : Bool) :
    (s.squareOffPosition cond id allowClosedMarket).1.Accounted ∧
      |(s.squareOffPosition cond id allowClosedMarket).1.drift - s.drift| ≤
        s.stepSlack (s.squareOffPosition cond id allowClosedMarket).1 := by
  rcases squareOffPosition_cases cond s id allowClosedMarket with
    ⟨-, heq⟩ | ⟨pos, refreshed, hopen, hrefreshed, heq⟩
  · rw [heq, stepSlack_same rfl, sub_self, abs_zero]
    exact ⟨h, le_rfl⟩
  · obtain ⟨hmarked, hdrift⟩ := refreshed_accounted h hopen hrefreshed
    rcases heq with heq | ⟨payload, forced, -, heq⟩
    · have hzero : s.stepSlack (s.store id refreshed) = 0 := stepSlack_same rfl
      rw [heq, hzero, hdrift, sub_self, abs_zero]
      exact ⟨hmarked, le_rfl⟩
    · have hslack : ∀ s', s.stepSlack s' = (s.store id refreshed).stepSlack s' := by
        intro s'
        unfold stepSlack fillSlack
        simp only [shape_refreshed hopen hrefreshed, store_orders]
      rw [heq, ← hdrift, hslack]
      exact placeOrderLocked_accounted hmarked cond payload true (some forced)

theorem markLive_cases (market : Market) (pos : VirtualPosition) :
    markLive market pos = pos ∨ ∃ ltp, markLive market pos = pos.refresh ltp := by
  rw [markLive]
  split
  · split
    · exact .inr ⟨_, rfl⟩
    · exact .inl rfl
  · exact .inl rfl

private theorem getPositions_accounted {s : Shard} (h : s.Accounted) (markets : PositionId → Market) :
    (s.getPositions markets).Accounted ∧ (s.getPositions markets).drift = s.drift := by
  have hfields : ∀ market pos, (markLive market pos).positionId = pos.positionId ∧
      (markLive market pos).isOpen = pos.isOpen ∧ (markLive market pos).quantity = pos.quantity ∧
      (markLive market pos).signed = pos.signed ∧
      (markLive market pos).averagePrice = pos.averagePrice := by
    intro market pos
    rcases markLive_cases market pos with heq | ⟨ltp, heq⟩ <;> rw [heq] <;> exact ⟨rfl, rfl, rfl, rfl, rfl⟩
  have hget : ∀ id pos, (s.getPositions markets).positions.get? id = some pos →
      ∃ old, s.positions.get? id = some old ∧ pos = markLive (markets id) old := by
    intro id pos hk
    rw [getPositions, Dict.get?_mapValues] at hk
    obtain ⟨old, hold, heq⟩ := Option.map_eq_some_iff.mp hk
    exact ⟨old, hold, heq.symm⟩
  refine ⟨⟨fun id pos hk => ?_, fun k => ?_, fun id pos hk => ?_⟩, ?_⟩
  · obtain ⟨old, hold, rfl⟩ := hget id pos hk
    obtain ⟨hid, hopen, hq, -⟩ := hfields (markets id) old
    rw [hid, hopen, hq]
    exact h.tidy id old hold
  · have hheld : (s.getPositions markets).held k = s.held k := by
      unfold held getPositions
      rw [Dict.get?_mapValues]
      cases s.positions.get? k with
      | none => rfl
      | some old => exact (hfields (markets k) old).2.2.2.1
    have hfilled : (s.getPositions markets).filledQty k = s.filledQty k := rfl
    rw [gap, hheld, hfilled]
    exact h.gap k
  · obtain ⟨old, hold, rfl⟩ := hget id pos hk
    rcases markLive_cases (markets id) old with heq | ⟨ltp, heq⟩ <;> rw [heq]
    · exact h.quoted id old hold
    · exact refresh_quoted old ltp
  · have hbasis : (s.getPositions markets).basis = s.basis := by
      unfold basis getPositions
      rw [Dict.sum_mapValues]
      refine Dict.sum_congr fun id pos _ => ?_
      obtain ⟨-, -, -, hsigned, haverage⟩ := hfields (markets id) pos
      rw [hsigned, haverage]
    have hcash : (s.getPositions markets).realized = s.realized ∧ (s.getPositions markets).cash = s.cash :=
      ⟨rfl, rfl⟩
    rw [drift, hbasis, hcash.1, hcash.2, drift]

theorem trade_accounted {s : Shard} (h : s.Accounted) (call : TradeCall) :
    (s.trade call).Accounted ∧ |(s.trade call).drift - s.drift| ≤ s.stepSlack (s.trade call) := by
  cases call with
  | placeOrder cond payload allowClosedMarket =>
    exact placeOrderLocked_accounted h cond payload allowClosedMarket none
  | cancelOrder id =>
    simp only [trade]
    split
    · rename_i hcancel
      exact cancelOrder_accounted h hcancel
    · rw [stepSlack_same rfl, sub_self, abs_zero]
      exact ⟨h, le_rfl⟩
  | squareOffPosition cond id allowClosedMarket => exact squareOffPosition_accounted h cond id allowClosedMarket
  | getPositions markets =>
    obtain ⟨hmarked, hdrift⟩ := getPositions_accounted h markets
    refine ⟨hmarked, ?_⟩
    have hzero : s.stepSlack (s.getPositions markets) = 0 := stepSlack_same rfl
    simp only [trade]
    rw [hzero, hdrift, sub_self, abs_zero]

/-! ### Runs -/

theorem run_accounted {s : Shard} (h : s.Accounted) (calls : List TradeCall) :
    (run trade s calls).Accounted ∧ |(run trade s calls).drift - s.drift| ≤ s.slack calls := by
  induction calls generalizing s with
  | nil => exact ⟨h, by simp [slack]⟩
  | cons call calls ih =>
    obtain ⟨hnext, hstep⟩ := trade_accounted h call
    obtain ⟨hrun, hrest⟩ := ih hnext
    refine ⟨hrun, ?_⟩
    rw [run_cons, slack]
    have htri := abs_sub_le (run trade (s.trade call) calls).drift (s.trade call).drift s.drift
    linarith

theorem unrealized_error {s : Shard} (h : ∀ id pos, s.positions.get? id = some pos → pos.Quoted) :
    |(s.openPositions.map (·.unrealizedPnl)).sum - (s.worth - s.basis)| ≤ s.openPositions.length / 200 := by
  have hquoted : ∀ e ∈ s.positions.entries, e.2.Quoted :=
    fun e he => h e.1 e.2 ((Dict.mem_entries_iff _ _ _).mp he)
  unfold openPositions worth basis Dict.values Dict.sum
  generalize s.positions.entries = es at hquoted ⊢
  induction es with
  | nil => simp
  | cons e es ih =>
    obtain ⟨hq, hrest⟩ := List.forall_mem_cons.mp hquoted
    have hle := ih hrest
    simp only [List.map_cons, List.sum_cons, List.filter_cons]
    cases hopen : e.2.isOpen with
    | false =>
      simp only [Bool.false_eq_true, if_false, VirtualPosition.signed, hopen, Int.cast_zero, zero_mul, zero_add]
      exact hle
    | true =>
      have hsplit : ∀ u U l W a B : ℚ, u + U - (l + W - (a + B)) = u - (l - a) + (U - (W - B)) :=
        fun u U l W a B => by ring
      simp only [if_true, List.map_cons, List.sum_cons, List.length_cons]
      rw [hsplit, ← mul_sub]
      refine (abs_add_le _ _).trans ((add_le_add (hq hopen) hle).trans (le_of_eq ?_))
      push_cast
      ring

/-- Along any run from an empty shard, realized and unrealized results are what the filled
orders have earned, up to the rounding at adds, at closing fills and at open positions. -/
theorem bookPnl_filledPnl (capital : ℚ) (limits : RiskLimits) (calls : List TradeCall) :
    |(run trade { capital, limits } calls).bookPnl - (run trade { capital, limits } calls).filledPnl| ≤
      slack { capital, limits } calls + (run trade { capital, limits } calls).openPositions.length / 200 := by
  have hstart : Accounted { capital, limits } :=
    ⟨fun _ _ hk => (nomatch hk), fun _ => rfl, fun _ _ hk => (nomatch hk)⟩
  obtain ⟨hrun, hdrift⟩ := run_accounted hstart calls
  have hzero : drift { capital, limits } = 0 := by simp [drift, cash, basis, Dict.sum, Dict.empty]
  have hopen := unrealized_error hrun.quoted
  rw [hzero, sub_zero] at hdrift
  generalize run trade { capital, limits } calls = s at hrun hdrift hopen ⊢
  have hsplit : s.bookPnl - s.filledPnl =
      s.drift + ((s.openPositions.map (·.unrealizedPnl)).sum - (s.worth - s.basis)) := by
    rw [filledPnl_eq hrun.gap, bookPnl, drift]
    ring
  rw [hsplit]
  exact (abs_add_le _ _).trans (add_le_add hdrift hopen)

end Shard

end Droid.Paper
