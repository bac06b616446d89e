import Droid.Paper.Conservation

/-! The sweep of resting orders against the direct fill path. -/
namespace Droid.Paper
open Lib

def Fill.price? : Fill → Option ℚ
  | .filled price _ => some price
  | .resting | .unavailable => none

/-- A resting order after the sweep decided on it. -/
def VirtualOrder.decided (order : VirtualOrder) : Option ℚ → VirtualOrder
  | none => order
  | some fillAt => { order with
      status := .filled, fillPrice := some (roundTo 2 fillAt), fillSource := some .limit
      estimatedCosts := some (estimateCosts order.payload.side (roundTo 2 fillAt) order.payload.quantity) }

/-- A better price for the side: lower for a buyer, higher for a seller. -/
def OrderSide.better : OrderSide → ℚ → ℚ → Prop
  | .buy, p, q => p < q
  | .sell, p, q => q < p

/-- The market after friction is within the order's limit. -/
def OrderPayload.within (payload : OrderPayload) (ltp : ℚ) : Prop :=
  ¬ payload.side.better payload.price (applyFriction ltp payload.side)

/-- The price has reached the order's trigger. -/
def OrderPayload.hit (payload : OrderPayload) (ltp : ℚ) : Prop :=
  ¬ payload.side.better ltp (payload.triggerPrice.getD 0)

instance (side : OrderSide) (p q : ℚ) : Decidable (side.better p q) :=
  match side with
  | .buy => inferInstanceAs (Decidable (p < q))
  | .sell => inferInstanceAs (Decidable (q < p))

instance (payload : OrderPayload) (ltp : ℚ) : Decidable (payload.within ltp) :=
  inferInstanceAs (Decidable (¬ _))

namespace Shard

/-- Sweep and direct path agree on a resting order: the sweep decides to fill it just when the
direct path would return a fill, and at its price; it does not fill a stop-limit order while the
market is beyond the limit, and never at a better price than market and limit both. -/
def SweepAgrees (cond : Conditions) (s : Shard) (id : OrderId) (order : VirtualOrder) (ltp : ℚ)
    (market : Market) : Prop :=
  ∃ decision, (s.evaluatePendingOrders cond order.payload.symbol ltp).orders[id]? =
      some (order.decided decision) ∧
    decision = (resolveFill market order.payload none).price? ∧
    (order.payload.orderType = .slLimit → 0 < order.payload.price → ¬ order.payload.within ltp →
      decision = none) ∧
    ∀ price ∈ decision, ¬ (order.payload.side.better price (applyFriction ltp order.payload.side) ∧
      order.payload.side.better price order.payload.price)

/-! ### What a sweep decides -/

theorem fillPending_self (cond : Conditions) (ltp : ℚ) {s : Shard} {id : OrderId} {order : VirtualOrder}
    (horder : s.orders[id]? = some order) (hpending : order.status = .pending) :
    (s.fillPending cond ltp id).orders[id]? = some (order.decided (touchPrice order ltp)) := by
  obtain ⟨hlt, -⟩ := List.getElem?_eq_some_iff.mp horder
  rcases fillPending_cases cond ltp s id with ⟨heq, hidle⟩ | ⟨order', fillAt, horder', htouch, -, heq⟩
  · have hnone := (hidle order horder).resolve_right (not_not.mpr hpending)
    rw [heq, hnone]
    exact horder
  · obtain rfl : order = order' := Option.some.inj (horder.symm.trans horder')
    have hmarked : (s.orders.set id (order.markedFilled fillAt))[id]? = some (order.markedFilled fillAt) :=
      List.getElem?_set_self hlt
    have hdecided : order.decided (touchPrice order ltp) = order.markedFilled fillAt := by
      rw [htouch]
      rfl
    rw [hdecided]
    rcases heq with heq | ⟨leg, -, heq⟩
    · rw [heq]
      exact hmarked
    · obtain ⟨more, hmore⟩ := placeOrderLocked_older cond
        { s with orders := s.orders.set id (order.markedFilled fillAt) } leg true
        (some (roundTo 2 fillAt, .limit))
      rw [heq, ← hmore, List.getElem?_append_left (by simpa using hlt)]
      exact hmarked

theorem fillPending_other (cond : Conditions) (ltp : ℚ) {s : Shard} {id i : OrderId} {order : VirtualOrder}
    (horder : s.orders[id]? = some order) (hne : id ≠ i) :
    (s.fillPending cond ltp i).orders[id]? = some order := by
  obtain ⟨hlt, -⟩ := List.getElem?_eq_some_iff.mp horder
  obtain ⟨-, -, -, holder⟩ := fillPending_spec cond ltp s i
  rw [holder id hlt hne, horder]

private theorem fold_other (cond : Conditions) (ltp : ℚ) {s : Shard} (ids : List OrderId) {id : OrderId}
    {order : VirtualOrder} (horder : s.orders[id]? = some order) (hid : id ∉ ids) :
    (ids.foldl (fillPending cond ltp) s).orders[id]? = some order := by
  induction ids generalizing s with
  | nil => exact horder
  | cons i ids ih =>
    obtain ⟨hne, hrest⟩ := not_or.mp (mt List.mem_cons.mpr hid)
    exact ih (fillPending_other cond ltp horder hne) hrest

private theorem fold_decides (cond : Conditions) (ltp : ℚ) {s : Shard} (ids : List OrderId)
    (hn : ids.Nodup) {id : OrderId} {order : VirtualOrder} (horder : s.orders[id]? = some order)
    (hpending : order.status = .pending) (hid : id ∈ ids) :
    (ids.foldl (fillPending cond ltp) s).orders[id]? =
      some (order.decided (touchPrice order ltp)) := by
  induction ids generalizing s with
  | nil => cases hid
  | cons i ids ih =>
    obtain ⟨hi, hn⟩ := List.nodup_cons.mp hn
    rw [List.foldl_cons]
    by_cases hne : id = i
    · subst hne
      exact fold_other cond ltp ids (fillPending_self cond ltp horder hpending) hi
    · have hrest : id ∈ ids := (List.mem_cons.mp hid).resolve_left hne
      exact ih hn (fillPending_other cond ltp horder hne) hrest

theorem evaluatePendingOrders_order (cond : Conditions) {s : Shard} {id : OrderId} {order : VirtualOrder}
    (horder : s.orders[id]? = some order) (hpending : order.status = .pending) {ltp : ℚ} (hltp : 0 < ltp) :
    (s.evaluatePendingOrders cond order.payload.symbol ltp).orders[id]? =
      some (order.decided (touchPrice order ltp)) := by
  obtain ⟨hlt, -⟩ := List.getElem?_eq_some_iff.mp horder
  rw [evaluatePendingOrders]
  rw [if_neg (not_le.mpr hltp)]
  refine fold_decides cond ltp _ (List.nodup_reverse.mpr (List.nodup_range.filter _)) horder hpending ?_
  refine List.mem_reverse.mpr (List.mem_filter.mpr ⟨List.mem_range.mpr hlt, ?_⟩)
  simp [horder, hpending]

end Shard

/-! ### The two touch rules -/

theorem limitFill_within (payload : OrderPayload) {ltp : ℚ} (h : payload.within ltp) :
    limitFill payload.side (applyFriction ltp payload.side) payload.price =
      .filled (applyFriction ltp payload.side) .limit := by
  unfold OrderPayload.within at h
  unfold limitFill
  cases hside : payload.side <;> rw [hside] at h <;> rw [OrderSide.better, not_lt] at h
  · simp only [if_pos h, min_eq_left h]
  · simp only [ge_iff_le, if_pos h, max_eq_left h]

theorem limitFill_beyond (payload : OrderPayload) {ltp : ℚ} (h : ¬ payload.within ltp) :
    limitFill payload.side (applyFriction ltp payload.side) payload.price = .resting := by
  unfold OrderPayload.within at h
  rw [not_not] at h
  unfold limitFill
  cases hside : payload.side <;> rw [hside] at h <;> rw [OrderSide.better] at h
  · simp only [if_neg (not_le.mpr h)]
  · simp only [ge_iff_le, if_neg (not_le.mpr h)]

theorem rests_cases {market : Market} {payload : OrderPayload}
    (h : resolveFill market payload none = .resting) :
    (payload.orderType = .limit ∧ 0 < payload.price) ∨
      ((payload.orderType = .slMarket ∨ payload.orderType = .slLimit) ∧
        positive payload.triggerPrice = some (payload.triggerPrice.getD 0)) := by
  have htrig : positive payload.triggerPrice ≠ none →
      positive payload.triggerPrice = some (payload.triggerPrice.getD 0) := by
    intro hne
    obtain ⟨trig, ht⟩ := Option.ne_none_iff_exists'.mp hne
    obtain ⟨hsome, -⟩ := Option.filter_eq_some_iff.mp ht
    rw [ht, hsome, Option.getD_some]
  unfold resolveFill at h
  cases hotype : payload.orderType with
  | market =>
    simp only [hotype] at h
    split at h <;> cases h
  | limit =>
    simp only [hotype] at h
    refine .inl ⟨rfl, not_le.mp fun hle => ?_⟩
    rw [if_pos hle] at h
    cases h
  | slMarket =>
    refine .inr ⟨.inl rfl, htrig fun hnone => ?_⟩
    simp only [hotype, hnone] at h
    cases h
  | slLimit =>
    refine .inr ⟨.inr rfl, htrig fun hnone => ?_⟩
    simp only [hotype, hnone] at h
    cases h

section Touch
variable {order : VirtualOrder} {payload : OrderPayload} {ltp : ℚ} {market : Market}

private theorem touchPrice_limit (hotype : order.payload.orderType = .limit) :
    touchPrice order ltp =
      if order.payload.within ltp then some (applyFriction ltp order.payload.side) else none := by
  obtain ⟨⟨_, _, side, _, _, _, price, _, _, _, _⟩, _, _, _, _, _⟩ := order
  simp only at hotype
  unfold touchPrice OrderPayload.within
  simp only [hotype]
  cases side <;> simp only [OrderSide.better, not_lt, ge_iff_le, decide_eq_true_eq]
  · split
    · rename_i hle
      rw [min_eq_left hle]
    · rfl
  · split
    · rename_i hle
      rw [max_eq_left hle]
    · rfl

private theorem touchPrice_stop
    (hstop : order.payload.orderType = .slMarket ∨ order.payload.orderType = .slLimit) :
    (¬ order.payload.hit ltp → touchPrice order ltp = none) ∧
      (order.payload.hit ltp → touchPrice order ltp =
        some (if order.payload.orderType = .slMarket ∨ order.payload.within ltp
          then applyFriction ltp order.payload.side else order.payload.price)) := by
  obtain ⟨⟨_, _, side, _, _, _, price, _, _, _, _⟩, _, _, _, _, _⟩ := order
  simp only at hstop
  unfold touchPrice OrderPayload.within OrderPayload.hit
  rcases hstop with hotype | hotype <;> cases side <;>
    simp only [hotype, OrderSide.better, not_lt, ge_iff_le, decide_eq_true_eq, true_or, if_true,
      reduceCtorEq, false_or, if_false]
  · exact ⟨fun h => if_neg h, fun h => if_pos h⟩
  · exact ⟨fun h => if_neg h, fun h => if_pos h⟩
  · refine ⟨fun h => if_neg h, fun h => ?_⟩
    rw [if_pos h, min_def]
  · refine ⟨fun h => if_neg h, fun h => ?_⟩
    rw [if_pos h, max_comm, max_def]

private theorem resolveFill_limit (hotype : payload.orderType = .limit) (hprice : 0 < payload.price)
    (hlive : resolveLiveLtp market payload.symbol payload.underlying = some ltp) :
    (resolveFill market payload none).price? =
      if payload.within ltp then some (applyFriction ltp payload.side) else none := by
  rw [resolveFill]
  simp only [hotype, if_neg (not_le.mpr hprice), hlive]
  by_cases hw : payload.within ltp
  · rw [limitFill_within payload hw, if_pos hw, Fill.price?]
  · rw [limitFill_beyond payload hw, if_neg hw, Fill.price?]

private theorem resolveFill_stop
    (hstop : payload.orderType = .slMarket ∨ payload.orderType = .slLimit)
    (htrig : positive payload.triggerPrice = some (payload.triggerPrice.getD 0))
    (hlive : resolveLiveLtp market payload.symbol payload.underlying = some ltp) :
    (¬ payload.hit ltp → (resolveFill market payload none).price? = none) ∧
      (payload.hit ltp → (resolveFill market payload none).price? =
        if payload.orderType = .slMarket ∨ payload.price ≤ 0 ∨ payload.within ltp
          then some (applyFriction ltp payload.side) else none) := by
  -- once the trigger is hit only the limit is left to look at
  have hfill : (¬ payload.hit ltp → resolveFill market payload none = .resting) ∧
      (payload.hit ltp → resolveFill market payload none =
        if payload.orderType = .slMarket ∨ payload.price ≤ 0
          then .filled (applyFriction ltp payload.side) .live
          else limitFill payload.side (applyFriction ltp payload.side) payload.price) := by
    obtain ⟨_, _, side, _, _, _, price, _, _, _, _⟩ := payload
    simp only at hstop htrig hlive
    rw [resolveFill, OrderPayload.hit]
    rcases hstop with hotype | hotype <;> cases side <;>
      simp only [hotype, htrig, hlive, OrderSide.better, not_lt, ge_iff_le, decide_eq_true_eq] <;>
      refine ⟨fun h => ?_, fun h => ?_⟩ <;> simp only [h, not_true_eq_false, not_false_eq_true, if_true, if_false]
  refine ⟨fun hhit => ?_, fun hhit => ?_⟩
  · rw [hfill.1 hhit, Fill.price?]
  · rw [hfill.2 hhit]
    by_cases hmarket : payload.orderType = .slMarket ∨ payload.price ≤ 0
    · rw [if_pos hmarket, if_pos (or_assoc.mp (.inl hmarket)), Fill.price?]
    · rw [if_neg hmarket]
      by_cases hw : payload.within ltp
      · rw [limitFill_within payload hw, if_pos (.inr (.inr hw)), Fill.price?]
      · rw [limitFill_beyond payload hw, if_neg fun h => (or_assoc.mpr h).elim hmarket hw, Fill.price?]

end Touch

/-! ### Agreement -/

theorem OrderSide.better_irrefl (side : OrderSide) (p : ℚ) : ¬ side.better p p := by
  cases side <;> exact lt_irrefl p

/-- The market after friction is no better than itself, so a fill at it is fair. -/
private theorem fair (payload : OrderPayload) (ltp : ℚ) {decision : Option ℚ}
    (h : ∀ price ∈ decision, price = applyFriction ltp payload.side) :
    ∀ price ∈ decision, ¬ (payload.side.better price (applyFriction ltp payload.side) ∧
      payload.side.better price payload.price) := by
  rintro price hprice ⟨hbetter, -⟩
  rw [h price hprice] at hbetter
  exact payload.side.better_irrefl _ hbetter

private theorem slLimit_beyond {order : VirtualOrder} {ltp : ℚ} {market : Market}
    (hpending : order.status = .pending)
    (hlive : resolveLiveLtp market order.payload.symbol order.payload.underlying = some ltp)
    (hotype : order.payload.orderType = .slLimit)
    (htrig : positive order.payload.triggerPrice = some (order.payload.triggerPrice.getD 0))
    (hhit : order.payload.hit ltp) (hw : ¬ order.payload.within ltp) :
    order.decided (touchPrice order ltp) ≠
      order.decided (resolveFill market order.payload none).price? := by
  have htouch : touchPrice order ltp = some order.payload.price := by
    rw [(touchPrice_stop (.inr hotype)).2 hhit, if_neg (by simp [hotype, hw])]
  rw [htouch, (resolveFill_stop (.inr hotype) htrig hlive).2 hhit]
  intro heq
  by_cases hprice : order.payload.price ≤ 0
  · -- without a limit the sweep fills at zero, the direct path at the market
    rw [if_pos (.inr (.inl hprice))] at heq
    have hzero : order.payload.price = 0 := le_antisymm hprice order.payload.price_nonneg
    have hfill := Option.some.inj (congrArg VirtualOrder.fillPrice heq)
    rw [hzero, roundTo_zero, applyFriction, roundTo_roundTo] at hfill
    refine hw ?_
    rw [OrderPayload.within, applyFriction]
    rw [hzero, ← hfill]
    exact order.payload.side.better_irrefl 0
  · rw [if_neg (by simp [hotype, hprice, hw])] at heq
    have hstatus := congrArg VirtualOrder.status heq
    rw [VirtualOrder.decided, VirtualOrder.decided, hpending] at hstatus
    cases hstatus

/-- The sweep of a resting order agrees with the direct path, but for a stop-limit order that
is hit while the market is beyond its limit. -/
theorem Shard.sweep_agrees_iff (cond : Conditions) {s : Shard} {id : OrderId} {order : VirtualOrder}
    (horder : s.orders[id]? = some order) (hpending : order.status = .pending) {market₀ : Market}
    (hrested : resolveFill market₀ order.payload none = .resting) {ltp : ℚ} (hltp : 0 < ltp)
    {market : Market}
    (hlive : resolveLiveLtp market order.payload.symbol order.payload.underlying = some ltp) :
    s.SweepAgrees cond id order ltp market ↔
      (order.payload.orderType = .slLimit → order.payload.hit ltp → order.payload.within ltp) := by
  have hdecided := evaluatePendingOrders_order cond horder hpending hltp
  rw [SweepAgrees]
  rw [hdecided]
  constructor
  · rintro ⟨decision, hswept, hdirect, -, -⟩ hotype hhit
    by_contra hw
    rcases rests_cases hrested with ⟨hlimit, -⟩ | ⟨-, htrig⟩
    · rw [hotype] at hlimit
      cases hlimit
    · rw [hdirect] at hswept
      exact slLimit_beyond hpending hlive hotype htrig hhit hw (Option.some.inj hswept)
  · intro hcond
    refine ⟨touchPrice order ltp, rfl, ?_⟩
    rcases rests_cases hrested with ⟨hotype, hprice⟩ | ⟨hstop, htrig⟩
    · rw [resolveFill_limit hotype hprice hlive, touchPrice_limit hotype]
      refine ⟨rfl, fun h => ?_, fair order.payload ltp fun price hm => ?_⟩
      · rw [hotype] at h
        cases h
      · split at hm
        · exact (Option.mem_some.mp hm).symm
        · cases hm
    · by_cases hhit : order.payload.hit ltp
      · have hmarket : order.payload.orderType = .slMarket ∨ order.payload.within ltp :=
          Or.imp_right (fun h => hcond h hhit) hstop
        have hdirect : order.payload.orderType = .slMarket ∨ order.payload.price ≤ 0 ∨
            order.payload.within ltp := Or.imp_right .inr hmarket
        rw [(touchPrice_stop hstop).2 hhit, (resolveFill_stop hstop htrig hlive).2 hhit, if_pos hmarket,
          if_pos hdirect]
        refine ⟨rfl, fun h _ hw => absurd (hcond h hhit) hw, fair order.payload ltp fun price hm => ?_⟩
        exact (Option.mem_some.mp hm).symm
      · rw [(touchPrice_stop hstop).1 hhit, (resolveFill_stop hstop htrig hlive).1 hhit]
        exact ⟨rfl, fun _ _ _ => rfl, fun price hm => absurd hm (Option.not_mem_none price)⟩

/-- A stop-limit buy of one lot, triggered at 110 and limited to 112. -/
def stopLimitBuy : OrderPayload where
  symbol := "NIFTY24AUG23800CE"
  underlying := "NIFTY"
  side := .buy
  orderType := .slLimit
  quantity := 75
  price := 112
  triggerPrice := some 110
  quantity_pos := lot_pos
  price_nonneg := by decide

def quoting (ltp : ℚ) : Market where
  getQuote _ := some ltp

namespace Shard

def withStopLimit : Shard := (submit { } { payload := stopLimitBuy, status := .pending }).1

theorem sweep_agrees_at_111 :
    SweepAgrees { } withStopLimit 0 { payload := stopLimitBuy, status := .pending } 111 (quoting 111) := by
  have horder : withStopLimit.orders[0]? = some { payload := stopLimitBuy, status := .pending } := rfl
  have hrested : resolveFill { } stopLimitBuy none = .resting := by decide +kernel
  have hlive : resolveLiveLtp (quoting 111) stopLimitBuy.symbol stopLimitBuy.underlying = some 111 := by
    decide +kernel
  have hltp : (0 : ℚ) < 111 := by norm_num
  refine (sweep_agrees_iff { } horder rfl hrested hltp hlive).mpr fun _ _ => ?_
  decide +kernel

/-- At 115 the market is beyond the limit, and the sweep fills the order at 112. -/
theorem stop_limit_swept_beyond :
    ¬ SweepAgrees { } withStopLimit 0 { payload := stopLimitBuy, status := .pending } 115 (quoting 115) := by
  rintro ⟨decision, hswept, -, hlimit, -⟩
  have hnone : decision = none := hlimit rfl (by decide +kernel) (by decide +kernel)
  have hfilled : ((evaluatePendingOrders { } withStopLimit stopLimitBuy.symbol 115).orders[0]?).map (·.status) =
      some .filled := by decide +kernel
  rw [hswept, hnone] at hfilled
  cases hfilled

end Shard

end Droid.Paper
