import Droid.Paper.Restarts
import Droid.Paper.Pnl
import Droid.Paper.Gates

/-! Which square-offs leave the position flat, in every shard the service can reach. -/
namespace Droid.Paper
open Lib

namespace Shard

/-- The shards of a user: fresh or reset ones, what any call makes of them, and what a hydration
fills with rows of positions that some shard held. -/
inductive Reachable : Shard → Prop
  | start (capital : ℚ) (limits : RiskLimits) : Reachable { capital, limits }
  | step {s : Shard} (call : PaperCall) : Reachable s → Reachable (s.step call)
  | getPositions {s : Shard} (markets : PositionId → Market) : Reachable s → Reachable (s.getPositions markets)
  | setInitialCapital {s : Shard} (capital : ℚ) : Reachable s → Reachable { s with capital }
  | hydrate {s : Shard} (rows : Rows) (source : VirtualPosition → Shard)
      (held : ∀ pos ∈ rows.positions, (source pos).positions.get? pos.positionId = some pos) :
      (∀ pos ∈ rows.positions, Reachable (source pos)) → Reachable s → Reachable (s.hydrateAnon rows)

/-- Stored under its own key, not empty when open, with its average in paise. -/
structure Neat (id : PositionId) (pos : VirtualPosition) : Prop where
  key : pos.positionId = id
  quantity : pos.isOpen = true → 0 < pos.quantity
  average : IsDecimal 2 pos.averagePrice

def AllNeat (s : Shard) : Prop := ∀ id pos, s.positions.get? id = some pos → Neat id pos

theorem AllNeat.of_positions {s s' : Shard} (h : s.AllNeat) (hp : s'.positions = s.positions) :
    s'.AllNeat := by
  rw [AllNeat]
  rw [hp]
  exact h

theorem AllNeat.store {s : Shard} (h : s.AllNeat) {id : PositionId} {pos : VirtualPosition}
    (hpos : Neat id pos) : (s.store id pos).AllNeat := by
  intro k p hk
  rw [Shard.store, Dict.get?_insert] at hk
  split at hk
  · rename_i hkid
    cases hk
    rw [hkid]
    exact hpos
  · exact h k p hk

theorem Neat.refresh {id : PositionId} {pos : VirtualPosition} (h : Neat id pos) (ltp : ℚ) :
    Neat id (pos.refresh ltp) := ⟨h.key, h.quantity, h.average⟩

/-! ### Orders -/

theorem AllNeat.applyFill {s : Shard} (h : s.AllNeat) (payload : OrderPayload) {fillPrice : ℚ}
    (hprice : IsDecimal 2 fillPrice) : (s.applyFill payload fillPrice).AllNeat := by
  have hopened : ∀ quantity margin, 0 < quantity →
      Neat payload.positionId (.openAt payload quantity fillPrice margin) :=
    fun quantity margin hq => ⟨rfl, fun _ => hq, hprice⟩
  have hneat : ∀ existing, s.openPosition payload.positionId = some existing →
      Neat payload.positionId existing ∧ existing.isOpen = true := by
    intro existing hopen
    obtain ⟨hget, hisOpen⟩ := Option.filter_eq_some_iff.mp hopen
    exact ⟨h _ _ hget, hisOpen⟩
  have hbooked : ∀ existing, (s.booked existing payload.quantity fillPrice).AllNeat :=
    fun _ => h.of_positions rfl
  have hq := payload.quantity_pos
  have hfill := applyFill_as s payload fillPrice
  generalize s.applyFill payload fillPrice = s' at hfill ⊢
  cases hfill with
  | opens hnone => exact h.store (hopened _ _ hq)
  | adds existing hopen hside =>
    obtain ⟨hold, hisOpen⟩ := hneat existing hopen
    have hquantity := hold.quantity hisOpen
    refine h.store ⟨hold.key, fun _ => ?_, isDecimal_roundTo 2 _⟩
    simp only [VirtualPosition.add, VirtualPosition.refresh]
    omega
  | reduces existing hopen hside hqty =>
    obtain ⟨hold, -⟩ := hneat existing hopen
    refine (hbooked existing).store ⟨hold.key, fun _ => ?_, hold.average⟩
    simp only [VirtualPosition.reduce, VirtualPosition.refresh]
    omega
  | closes existing hopen hside hqty =>
    obtain ⟨hold, -⟩ := hneat existing hopen
    refine (hbooked existing).store ⟨hold.key, fun hisOpen => ?_, hold.average⟩
    cases hisOpen
  | flips existing hopen hside hqty => exact (hbooked existing).store (hopened _ _ (by omega))

theorem placeOrderLocked_positions (cond : Conditions) (s : Shard) (payload : OrderPayload)
    (allowClosedMarket : Bool) (forcedFill : Option (ℚ × FillSource)) :
    (s.placeOrderLocked cond payload allowClosedMarket forcedFill).1.positions = s.positions ∨
      ∃ price, (s.placeOrderLocked cond payload allowClosedMarket forcedFill).1.positions =
        (s.applyFill payload (roundTo 2 price)).positions := by
  rw [placeOrderLocked]
  split
  · exact .inl rfl
  · split
    · exact .inl rfl
    · split
      · exact .inl (submit_positions _ _)
      · exact .inl rfl
      · rename_i price source _
        rw [execute]
        split
        · exact .inl rfl
        · simp only
          split
          · exact .inl rfl
          · exact .inr ⟨price, submit_positions _ _⟩

theorem AllNeat.placeOrderLocked {s : Shard} (h : s.AllNeat) (cond : Conditions) (payload : OrderPayload)
    (allowClosedMarket : Bool) (forcedFill : Option (ℚ × FillSource)) :
    (s.placeOrderLocked cond payload allowClosedMarket forcedFill).1.AllNeat := by
  rcases placeOrderLocked_positions cond s payload allowClosedMarket forcedFill with heq | ⟨price, heq⟩
  · exact h.of_positions heq
  · exact (h.applyFill payload (isDecimal_roundTo 2 price)).of_positions heq

theorem AllNeat.squareOffPosition {s : Shard} (h : s.AllNeat) (cond : Conditions) (id : PositionId)
    (allowClosedMarket : Bool) : (s.squareOffPosition cond id allowClosedMarket).1.AllNeat := by
  rcases squareOffPosition_cases cond s id allowClosedMarket with
    ⟨-, heq⟩ | ⟨pos, refreshed, hopen, hrefreshed, heq⟩
  · rw [heq]
    exact h
  · have hpos : Neat id pos := h id pos (Option.filter_eq_some_iff.mp hopen).1
    have hstored : (s.store id refreshed).AllNeat := by
      rcases hrefreshed with rfl | ⟨ltp, rfl⟩
      · exact h.store hpos
      · exact h.store (hpos.refresh ltp)
    rcases heq with heq | ⟨payload, forced, -, heq⟩
    · rw [heq]
      exact hstored
    · rw [heq]
      exact hstored.placeOrderLocked cond payload true (some forced)

theorem AllNeat.fillPending {s : Shard} (h : s.AllNeat) (cond : Conditions) (ltp : ℚ) (id : OrderId) :
    (s.fillPending cond ltp id).AllNeat := by
  rcases fillPending_cases cond ltp s id with
    ⟨heq, -⟩ | ⟨order, fillAt, -, -, -, heq | ⟨leg, -, heq⟩⟩
  · rw [heq]
    exact h
  · rw [heq]
    exact h.of_positions rfl
  · have hmarked : AllNeat { s with orders := s.orders.set id (order.markedFilled fillAt) } :=
      h.of_positions rfl
    rw [heq]
    exact hmarked.placeOrderLocked cond leg true _

theorem allNeat_foldl {α : Type} {f : Shard → α → Shard} (hf : ∀ s a, AllNeat s → AllNeat (f s a))
    {s : Shard} (h : s.AllNeat) (l : List α) : AllNeat (l.foldl f s) := by
  induction l generalizing s with
  | nil => exact h
  | cons a l ih => exact ih (hf s a h)

theorem AllNeat.step {s : Shard} (h : s.AllNeat) (call : PaperCall) : (s.step call).AllNeat := by
  cases call with
  | placeOrder cond payload allowClosedMarket =>
    exact h.placeOrderLocked cond payload allowClosedMarket none
  | placeBasket legs allowClosedMarket =>
    exact allNeat_foldl (fun s leg hs => hs.placeOrderLocked leg.1 leg.2 allowClosedMarket none) h legs
  | cancelOrder id =>
    simp only [Shard.step]
    split
    · rename_i hcancel
      exact h.of_positions (cancelOrder_positions hcancel)
    · exact h
  | squareOffPosition cond id allowClosedMarket => exact h.squareOffPosition cond id allowClosedMarket
  | squareOffAll conds allowClosedMarket =>
    exact allNeat_foldl (fun s id hs => hs.squareOffPosition (conds id) id allowClosedMarket) h _
  | evaluatePendingOrders cond symbol ltp =>
    simp only [Shard.step, evaluatePendingOrders]
    split
    · exact h
    · exact allNeat_foldl (fun s id hs => hs.fillPending cond ltp id) h _

theorem allNeat_rows {rows : List VirtualPosition} (hrows : ∀ pos ∈ rows, Neat pos.positionId pos)
    {d : Dict PositionId VirtualPosition} (hd : ∀ id pos, d.get? id = some pos → Neat id pos) :
    ∀ id pos, (rows.foldl (fun d pos => d.insert pos.positionId pos) d).get? id = some pos → Neat id pos := by
  induction rows generalizing d with
  | nil => exact hd
  | cons row rows ih =>
    refine ih (fun pos hpos => hrows pos (List.mem_cons_of_mem _ hpos)) fun id pos hget => ?_
    rw [Dict.get?_insert] at hget
    split at hget
    · rename_i hid
      cases hget
      rw [hid]
      exact hrows row List.mem_cons_self
    · exact hd id pos hget

theorem Reachable.allNeat {s : Shard} (h : Reachable s) : s.AllNeat := by
  induction h with
  | start capital limits => exact fun _ _ hget => nomatch hget
  | step call _ ih => exact ih.step call
  | @getPositions s markets _ ih =>
    intro id pos hget
    rw [Shard.getPositions, Dict.get?_mapValues] at hget
    obtain ⟨old, hold, rfl⟩ := Option.map_eq_some_iff.mp hget
    have hneat := ih id old hold
    rcases markLive_cases (markets id) old with heq | ⟨ltp, heq⟩
    · rw [heq]
      exact hneat
    · rw [heq]
      exact hneat.refresh ltp
  | setInitialCapital capital _ ih => exact ih.of_positions rfl
  | @hydrate s rows source held _ _ ihrows ih =>
    rw [hydrateAnon]
    split
    · exact allNeat_rows (fun pos hpos => ihrows pos hpos _ _ (held pos hpos)) ih
    · exact ih

/-! ### The exit -/

/-- The price of an exit, in paise: the live quote after friction, else the last known price. -/
def exitPrice (market : Market) (pos : VirtualPosition) : ℚ :=
  match resolveLiveLtp market pos.symbol pos.underlying with
  | some live => applyFriction live pos.side.opposite
  | none => roundTo 2 pos.ltp

def Priced (market : Market) (pos : VirtualPosition) : Prop :=
  (resolveLiveLtp market pos.symbol pos.underlying).isSome ∨ 0 < pos.ltp

theorem exitPrice_isDecimal (market : Market) (pos : VirtualPosition) : IsDecimal 2 (exitPrice market pos) := by
  rw [exitPrice]
  split
  · exact isDecimal_roundTo 2 _
  · exact isDecimal_roundTo 2 _

theorem exitFill_priced {market : Market} {pos : VirtualPosition} (h : Priced market pos) :
    ∃ refreshed source, exitFill market pos = (refreshed, some (exitPrice market pos, source)) ∧
      (refreshed = pos ∨ ∃ ltp, refreshed = pos.refresh ltp) := by
  rw [Priced] at h
  rw [exitFill, exitPrice]
  cases hlive : resolveLiveLtp market pos.symbol pos.underlying with
  | some live => exact ⟨_, _, rfl, .inr ⟨_, rfl⟩⟩
  | none =>
    rw [hlive] at h
    have hpos : ¬ pos.ltp ≤ 0 := not_le.mpr (h.resolve_left Bool.false_ne_true)
    exact ⟨pos, .closeFallback, by simp only [if_neg hpos], .inl rfl⟩

def soldAt (pos : VirtualPosition) (fillPrice : ℚ) : VirtualPosition :=
  VirtualPosition.close { pos with
    realizedPnl := roundTo 2 (pos.realizedPnl + pos.tradeRealized pos.quantity fillPrice) } fillPrice

theorem applyFill_closes {s : Shard} {pos : VirtualPosition} {payload : OrderPayload}
    (hopen : s.openPosition payload.positionId = some pos) (hside : ¬ pos.side = payload.side)
    (hall : payload.quantity = pos.quantity) (fillPrice : ℚ) :
    s.applyFill payload fillPrice =
      (s.booked pos pos.quantity fillPrice).store payload.positionId (soldAt pos fillPrice) := by
  rw [applyFill]
  simp only [hopen, if_neg hside, hall, sub_self, lt_irrefl, if_false, if_true]
  rfl

/-- A forced market order against a whole position closes it within the size limit and at a
positive price; else it is rejected. -/
theorem placeOrderLocked_closes (cond : Conditions) {s : Shard} {pos : VirtualPosition}
    {payload : OrderPayload} (hopen : s.openPosition payload.positionId = some pos)
    (ha : Against pos payload) (hall : payload.quantity = pos.quantity) (price : ℚ) (source : FillSource) :
    ((payload.quantity ≤ s.limits.maxSingleOrderQty ∧ 0 < price) ∧ ∃ order,
        s.placeOrderLocked cond payload true (some (price, source)) =
          ((s.booked pos pos.quantity (roundTo 2 price)).store payload.positionId
            (soldAt pos (roundTo 2 price))).submit order) ∨
      (¬ (payload.quantity ≤ s.limits.maxSingleOrderQty ∧ 0 < price) ∧ ∃ reason,
        s.placeOrderLocked cond payload true (some (price, source)) = s.reject payload reason) := by
  have hne : ¬ pos.side = payload.side := by
    rw [ha.side]
    cases pos.side <;> decide
  have hrisk := riskGate_exit hopen ha.side
  have hgate : cond.sessionGate payload.underlying payload.symbol true = none := by
    simp [Conditions.sessionGate]
  rw [placeOrderLocked]
  simp only [ha.anonymous, Option.filter_none, Option.bind_none, hgate, Option.map_none, Option.none_or,
    resolveFill]
  cases hr : s.riskGate payload with
  | some reason =>
    refine .inr ⟨fun h => ?_, reason, rfl⟩
    cases (hrisk.mpr h.1).symm.trans hr
  | none =>
    have hmax := hrisk.mp hr
    simp only [execute]
    by_cases hprice : price ≤ 0
    · rw [if_pos hprice]
      exact .inr ⟨fun h => hprice.not_gt h.2, _, rfl⟩
    · have hfat : fatFinger cond.recheck payload source = none := by simp [fatFinger, ha.market]
      have hshort : s.marginShort payload (roundTo 2 price) = none := by simp [marginShort, hopen, hne]
      rw [if_neg hprice, hfat, hshort]
      simp only [Option.or_none, applyFill_closes hopen hne hall]
      exact .inl ⟨⟨hmax, not_le.mp hprice⟩, _, rfl⟩

/-- A square-off leaves the position flat: it answers normally, the position is closed and empty,
and the whole quantity is realized against its average, exactly. -/
structure Flattens (s : Shard) (id : PositionId) (pos : VirtualPosition) (fillPrice : ℚ)
    (res : Shard × Except ServiceError Unit) : Prop where
  answered : res.2 = .ok ()
  closed : ∃ pos', res.1.positions.get? id = some pos' ∧ pos'.isOpen = false ∧ pos'.quantity = 0
  realized : res.1.realized = s.realized +
    (fillPrice - pos.averagePrice) * pos.quantity * pos.side.mult

theorem realized_submit (s : Shard) (order : VirtualOrder) :
    (s.submit order).1.realized = s.realized := by
  unfold submit remember log
  simp only
  split <;> rfl

/-- Of averages and prices in paise the realized result is in paise, and booked as it is. -/
theorem tradeRealized_exact (pos : VirtualPosition) {fillPrice : ℚ}
    (haverage : IsDecimal 2 pos.averagePrice) (hprice : IsDecimal 2 fillPrice) :
    roundTo 2 (pos.tradeRealized pos.quantity fillPrice) =
      (fillPrice - pos.averagePrice) * pos.quantity * pos.side.mult := by
  rw [VirtualPosition.tradeRealized, min_self]
  exact (((hprice.sub haverage).mul_intCast pos.quantity).mul_intCast pos.side.mult).roundTo_eq

/-- In every shard the service can reach, the square-off of an open position that can be priced
and traded leaves it flat exactly when the position is within the size limit of one order and the
exit price is not rounded away. -/
theorem squareOff_flattens_iff {s : Shard} (h : Reachable s) {id : PositionId} {pos : VirtualPosition}
    (hopen : s.openPosition id = some pos) (cond : Conditions) (hpriced : Priced cond.market pos)
    (allowClosedMarket : Bool)
    (hgate : cond.sessionGate pos.underlying pos.symbol allowClosedMarket = none) :
    Flattens s id pos (exitPrice cond.market pos) (s.squareOffPosition cond id allowClosedMarket) ↔
      pos.quantity ≤ s.limits.maxSingleOrderQty ∧ 0 < exitPrice cond.market pos := by
  obtain ⟨hget, hisOpen⟩ := Option.filter_eq_some_iff.mp hopen
  have hneat := h.allNeat id pos hget
  obtain ⟨refreshed, source, hexit, hrefreshed⟩ := exitFill_priced hpriced
  obtain ⟨hkey, hsame, hstillOpen⟩ : refreshed.positionId = id ∧
      (refreshed.symbol = pos.symbol ∧ refreshed.underlying = pos.underlying ∧
        refreshed.product = pos.product ∧ refreshed.side = pos.side ∧
        refreshed.quantity = pos.quantity ∧ refreshed.averagePrice = pos.averagePrice) ∧
      refreshed.isOpen = true := by
    rcases hrefreshed with rfl | ⟨ltp, rfl⟩
    · exact ⟨hneat.key, ⟨rfl, rfl, rfl, rfl, rfl, rfl⟩, hisOpen⟩
    · exact ⟨hneat.key, ⟨rfl, rfl, rfl, rfl, rfl, rfl⟩, hisOpen⟩
  obtain ⟨-, -, -, hside, hquantity, haverage⟩ := hsame
  have hq : 0 < refreshed.quantity := hquantity ▸ hneat.quantity hisOpen
  have hpayload : ∃ payload, exitOrder refreshed = some payload ∧ Against refreshed payload ∧
      payload.quantity = refreshed.quantity ∧ payload.positionId = id := by
    rw [exitOrder, dif_pos hq]
    exact ⟨_, rfl, ⟨rfl, rfl, rfl, rfl, rfl, rfl⟩, rfl, hkey⟩
  obtain ⟨payload, horder, ha, hall, hid⟩ := hpayload
  have hres : s.squareOffPosition cond id allowClosedMarket =
      (((s.store id refreshed).placeOrderLocked cond payload true
        (some (exitPrice cond.market pos, source))).1, .ok ()) := by
    rw [squareOffPosition]
    simp only [hopen, hexit, hgate, horder]
  have hstored : (s.store id refreshed).openPosition payload.positionId = some refreshed := by
    rw [hid, openPosition_store, if_pos hstillOpen]
  rw [hres]
  rcases placeOrderLocked_closes cond hstored ha hall (exitPrice cond.market pos) source with
    ⟨hcond, order, heq⟩ | ⟨hcond, reason, heq⟩
  · have hprice := exitPrice_isDecimal cond.market pos
    rw [hall, hquantity] at hcond
    refine iff_of_true ⟨rfl, ⟨soldAt refreshed (exitPrice cond.market pos), ?_, rfl, rfl⟩, ?_⟩ hcond
    · rw [heq, hprice.roundTo_eq]
      simp only [submit_positions]
      rw [hid]
      exact (Dict.get?_insert _ _ _ _).trans (if_pos rfl)
    · rw [heq, hprice.roundTo_eq, realized_submit]
      have htrade := tradeRealized_exact refreshed (haverage ▸ hneat.average) hprice
      rw [← haverage, ← hside, ← hquantity, ← htrade]
      rfl
  · rw [hall, hquantity] at hcond
    refine iff_of_false (fun hflat => ?_) hcond
    obtain ⟨pos', hpos', hclosed, -⟩ := hflat.closed
    rw [heq] at hpos'
    have hrefreshed' : (s.store id refreshed).positions.get? id = some refreshed :=
      (Dict.get?_insert _ _ _ _).trans (if_pos rfl)
    cases hrefreshed'.symm.trans hpos'
    cases hstillOpen.symm.trans hclosed

def quotedAt (ltp : ℚ) : Conditions where
  market := { getQuote := fun _ => some ltp }

def largeOrder : OrderPayload := callOrder .buy 100000 (by decide)

def largeShard : Shard := step { } (.placeOrder (quotedAt 1) largeOrder true)

def doubledShard : Shard := step largeShard (.placeOrder (quotedAt 1) largeOrder true)

theorem squareOff_largeShard :
    (largeShard.openPosition largeOrder.positionId).any (fun pos => pos.quantity = 100000) = true ∧
      ∃ pos, Flattens largeShard largeOrder.positionId pos (exitPrice (quotedAt 1).market pos)
        (largeShard.squareOffPosition (quotedAt 1) largeOrder.positionId true) := by
  have hsize : (largeShard.openPosition largeOrder.positionId).any (fun pos => pos.quantity = 100000 ∧
      (resolveLiveLtp (quotedAt 1).market pos.symbol pos.underlying).isSome ∧
      ((quotedAt 1).sessionGate pos.underlying pos.symbol true).isNone ∧
      pos.quantity ≤ largeShard.limits.maxSingleOrderQty ∧
      0 < exitPrice (quotedAt 1).market pos) = true := by decide +kernel
  obtain ⟨pos, hopen, hpos⟩ := (Option.any_eq_true _ _).mp hsize
  obtain ⟨hquantity, hlive, hgate, hmax, hprice⟩ := of_decide_eq_true hpos
  refine ⟨by decide +kernel, pos, (squareOff_flattens_iff (.step _ (.start 1000000 { })) hopen (quotedAt 1)
    (.inl hlive) true (Option.isNone_iff_eq_none.mp hgate)).mpr ⟨hmax, hprice⟩⟩

/-- Two of the largest orders make a position that no square-off closes. -/
theorem doubled_position_trapped :
    ¬ ∀ (s : Shard) (id : PositionId) (pos : VirtualPosition) (cond : Conditions)
        (allowClosedMarket : Bool), Reachable s → s.openPosition id = some pos → Priced cond.market pos →
      cond.sessionGate pos.underlying pos.symbol allowClosedMarket = none →
      Flattens s id pos (exitPrice cond.market pos) (s.squareOffPosition cond id allowClosedMarket) := by
  intro h
  have hopen : (doubledShard.openPosition largeOrder.positionId).any (fun pos =>
      (resolveLiveLtp (quotedAt 1).market pos.symbol pos.underlying).isSome ∧
      ((quotedAt 1).sessionGate pos.underlying pos.symbol true).isNone) = true := by decide +kernel
  have hafter : ((doubledShard.squareOffPosition (quotedAt 1) largeOrder.positionId
      true).1.positions.get? largeOrder.positionId).map (·.quantity) = some 200000 := by decide +kernel
  obtain ⟨pos, hopen, hpos⟩ := (Option.any_eq_true _ _).mp hopen
  obtain ⟨hlive, hgate⟩ := of_decide_eq_true hpos
  obtain ⟨pos', hpos', -, hzero⟩ := (h doubledShard largeOrder.positionId pos (quotedAt 1) true
    (.step _ (.step _ (.start 1000000 { }))) hopen (.inl hlive)
    (Option.isNone_iff_eq_none.mp hgate)).closed
  rw [hpos', Option.map_some, hzero] at hafter
  cases hafter

end Shard

end Droid.Paper
