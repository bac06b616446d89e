import Droid.Paper.Fills

/-! The margin, size and loss gates against what a filled order opens. -/
namespace Droid.Paper
open Lib

namespace Shard

/-- What is open under a key in one direction. -/
def exposure (s : Shard) (id : PositionId) (side : OrderSide) : Int :=
  ((s.openPosition id).filter (·.side = side)).elim 0 (·.quantity)

/-- The book once the fill has closed what stands against it, and before it opens anything. -/
def released (s : Shard) (payload : OrderPayload) (fillPrice : ℚ) : Shard :=
  match (s.openPosition payload.positionId).filter (·.side ≠ payload.side) with
  | none => s
  | some existing =>
    { s with realized := s.realized + roundTo 2 (existing.tradeRealized payload.quantity fillPrice) }.store
      payload.positionId (existing.close fillPrice)

/-- A fill that took the shard from s to s' opened nothing, or what it opened was paid for by
the released margin, within the cap, and not against the brake. -/
def Gated (s s' : Shard) (payload : OrderPayload) (fillPrice : ℚ) : Prop :=
  let opened := s'.exposure payload.positionId payload.side - s.exposure payload.positionId payload.side
  0 < opened →
    requiredMargin payload opened fillPrice ≤ (s.released payload fillPrice).availableMargin ∧
      s'.exposure payload.positionId payload.side ≤ maxPositionQtyPerSymbol ∧
      (s.released payload fillPrice).brakeAllows payload.side

instance (s s' : Shard) (payload : OrderPayload) (fillPrice : ℚ) : Decidable (s.Gated s' payload fillPrice) :=
  inferInstanceAs (Decidable (_ → _ ∧ _ ∧ _))

/-- From flat the order's size is within the cap; an add meets the brake; the residual of a
reversal is within the cap, and on the released book it passes the margin gate and the brake. -/
def GatesMet (s : Shard) (payload : OrderPayload) (fillPrice : ℚ) : Prop :=
  match s.openPosition payload.positionId with
  | none => payload.quantity ≤ maxPositionQtyPerSymbol
  | some existing =>
    if existing.side = payload.side then s.brakeAllows payload.side
    else
      ∀ h : 0 < payload.quantity - existing.quantity,
        (s.released payload fillPrice).marginShort
            { payload with quantity := payload.quantity - existing.quantity, quantity_pos := h } fillPrice = none ∧
          payload.quantity - existing.quantity ≤ maxPositionQtyPerSymbol ∧
          (s.released payload fillPrice).brakeAllows payload.side

/-! ### What a fill opens -/

theorem exposure_submit (s : Shard) (order : VirtualOrder) (id : PositionId) (side : OrderSide) :
    (s.submit order).1.exposure id side = s.exposure id side := by
  unfold exposure openPosition
  rw [submit_positions]

theorem exposure_of_open {s : Shard} {id : PositionId} {pos : VirtualPosition}
    (h : s.openPosition id = some pos) (side : OrderSide) :
    s.exposure id side = if pos.side = side then pos.quantity else 0 := by
  rw [exposure]
  rw [h, Option.filter_some]
  split <;> simp_all

theorem exposure_of_none {s : Shard} {id : PositionId} (h : s.openPosition id = none) (side : OrderSide) :
    s.exposure id side = 0 := by
  simp [exposure, h]

theorem exposure_store (s : Shard) (id : PositionId) (pos : VirtualPosition) (side : OrderSide) :
    (s.store id pos).exposure id side = if pos.isOpen ∧ pos.side = side then pos.quantity else 0 := by
  have hstored := openPosition_store s id pos
  cases hisOpen : pos.isOpen with
  | true =>
    rw [hisOpen, if_pos rfl] at hstored
    simp [exposure_of_open hstored]
  | false =>
    rw [hisOpen, if_neg Bool.false_ne_true] at hstored
    simp [exposure_of_none hstored]

/-! ### Exactness -/

private theorem released_same {s : Shard} {payload : OrderPayload}
    (hside : ∀ existing ∈ s.openPosition payload.positionId, existing.side = payload.side) (fillPrice : ℚ) :
    s.released payload fillPrice = s := by
  have hnone : (s.openPosition payload.positionId).filter (·.side ≠ payload.side) = none :=
    Option.filter_eq_none_iff.mpr fun existing hm => by simpa using hside existing hm
  rw [released]
  rw [hnone]

private theorem released_flat {s : Shard} {payload : OrderPayload} {existing : VirtualPosition}
    (hopen : s.openPosition payload.positionId = some existing) (hside : existing.side ≠ payload.side)
    (fillPrice : ℚ) :
    (s.released payload fillPrice).openPosition payload.positionId = none := by
  rw [released]
  rw [hopen, Option.filter_some, if_pos (by simpa using hside)]
  simp only [openPosition_store, VirtualPosition.close, Bool.false_eq_true, if_false]

theorem applyFill_gated_iff {s : Shard} {payload : OrderPayload} {fillPrice : ℚ}
    (hrisk : s.riskGate payload = none) (hshort : s.marginShort payload fillPrice = none) :
    s.Gated (s.applyFill payload fillPrice) payload fillPrice ↔ s.GatesMet payload fillPrice := by
  obtain ⟨hfresh, hcap⟩ := riskGate_passed hrisk
  have hq := payload.quantity_pos
  have h := applyFill_as s payload fillPrice
  rw [Gated, GatesMet]
  generalize s.applyFill payload fillPrice = s' at h ⊢
  cases h with
  | opens hnone =>
    have hside : ∀ existing ∈ s.openPosition payload.positionId, existing.side = payload.side := by
      simp [hnone]
    simp only [exposure_store, exposure_of_none hnone, released_same hside, hnone, VirtualPosition.openAt,
      and_self, if_true, sub_zero]
    have hpaid := (marginShort_passed hside).mp hshort
    exact ⟨fun hg => (hg hq).2.1, fun hc _ => ⟨hpaid, hc, (hfresh hnone).2⟩⟩
  | adds existing hopen hside =>
    obtain ⟨-, hisOpen⟩ := Option.filter_eq_some_iff.mp hopen
    have hsame : ∀ pos ∈ s.openPosition payload.positionId, pos.side = payload.side := by
      rw [hopen]
      rintro pos ⟨⟩
      exact hside
    simp only [exposure_store, exposure_of_open hopen, released_same hsame, hopen, VirtualPosition.add,
      VirtualPosition.refresh, hisOpen, hside, and_self, if_true, add_sub_cancel_left]
    have hpaid := (marginShort_passed hsame).mp hshort
    exact ⟨fun hg => (hg hq).2.2, fun hb _ => ⟨hpaid, hcap existing hopen hside, hb⟩⟩
  | reduces existing hopen hside hqty =>
    simp only [exposure_store, exposure_of_open hopen, hopen, VirtualPosition.reduce,
      VirtualPosition.refresh, hside, and_false, if_false, sub_self, lt_self_iff_false, false_imp_iff, true_iff]
    intro hres
    omega
  | closes existing hopen hside hqty =>
    simp only [exposure_store, exposure_of_open hopen, hopen, VirtualPosition.close, hside, and_false,
      if_false, sub_self, lt_self_iff_false, false_imp_iff, true_iff]
    intro hres
    omega
  | flips existing hopen hside hqty =>
    have hres : 0 < payload.quantity - existing.quantity := by omega
    have hflat := released_flat hopen hside fillPrice
    have hpaid : ∀ hpos : 0 < payload.quantity - existing.quantity,
        (s.released payload fillPrice).marginShort
            { payload with quantity := payload.quantity - existing.quantity, quantity_pos := hpos } fillPrice =
            none ↔
          requiredMargin payload (payload.quantity - existing.quantity) fillPrice ≤
            (s.released payload fillPrice).availableMargin := by
      intro hpos
      refine marginShort_passed fun pos hm => ?_
      have hnone : (s.released payload fillPrice).openPosition payload.positionId = some pos := hm
      rw [hflat] at hnone
      cases hnone
    simp only [exposure_store, exposure_of_open hopen, hopen, VirtualPosition.openAt, hside, and_self,
      if_true, if_false, sub_zero, hpaid]

/-- A newly filled order has met every gate that its exposure calls for, exactly when these hold. -/
theorem fill_gated_iff {cond : Conditions} {s : Shard} {payload : OrderPayload} {allowClosedMarket : Bool}
    {forcedFill : Option (ℚ × FillSource)} {s' : Shard} {id : OrderId} {order : VirtualOrder} {fillPrice : ℚ}
    (hplaced : s.placeOrderLocked cond payload allowClosedMarket forcedFill = (s', id))
    (hnew : s.orders[id]? = none) (horder : s'.orders[id]? = some order)
    (hfilled : order.status = .filled) (hprice : order.fillPrice = some fillPrice) :
    s.Gated s' payload fillPrice ↔ s.GatesMet payload fillPrice := by
  have hs' : (s.placeOrderLocked cond payload allowClosedMarket forcedFill).1 = s' := by rw [hplaced]
  have hid : (s.placeOrderLocked cond payload allowClosedMarket forcedFill).2 = id := by rw [hplaced]
  subst hs' hid
  obtain ⟨price, hp, hrisk, hshort, heq⟩ := placeOrderLocked_fills hnew horder hfilled
  have hsame : price = fillPrice := Option.some.inj (hp.symm.trans hprice)
  subst hsame
  rw [heq, ← applyFill_gated_iff hrisk hshort]
  unfold Gated
  simp only [exposure_submit]

/-! ### An opening and a reversal -/

def callOrder (side : OrderSide) (quantity : Int) (h : 0 < quantity) : OrderPayload where
  symbol := "NIFTY24AUG23800CE"
  underlying := "NIFTY"
  side := side
  quantity := quantity
  quantity_pos := h
  price_nonneg := noPrice_nonneg

def at100 : Conditions where
  market := { getQuote := fun _ => some 100 }

def lotOrder : OrderPayload := callOrder .buy 75 lot_pos

theorem first_lot_gated :
    Gated { } (placeOrderLocked at100 { } lotOrder true none).1 lotOrder (10015 / 100) := by
  have hfill : ((placeOrderLocked at100 { } lotOrder true none).1.orders[
      (placeOrderLocked at100 { } lotOrder true none).2]?).map (fun o => (o.status, o.fillPrice)) =
      some (.filled, some (10015 / 100)) := by decide +kernel
  rcases hplaced : placeOrderLocked at100 { } lotOrder true none with ⟨s', id⟩
  rw [hplaced] at hfill
  obtain ⟨order, horder, hfields⟩ := Option.map_eq_some_iff.mp hfill
  refine (fill_gated_iff hplaced List.getElem?_nil horder (congrArg Prod.fst hfields)
    (congrArg Prod.snd hfields)).mpr ?_
  have hcap : lotOrder.quantity ≤ maxPositionQtyPerSymbol := by decide
  exact hcap

def oneLot : Shard := applyFill { } lotOrder 100

/-- A sale of 100,000 fills, and leaves 99,925 short whose margin nothing covers. -/
theorem residual_unpaid :
    let payload := callOrder .sell 100000 (by decide)
    let placed := oneLot.placeOrderLocked at100 payload true none
    (placed.1.orders[placed.2]?).map (fun o => (o.status, o.fillPrice)) = some (.filled, some (9985 / 100)) ∧
      ¬ oneLot.Gated placed.1 payload (9985 / 100) := by
  decide +kernel

end Shard

end Droid.Paper
