import Droid.Paper.Exits

/-! What a filled order has passed, and what it does to the position under its key. -/
namespace Droid.Paper
open Lib

namespace Shard

/-! ### What a fill has passed -/

theorem placeOrderLocked_fills {cond : Conditions} {s : Shard} {payload : OrderPayload}
    {allowClosedMarket : Bool} {forcedFill : Option (ℚ × FillSource)} {order : VirtualOrder}
    (hnew : s.orders[(s.placeOrderLocked cond payload allowClosedMarket forcedFill).2]? = none)
    (horder : (s.placeOrderLocked cond payload allowClosedMarket forcedFill).1.orders[
      (s.placeOrderLocked cond payload allowClosedMarket forcedFill).2]? = some order)
    (hfilled : order.status = .filled) :
    ∃ fillPrice, order.fillPrice = some fillPrice ∧ s.riskGate payload = none ∧
      s.marginShort payload fillPrice = none ∧
      (s.placeOrderLocked cond payload allowClosedMarket forcedFill).1 =
        ((s.applyFill payload fillPrice).submit order).1 := by
  rcases placeOrderLocked_passes cond s payload allowClosedMarket forcedFill with
    ⟨id, -, heq⟩ | ⟨-, ⟨reason, heq⟩ | heq | ⟨fillPrice, source, ⟨-, hrisk, hpaid⟩, heq⟩⟩ <;>
    rw [heq] at hnew horder ⊢
  · rw [hnew] at horder
    cases horder
  · simp only [reject, log, List.getElem?_append_right le_rfl, Nat.sub_self] at horder
    cases horder
    cases hfilled
  · rw [submit_answer] at horder
    cases horder
    cases hfilled
  · rw [submit_answer] at horder
    cases horder
    exact ⟨fillPrice, rfl, hrisk, hpaid, rfl⟩

/-- The daily-loss brake lets this side open. -/
def brakeAllows (s : Shard) (side : OrderSide) : Prop :=
  ¬ (s.realized < -dailyLossBrakePct * s.capital ∧ side = .buy)

instance (s : Shard) (side : OrderSide) : Decidable (s.brakeAllows side) :=
  inferInstanceAs (Decidable (¬ (_ ∧ _)))

/-- What passes the risk gate opens a position only with room and against no brake, and adds
to one only within the cap. -/
theorem riskGate_passed {s : Shard} {payload : OrderPayload} (h : s.riskGate payload = none) :
    (s.openPosition payload.positionId = none →
        s.openPositions.length < s.limits.maxOpenPositions ∧ s.brakeAllows payload.side) ∧
      ∀ existing, s.openPosition payload.positionId = some existing → existing.side = payload.side →
        existing.quantity + payload.quantity ≤ maxPositionQtyPerSymbol := by
  unfold riskGate at h
  simp only at h
  split at h
  · cases h
  · split at h
    · cases h
    · split at h
      · cases h
      · rename_i hroom
        split at h
        · cases h
        · rename_i hcap
          split at h
          · cases h
          · rename_i hbrake
            refine ⟨fun hnone => ⟨?_, fun hb => hbrake ⟨hb.1, hb.2, by simp [hnone]⟩⟩, ?_⟩
            · simpa [hnone] using hroom
            · intro existing hopen hside
              simpa [hopen, hside, Option.filter_some] using hcap

/-- What passes the margin gate, and does not go against an open position, is paid for. -/
theorem marginShort_passed {s : Shard} {payload : OrderPayload} {fillPrice : ℚ}
    (hside : ∀ existing ∈ s.openPosition payload.positionId, existing.side = payload.side) :
    s.marginShort payload fillPrice = none ↔
      requiredMargin payload payload.quantity fillPrice ≤ s.availableMargin := by
  have hall : (s.openPosition payload.positionId).all (·.side = payload.side) = true := by
    cases hopen : s.openPosition payload.positionId with
    | none => rfl
    | some existing => simpa using hside existing hopen
  rw [marginShort]
  simp only [hall, true_and]
  split
  · rename_i hshort
    exact iff_of_false (by simp) (not_le.mpr hshort)
  · rename_i hpaid
    exact iff_of_true rfl (not_lt.mp hpaid)

/-! ### What a fill does -/

/-- The book with the realized result of closing this much of a position at the price. -/
def booked (s : Shard) (existing : VirtualPosition) (quantity : Int) (fillPrice : ℚ) : Shard :=
  { s with realized := s.realized + roundTo 2 (existing.tradeRealized quantity fillPrice) }

/-- What a fill may do: open, add to, reduce, close or flip the position under its key. -/
inductive FillsAs (s : Shard) (payload : OrderPayload) (fillPrice : ℚ) : Shard → Prop
  | opens (hnone : s.openPosition payload.positionId = none) :
      FillsAs s payload fillPrice (s.store payload.positionId
        (.openAt payload payload.quantity fillPrice (requiredMargin payload payload.quantity fillPrice)))
  | adds (existing : VirtualPosition) (hopen : s.openPosition payload.positionId = some existing)
      (hside : existing.side = payload.side) :
      FillsAs s payload fillPrice (s.store payload.positionId
        (existing.add payload.quantity fillPrice (requiredMargin payload payload.quantity fillPrice)))
  | reduces (existing : VirtualPosition) (hopen : s.openPosition payload.positionId = some existing)
      (hside : existing.side ≠ payload.side) (hqty : payload.quantity < existing.quantity) :
      FillsAs s payload fillPrice ((s.booked existing payload.quantity fillPrice).store payload.positionId
        (VirtualPosition.reduce { existing with
          realizedPnl := roundTo 2 (existing.realizedPnl + existing.tradeRealized payload.quantity fillPrice) }
          payload.quantity fillPrice))
  | closes (existing : VirtualPosition) (hopen : s.openPosition payload.positionId = some existing)
      (hside : existing.side ≠ payload.side) (hqty : payload.quantity = existing.quantity) :
      FillsAs s payload fillPrice ((s.booked existing payload.quantity fillPrice).store payload.positionId
        (VirtualPosition.close { existing with
          realizedPnl := roundTo 2 (existing.realizedPnl + existing.tradeRealized payload.quantity fillPrice) }
          fillPrice))
  | flips (existing : VirtualPosition) (hopen : s.openPosition payload.positionId = some existing)
      (hside : existing.side ≠ payload.side) (hqty : existing.quantity < payload.quantity) :
      FillsAs s payload fillPrice ((s.booked existing payload.quantity fillPrice).store payload.positionId
        (.openAt payload (payload.quantity - existing.quantity) fillPrice
          (requiredMargin payload (payload.quantity - existing.quantity) fillPrice)))

theorem applyFill_as (s : Shard) (payload : OrderPayload) (fillPrice : ℚ) :
    FillsAs s payload fillPrice (s.applyFill payload fillPrice) := by
  rw [applyFill]
  cases hopen : s.openPosition payload.positionId with
  | none =>
    simp only
    exact .opens hopen
  | some existing =>
    simp only
    by_cases hside : existing.side = payload.side
    · rw [if_pos hside]
      exact .adds existing hopen hside
    · rw [if_neg hside]
      split
      · exact .reduces existing hopen hside (by omega)
      · split
        · exact .closes existing hopen hside (by omega)
        · exact .flips existing hopen hside (by omega)

theorem openPosition_store (s : Shard) (id : PositionId) (pos : VirtualPosition) :
    (s.store id pos).openPosition id = if pos.isOpen then some pos else none := by
  rw [openPosition, store]
  rw [Dict.get?_insert, if_pos rfl]
  cases h : pos.isOpen <;> simp [Option.filter, h]

end Shard

end Droid.Paper
