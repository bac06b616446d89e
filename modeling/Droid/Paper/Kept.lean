import Droid.Paper.Fills

/-! What every shard keeps: positions open just when they hold something, closed ones
empty, no negative margin, and the limits on positions and on their growth. -/
namespace Droid.Paper
open Lib

/-- Open with a quantity, or closed and empty. -/
structure VirtualPosition.Kept (pos : VirtualPosition) : Prop where
  isOpen_iff : pos.isOpen = true ↔ 0 < pos.quantity
  closed : pos.isOpen = false → pos.quantity = 0 ∧ pos.usedMargin = 0 ∧ pos.unrealizedPnl = 0
  margin : 0 ≤ pos.usedMargin

namespace Shard

/-- Side and quantity of what is open under a key. -/
def shape (s : Shard) (id : PositionId) : Option (OrderSide × Int) :=
  (s.openPosition id).map fun pos => (pos.side, pos.quantity)

/-- Of the open positions, those that same-side adds have grown: a position that is larger than
before on the same side, or that was grown before. -/
def grownAfter (grown : PositionId → Bool) (s s' : Shard) (id : PositionId) : Bool :=
  match s.shape id, s'.shape id with
  | some (side, quantity), some (side', quantity') =>
    if side = side' then decide (quantity < quantity') || grown id else false
  | _, _ => false

structure Kept (s : Shard) (grown : PositionId → Bool) : Prop where
  position : ∀ id pos, s.positions.get? id = some pos → pos.Kept
  room : s.openPositions.length ≤ s.limits.maxOpenPositions
  grown : ∀ id side quantity, s.shape id = some (side, quantity) → grown id = true →
    quantity ≤ maxPositionQtyPerSymbol

/-! ### The number of open positions -/

private def openWeight (_ : PositionId) (pos : VirtualPosition) : Int := if pos.isOpen then 1 else 0

private theorem openPositions_length (s : Shard) :
    (s.openPositions.length : Int) = s.positions.total openWeight := by
  rw [openPositions, Dict.values, Dict.total]
  induction s.positions.entries with
  | nil => rfl
  | cons e es ih =>
    rw [List.map_cons, List.map_cons, List.sum_cons, ← ih, List.filter_cons]
    rw [openWeight]
    split
    · rw [List.length_cons]
      omega
    · omega

private theorem openWeight_get? (s : Shard) (id : PositionId) :
    ((s.positions.get? id).map (openWeight id)).getD 0 = if (s.openPosition id).isSome then 1 else 0 := by
  unfold openPosition openWeight
  cases s.positions.get? id with
  | none => rfl
  | some pos => cases h : pos.isOpen <;> simp [Option.filter_some, h]

theorem openPositions_store (s : Shard) (id : PositionId) (pos : VirtualPosition) :
    ((s.store id pos).openPositions.length : Int) = s.openPositions.length +
      (if pos.isOpen then 1 else 0) - (if (s.openPosition id).isSome then 1 else 0) := by
  rw [openPositions_length, openPositions_length, ← openWeight_get? s id]
  exact Dict.total_insert openWeight s.positions id pos

/-! ### Storing a position -/

theorem shape_store (s : Shard) (id : PositionId) (pos : VirtualPosition) (k : PositionId) :
    (s.store id pos).shape k =
      if k = id then (if pos.isOpen then some (pos.side, pos.quantity) else none) else s.shape k := by
  by_cases hk : k = id
  · subst hk
    rw [if_pos rfl, shape, openPosition_store]
    split <;> rfl
  · rw [if_neg hk]
    unfold shape openPosition store
    rw [Dict.get?_insert, if_neg hk]

theorem shape_of_open {s : Shard} {id : PositionId} {pos : VirtualPosition}
    (h : s.openPosition id = some pos) : s.shape id = some (pos.side, pos.quantity) := by
  rw [shape, h]
  rfl

/-- A position that is in order may be stored where there is room for it, and where it has
grown only within the cap. -/
theorem Kept.store {s : Shard} {grown : PositionId → Bool} (h : s.Kept grown) {id : PositionId}
    {pos : VirtualPosition} (hpos : pos.Kept)
    (hroom : pos.isOpen = true → s.openPosition id = none →
      s.openPositions.length < s.limits.maxOpenPositions)
    (hcap : ∀ quantity, s.shape id = some (pos.side, quantity) → quantity < pos.quantity ∨ grown id = true →
      pos.quantity ≤ maxPositionQtyPerSymbol) :
    (s.store id pos).Kept (grownAfter grown s (s.store id pos)) := by
  refine ⟨fun k p hk => ?_, ?_, fun k side quantity hk hgrown => ?_⟩
  · simp only [Shard.store, Dict.get?_insert] at hk
    split at hk
    · cases hk
      exact hpos
    · exact h.position k p hk
  · have hlen := openPositions_store s id pos
    have hle := h.room
    have hsame : (s.store id pos).limits = s.limits := rfl
    rw [hsame]
    cases hopen : s.openPosition id with
    | none =>
      rw [hopen] at hlen
      cases hisOpen : pos.isOpen with
      | false => simp [hisOpen] at hlen; omega
      | true =>
        have hlt := hroom hisOpen hopen
        simp [hisOpen] at hlen
        omega
    | some old =>
      rw [hopen] at hlen
      simp only [Option.isSome_some, if_true] at hlen
      split at hlen <;> omega
  · unfold grownAfter at hgrown
    rw [hk] at hgrown
    rw [shape_store] at hk
    split at hk
    · rename_i hid
      subst hid
      split at hk
      · cases hk
        cases hold : s.shape k with
        | none => rw [hold] at hgrown; cases hgrown
        | some old =>
          obtain ⟨oldSide, oldQuantity⟩ := old
          rw [hold] at hgrown
          simp only at hgrown
          split at hgrown
          · rename_i hside
            subst hside
            refine hcap oldQuantity hold ?_
            simpa using hgrown
          · cases hgrown
      · cases hk
    · rw [hk] at hgrown
      simp only [if_true, lt_self_iff_false, decide_false, Bool.false_or] at hgrown
      exact h.grown k side quantity hk hgrown

theorem Kept.of_books {s s' : Shard} {grown : PositionId → Bool} (h : s.Kept grown)
    (hp : s'.positions = s.positions) (hl : s'.limits = s.limits) : s'.Kept (grownAfter grown s s') := by
  have hshape : ∀ k, s'.shape k = s.shape k := fun k => by rw [shape, shape, openPosition, openPosition, hp]
  refine ⟨fun id pos hk => h.position id pos (hp ▸ hk), ?_, fun id side quantity hk hgrown => ?_⟩
  · rw [hl, openPositions, hp]
    exact h.room
  · rw [hshape] at hk
    simp only [grownAfter, hshape, hk, if_true, lt_self_iff_false, decide_false, Bool.false_or] at hgrown
    exact h.grown id side quantity hk hgrown

/-! ### A fill -/

theorem requiredMargin_nonneg (payload : OrderPayload) {quantity : Int} (hq : 0 ≤ quantity) {fillPrice : ℚ}
    (hp : 0 ≤ fillPrice) : 0 ≤ requiredMargin payload quantity fillPrice := by
  unfold requiredMargin calculateRequiredMargin
  have hqr : (0 : ℚ) ≤ quantity := by exact_mod_cast hq
  have hround : ∀ x : ℚ, 0 ≤ x → 0 ≤ roundTo 2 x := fun _ => roundTo_nonneg 2
  have hlots : ∀ (base : ℚ) (lotSize : Int), 0 ≤ base → 0 ≤ base * (max 1 (quantity / lotSize) : Int) := by
    intro base lotSize hb
    refine mul_nonneg hb ?_
    have : (1 : Int) ≤ max 1 (quantity / lotSize) := le_max_left _ _
    exact_mod_cast (by omega : (0 : Int) ≤ max 1 (quantity / lotSize))
  have hbase : ∀ a b c : Bool, (0 : ℚ) ≤ if a then 150000 else if b then 145000 else if c then 115000 else 125000 := by
    intro a b c
    cases a <;> cases b <;> cases c <;> norm_num
  split
  · simp only
    split
    · exact hround _ (mul_nonneg hp hqr)
    · exact hround _ (mul_nonneg (hround _ (mul_nonneg hp (by norm_num))) hqr)
  · simp only
    split
    · exact hround _ (mul_nonneg (hlots _ _ (hbase _ _ _)) (by norm_num))
    · exact hround _ (hlots _ _ (hbase _ _ _))

private theorem openAt_kept (payload : OrderPayload) {quantity : Int} (hq : 0 < quantity) {fillPrice : ℚ}
    (hp : 0 ≤ fillPrice) :
    (VirtualPosition.openAt payload quantity fillPrice (requiredMargin payload quantity fillPrice)).Kept where
  isOpen_iff := iff_of_true rfl hq
  closed := fun h => by cases h
  margin := requiredMargin_nonneg payload hq.le hp

private theorem close_kept (pos : VirtualPosition) (fillPrice : ℚ) : (pos.close fillPrice).Kept where
  isOpen_iff := iff_of_false (by simp [VirtualPosition.close]) (lt_irrefl 0)
  closed := fun _ => ⟨rfl, rfl, rfl⟩
  margin := le_rfl

private theorem add_kept {pos : VirtualPosition} (h : pos.Kept) (hopen : pos.isOpen = true) {quantity : Int}
    (hq : 0 < quantity) (fillPrice : ℚ) {reqMargin : ℚ} (hm : 0 ≤ reqMargin) :
    (pos.add quantity fillPrice reqMargin).Kept := by
  have hpos := h.isOpen_iff.mp hopen
  refine ⟨iff_of_true hopen ?_, fun hc => ?_, roundTo_nonneg 2 (add_nonneg h.margin hm)⟩
  · show 0 < pos.quantity + quantity
    omega
  · have hopen' : (pos.add quantity fillPrice reqMargin).isOpen = true := hopen
    rw [hopen'] at hc
    cases hc

private theorem reduce_kept {pos : VirtualPosition} (hopen : pos.isOpen = true) {quantity : Int}
    (hq : quantity < pos.quantity) (fillPrice realizedPnl : ℚ) :
    (VirtualPosition.reduce { pos with realizedPnl } quantity fillPrice).Kept := by
  refine ⟨iff_of_true hopen ?_, fun hc => ?_, roundTo_nonneg 2 (le_max_left 0 _)⟩
  · show 0 < pos.quantity - quantity
    omega
  · have hopen' : (pos.reduce quantity fillPrice).isOpen = true := hopen
    exact absurd (hopen'.symm.trans hc) (by decide)

theorem Kept.applyFill {s : Shard} {grown : PositionId → Bool} (h : s.Kept grown) {payload : OrderPayload}
    (hrisk : s.riskGate payload = none) {fillPrice : ℚ} (hp : 0 ≤ fillPrice) :
    (s.applyFill payload fillPrice).Kept (grownAfter grown s (s.applyFill payload fillPrice)) := by
  obtain ⟨hfresh, hcap⟩ := riskGate_passed hrisk
  have hq := payload.quantity_pos
  have hfill := applyFill_as s payload fillPrice
  generalize s.applyFill payload fillPrice = s' at hfill ⊢
  have hbooked : ∀ existing, (s.booked existing payload.quantity fillPrice).Kept grown :=
    fun existing => ⟨h.position, h.room, h.grown⟩
  have hnotnone : ∀ {existing}, s.openPosition payload.positionId = some existing →
      s.openPosition payload.positionId ≠ none := by
    intro existing hopen hnone
    rw [hopen] at hnone
    cases hnone
  cases hfill with
  | opens hnone =>
    refine h.store (openAt_kept payload hq hp) (fun _ _ => (hfresh hnone).1) fun quantity hshape => ?_
    rw [shape, hnone] at hshape
    cases hshape
  | adds existing hopen hside =>
    obtain ⟨hget, hisOpen⟩ := Option.filter_eq_some_iff.mp hopen
    have hkept := h.position _ _ hget
    refine h.store (add_kept hkept hisOpen hq fillPrice (requiredMargin_nonneg payload hq.le hp)) ?_ ?_
    · exact fun _ hnone => absurd hnone (hnotnone hopen)
    · exact fun _ _ _ => hcap existing hopen hside
  | reduces existing hopen hside hqty =>
    obtain ⟨-, hisOpen⟩ := Option.filter_eq_some_iff.mp hopen
    refine (hbooked existing).store (reduce_kept hisOpen hqty fillPrice _)
      (fun _ hnone => absurd hnone (hnotnone hopen)) fun quantity hshape hgrown => ?_
    have hold : s.shape payload.positionId = some (existing.side, quantity) := hshape
    have hqty' : quantity = existing.quantity := by
      rw [shape_of_open hopen] at hold
      exact (congrArg Prod.snd (Option.some.inj hold)).symm
    show existing.quantity - payload.quantity ≤ maxPositionQtyPerSymbol
    rcases hgrown with hlt | hgrown
    · have hsmaller : quantity < existing.quantity - payload.quantity := hlt
      omega
    · have hle := h.grown _ _ _ hold hgrown
      omega
  | closes existing hopen hside hqty =>
    refine (hbooked existing).store (close_kept _ fillPrice) (fun hopen' => by cases hopen') fun _ _ _ => ?_
    show (0 : Int) ≤ maxPositionQtyPerSymbol
    decide
  | flips existing hopen hside hqty =>
    refine (hbooked existing).store (openAt_kept payload (by omega) hp)
      (fun _ hnone => absurd hnone (hnotnone hopen)) fun quantity hshape _ => ?_
    have hold : s.shape payload.positionId = some (payload.side, quantity) := hshape
    rw [shape_of_open hopen] at hold
    exact absurd (congrArg Prod.fst (Option.some.inj hold)) hside

/-! ### Calls -/

theorem shape_of_positions {s s' : Shard} (h : s'.positions = s.positions) (id : PositionId) :
    s'.shape id = s.shape id := by
  unfold shape openPosition
  rw [h]

/-- A step to a shard of the same shapes changes nothing of what has grown since. -/
theorem grownAfter_congr {s s₁ s' s₁' : Shard} (h : ∀ id, s₁.shape id = s.shape id)
    (h' : ∀ id, s₁'.shape id = s'.shape id) (grown : PositionId → Bool) :
    grownAfter grown s₁ s₁' = grownAfter grown s s' := by
  funext id
  unfold grownAfter
  rw [h, h']

theorem remember_limits (s : Shard) (payload : OrderPayload) (id : OrderId) :
    (s.remember payload id).limits = s.limits := by
  rw [remember]
  split <;> rfl

theorem Kept.submit {s s' : Shard} {grown : PositionId → Bool} (h : s'.Kept (grownAfter grown s s'))
    (order : VirtualOrder) : (s'.submit order).1.Kept (grownAfter grown s (s'.submit order).1) := by
  have hp := submit_positions s' order
  rw [grownAfter_congr (fun _ => rfl) (shape_of_positions hp)]
  refine ⟨fun id pos hk => h.position id pos (hp ▸ hk), ?_, fun id side quantity hk => ?_⟩
  · rw [show (s'.submit order).1.limits = s'.limits from remember_limits _ _ _, openPositions, hp]
    exact h.room
  · rw [shape_of_positions hp] at hk
    exact h.grown id side quantity hk

theorem Kept.placeOrderLocked {s : Shard} {grown : PositionId → Bool} (h : s.Kept grown) (cond : Conditions)
    (payload : OrderPayload) (allowClosedMarket : Bool) (forcedFill : Option (ℚ × FillSource)) :
    (s.placeOrderLocked cond payload allowClosedMarket forcedFill).1.Kept
      (grownAfter grown s (s.placeOrderLocked cond payload allowClosedMarket forcedFill).1) := by
  have hself : s.Kept (grownAfter grown s s) := h.of_books rfl rfl
  rcases placeOrderLocked_passes cond s payload allowClosedMarket forcedFill with
    ⟨id, -, heq⟩ | ⟨-, ⟨reason, heq⟩ | heq | ⟨fillPrice, source, ⟨hp, hrisk, -⟩, heq⟩⟩ <;> rw [heq]
  · exact hself
  · exact h.of_books rfl rfl
  · exact hself.submit _
  · exact (h.applyFill hrisk hp).submit _

theorem Kept.cancelOrder {s s' : Shard} {grown : PositionId → Bool} (h : s.Kept grown) {id : OrderId}
    (hcancel : s.cancelOrder id = .ok s') : s'.Kept (grownAfter grown s s') := by
  refine h.of_books (cancelOrder_positions hcancel) ?_
  unfold Shard.cancelOrder at hcancel
  split at hcancel
  · cases hcancel
  · split at hcancel
    · cases hcancel
    · cases hcancel
      rfl

theorem Kept.unchanged {s s' : Shard} {grown : PositionId → Bool} (h : s'.Kept (grownAfter grown s s'))
    (hshape : ∀ id, s'.shape id = s.shape id) : s'.Kept grown := by
  refine ⟨h.position, h.room, fun id side quantity hk hgrown => h.grown id side quantity hk ?_⟩
  have hold : s.shape id = some (side, quantity) := (hshape id).symm.trans hk
  simp [grownAfter, hold, hk, hgrown]

theorem refresh_kept {pos : VirtualPosition} (h : pos.Kept) (hisOpen : pos.isOpen = true) (ltp : ℚ) :
    (pos.refresh ltp).Kept := by
  refine ⟨h.isOpen_iff, fun hc => ?_, h.margin⟩
  have hclosed : pos.isOpen = false := hc
  rw [hisOpen] at hclosed
  cases hclosed

theorem shape_refreshed {s : Shard} {id : PositionId} {pos refreshed : VirtualPosition}
    (hopen : s.openPosition id = some pos) (h : refreshed = pos ∨ ∃ ltp, refreshed = pos.refresh ltp)
    (k : PositionId) : (s.store id refreshed).shape k = s.shape k := by
  obtain ⟨-, hisOpen⟩ := Option.filter_eq_some_iff.mp hopen
  rw [shape_store]
  split
  · rename_i hk
    rw [hk, shape_of_open hopen]
    rcases h with rfl | ⟨ltp, rfl⟩
    · rw [if_pos hisOpen]
    · exact if_pos hisOpen
  · rfl

theorem Kept.squareOffPosition {s : Shard} {grown : PositionId → Bool} (h : s.Kept grown) (cond : Conditions)
    (id : PositionId) (allowClosedMarket : Bool) :
    (s.squareOffPosition cond id allowClosedMarket).1.Kept
      (grownAfter grown s (s.squareOffPosition cond id allowClosedMarket).1) := by
  rcases squareOffPosition_cases cond s id allowClosedMarket with
    ⟨-, heq⟩ | ⟨pos, refreshed, hopen, hrefreshed, heq⟩
  · rw [heq]
    exact h.of_books rfl rfl
  · obtain ⟨hget, hisOpen⟩ := Option.filter_eq_some_iff.mp hopen
    have hshape := shape_refreshed hopen hrefreshed
    have hpos : refreshed.Kept ∧ refreshed.quantity = pos.quantity := by
      rcases hrefreshed with rfl | ⟨ltp, rfl⟩
      · exact ⟨h.position id _ hget, rfl⟩
      · exact ⟨refresh_kept (h.position id pos hget) hisOpen ltp, rfl⟩
    have hstored : (s.store id refreshed).Kept (grownAfter grown s (s.store id refreshed)) := by
      refine h.store hpos.1 (fun _ hnone => ?_) fun quantity hk hgrown => ?_
      · rw [hopen] at hnone
        cases hnone
      · have hsame := shape_of_open hopen
        rw [hk, Option.some.injEq, Prod.mk.injEq] at hsame
        have hgrown : grown id = true := hgrown.resolve_left (by omega)
        rw [hpos.2]
        exact h.grown id _ _ (shape_of_open hopen) hgrown
    rcases heq with heq | ⟨payload, forced, -, heq⟩
    · rw [heq]
      exact hstored
    · rw [heq, ← grownAfter_congr hshape fun _ => rfl]
      exact (hstored.unchanged hshape).placeOrderLocked cond payload true (some forced)

/-- A candidate of the sweep, its mark and its leg. -/
theorem Kept.fillPending {s : Shard} {grown : PositionId → Bool} (h : s.Kept grown) (cond : Conditions)
    (ltp : ℚ) (id : OrderId) :
    (s.fillPending cond ltp id).Kept (grownAfter grown s (s.fillPending cond ltp id)) := by
  have hself : s.Kept (grownAfter grown s s) := h.of_books rfl rfl
  have hmarked : ∀ orders, Kept { s with orders } grown := fun _ => ⟨h.position, h.room, h.grown⟩
  rcases fillPending_cases cond ltp s id with ⟨heq, -⟩ | ⟨order, fillAt, -, -, -, heq⟩
  · rw [heq]
    exact hself
  · rcases heq with heq | ⟨leg, -, heq⟩
    · rw [heq]
      exact h.of_books rfl rfl
    · rw [heq]
      exact (hmarked _).placeOrderLocked cond leg true _

end Shard

end Droid.Paper
