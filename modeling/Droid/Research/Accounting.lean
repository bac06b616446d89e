import Droid.Research.Loop
import Mathlib.Tactic.Linarith
import Mathlib.Tactic.Positivity
import Mathlib.Tactic.Abel

/-! The books of a backtest: trades in order, an equity that adds up, and the two holes of sizing
and fees. -/
namespace Droid.Research
open Lib

def unit : ℚ := 1 / 10 ^ 4

section
variable (cfg : Settings)

/-- Fees by the side each leg really has. -/
def Closing.dueFees (x : Closing) : ℚ :=
  cfg.costs.feeAmount (x.position.entryPrice * x.position.quantity) x.position.side.entryLeg +
    cfg.costs.feeAmount (x.fill * x.position.quantity) x.position.side.exitLeg

/-- The books of a finished run. -/
structure Accounted (r : Simulation) : Prop where
  disjoint : r.trades.Pairwise fun t u => t.exitIndex < u.entryIndex
  forward : ∀ t ∈ r.trades, t.entryIndex ≤ t.exitIndex
  net : ∀ t ∈ r.trades, |t.netPnl - (t.grossPnl - t.costs)| ≤ 2 * unit
  equity : ∀ t ∈ r.trades, |t.equityAfter - (t.equityBefore + t.netPnl)| ≤ 2 * unit
  first : ∀ t, r.trades.head? = some t → t.equityBefore = roundTo 4 cfg.execution.initialCapital
  chained : r.trades.IsChain fun t u => u.equityBefore = t.equityAfter
  last : ∀ p, r.equityCurve.getLast? = some p →
    |p.equity - (cfg.execution.initialCapital + (r.trades.map Trade.netPnl).sum)| ≤
      (r.trades.length + 1) * unit
  quantities : ∀ t ∈ r.trades, 0 ≤ t.closing.position.quantity ∧ 0 ≤ t.closing.totalCosts
  fees : ∀ t ∈ r.trades, t.closing.fees = t.closing.dueFees cfg

/-- The capital behind a position is not negative, or its size does not depend on it. -/
def Capitalised (p : Position) : Prop :=
  match cfg.execution.sizeMode with
  | .fixedUnits => 0 ≤ cfg.execution.fixedUnits
  | .fixedFraction => p.entryPrice ≤ 0 ∨
      0 ≤ p.equityBefore * cfg.execution.allocationPct * cfg.execution.leverage

/-- The two fee rates that are swapped for a short make no difference to its close at a price. -/
def FeesIndifferent (p : Position) (price : ℚ) : Prop :=
  p.side = .long ∨ cfg.costs.sttSellBps = cfg.costs.stampBuyBps ∨
    |p.entryPrice * p.quantity| = |cfg.costs.fillPrice price p.side.exitLeg * p.quantity|

/-! The closes that are due, read off the state before them. -/

def dueExit (bar : Bar) (i : Nat) (s : State) : Option (Position × ℚ) :=
  match s.position, s.pendingExit, bar.prices with
  | some p, some (queued, _), some prices => if queued + 1 = i then some (p, prices.o) else none
  | _, _, _ => none

/-- The price exit this bar triggers on the position it finds or opens. -/
def dueTrigger (bar : Bar) (i : Nat) (position : Option Position) : Option (Position × ℚ) :=
  match position, bar.prices with
  | some p, some prices => (exitTrigger cfg p i prices bar.istMinutes).map fun hit => (p, hit.1)
  | _, _ => none

def dueCloses (bars : List Bar) (i : Nat) : List (Position × ℚ) :=
  match bars[i]? with
  | some bar =>
    let s := before cfg bars i
    let opened := fillPendingEntry cfg bars bar i (fillPendingExit cfg bar i s)
    (dueExit bar i s).toList ++ (dueTrigger cfg bar i opened.1.position).toList
  | none => []

/-- The forced close at the end of the data. -/
def dueAtEnd (bars : List Bar) : Option (Position × ℚ) :=
  match (before cfg bars bars.length).position, bars.getLast? with
  | some p, some last => last.close?.map fun c => (p, c)
  | _, _ => none

/-- No close the run comes to is of a position opened on negative capital, or of a short whose two
fee rates make a difference. -/
def KeepsBooks (bars : List Bar) : Prop :=
  (∀ i, ∀ due ∈ dueCloses cfg bars i, Capitalised cfg due.1 ∧ FeesIndifferent cfg due.1 due.2) ∧
    ∀ due ∈ dueAtEnd cfg bars, Capitalised cfg due.1 ∧ FeesIndifferent cfg due.1 due.2

variable {cfg}

/-! One close. -/

theorem CostModel.feeBps_nonneg (costs : CostModel) (leg : Leg) : 0 ≤ costs.feeBps leg := by
  obtain ⟨-, h1, h2, h3, h4, h5, h6⟩ := costs.nonneg
  unfold feeBps
  cases leg with
  | buy => positivity
  | sell => positivity

theorem CostModel.feeAmount_nonneg (costs : CostModel) (notional : ℚ) (leg : Leg) :
    0 ≤ costs.feeAmount notional leg := by
  have := costs.feeBps_nonneg leg
  unfold feeAmount
  positivity

theorem sized_nonneg_iff {p : Position} (h : p.quantity = sized cfg p.equityBefore p.entryPrice) :
    0 ≤ p.quantity ↔ Capitalised cfg p := by
  rw [h]
  unfold sized Capitalised
  cases cfg.execution.sizeMode with
  | fixedUnits => exact Iff.rfl
  | fixedFraction =>
    dsimp only
    by_cases hp : p.entryPrice > 0
    · rw [if_pos hp, div_nonneg_iff]
      constructor
      · rintro (⟨h1, -⟩ | ⟨-, h2⟩)
        · exact Or.inr h1
        · exact absurd h2 (not_le.mpr hp)
      · rintro (h1 | h1)
        · exact absurd h1 (not_le.mpr hp)
        · exact Or.inl ⟨h1, hp.le⟩
    · rw [if_neg hp]
      exact iff_of_true le_rfl (Or.inl (not_lt.mp hp))

theorem totalCosts_nonneg {p : Position} (h : 0 ≤ p.quantity) (price : ℚ) :
    0 ≤ (closing cfg p price).totalCosts := by
  have h1 := cfg.costs.feeAmount_nonneg (p.entryPrice * p.quantity) .buy
  have h2 := cfg.costs.feeAmount_nonneg
    (cfg.costs.fillPrice price p.side.exitLeg * p.quantity) .sell
  unfold Closing.totalCosts closing
  positivity

theorem fees_due_iff (p : Position) (price : ℚ) :
    (closing cfg p price).fees = (closing cfg p price).dueFees cfg ↔
      FeesIndifferent cfg p price := by
  unfold FeesIndifferent Closing.dueFees closing
  dsimp only
  cases hside : p.side with
  | long => exact iff_of_true rfl (Or.inl rfl)
  | short =>
    simp only [PositionSide.entryLeg, PositionSide.exitLeg, CostModel.feeAmount, CostModel.feeBps,
      reduceCtorEq, false_or]
    generalize |p.entryPrice * p.quantity| = a
    generalize |cfg.costs.fillPrice price .buy * p.quantity| = b
    constructor
    · intro h
      have hprod : (a - b) * (cfg.costs.sttSellBps - cfg.costs.stampBuyBps) = 0 := by linarith
      rcases mul_eq_zero.mp hprod with h0 | h0
      · exact Or.inr (by linarith)
      · exact Or.inl (by linarith)
    · rintro (h | h)
      · rw [h]
      · rw [h]
        ring

private theorem rounded (x : ℚ) : |roundTo 4 x - x| ≤ unit / 2 := by
  have := abs_roundTo_sub_le 4 x
  unfold unit
  linarith

theorem report_net (p : Position) (index : Nat) (time : Option String) (price : ℚ)
    (reason : ExitReason) :
    let t := closePosition cfg p index time price reason
    |t.netPnl - (t.grossPnl - t.costs)| ≤ 2 * unit := by
  intro t
  have hnet : (closing cfg p price).net =
      (closing cfg p price).gross - (closing cfg p price).totalCosts := rfl
  have h1 := abs_le.mp (rounded (closing cfg p price).net)
  have h2 := abs_le.mp (rounded (closing cfg p price).gross)
  have h3 := abs_le.mp (rounded (closing cfg p price).totalCosts)
  have hu : (0 : ℚ) < unit := by unfold unit; norm_num
  change |roundTo 4 _ - (roundTo 4 _ - roundTo 4 _)| ≤ _
  rw [abs_le]
  constructor <;> linarith [h1.1, h1.2, h2.1, h2.2, h3.1, h3.2]

/-- The reported equity moves by the reported net, from the unrounded equity before. -/
theorem report_step (cfg : Settings) (p : Position) (index : Nat) (time : Option String) (price : ℚ)
    (reason : ExitReason) :
    let t := closePosition cfg p index time price reason
    |t.equityAfter - (p.equityBefore + t.netPnl)| ≤ unit := by
  intro t
  have hafter : (closing cfg p price).equityAfter = p.equityBefore + (closing cfg p price).net := rfl
  have h1 := abs_le.mp (rounded (closing cfg p price).net)
  have h2 := abs_le.mp (rounded (closing cfg p price).equityAfter)
  change |roundTo 4 _ - (_ + roundTo 4 _)| ≤ _
  rw [abs_le]
  constructor <;> linarith [h1.1, h1.2, h2.1, h2.2]

theorem report_equity (p : Position) (index : Nat) (time : Option String) (price : ℚ)
    (reason : ExitReason) :
    let t := closePosition cfg p index time price reason
    |t.equityAfter - (t.equityBefore + t.netPnl)| ≤ 2 * unit := by
  intro t
  have h1 := abs_le.mp (report_step cfg p index time price reason)
  have h2 := abs_le.mp (rounded p.equityBefore)
  have hu : (0 : ℚ) < unit := by unfold unit; norm_num
  have hb : t.equityBefore = roundTo 4 p.equityBefore := rfl
  rw [abs_le, hb]
  constructor <;> linarith [h1.1, h1.2, h2.1, h2.2]

/-! The books, trade by trade. -/

/-- What is known of one booked trade. -/
structure Sound (cfg : Settings) (t : Trade) : Prop where
  forward : t.entryIndex ≤ t.exitIndex
  net : |t.netPnl - (t.grossPnl - t.costs)| ≤ 2 * unit
  equity : |t.equityAfter - (t.equityBefore + t.netPnl)| ≤ 2 * unit
  quantity : (0 ≤ t.closing.position.quantity ∧ 0 ≤ t.closing.totalCosts) ↔
    Capitalised cfg t.closing.position
  fees : t.closing.fees = t.closing.dueFees cfg ↔ FeesIndifferent cfg t.closing.position t.closing.referencePrice

variable {trades : List Trade}

theorem Held.sound {p : Position} (h : Held cfg trades p) {index : Nat} (hopen : p.entryIndex ≤ index)
    (time : Option String) (price : ℚ) (reason : ExitReason) :
    Sound cfg (closePosition cfg p index time price reason) where
  forward := hopen
  net := report_net p index time price reason
  equity := report_equity p index time price reason
  quantity := by
    have hcap := sized_nonneg_iff h.quantity
    constructor
    · rintro ⟨hq, -⟩
      exact hcap.mp hq
    · intro hc
      exact ⟨hcap.mpr hc, totalCosts_nonneg (hcap.mpr hc) price⟩
  fees := fees_due_iff p price

theorem Booked.sound (h : Booked cfg trades) : ∀ t ∈ trades, Sound cfg t := by
  induction h with
  | nil => simp
  | close index time price reason _ held opened ih =>
    intro t ht
    rcases List.mem_append.mp ht with ht | ht
    · exact ih t ht
    · rw [List.mem_singleton.mp ht]
      exact held.sound opened time price reason

theorem Booked.disjoint (h : Booked cfg trades) :
    trades.Pairwise fun t u => t.exitIndex < u.entryIndex := by
  induction h with
  | nil => exact List.Pairwise.nil
  | close index time price reason _ held _ ih =>
    rw [List.pairwise_append]
    refine ⟨ih, List.pairwise_singleton _ _, ?_⟩
    intro t ht u hu
    rw [List.mem_singleton.mp hu]
    exact held.after t ht

theorem Booked.lastEquity_decimal (h : Booked cfg trades) (hne : trades ≠ []) :
    roundTo 4 (lastEquity cfg trades) = lastEquity cfg trades := by
  cases h with
  | nil => exact absurd rfl hne
  | close index time price reason _ _ _ =>
    rw [lastEquity_concat]
    exact roundTo_roundTo _

theorem Booked.chained (h : Booked cfg trades) :
    trades.IsChain fun t u => u.equityBefore = t.equityAfter := by
  induction h with
  | nil => exact List.IsChain.nil
  | @close trades p index time price reason booked held _ ih =>
    rw [List.isChain_append]
    refine ⟨ih, List.IsChain.singleton _, ?_⟩
    intro t ht u hu
    obtain rfl := Option.some.inj hu
    have hne : trades ≠ [] := fun h0 => by simp [h0] at ht
    have hlast : lastEquity cfg trades = t.equityAfter := by
      rw [lastEquity, Option.mem_def.mp ht]
      rfl
    change roundTo 4 p.equityBefore = _
    rw [held.equity, booked.lastEquity_decimal hne, hlast]

theorem Booked.first (h : Booked cfg trades) :
    ∀ t, trades.head? = some t → t.equityBefore = roundTo 4 cfg.execution.initialCapital := by
  induction h with
  | nil => intro t ht; cases ht
  | @close trades p index time price reason _ held _ ih =>
    intro t ht
    cases trades with
    | nil =>
      obtain rfl := Option.some.inj ht
      change roundTo 4 p.equityBefore = _
      rw [held.equity]
      rfl
    | cons u rest => exact ih t ht

theorem Booked.lastEquity_sum (h : Booked cfg trades) :
    |lastEquity cfg trades - (cfg.execution.initialCapital + (trades.map Trade.netPnl).sum)| ≤
      trades.length * unit := by
  induction h with
  | nil => simp [lastEquity]
  | @close trades p index time price reason _ held _ ih =>
    have hstep := report_step cfg p index time price reason
    rw [held.equity] at hstep
    rw [lastEquity_concat, List.map_append, List.sum_append, List.length_append]
    rw [abs_le] at hstep ih ⊢
    simp only [List.map_cons, List.map_nil, List.sum_cons, List.sum_nil, List.length_cons,
      List.length_nil]
    push_cast
    constructor <;> linarith [hstep.1, hstep.2, ih.1, ih.2]

/-! The end of the run. -/

theorem before_lastPoint (cfg : Settings) {bars : List Bar} {i : Nat} {bar : Bar} (h : bars[i]? = some bar) :
    ∃ point, (before cfg bars (i + 1)).equityCurve.getLast? = some point ∧
      point.equity = roundTo 4 (equityNow bar (before cfg bars (i + 1))) := by
  rw [before_succ, step, h]
  exact ⟨_, List.getLast?_concat, rfl⟩

private theorem closeCurve_last {peak : ℚ} {trade : Trade} {curve : List EquityPoint} {p : EquityPoint}
    (h : (closeCurve peak trade curve).getLast? = some p) : p.equity = roundTo 4 trade.equityAfter := by
  unfold closeCurve at h
  cases hcurve : curve.getLast? with
  | none =>
    rw [hcurve] at h
    exact absurd (hcurve.symm.trans h) nofun
  | some final =>
    rw [hcurve] at h
    dsimp only at h
    rw [List.getLast?_concat] at h
    obtain rfl := Option.some.inj h
    rfl

theorem closeAtEnd_booked (cfg : Settings) (bars : List Bar) :
    let s := closeAtEnd cfg bars (before cfg bars bars.length)
    Booked cfg s.trades ∧
      ∀ p, s.equityCurve.getLast? = some p → p.equity = roundTo 4 (lastEquity cfg s.trades) := by
  have hready := before_ready cfg bars bars.length
  cases hlast : bars.getLast? with
  | none =>
    obtain rfl := List.getLast?_eq_none_iff.mp hlast
    have hend : closeAtEnd cfg [] (before cfg [] 0) = start cfg := rfl
    intro s
    change Booked cfg (start cfg).trades ∧ _
    exact ⟨.nil, fun p hp => by cases hp⟩
  | some last =>
    have hpos : bars.length - 1 + 1 = bars.length := by
      cases bars with
      | nil => cases hlast
      | cons b rest => rfl
    have hat : bars[bars.length - 1]? = some last := by
      rw [← hlast, List.getLast?_eq_getElem?]
    obtain ⟨point, hpoint, hequity⟩ := before_lastPoint cfg hat
    rw [hpos] at hpoint hequity
    have hmarked : equityNow last (before cfg bars bars.length) = (before cfg bars bars.length).equity →
        Booked cfg (before cfg bars bars.length).trades ∧
          ∀ p, (before cfg bars bars.length).equityCurve.getLast? = some p →
            p.equity = roundTo 4 (lastEquity cfg (before cfg bars bars.length).trades) := by
      intro hnow
      refine ⟨hready.booked, fun p hp => ?_⟩
      obtain rfl := Option.some.inj (hpoint.symm.trans hp)
      rw [hequity, hnow, hready.equity]
    unfold closeAtEnd
    rw [hlast]
    cases hp : (before cfg bars bars.length).position with
    | none => exact hmarked (by rw [equityNow, hp])
    | some p =>
      dsimp only
      cases hc : last.close? with
      | none => exact hmarked (by rw [equityNow, hp, hc])
      | some c =>
        obtain ⟨hentry, hheld, -⟩ := hready.held p hp
        refine ⟨.close _ _ _ _ hready.booked hheld (by omega), fun q hq => ?_⟩
        rw [closeCurve_last hq]
        dsimp only
        rw [lastEquity_concat]

/-! Numbering. -/

private theorem numbered_map {α : Type} (f : Trade → α) (hf : ∀ t k, f { t with tradeId := k } = f t)
    (trades : List Trade) : (numbered trades).map f = trades.map f := by
  apply List.ext_getElem
  · simp [numbered]
  · intro k _ _
    simp only [numbered, List.getElem_map, List.getElem_mapIdx]
    exact hf _ _

private theorem numbered_sound (h : Booked cfg trades) : ∀ t ∈ numbered trades, Sound cfg t := by
  intro t ht
  obtain ⟨u, hu, k, rfl⟩ := mem_numbered ht
  have hs := h.sound u hu
  exact ⟨hs.forward, hs.net, hs.equity, hs.quantity, hs.fees⟩

private theorem numbered_disjoint (h : Booked cfg trades) :
    (numbered trades).Pairwise fun t u => t.exitIndex < u.entryIndex := by
  have hmap := numbered_map (fun t => (t.entryIndex, t.exitIndex)) (fun _ _ => rfl) trades
  have hp := h.disjoint
  change trades.Pairwise fun t u => (t.entryIndex, t.exitIndex).2 < (u.entryIndex, u.exitIndex).1 at hp
  rw [← List.pairwise_map (f := fun t : Trade => (t.entryIndex, t.exitIndex))
    (R := fun x y : Nat × Nat => x.2 < y.1), ← hmap, List.pairwise_map] at hp
  exact hp

private theorem numbered_chained (h : Booked cfg trades) :
    (numbered trades).IsChain fun t u => u.equityBefore = t.equityAfter := by
  have hmap := numbered_map (fun t => (t.equityBefore, t.equityAfter)) (fun _ _ => rfl) trades
  have hc := h.chained
  rw [← List.isChain_map (fun t : Trade => (t.equityBefore, t.equityAfter))
    (R := fun x y : ℚ × ℚ => y.1 = x.2), hmap.symm, List.isChain_map] at hc
  exact hc

private theorem numbered_first (h : Booked cfg trades) {t : Trade}
    (ht : (numbered trades).head? = some t) :
    t.equityBefore = roundTo 4 cfg.execution.initialCapital := by
  have hmap := congrArg List.head? (numbered_map Trade.equityBefore (fun _ _ => rfl) trades)
  rw [List.head?_map, List.head?_map, ht] at hmap
  obtain ⟨u, hu, hequity⟩ := Option.map_eq_some_iff.mp hmap.symm
  rw [← hequity, h.first u hu]

private theorem numbered_last (h : Booked cfg trades) {equity : ℚ}
    (hequity : equity = roundTo 4 (lastEquity cfg trades)) :
    |equity - (cfg.execution.initialCapital + ((numbered trades).map Trade.netPnl).sum)| ≤
      ((numbered trades).length + 1) * unit := by
  have hsum := h.lastEquity_sum
  have hround := rounded (lastEquity cfg trades)
  have hu : (0 : ℚ) < unit := by unfold unit; norm_num
  rw [numbered_map Trade.netPnl (fun _ _ => rfl), hequity, numbered, List.length_mapIdx]
  rw [abs_le] at hsum hround ⊢
  constructor <;> linarith [hsum.1, hsum.2, hround.1, hround.2]

/-! Every trade is a close that was due. -/

/-- What a trade closed, and at which reference price. -/
def Trade.closed (t : Trade) : Position × ℚ := (t.closing.position, t.closing.referencePrice)

theorem fillPendingExit_closed (bar : Bar) (i : Nat) (s : State) :
    (fillPendingExit cfg bar i s).1.trades.map Trade.closed =
      s.trades.map Trade.closed ++ (dueExit bar i s).toList := by
  unfold fillPendingExit dueExit
  cases s.position with
  | none => simp
  | some p =>
    cases s.pendingExit with
    | none => simp
    | some queued =>
      by_cases hq : queued.1 + 1 = i
      · cases bar.prices with
        | none => simp [hq]
        | some prices =>
          simp only [hq, if_true, State.close, List.map_append, Option.toList_some]
          rfl
      · cases bar.prices <;> simp [hq]

theorem fillPendingEntry_trades (bars : List Bar) (bar : Bar) (i : Nat) (t : State × Bool) :
    (fillPendingEntry cfg bars bar i t).1.trades = t.1.trades := by
  unfold fillPendingEntry
  split <;> rfl

theorem takePriceExit_closed (bar : Bar) (i : Nat) (t : State × Bool) :
    (takePriceExit cfg bar i t).1.trades.map Trade.closed =
      t.1.trades.map Trade.closed ++ (dueTrigger cfg bar i t.1.position).toList := by
  unfold takePriceExit dueTrigger
  cases t.1.position with
  | none => simp
  | some p =>
    cases bar.prices with
    | none => simp
    | some prices =>
      dsimp only
      cases exitTrigger cfg p i prices bar.istMinutes with
      | none => simp
      | some hit =>
        simp only [State.close, List.map_append, Option.map_some, Option.toList_some]
        rfl

theorem barTurn_trades (bars : List Bar) (bar : Bar) (i : Nat) (s : State) :
    (barTurn cfg bars bar i s).trades = (takePriceExit cfg bar i
      (fillPendingEntry cfg bars bar i (fillPendingExit cfg bar i s))).1.trades := by
  have hsignals : ∀ t, (readSignals cfg bars bar i t).1.trades = t.1.trades := by
    intro t
    unfold readSignals
    split
    · split
      · split <;> rfl
      · rfl
    · rfl
  have hqueue : ∀ t, (queueOppositeExit cfg bar i t).1.trades = t.1.trades := by
    intro t
    unfold queueOppositeExit
    split
    · rename_i p _
      cases p.side <;> dsimp only <;> split <;> rfl
    · rfl
  have htrack : ∀ t, (trackExcursions bar i t).1.trades = t.1.trades := by
    intro t
    unfold trackExcursions
    split
    · dsimp only
      split <;> rfl
    · rfl
  change (trackExcursions bar i (queueOppositeExit cfg bar i (readSignals cfg bars bar i
    (takePriceExit cfg bar i _)))).1.trades = _
  rw [htrack, hqueue, hsignals]

theorem before_closed (bars : List Bar) (i : Nat) :
    (before cfg bars i).trades.map Trade.closed = (List.range i).flatMap (dueCloses cfg bars) := by
  induction i with
  | zero => rfl
  | succ i ih =>
    rw [before_succ, step, List.range_succ, List.flatMap_append, ← ih, List.flatMap_singleton,
      dueCloses]
    cases bars[i]? with
    | none => simp
    | some bar =>
      dsimp only
      rw [barTurn_trades, takePriceExit_closed, fillPendingEntry_trades, fillPendingExit_closed,
        List.append_assoc]

theorem dueCloses_past (bars : List Bar) {i : Nat} (h : bars.length ≤ i) : dueCloses cfg bars i = [] := by
  rw [dueCloses, List.getElem?_eq_none h]

theorem simulate_closed (cfg : Settings) (bars : List Bar) :
    (simulate cfg bars).trades.map Trade.closed =
      (List.range bars.length).flatMap (dueCloses cfg bars) ++ (dueAtEnd cfg bars).toList := by
  rw [simulate, numbered_map Trade.closed (fun _ _ => rfl), ← before_closed]
  unfold closeAtEnd dueAtEnd
  cases (before cfg bars bars.length).position with
  | none => simp
  | some p =>
    cases bars.getLast? with
    | none => simp
    | some last =>
      dsimp only
      cases last.close? with
      | none => simp
      | some c =>
        simp only [List.map_append, Option.map_some, Option.toList_some]
        rfl

theorem keepsBooks_iff (bars : List Bar) :
    KeepsBooks cfg bars ↔ ∀ t ∈ (simulate cfg bars).trades, Capitalised cfg t.closing.position ∧
      FeesIndifferent cfg t.closing.position t.closing.referencePrice := by
  have hmap := simulate_closed cfg bars
  have hall : (∀ t ∈ (simulate cfg bars).trades, Capitalised cfg t.closing.position ∧
      FeesIndifferent cfg t.closing.position t.closing.referencePrice) ↔
      ∀ due ∈ (simulate cfg bars).trades.map Trade.closed,
        Capitalised cfg due.1 ∧ FeesIndifferent cfg due.1 due.2 := by
    rw [List.forall_mem_map]
    rfl
  rw [hall, hmap, List.forall_mem_append, KeepsBooks]
  simp only [Option.mem_toList]
  refine and_congr_left fun _ => ?_
  constructor
  · intro h due hd
    obtain ⟨i, -, hi⟩ := List.mem_flatMap.mp hd
    exact h i due hi
  · intro h i due hi
    rcases Nat.lt_or_ge i bars.length with hlt | hge
    · exact h due (List.mem_flatMap.mpr ⟨i, List.mem_range.mpr hlt, hi⟩)
    · rw [dueCloses_past bars hge] at hi
      exact absurd hi List.not_mem_nil

end

/-- A run keeps its books exactly when none of its positions is opened on negative capital and none
of its shorts has the two sides' fees differ. -/
theorem accounted_iff (cfg : Settings) (bars : List Bar) :
    Accounted cfg (simulate cfg bars) ↔ KeepsBooks cfg bars := by
  obtain ⟨hbooked, hlast⟩ := closeAtEnd_booked cfg bars
  have hsound := numbered_sound hbooked
  have hdue : KeepsBooks cfg bars ↔ ∀ t ∈ (simulate cfg bars).trades,
      Capitalised cfg t.closing.position ∧
        FeesIndifferent cfg t.closing.position t.closing.referencePrice := keepsBooks_iff bars
  rw [hdue]
  constructor
  · intro h t ht
    exact ⟨(hsound t ht).quantity.mp (h.quantities t ht), (hsound t ht).fees.mp (h.fees t ht)⟩
  · intro h
    exact {
      disjoint := numbered_disjoint hbooked
      forward := fun t ht => (hsound t ht).forward
      net := fun t ht => (hsound t ht).net
      equity := fun t ht => (hsound t ht).equity
      first := fun t ht => numbered_first hbooked ht
      chained := numbered_chained hbooked
      last := fun p hp => numbered_last hbooked (hlast p hp)
      quantities := fun t ht => (hsound t ht).quantity.mpr (h t ht).1
      fees := fun t ht => (hsound t ht).fees.mpr (h t ht).2 }

/-! A short charged for the wrong sides, and a size taken from a negative equity. -/

/-- A short signal, its fill at the next open, then two falling bars. -/
def shortSignalled : List Bar :=
  [{ open? := some 100, high? := some 101, low? := some 99, close? := some 100, shortSignal := true },
   { open? := some 100, high? := some 101, low? := some 90, close? := some 90 },
   { open? := some 90, high? := some 91, low? := some 80, close? := some 80 }]

theorem short_pays_the_wrong_sides : ¬ Accounted {} (simulate {} shortSignalled) := by
  intro h
  have hfees : ∀ t ∈ (simulate {} shortSignalled).trades,
      t.closing.fees = t.closing.dueFees {} := h.fees
  revert hfees
  decide +kernel

end Droid.Research
