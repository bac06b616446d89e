import Droid.Vortex.Engine

/-! What the trades of a backtest book, and the bars on which they are booked pessimistically. -/
namespace Droid.Vortex
open Lib

/-! ### The exits of a trade -/

/-- The bar opens past the stop. -/
def opensBeyond (sign : Int) (candle : Candle) (stop : ℚ) : Bool :=
  if 0 < sign then candle.openPrice < stop else stop < candle.openPrice

/-- To leave at this price gains no more than at the level. -/
def NoBetter (sign : Int) (price level : ℚ) : Prop :=
  if 0 < sign then price ≤ level else level ≤ price

/-- A stop is taken at its level at best, and past it at the open at best. -/
def StoppedAt (sign : Int) (candle : Candle) (stop price : ℚ) : Prop :=
  NoBetter sign price stop ∧ (opensBeyond sign candle stop = true → NoBetter sign price candle.openPrice)

/-- The stop in force as a bar begins. -/
def History.stopOn (history : History) (entryPrice : ℚ) (i : Nat) : ℚ :=
  if history.t1Bar.any (· < i) then entryPrice else history.initialStop

namespace BacktestTradeRecord

/-- The legs close what was opened. -/
def Whole (t : BacktestTradeRecord) : Prop := (t.history.legs.map (·.quantity)).sum = t.quantity

def NetOfLegs (t : BacktestTradeRecord) : Prop :=
  t.netPnlRupees = (t.history.legs.map fun leg => leg.gross - leg.friction).sum

/-- From the bar of its fill on, the first bar that reaches the stop closes the trade, at a price no
better than the stop and a gap allow. -/
def StoppedInTime (bars : List HistoricalBarContext) (t : BacktestTradeRecord) : Prop :=
  ∀ i bar, bars[i]? = some bar → t.history.entryBar ≤ i → i ≤ t.exitBar →
    stopReached t.directionSign bar.candle1m (t.history.stopOn t.entryPrice i) = true →
      i = t.exitBar ∧
        StoppedAt t.directionSign bar.candle1m (t.history.stopOn t.entryPrice i) t.exitPrice

end BacktestTradeRecord

/-- The trades of a run close what they open, net of their legs' friction, one after the other and
by their stops, and do not depend on the bars after them. -/
structure BooksPessimistically {σ : Type} (engine : VortexBacktestEngine σ) (instrument : String)
    (bars : List HistoricalBarContext) : Prop where
  whole : ∀ t ∈ engine.runTrades instrument bars, t.Whole
  net : ∀ t ∈ engine.runTrades instrument bars, t.NetOfLegs
  apart : (engine.runTrades instrument bars).Pairwise fun a b => a.exitBar < b.history.entryBar
  spans : ∀ t ∈ engine.runTrades instrument bars, t.history.entryBar ≤ t.exitBar ∧ t.exitBar < bars.length
  stopped : ∀ t ∈ engine.runTrades instrument bars, t.StoppedInTime bars
  causal : ∀ m, (engine.runTrades instrument (bars.take (m + 1))).filter (·.exitBar < m) =
    (engine.runTrades instrument bars).filter (·.exitBar < m)

/-- At the stop itself it is taken unless the bar opens beyond it. -/
theorem stoppedAt_stop (sign : Int) (candle : Candle) (stop : ℚ) :
    StoppedAt sign candle stop stop ↔ opensBeyond sign candle stop = false := by
  unfold StoppedAt opensBeyond NoBetter
  by_cases hsign : 0 < sign
  · simpa [hsign] using lt_or_ge candle.openPrice stop
  · simpa [hsign] using lt_or_ge stop candle.openPrice

/-! ### The condition on the bars -/

namespace VortexBacktestEngine
variable {σ : Type} (engine : VortexBacktestEngine σ) (instrument : String)

/-- A bar that reaches the stop of a position held into it does not open beyond it, and a square-off
there closes no better than the stop and the open; and no odd quantity is scaled out. -/
structure PositionMeets (pos : ActivePosition) (bar : HistoricalBarContext) : Prop where
  stop : stopReached pos.directionSign bar.candle1m pos.stopLoss = true →
    if engine.isSquareOff bar.timestampMs then
      StoppedAt pos.directionSign bar.candle1m pos.stopLoss bar.candle1m.close
    else opensBeyond pos.directionSign bar.candle1m pos.stopLoss = false
  split : engine.decideExit pos.counted bar.timestampMs bar.candle1m = .scale → Even pos.quantity

def HeldMeets (s : LoopState σ) (bar : HistoricalBarContext) : Prop :=
  ∀ pos, s.activePos = some pos → engine.PositionMeets pos bar

/-- A bar that fills an order does not reach its stop, but for the last bar, where the end of the data
closes no better than the stop and the open. -/
def FillMeets (s : LoopState σ) (bar : HistoricalBarContext) (last : Bool) : Prop :=
  ∀ order, s.pendingOrder = some order → engine.lagElapsed s = true →
    stopReached order.directionSign bar.candle1m order.stopLoss = true →
      last = true ∧ StoppedAt order.directionSign bar.candle1m order.stopLoss bar.candle1m.close

/-- Every bar of the run meets both, in the state before it. -/
def Meets : LoopState σ → List HistoricalBarContext → Prop
  | _, [] => True
  | s, bar :: rest =>
    engine.HeldMeets s bar ∧ engine.FillMeets s bar rest.isEmpty ∧ Meets (engine.step instrument s bar) rest

end VortexBacktestEngine

/-! ### Invariants of the loop -/

/-- A position before its first target, or scaled out on a bar before this one. -/
inductive Staged (i : Nat) (pos : ActivePosition) : Prop
  | whole (t1 : pos.t1Hit = false) (bar : pos.history.t1Bar = none) (legs : pos.history.legs = [])
      (stop : pos.stopLoss = pos.history.initialStop) (half : pos.halfClosedPnl = 0)
  | scaled (t1 : pos.t1Hit = true) (j : Nat) (past : j < i) (bar : pos.history.t1Bar = some j) (leg : Leg)
      (legs : pos.history.legs = [leg]) (quantity : leg.quantity = pos.quantity / 2)
      (stop : pos.stopLoss = pos.entryPrice) (half : pos.halfClosedPnl = leg.gross - leg.friction)

/-- With this many bars processed: positions and orders exclude each other, and trades are closed one
before the other. -/
structure LoopInv {σ : Type} (n : Nat) (s : LoopState σ) : Prop where
  exclusive : ∀ pos, s.activePos = some pos → s.pendingOrder = none
  staged : ∀ pos, s.activePos = some pos → Staged n pos ∧ pos.history.entryBar < n
  booked : ∀ t ∈ s.trades, t.NetOfLegs ∧ t.history.entryBar ≤ t.exitBar ∧ t.exitBar < n
  apart : s.trades.Pairwise fun a b => a.exitBar < b.history.entryBar
  before : ∀ pos, s.activePos = some pos → ∀ t ∈ s.trades, t.exitBar < pos.history.entryBar

theorem LoopInv.free {σ : Type} {n : Nat} {s : LoopState σ} (h : LoopInv n s) {order : PendingOrder}
    (hpending : s.pendingOrder = some order) : s.activePos = none := by
  cases hpos : s.activePos with
  | none => rfl
  | some pos =>
    rw [h.exclusive pos hpos] at hpending
    cases hpending

theorem Staged.mono {i i' : Nat} {pos : ActivePosition} (h : Staged i pos) (hle : i ≤ i') : Staged i' pos := by
  cases h with
  | whole t1 bar legs stop half => exact .whole t1 bar legs stop half
  | scaled t1 j past bar leg legs quantity stop half =>
    exact .scaled t1 j (by omega) bar leg legs quantity stop half

theorem Staged.counted {i : Nat} {pos : ActivePosition} (h : Staged i pos) : Staged i pos.counted := by
  cases h with
  | whole t1 bar legs stop half => exact .whole t1 bar legs stop half
  | scaled t1 j past bar leg legs quantity stop half =>
    exact .scaled t1 j past bar leg legs quantity stop half

/-- The stop in force is the one the engine holds. -/
theorem Staged.stopOn {i : Nat} {pos : ActivePosition} (h : Staged i pos) :
    pos.history.stopOn pos.entryPrice i = pos.stopLoss := by
  rw [History.stopOn]
  cases h with
  | whole t1 bar legs stop half =>
    rw [bar, stop]
    rfl
  | scaled t1 j past bar leg legs quantity stop half =>
    rw [bar, stop, Option.any_some, if_pos (decide_eq_true past)]

namespace VortexBacktestEngine
variable {σ : Type} (engine : VortexBacktestEngine σ) (instrument : String)

theorem closeTrade_net {i : Nat} {pos : ActivePosition} (h : Staged i pos) (tradeId barIdx : Nat)
    (ts : Int) (candle : Candle) (price : ℚ) (reason : ExitReason) :
    (engine.closeTrade instrument pos tradeId barIdx ts candle price reason).NetOfLegs := by
  unfold BacktestTradeRecord.NetOfLegs closeTrade
  cases h with
  | whole t1 bar legs stop half => simp [legs, half]
  | scaled t1 j past bar leg legs quantity stop half => simp [legs, half]

theorem closeTrade_whole {i : Nat} {pos : ActivePosition} (h : Staged i pos) (tradeId barIdx : Nat)
    (ts : Int) (candle : Candle) (price : ℚ) (reason : ExitReason) :
    (engine.closeTrade instrument pos tradeId barIdx ts candle price reason).Whole ↔
      (pos.t1Hit = true → Even pos.quantity) := by
  unfold BacktestTradeRecord.Whole closeTrade
  cases h with
  | whole t1 bar legs stop half => simp [legs, t1, bookLeg]
  | scaled t1 j past bar leg legs quantity stop half =>
    simp only [legs, t1, bookLeg, if_true, List.cons_append, List.nil_append, List.map_cons, List.map_nil,
      List.sum_cons, List.sum_nil, quantity, Int.even_iff, true_implies]
    omega

/-! ### The decision on a bar -/

theorem decideExit_exit {pos : ActivePosition} {ts : Int} {candle : Candle} {price : ℚ} {reason : ExitReason}
    (h : engine.decideExit pos ts candle = .exit price reason)
    (hreached : stopReached pos.directionSign candle pos.stopLoss = true) :
    price = if engine.isSquareOff ts then candle.close else pos.stopLoss := by
  revert h
  rw [decideExit]
  simp only [hreached, true_and, if_true]
  split_ifs <;> rintro ⟨⟩ <;> rfl

theorem exit_stoppedAt {pos : ActivePosition} {ts : Int} {candle : Candle} {price : ℚ} {reason : ExitReason}
    (h : engine.decideExit pos ts candle = .exit price reason) :
    (stopReached pos.directionSign candle pos.stopLoss = true →
        StoppedAt pos.directionSign candle pos.stopLoss price) ↔
      (stopReached pos.directionSign candle pos.stopLoss = true →
        if engine.isSquareOff ts then StoppedAt pos.directionSign candle pos.stopLoss candle.close
        else opensBeyond pos.directionSign candle pos.stopLoss = false) := by
  refine imp_congr_right fun hreached => ?_
  rw [engine.decideExit_exit h hreached]
  split
  · exact Iff.rfl
  · exact stoppedAt_stop _ _ _

theorem decideExit_keeps (pos : ActivePosition) {ts : Int} {candle : Candle}
    (h : engine.decideExit pos ts candle = .scale ∨ engine.decideExit pos ts candle = .hold) :
    stopReached pos.directionSign candle pos.stopLoss = false := by
  rw [Bool.eq_false_iff]
  intro hreached
  revert h
  rw [decideExit]
  simp only [hreached, true_and, if_true]
  split_ifs <;> simp

theorem decideExit_scale (pos : ActivePosition) {ts : Int} {candle : Candle}
    (h : engine.decideExit pos ts candle = .scale) : pos.t1Hit = false := by
  rw [decideExit] at h
  split_ifs at h with _ _ _ _ hfirst
  exact Bool.eq_false_iff.mpr hfirst.2

/-! ### Trades and positions so far -/

end VortexBacktestEngine

/-- A position through the first bars: no odd quantity was scaled out, and none of them reached its
stop, but for the last of the data, where it is closed. -/
structure Clear (bars : List HistoricalBarContext) (last : Bool) (n : Nat) (pos : ActivePosition) : Prop where
  split : pos.t1Hit = true → Even pos.quantity
  stop : ∀ i bar, bars[i]? = some bar → pos.history.entryBar ≤ i → i < n →
    stopReached pos.directionSign bar.candle1m (pos.history.stopOn pos.entryPrice i) = true →
      last = true ∧ i + 1 = n ∧
        StoppedAt pos.directionSign bar.candle1m (pos.history.stopOn pos.entryPrice i) bar.candle1m.close

/-- All is well so far. -/
def Sound {σ : Type} (bars : List HistoricalBarContext) (last : Bool) (n : Nat) (s : LoopState σ) : Prop :=
  (∀ t ∈ s.trades, t.Whole ∧ t.StoppedInTime bars) ∧ ∀ pos, s.activePos = some pos → Clear bars last n pos

namespace VortexBacktestEngine
variable {σ : Type} (engine : VortexBacktestEngine σ) (instrument : String)

theorem closeTrade_stopped {bars : List HistoricalBarContext} {pos : ActivePosition} {n : Nat}
    {bar : HistoricalBarContext} (hbar : bars[n]? = some bar) (hstaged : Staged n pos)
    (hentry : pos.history.entryBar ≤ n) (tradeId : Nat) (ts : Int) (candle : Candle) (price : ℚ)
    (reason : ExitReason) :
    (engine.closeTrade instrument pos tradeId n ts candle price reason).StoppedInTime bars ↔
      (∀ i bar, bars[i]? = some bar → pos.history.entryBar ≤ i → i < n →
        stopReached pos.directionSign bar.candle1m (pos.history.stopOn pos.entryPrice i) = false) ∧
      (stopReached pos.directionSign bar.candle1m pos.stopLoss = true →
        StoppedAt pos.directionSign bar.candle1m pos.stopLoss price) := by
  have hstop := hstaged.stopOn
  constructor
  · intro h
    refine ⟨fun i other hi hle hlt => ?_, fun hreached => ?_⟩
    · rw [Bool.eq_false_iff]
      intro hreached
      exact absurd (h i other hi hle hlt.le hreached).1 hlt.ne
    · have hclosed := (h n bar hbar hentry le_rfl (by rw [← hstop] at hreached; exact hreached)).2
      rw [← hstop]
      exact hclosed
  · rintro ⟨hbefore, hat⟩ i other hi hle hlt hreached
    rcases hlt.lt_or_eq with hlt | heq
    · have hclear := hbefore i other hi hle hlt
      change stopReached pos.directionSign other.candle1m (pos.history.stopOn pos.entryPrice i) = true at hreached
      rw [hclear] at hreached
      cases hreached
    · subst heq
      obtain rfl := Option.some.inj (hbar.symm.trans hi)
      change stopReached pos.directionSign bar.candle1m (pos.history.stopOn pos.entryPrice i) = true at hreached
      refine ⟨rfl, ?_⟩
      change StoppedAt pos.directionSign bar.candle1m (pos.history.stopOn pos.entryPrice i) price
      rw [hstop] at hreached ⊢
      exact hat hreached

/-! ### One bar -/

theorem Clear.before {bars : List HistoricalBarContext} {n : Nat} {pos : ActivePosition} :
    Clear bars false n pos ↔ (pos.t1Hit = true → Even pos.quantity) ∧
      ∀ i bar, bars[i]? = some bar → pos.history.entryBar ≤ i → i < n →
        stopReached pos.directionSign bar.candle1m (pos.history.stopOn pos.entryPrice i) = false := by
  constructor
  · intro h
    refine ⟨h.split, fun i bar hi hle hlt => ?_⟩
    rw [Bool.eq_false_iff]
    intro hreached
    cases (h.stop i bar hi hle hlt hreached).1
  · rintro ⟨hsplit, hstop⟩
    refine ⟨hsplit, fun i bar hi hle hlt hreached => ?_⟩
    rw [hstop i bar hi hle hlt] at hreached
    cases hreached

theorem clear_succ {bars : List HistoricalBarContext} {n : Nat} (pos : ActivePosition) (last : Bool)
    {bar : HistoricalBarContext} (hbar : bars[n]? = some bar)
    (hkept : stopReached pos.directionSign bar.candle1m (pos.history.stopOn pos.entryPrice n) = false) :
    Clear bars last (n + 1) pos ↔ Clear bars false n pos := by
  rw [Clear.before]
  constructor
  · intro h
    refine ⟨h.split, fun i other hi hle hlt => ?_⟩
    rw [Bool.eq_false_iff]
    intro hreached
    have hlast := (h.stop i other hi hle (by omega) hreached).2.1
    omega
  · rintro ⟨hsplit, hstop⟩
    refine ⟨hsplit, fun i other hi hle hlt hreached => ?_⟩
    rcases (Nat.lt_succ_iff.mp hlt).lt_or_eq with hlt | rfl
    · rw [hstop i other hi hle hlt] at hreached
      cases hreached
    · obtain rfl := Option.some.inj (hbar.symm.trans hi)
      rw [hkept] at hreached
      cases hreached

theorem scaleOut_stopOn {n i : Nat} {pos : ActivePosition} (h : Staged n pos) (hfirst : pos.t1Hit = false)
    (hle : i ≤ n) (candle : Candle) :
    (engine.scaleOut pos n candle).history.stopOn (engine.scaleOut pos n candle).entryPrice i =
      pos.history.stopOn pos.entryPrice i := by
  rw [scaleOut, History.stopOn, History.stopOn, Option.any_some, if_neg (by simpa using hle)]
  cases h with
  | whole t1 bar legs stop half =>
    rw [bar]
    rfl
  | scaled t1 j past bar leg legs quantity stop half =>
    rw [hfirst] at t1
    cases t1

theorem scaleOut_staged {n : Nat} {pos : ActivePosition} (h : Staged n pos) (hfirst : pos.t1Hit = false)
    (candle : Candle) : Staged (n + 1) (engine.scaleOut pos n candle) := by
  cases h with
  | whole t1 bar legs stop half =>
    exact .scaled rfl n (Nat.lt_succ_self n) rfl _ (by rw [scaleOut, legs, List.nil_append]) rfl rfl rfl
  | scaled t1 j past bar leg legs quantity stop half =>
    rw [hfirst] at t1
    cases t1

theorem positionMeets_exit {pos : ActivePosition} {bar : HistoricalBarContext} {price : ℚ}
    {reason : ExitReason}
    (h : engine.decideExit pos.counted bar.timestampMs bar.candle1m = .exit price reason) :
    engine.PositionMeets pos bar ↔
      (stopReached pos.directionSign bar.candle1m pos.stopLoss = true →
        StoppedAt pos.directionSign bar.candle1m pos.stopLoss price) := by
  have hstop := engine.exit_stoppedAt h
  constructor
  · intro hmeets
    exact hstop.mpr hmeets.stop
  · intro hkept
    refine ⟨hstop.mp hkept, fun hscale => ?_⟩
    rw [h] at hscale
    cases hscale

theorem positionMeets_scale {pos : ActivePosition} {bar : HistoricalBarContext}
    (h : engine.decideExit pos.counted bar.timestampMs bar.candle1m = .scale) :
    engine.PositionMeets pos bar ↔ Even pos.quantity := by
  have hkept : stopReached pos.directionSign bar.candle1m pos.stopLoss = false :=
    engine.decideExit_keeps pos.counted (.inl h)
  constructor
  · intro hmeets
    exact hmeets.split h
  · intro heven
    refine ⟨fun hreached => ?_, fun _ => heven⟩
    rw [hkept] at hreached
    cases hreached

theorem positionMeets_hold {pos : ActivePosition} {bar : HistoricalBarContext}
    (h : engine.decideExit pos.counted bar.timestampMs bar.candle1m = .hold) :
    engine.PositionMeets pos bar := by
  have hkept : stopReached pos.directionSign bar.candle1m pos.stopLoss = false :=
    engine.decideExit_keeps pos.counted (.inr h)
  refine ⟨fun hreached => ?_, fun hscale => ?_⟩
  · rw [hkept] at hreached
    cases hreached
  · rw [h] at hscale
    cases hscale

theorem evaluateExits_sound {bars : List HistoricalBarContext} {s : LoopState σ} (hinv : LoopInv s.barIdx s)
    {bar : HistoricalBarContext} (hbar : bars[s.barIdx]? = some bar) (last : Bool) :
    Sound bars last (s.barIdx + 1) (engine.evaluateExits instrument s bar) ↔
      Sound bars false s.barIdx s ∧ engine.HeldMeets s bar := by
  rw [evaluateExits, HeldMeets]
  cases hpos : s.activePos with
  | none => simp only [Sound, hpos, reduceCtorEq, false_implies, implies_true, and_true]
  | some pos =>
    obtain ⟨hstaged, hentry⟩ := hinv.staged pos hpos
    have hstop := hstaged.stopOn
    simp only [Sound, hpos, Option.some.injEq, forall_eq', Clear.before]
    cases hdecide : engine.decideExit pos.counted bar.timestampMs bar.candle1m with
    | exit price reason =>
      have hwhole := engine.closeTrade_whole instrument hstaged.counted (s.tradeIdSeq + 1) s.barIdx
        bar.timestampMs bar.candle1m price reason
      have hstopped := engine.closeTrade_stopped instrument hbar hstaged.counted hentry.le (s.tradeIdSeq + 1)
        bar.timestampMs bar.candle1m price reason
      simp only [finalize, List.forall_mem_append, List.forall_mem_singleton, hwhole, hstopped,
        reduceCtorEq, false_implies, implies_true, and_true, engine.positionMeets_exit hdecide]
      exact ⟨fun ⟨ht, hs, hc, hp⟩ => ⟨⟨ht, hs, hc⟩, hp⟩, fun ⟨⟨ht, hs, hc⟩, hp⟩ => ⟨ht, hs, hc, hp⟩⟩
    | scale =>
      have hfirst : pos.t1Hit = false := engine.decideExit_scale pos.counted hdecide
      have hsame : ∀ i, i ≤ s.barIdx → _ := fun i hle =>
        engine.scaleOut_stopOn hstaged.counted hfirst hle bar.candle1m
      have hkept : stopReached pos.directionSign bar.candle1m pos.stopLoss = false :=
        engine.decideExit_keeps pos.counted (.inl hdecide)
      have hclear := clear_succ (engine.scaleOut pos.counted s.barIdx bar.candle1m) last hbar (by
        rw [hsame _ le_rfl]
        exact (congrArg _ hstop).trans hkept)
      simp only [Option.some.injEq, forall_eq', engine.positionMeets_scale hdecide, hclear, Clear.before,
        hfirst, Bool.false_eq_true, false_implies, true_and, and_assoc]
      refine and_congr_right fun _ => ?_
      rw [and_comm]
      refine and_congr (forall_congr' fun i => forall_congr' fun other => imp_congr_right fun _ =>
        imp_congr_right fun _ => imp_congr_right fun hlt => ?_) ⟨fun h => h rfl, fun h _ => h⟩
      rw [hsame i hlt.le]
      exact Iff.rfl
    | hold =>
      have hkept : stopReached pos.directionSign bar.candle1m pos.stopLoss = false :=
        engine.decideExit_keeps pos.counted (.inr hdecide)
      have hclear := clear_succ pos.counted last hbar ((congrArg _ hstop).trans hkept)
      simp only [Option.some.injEq, forall_eq', engine.positionMeets_hold hdecide, and_true, hclear,
        Clear.before]
      exact Iff.rfl

theorem openPosition_clear {bars : List HistoricalBarContext} {s : LoopState σ} {bar : HistoricalBarContext}
    (hbar : bars[s.barIdx]? = some bar) (last : Bool) (filled : LoopState σ)
    (hfilled : filled.barIdx = s.barIdx) (order : PendingOrder) :
    Clear bars last (s.barIdx + 1) (engine.openPosition instrument filled order bar) ↔
      (stopReached order.directionSign bar.candle1m order.stopLoss = true →
        last = true ∧ StoppedAt order.directionSign bar.candle1m order.stopLoss bar.candle1m.close) := by
  constructor
  · intro h hreached
    obtain ⟨hlast, -, hclosed⟩ := h.stop s.barIdx bar hbar hfilled.le (Nat.lt_succ_self _) hreached
    exact ⟨hlast, hclosed⟩
  · intro h
    refine ⟨fun hfirst => absurd hfirst Bool.false_ne_true, fun i other hi hle hlt hreached => ?_⟩
    have hge : s.barIdx ≤ i := hfilled.ge.trans hle
    obtain rfl : i = s.barIdx := by omega
    obtain rfl := Option.some.inj (hbar.symm.trans hi)
    obtain ⟨hlast, hclosed⟩ := h hreached
    exact ⟨hlast, rfl, hclosed⟩

theorem evaluateExits_frame (s : LoopState σ) (bar : HistoricalBarContext) :
    (engine.evaluateExits instrument s bar).barIdx = s.barIdx ∧
      (engine.evaluateExits instrument s bar).pendingOrder = s.pendingOrder ∧
      (engine.evaluateExits instrument s bar).pendingLagCounter = s.pendingLagCounter ∧
      (s.activePos = none → engine.evaluateExits instrument s bar = s) := by
  rw [evaluateExits]
  cases hpos : s.activePos with
  | none => exact ⟨rfl, rfl, rfl, fun _ => rfl⟩
  | some pos =>
    simp only
    cases engine.decideExit pos.counted bar.timestampMs bar.candle1m <;>
      exact ⟨rfl, rfl, rfl, fun h => by cases h⟩

theorem fillPending_sound {bars : List HistoricalBarContext} {s : LoopState σ} (hinv : LoopInv s.barIdx s)
    {bar : HistoricalBarContext} (hbar : bars[s.barIdx]? = some bar) (last : Bool) :
    Sound bars last (s.barIdx + 1)
        (engine.fillPending instrument (engine.evaluateExits instrument s bar) bar) ↔
      Sound bars last (s.barIdx + 1) (engine.evaluateExits instrument s bar) ∧
        engine.FillMeets s bar last := by
  obtain ⟨hidx, horder, hlag, hnone⟩ := engine.evaluateExits_frame instrument s bar
  cases hpending : s.pendingOrder with
  | none =>
    have hmeets : engine.FillMeets s bar last := by
      intro order h
      rw [hpending] at h
      cases h
    rw [fillPending, horder, hpending]
    simp only [hmeets, and_true]
  | some order =>
    have hpos := hinv.free hpending
    have hfree : (engine.evaluateExits instrument s bar).activePos = none := by
      rw [hnone hpos]
      exact hpos
    have helapsed : engine.lagElapsed (engine.evaluateExits instrument s bar) = engine.lagElapsed s := by
      rw [lagElapsed, lagElapsed, hlag]
    rw [fillPending, horder, hpending, hfree]
    simp only [helapsed, FillMeets, hpending, Option.some.injEq, forall_eq']
    cases hdue : engine.lagElapsed s with
    | false => simp only [Bool.false_eq_true, if_false, false_implies, and_true, Sound, hfree]
    | true =>
      have hclear := engine.openPosition_clear instrument hbar last
        (engine.evaluateExits instrument s bar) hidx order
      simp only [if_true, true_implies, Sound, Option.some.injEq, forall_eq', hclear, hfree, reduceCtorEq,
        false_implies, implies_true, and_true]

/-- Detection neither books nor opens. -/
theorem detect_frame (s : LoopState σ) (bar : HistoricalBarContext) :
    (engine.detect instrument s bar).barIdx = s.barIdx ∧
      (engine.detect instrument s bar).trades = s.trades ∧
      (engine.detect instrument s bar).activePos = s.activePos ∧
      (s.activePos ≠ none → (engine.detect instrument s bar).pendingOrder = s.pendingOrder) := by
  rw [detect]
  split
  · rename_i h
    simp only
    split
    · split
      · exact ⟨rfl, rfl, rfl, fun hne => absurd h.1 hne⟩
      · exact ⟨rfl, rfl, rfl, fun hne => absurd h.1 hne⟩
    · exact ⟨rfl, rfl, rfl, fun _ => rfl⟩
  · exact ⟨rfl, rfl, rfl, fun _ => rfl⟩

theorem step_sound {bars : List HistoricalBarContext} {s : LoopState σ} (hinv : LoopInv s.barIdx s)
    {bar : HistoricalBarContext} (hbar : bars[s.barIdx]? = some bar) (last : Bool) :
    Sound bars last (s.barIdx + 1) (engine.step instrument s bar) ↔
      Sound bars false s.barIdx s ∧ engine.HeldMeets s bar ∧ engine.FillMeets s bar last := by
  obtain ⟨-, htrades, hactive, -⟩ := engine.detect_frame instrument
    (engine.fillPending instrument (engine.evaluateExits instrument s bar) bar) bar
  have hstep : Sound bars last (s.barIdx + 1) (engine.step instrument s bar) ↔
      Sound bars last (s.barIdx + 1)
        (engine.fillPending instrument (engine.evaluateExits instrument s bar) bar) := by
    simp only [Sound, step, htrades, hactive]
  rw [hstep, engine.fillPending_sound instrument hinv hbar, engine.evaluateExits_sound instrument hinv hbar,
    and_assoc]

/-! ### The invariant -/

theorem evaluateExits_inv {s : LoopState σ} (h : LoopInv s.barIdx s) (bar : HistoricalBarContext) :
    LoopInv (s.barIdx + 1) (engine.evaluateExits instrument s bar) := by
  have hbooked : ∀ t ∈ s.trades, t.NetOfLegs ∧ t.history.entryBar ≤ t.exitBar ∧ t.exitBar < s.barIdx + 1 := by
    intro t ht
    obtain ⟨hnet, hspan, hpast⟩ := h.booked t ht
    exact ⟨hnet, hspan, by omega⟩
  rw [evaluateExits]
  cases hpos : s.activePos with
  | none =>
    refine ⟨h.exclusive, ?_, hbooked, h.apart, h.before⟩
    intro pos hsome
    rw [hpos] at hsome
    cases hsome
  | some pos =>
    obtain ⟨hstaged, hentry⟩ := h.staged pos hpos
    have hpending := h.exclusive pos hpos
    have hbefore := h.before pos hpos
    simp only
    cases hdecide : engine.decideExit pos.counted bar.timestampMs bar.candle1m with
    | exit price reason =>
      refine ⟨fun _ h => (by cases h), fun _ h => (by cases h), ?_, ?_, fun _ h => (by cases h)⟩
      · simp only [finalize, List.forall_mem_append]
        refine ⟨hbooked, List.forall_mem_singleton.mpr ⟨?_, hentry.le, Nat.lt_succ_self _⟩⟩
        exact engine.closeTrade_net instrument hstaged.counted _ _ _ _ _ _
      · simp only [finalize, List.pairwise_append]
        exact ⟨h.apart, List.pairwise_singleton _ _, fun t ht u hu => by
          obtain rfl := List.mem_singleton.mp hu
          exact hbefore t ht⟩
    | scale =>
      refine ⟨fun _ _ => hpending, ?_, hbooked, h.apart, ?_⟩
      · rintro _ ⟨⟩
        have hfirst := engine.decideExit_scale pos.counted hdecide
        exact ⟨engine.scaleOut_staged hstaged.counted hfirst bar.candle1m, Nat.lt_succ_of_lt hentry⟩
      · rintro _ ⟨⟩
        exact hbefore
    | hold =>
      refine ⟨fun _ _ => hpending, ?_, hbooked, h.apart, ?_⟩
      · rintro _ ⟨⟩
        exact ⟨hstaged.counted.mono (Nat.le_succ _), Nat.lt_succ_of_lt hentry⟩
      · rintro _ ⟨⟩
        exact hbefore

theorem fillPending_inv {s : LoopState σ} (h : LoopInv s.barIdx s) (bar : HistoricalBarContext) :
    LoopInv (s.barIdx + 1)
      (engine.fillPending instrument (engine.evaluateExits instrument s bar) bar) := by
  have hexits := engine.evaluateExits_inv instrument h bar
  obtain ⟨hidx, horder, -, hnone⟩ := engine.evaluateExits_frame instrument s bar
  rw [fillPending]
  split
  · rename_i order hpending hfree
    split
    · refine ⟨fun _ _ => rfl, ?_, hexits.booked, hexits.apart, ?_⟩
      · rintro _ ⟨⟩
        exact ⟨.whole rfl rfl rfl rfl rfl, Nat.lt_succ_of_le hidx.le⟩
      · rintro _ ⟨⟩ t ht
        rw [hnone (h.free (horder.symm.trans hpending))] at ht
        exact (h.booked t ht).2.2.trans_le hidx.ge
    · exact ⟨hexits.exclusive, hexits.staged, hexits.booked, hexits.apart, hexits.before⟩
  · exact hexits

theorem fillPending_frame (s : LoopState σ) (bar : HistoricalBarContext) :
    (engine.fillPending instrument s bar).barIdx = s.barIdx ∧
      (engine.fillPending instrument s bar).trades = s.trades := by
  rw [fillPending]
  split
  · split <;> exact ⟨rfl, rfl⟩
  · exact ⟨rfl, rfl⟩

theorem step_barIdx (s : LoopState σ) (bar : HistoricalBarContext) :
    (engine.step instrument s bar).barIdx = s.barIdx + 1 := by
  obtain ⟨hexits, -⟩ := engine.evaluateExits_frame instrument s bar
  obtain ⟨hdetect, -⟩ := engine.detect_frame instrument
    (engine.fillPending instrument (engine.evaluateExits instrument s bar) bar) bar
  obtain ⟨hfill, -⟩ := engine.fillPending_frame instrument (engine.evaluateExits instrument s bar) bar
  rw [step, hdetect, hfill, hexits]

theorem step_inv {s : LoopState σ} (h : LoopInv s.barIdx s) (bar : HistoricalBarContext) :
    LoopInv (engine.step instrument s bar).barIdx (engine.step instrument s bar) := by
  have hfill := engine.fillPending_inv instrument h bar
  obtain ⟨-, htrades, hactive, hpending⟩ := engine.detect_frame instrument
    (engine.fillPending instrument (engine.evaluateExits instrument s bar) bar) bar
  rw [step_barIdx]
  simp only [step]
  refine ⟨fun pos hpos => ?_, fun pos hpos => ?_, fun t ht => ?_, ?_, fun pos hpos t ht => ?_⟩
  · have hactive' := hactive.symm.trans hpos
    exact (hpending (by rw [hactive']; simp)).trans (hfill.exclusive pos hactive')
  · exact hfill.staged pos (hactive.symm.trans hpos)
  · exact hfill.booked t (htrades ▸ ht)
  · rw [htrades]
    exact hfill.apart
  · exact hfill.before pos (hactive.symm.trans hpos) t (htrades ▸ ht)

theorem start_inv : LoopInv engine.start.barIdx engine.start :=
  ⟨fun _ h => (by cases h), fun _ h => (by cases h), fun _ h => (by cases h), List.Pairwise.nil,
    fun _ h => (by cases h)⟩

/-! ### The whole run -/

theorem run_inv (bars : List HistoricalBarContext) {s : LoopState σ} (h : LoopInv s.barIdx s) :
    LoopInv (run (engine.step instrument) s bars).barIdx (run (engine.step instrument) s bars) :=
  run_of_always (P := fun s => LoopInv s.barIdx s)
    (always_of_step (P := fun s => LoopInv s.barIdx s) (fun _ bar h => engine.step_inv instrument h bar) h bars)

theorem run_barIdx (bars : List HistoricalBarContext) (s : LoopState σ) :
    (run (engine.step instrument) s bars).barIdx = s.barIdx + bars.length := by
  induction bars generalizing s with
  | nil => rfl
  | cons bar bars ih =>
    rw [run_cons, ih, step_barIdx, List.length_cons]
    omega

theorem run_sound {bars rest : List HistoricalBarContext} {s : LoopState σ} (hinv : LoopInv s.barIdx s)
    (hrest : bars.drop s.barIdx = rest) (hne : rest ≠ []) :
    Sound bars true bars.length (run (engine.step instrument) s rest) ↔
      Sound bars false s.barIdx s ∧ engine.Meets instrument s rest := by
  induction rest generalizing s with
  | nil => exact absurd rfl hne
  | cons bar rest ih =>
    have hbar : bars[s.barIdx]? = some bar := by
      rw [← List.head?_drop, hrest, List.head?_cons]
    have htail : bars.drop (s.barIdx + 1) = rest := by
      rw [← List.tail_drop, hrest, List.tail_cons]
    rw [run_cons, Meets]
    cases rest with
    | nil =>
      have hlength : bars.length = s.barIdx + 1 := by
        have hdrop := congrArg List.length hrest
        rw [List.length_drop, List.length_singleton] at hdrop
        omega
      rw [run_nil, hlength, engine.step_sound instrument hinv hbar]
      simp only [Meets, List.isEmpty_nil, and_true]
    | cons next rest =>
      have hstep := engine.step_sound instrument hinv hbar false
      have hidx := engine.step_barIdx instrument s bar
      rw [ih (engine.step_inv instrument hinv bar) (by rw [hidx, htail]) (List.cons_ne_nil _ _), hidx, hstep,
        List.isEmpty_cons, and_assoc, and_assoc]

theorem closeLingering_sound {bars : List HistoricalBarContext} {s : LoopState σ}
    (hinv : LoopInv s.barIdx s) (hlength : s.barIdx = bars.length) {last : HistoricalBarContext}
    (hlast : bars.getLast? = some last) :
    (∀ t ∈ (engine.closeLingering instrument s last).trades, t.Whole ∧ t.StoppedInTime bars) ↔
      Sound bars true bars.length s := by
  rw [closeLingering]
  cases hpos : s.activePos with
  | none => simp only [Sound, hpos, reduceCtorEq, false_implies, implies_true, and_true]
  | some pos =>
    obtain ⟨hstaged, hentry⟩ := hinv.staged pos hpos
    have hwhole := engine.closeTrade_whole instrument hstaged (s.tradeIdSeq + 1) (s.barIdx - 1)
      last.candle1m.timestamp last.candle1m last.candle1m.close .endOfData
    have hbarLast : ∀ {i : Nat} {bar : HistoricalBarContext}, bars[i]? = some bar → i = s.barIdx - 1 →
        bar = last := by
      rintro i bar hi rfl
      rw [hlength, ← List.getLast?_eq_getElem?, hlast] at hi
      cases hi
      rfl
    simp only [finalize, List.forall_mem_append, List.forall_mem_singleton, hwhole, Sound, hpos,
      Option.some.injEq, forall_eq']
    refine and_congr_right fun _ => ?_
    constructor
    · rintro ⟨hsplit, hstopped⟩
      refine ⟨hsplit, fun i bar hi hle hlt hreached => ?_⟩
      obtain ⟨heq, hclosed⟩ := hstopped i bar hi hle (Nat.le_sub_one_of_lt (hlength ▸ hlt)) hreached
      have hi' : i = s.barIdx - 1 := heq
      obtain rfl := hbarLast hi hi'
      exact ⟨rfl, by omega, hclosed⟩
    · intro hclear
      refine ⟨hclear.split, fun i bar hi hle hlt hreached => ?_⟩
      have hlt' : i ≤ s.barIdx - 1 := hlt
      obtain ⟨-, heq, hclosed⟩ := hclear.stop i bar hi hle (by omega) hreached
      have hi' : i = s.barIdx - 1 := by omega
      obtain rfl := hbarLast hi hi'
      exact ⟨hi', hclosed⟩

/-- Each trade of a run is net of its legs, within the data, and closed before the next is opened. -/
theorem closeLingering_booked {s : LoopState σ} (hinv : LoopInv s.barIdx s) (last : HistoricalBarContext) :
    (∀ t ∈ (engine.closeLingering instrument s last).trades,
      t.NetOfLegs ∧ t.history.entryBar ≤ t.exitBar ∧ t.exitBar < s.barIdx) ∧
      (engine.closeLingering instrument s last).trades.Pairwise fun a b => a.exitBar < b.history.entryBar := by
  rw [closeLingering]
  cases hpos : s.activePos with
  | none => exact ⟨hinv.booked, hinv.apart⟩
  | some pos =>
    obtain ⟨hstaged, hentry⟩ := hinv.staged pos hpos
    have hbefore := hinv.before pos hpos
    simp only [finalize, List.forall_mem_append, List.forall_mem_singleton, List.pairwise_append]
    refine ⟨⟨hinv.booked, ?_, ?_, ?_⟩, hinv.apart, List.pairwise_singleton _ _, hbefore⟩
    · exact engine.closeTrade_net instrument hstaged _ _ _ _ _ _
    · exact Nat.le_sub_one_of_lt hentry
    · exact Nat.sub_one_lt_of_lt hentry

/-! ### The trades closed before a bar -/

theorem step_trades (s : LoopState σ) (bar : HistoricalBarContext) :
    ∃ new, (engine.step instrument s bar).trades = s.trades ++ new ∧ ∀ t ∈ new, t.exitBar = s.barIdx := by
  obtain ⟨-, hdetect, -⟩ := engine.detect_frame instrument
    (engine.fillPending instrument (engine.evaluateExits instrument s bar) bar) bar
  obtain ⟨-, hfill⟩ := engine.fillPending_frame instrument (engine.evaluateExits instrument s bar) bar
  have hstep : (engine.step instrument s bar).trades = (engine.evaluateExits instrument s bar).trades :=
    hdetect.trans hfill
  rw [hstep, evaluateExits]
  cases s.activePos with
  | none => exact ⟨[], (List.append_nil _).symm, List.forall_mem_nil _⟩
  | some pos =>
    simp only
    cases engine.decideExit pos.counted bar.timestampMs bar.candle1m with
    | exit price reason => exact ⟨_, rfl, List.forall_mem_singleton.mpr rfl⟩
    | scale => exact ⟨[], (List.append_nil _).symm, List.forall_mem_nil _⟩
    | hold => exact ⟨[], (List.append_nil _).symm, List.forall_mem_nil _⟩

theorem run_trades (bars : List HistoricalBarContext) (s : LoopState σ) :
    ∃ new, (run (engine.step instrument) s bars).trades = s.trades ++ new ∧
      ∀ t ∈ new, s.barIdx ≤ t.exitBar := by
  induction bars generalizing s with
  | nil => exact ⟨[], (List.append_nil _).symm, List.forall_mem_nil _⟩
  | cons bar bars ih =>
    obtain ⟨first, hfirst, hat⟩ := engine.step_trades instrument s bar
    obtain ⟨new, hnew, hafter⟩ := ih (engine.step instrument s bar)
    rw [step_barIdx] at hafter
    refine ⟨first ++ new, by rw [run_cons, hnew, hfirst, List.append_assoc], ?_⟩
    rw [List.forall_mem_append]
    exact ⟨fun t ht => (hat t ht).ge, fun t ht => (Nat.le_succ _).trans (hafter t ht)⟩

/-- What is closed before a bar is closed by the bars before it. -/
theorem closedBefore {bars : List HistoricalBarContext} {m : Nat} (hm : m < bars.length) :
    (engine.runTrades instrument bars).filter (·.exitBar < m) =
      (engine.loop instrument (bars.take m)).trades.filter (·.exitBar < m) := by
  have hidx : (engine.loop instrument (bars.take m)).barIdx = m := by
    rw [loop, run_barIdx, List.length_take_of_le hm.le]
    exact Nat.zero_add m
  have hloop : engine.loop instrument bars =
      run (engine.step instrument) (engine.loop instrument (bars.take m)) (bars.drop m) := by
    rw [loop, loop, ← run_append, List.take_append_drop]
  have hend : (engine.loop instrument bars).barIdx = bars.length := by
    rw [loop, run_barIdx]
    exact Nat.zero_add _
  obtain ⟨new, hnew, hafter⟩ := engine.run_trades instrument (bars.drop m) (engine.loop instrument (bars.take m))
  rw [← hloop] at hnew
  rw [hidx] at hafter
  have hdropped : ∀ later : List BacktestTradeRecord, (∀ t ∈ later, m ≤ t.exitBar) →
      later.filter (·.exitBar < m) = [] := by
    intro later hlater
    rw [List.filter_eq_nil_iff]
    intro t ht
    simpa using hlater t ht
  have hlast : ∃ last, bars.getLast? = some last :=
    ⟨_, List.getLast?_eq_getLast_of_ne_nil (List.ne_nil_of_length_pos (by omega))⟩
  obtain ⟨last, hlast⟩ := hlast
  rw [runTrades, hlast]
  simp only [closeLingering]
  cases (engine.loop instrument bars).activePos with
  | none => rw [hnew, List.filter_append, hdropped new hafter, List.append_nil]
  | some pos =>
    simp only [finalize, hnew, List.filter_append, hdropped new hafter, List.append_nil]
    rw [hdropped _ (List.forall_mem_singleton.mpr ?_), List.append_nil]
    change m ≤ (engine.loop instrument bars).barIdx - 1
    omega

end VortexBacktestEngine

/-- The backtest books its trades pessimistically exactly when every bar meets the condition in the
state before it. -/
theorem booksPessimistically_iff {σ : Type} (engine : VortexBacktestEngine σ) (instrument : String)
    (bars : List HistoricalBarContext) :
    BooksPessimistically engine instrument bars ↔ engine.Meets instrument engine.start bars := by
  have hcausal : ∀ m, (engine.runTrades instrument (bars.take (m + 1))).filter (·.exitBar < m) =
      (engine.runTrades instrument bars).filter (·.exitBar < m) := by
    intro m
    rcases lt_or_ge m bars.length with hm | hm
    · rw [engine.closedBefore instrument hm, engine.closedBefore instrument (by rw [List.length_take]; omega),
        List.take_take, Nat.min_eq_left (Nat.le_succ m)]
    · rw [List.take_of_length_le (by omega)]
  cases hlast : bars.getLast? with
  | none =>
    obtain rfl := List.getLast?_eq_none_iff.mp hlast
    refine iff_of_true ⟨?_, ?_, List.Pairwise.nil, ?_, ?_, hcausal⟩ trivial <;> exact List.forall_mem_nil _
  | some last =>
    have hne : bars ≠ [] := by
      rintro rfl
      cases hlast
    have hinv : LoopInv (engine.loop instrument bars).barIdx (engine.loop instrument bars) :=
      engine.run_inv instrument bars engine.start_inv
    have hlength : (engine.loop instrument bars).barIdx = bars.length := by
      rw [VortexBacktestEngine.loop, engine.run_barIdx]
      exact Nat.zero_add _
    have htrades : engine.runTrades instrument bars =
        (engine.closeLingering instrument (engine.loop instrument bars) last).trades := by
      rw [VortexBacktestEngine.runTrades, hlast]
    obtain ⟨hbooked, hapart⟩ := engine.closeLingering_booked instrument hinv last
    have hsound := engine.closeLingering_sound instrument hinv hlength hlast
    have hrun : Sound bars true bars.length (engine.loop instrument bars) ↔ _ :=
      engine.run_sound instrument engine.start_inv rfl hne
    have hstart : Sound bars false engine.start.barIdx engine.start :=
      ⟨List.forall_mem_nil _, fun _ h => by cases h⟩
    constructor
    · intro h
      have hall : ∀ t ∈ engine.runTrades instrument bars, t.Whole ∧ t.StoppedInTime bars :=
        fun t ht => ⟨h.whole t ht, h.stopped t ht⟩
      rw [htrades] at hall
      exact (hrun.mp (hsound.mp hall)).2
    · intro hmeets
      have hall := hsound.mpr (hrun.mpr ⟨hstart, hmeets⟩)
      rw [← htrades] at hall hbooked hapart
      exact
        { whole := fun t ht => (hall t ht).1
          net := fun t ht => (hbooked t ht).1
          apart := hapart
          spans := fun t ht => ⟨(hbooked t ht).2.1, hlength ▸ (hbooked t ht).2.2⟩
          stopped := fun t ht => (hall t ht).2
          causal := hcausal }

instance (t : BacktestTradeRecord) : Decidable t.Whole := inferInstanceAs (Decidable (_ = _))

/-- Buys at every chance: stop 95, targets 110 and 120. -/
private def eagerBuyer : VortexStrategy Unit where
  reset := ()
  detect := fun _ _ => (some
    { direction := "LONG_CALL", trigger := 100, stopLoss := 95, target1 := 110, target2 := 120
      overallConfidence := 80 }, ())
  evaluate := fun _ => { sessionPhase := .normalIntraday, isForcedSquareOff := false }

private def bar (minute : Int) (openPrice high low close : ℚ) : HistoricalBarContext :=
  let candle : Candle := ⟨minute * 60000, openPrice, high, low, close, 1⟩
  { timestampMs := minute * 60000, candle1m := candle, history1m := List.replicate 20 candle }

/-- One lot of 25 is scaled out in two halves of 12. -/
theorem odd_lot_loses_one : ¬ ∀ (engine : VortexBacktestEngine Unit) (instrument : String)
    (bars : List HistoricalBarContext), BooksPessimistically engine instrument bars := by
  intro h
  have hwhole := (h { strategy := eagerBuyer } "NIFTY"
    [bar 1 100 101 99 100, bar 2 100 101 99 100, bar 3 100 111 100 110, bar 4 110 121 109 120]).whole
  revert hwhole
  decide +kernel

end Droid.Vortex
