import Droid.Research.Accounting

/-! When and at what price the backtest closes a position, held against the bars the position saw. -/
namespace Droid.Research
open Lib

def pricesAt (bars : List Bar) (k : Nat) : Option Prices := bars[k]?.bind Bar.prices

namespace Position
variable (p : Position)

/-- The range of bar `k` comes after the entry. -/
def Sees (k : Nat) : Prop :=
  match p.entryBasis with
  | .open => p.entryIndex ≤ k
  | .close => p.entryIndex < k

/-- The open or the range of the bar reaches the stop. -/
def ReachesStop (bar : Prices) : Prop :=
  ∃ stop ∈ p.stop, match p.side with
    | .long => bar.o ≤ stop ∨ bar.lo ≤ stop
    | .short => stop ≤ bar.o ∨ stop ≤ bar.h

def NoBetterThanStop (price : ℚ) : Prop :=
  ∀ stop ∈ p.stop, match p.side with
    | .long => price ≤ stop
    | .short => stop ≤ price

def OpensAtTarget (bar : Prices) : Prop :=
  ∃ target ∈ p.target, match p.side with
    | .long => target ≤ bar.o
    | .short => bar.o ≤ target

/-- The distance of a price from the entry reference, against the position. -/
def adverse (price : ℚ) : ℚ := (p.entryReference - price) * p.side.direction

def favourable (price : ℚ) : ℚ := (price - p.entryReference) * p.side.direction

def worst (bar : Prices) : ℚ :=
  match p.side with
  | .long => bar.lo
  | .short => bar.h

def best (bar : Prices) : ℚ :=
  match p.side with
  | .long => bar.h
  | .short => bar.lo

/-- A complete bar before `n` that the position saw has the property. -/
def SawWithin (bars : List Bar) (n : Nat) (P : Prices → Prop) : Prop :=
  ∃ k < n, p.Sees k ∧ ∃ prices, pricesAt bars k = some prices ∧ P prices

end Position

/-- The bars that a trade counts: those before its exit, and all of them where the data ended. -/
def Trade.counted (t : Trade) : Nat := if t.exitReason = .endOfData then t.exitIndex + 1 else t.exitIndex

section
variable (bars : List Bar)

/-- The stop comes first. A queued exit and a target that the open reaches have their price before
the range of the bar. -/
structure ExitSound (t : Trade) : Prop where
  survived : ¬t.closing.position.SawWithin bars t.exitIndex t.closing.position.ReachesStop
  stopped : ∀ prices, pricesAt bars t.exitIndex = some prices → t.closing.position.Sees t.exitIndex →
    t.closing.position.ReachesStop prices →
      t.closing.position.NoBetterThanStop t.closing.referencePrice ∨
      (t.exitReason = .oppositeSignal ∧ t.closing.referencePrice = prices.o) ∨
      (t.exitReason = .takeProfit ∧ t.closing.referencePrice = prices.o ∧ t.closing.position.OpensAtTarget prices)
  target : t.exitReason = .takeProfit → ∃ prices, pricesAt bars t.exitIndex = some prices ∧
    (t.closing.position.ReachesStop prices → t.closing.position.OpensAtTarget prices)

/-- The reported excursions take in the exit of the trade itself. -/
structure ExcursionsCover (t : Trade) : Prop where
  mae : t.closing.position.adverse t.closing.referencePrice ≤ t.closing.position.mae
  mfe : t.closing.position.favourable t.closing.referencePrice ≤ t.closing.position.mfe
  reportedMae : roundTo 6 (t.closing.position.adverse t.closing.referencePrice) ≤ t.mae
  reportedMfe : roundTo 6 (t.closing.position.favourable t.closing.referencePrice) ≤ t.mfe

/-- A bar that the trade counts, or its entry, went as far as its exit did, either way. -/
def Spanned (t : Trade) : Prop :=
  let p := t.closing.position
  let price := t.closing.referencePrice
  (p.adverse price ≤ 0 ∨ p.SawWithin bars t.counted fun bar => p.adverse price ≤ p.adverse (p.worst bar)) ∧
    (p.favourable price ≤ 0 ∨
      p.SawWithin bars t.counted fun bar => p.favourable price ≤ p.favourable (p.best bar))

/-- Bar `m` is the first complete one after bar `i`. -/
def NextComplete (i m : Nat) (prices : Prices) : Prop :=
  i < m ∧ pricesAt bars m = some prices ∧ ∀ k, i < k → k < m → pricesAt bars k = none

variable (cfg : Settings)

/-- On bar `i` an exit of the open position is queued. -/
def QueuesExit (i : Nat) (p : Position) : Prop :=
  (before cfg bars (i + 1)).position = some p ∧
    (before cfg bars (i + 1)).pendingExit = some (i, .oppositeSignal)

/-- What the exits of a run promise. -/
structure ExitsPessimistic : Prop where
  unstopped : ∀ i p, (before cfg bars i).position = some p → ¬p.SawWithin bars i p.ReachesStop
  exits : ∀ t ∈ (simulate cfg bars).trades, ExitSound bars t
  queued : ∀ i p, QueuesExit bars cfg i p → ∀ m prices, NextComplete bars i m prices →
    ∃ t ∈ (simulate cfg bars).trades, t.entryIndex = p.entryIndex ∧ t.exitIndex = m ∧
      t.exitReason = .oppositeSignal ∧ t.closing.referencePrice = prices.o
  excursions : ∀ t ∈ (simulate cfg bars).trades, ExcursionsCover t

/-- After a bar that queues an exit there is no gap before the next complete bar, and no trade exits
further out than the bars before had been. -/
structure ExitsInReach : Prop where
  queued : ∀ i p, QueuesExit bars cfg i p → ∀ m prices, NextComplete bars i m prices → m = i + 1
  spanned : ∀ t ∈ (simulate cfg bars).trades, Spanned bars t

end

section Watching
variable {bars : List Bar} {p : Position} {n : Nat} {P : Prices → Prop}

theorem sawWithin_succ : p.SawWithin bars (n + 1) P ↔
    p.SawWithin bars n P ∨ (p.Sees n ∧ ∃ prices, pricesAt bars n = some prices ∧ P prices) := by
  constructor
  · rintro ⟨k, hk, hsees, hprices⟩
    rcases Nat.lt_succ_iff_lt_or_eq.mp hk with hlt | rfl
    · exact Or.inl ⟨k, hlt, hsees, hprices⟩
    · exact Or.inr ⟨hsees, hprices⟩
  · rintro (⟨k, hk, hseen⟩ | hlast)
    · exact ⟨k, Nat.lt_succ_of_lt hk, hseen⟩
    · exact ⟨n, Nat.lt_succ_self n, hlast⟩

/-- An open position that has come through the bars before `n`. -/
structure Watches (bars : List Bar) (p : Position) (n : Nat) : Prop where
  stop : ¬p.SawWithin bars n p.ReachesStop
  mae : ∀ d, d ≤ p.mae ↔ d ≤ 0 ∨ p.SawWithin bars n fun bar => d ≤ p.adverse (p.worst bar)
  mfe : ∀ d, d ≤ p.mfe ↔ d ≤ 0 ∨ p.SawWithin bars n fun bar => d ≤ p.favourable (p.best bar)

theorem Watches.skip (h : Watches bars p n) (hskip : p.Sees n → pricesAt bars n = none) : Watches bars p (n + 1) := by
  have hnone : ∀ P : Prices → Prop, ¬(p.Sees n ∧ ∃ prices, pricesAt bars n = some prices ∧ P prices) := by
    rintro P ⟨hsees, prices, hprices, -⟩
    rw [hskip hsees] at hprices
    cases hprices
  refine ⟨?_, fun d => ?_, fun d => ?_⟩
  · rw [sawWithin_succ, or_iff_left (hnone _)]
    exact h.stop
  · rw [sawWithin_succ, or_iff_left (hnone _)]
    exact h.mae d
  · rw [sawWithin_succ, or_iff_left (hnone _)]
    exact h.mfe d

private theorem saw_last {prices : Prices} (hprices : pricesAt bars n = some prices) (hsees : p.Sees n) :
    (p.Sees n ∧ ∃ prices, pricesAt bars n = some prices ∧ P prices) ↔ P prices := by
  constructor
  · rintro ⟨-, prices', hprices', hP⟩
    rw [hprices] at hprices'
    cases hprices'
    exact hP
  · intro hP
    exact ⟨hsees, prices, hprices, hP⟩

theorem Watches.move (h : Watches bars p n) {prices : Prices} (hprices : pricesAt bars n = some prices)
    (hsees : p.Sees n) (hstop : ¬p.ReachesStop prices) {moved : Position}
    (hmoved : moved = { p with mfe := max p.mfe (p.favourable (p.best prices)),
                               mae := max p.mae (p.adverse (p.worst prices)) }) :
    Watches bars moved (n + 1) := by
  subst hmoved
  refine ⟨?_, fun d => ?_, fun d => ?_⟩
  · change ¬p.SawWithin bars (n + 1) p.ReachesStop
    rw [sawWithin_succ, saw_last hprices hsees]
    exact not_or.mpr ⟨h.stop, hstop⟩
  · change d ≤ max p.mae _ ↔ d ≤ 0 ∨ p.SawWithin bars (n + 1) fun bar => d ≤ p.adverse (p.worst bar)
    rw [le_max_iff, h.mae, sawWithin_succ, saw_last hprices hsees, or_assoc]
  · change d ≤ max p.mfe _ ↔ d ≤ 0 ∨ p.SawWithin bars (n + 1) fun bar => d ≤ p.favourable (p.best bar)
    rw [le_max_iff, h.mfe, sawWithin_succ, saw_last hprices hsees, or_assoc]

theorem Watches.fresh (hmae : p.mae = 0) (hmfe : p.mfe = 0) (hentry : n ≤ p.entryIndex) : Watches bars p n := by
  have hnone : ∀ P, ¬p.SawWithin bars n P := by
    rintro P ⟨k, hk, hsees, -⟩
    unfold Position.Sees at hsees
    split at hsees <;> omega
  refine ⟨hnone _, fun d => ?_, fun d => ?_⟩
  · rw [hmae, or_iff_left (hnone _)]
  · rw [hmfe, or_iff_left (hnone _)]

end Watching

/-! What the exits of one bar leave behind. -/

section Trigger
variable {cfg : Settings} {p : Position} {i : Nat} {prices : Prices} {minutes : Option Nat} {price : ℚ}
  {reason : ExitReason}

/-- Stop before target, and both before time; what the open reaches has the open for its price. -/
theorem exitTrigger_none (h : exitTrigger cfg p i prices minutes = none) : ¬p.ReachesStop prices := by
  rintro ⟨stop, hs, hreach⟩
  rw [Option.mem_def] at hs
  unfold exitTrigger at h
  cases hside : p.side <;> cases ht : p.target <;> simp_all [Option.filter] <;> grind

theorem exitTrigger_some (h : exitTrigger cfg p i prices minutes = some (price, reason)) :
    (reason ≠ .oppositeSignal ∧ reason ≠ .endOfData) ∧
      (p.ReachesStop prices → p.NoBetterThanStop price ∨
        (reason = .takeProfit ∧ price = prices.o ∧ p.OpensAtTarget prices)) ∧
      (reason = .takeProfit → p.ReachesStop prices → p.OpensAtTarget prices) := by
  unfold exitTrigger at h
  unfold Position.ReachesStop Position.NoBetterThanStop Position.OpensAtTarget
  cases hs : p.stop <;> cases ht : p.target <;> cases hside : p.side <;> simp_all [Option.filter] <;> grind

end Trigger

/-- A trade as the loop, or the end of the data, leaves it. -/
structure Watched (bars : List Bar) (t : Trade) : Prop where
  sound : ExitSound bars t
  watches : Watches bars t.closing.position t.counted
  mae : t.mae = roundTo 6 (max 0 t.closing.position.mae)
  mfe : t.mfe = roundTo 6 (max 0 t.closing.position.mfe)
  opposite : t.exitReason = .oppositeSignal →
    ∃ k prices, t.exitIndex = k + 1 ∧ pricesAt bars k = some prices

/-- Within bar `i`, with the open position in shape `P`. -/
structure Turning (bars : List Bar) (i : Nat) (P : Position → Prop) (s : State) : Prop where
  position : ∀ p, s.position = some p → Watches bars p i ∧ P p
  trades : ∀ t ∈ s.trades, Watched bars t
  queued : ∀ q reason, s.pendingExit = some (q, reason) →
    reason = .oppositeSignal ∧ q ≤ i ∧ ∃ prices, pricesAt bars q = some prices

section Phases
variable {cfg : Settings} {bars : List Bar} {bar : Bar} {i : Nat} {p : Position}

private theorem closed_watched {prices : Prices} {reason : ExitReason} {price : ℚ} (time : Option String)
    (hp : Watches bars p i) (hreason : reason ≠ .endOfData) (hprices : pricesAt bars i = some prices)
    (hstop : p.ReachesStop prices → p.NoBetterThanStop price ∨
      (reason = .oppositeSignal ∧ price = prices.o) ∨
      (reason = .takeProfit ∧ price = prices.o ∧ p.OpensAtTarget prices))
    (htarget : reason = .takeProfit → p.ReachesStop prices → p.OpensAtTarget prices)
    (hopposite : reason = .oppositeSignal → ∃ k prices, i = k + 1 ∧ pricesAt bars k = some prices) :
    Watched bars (closePosition cfg p i time price reason) where
  sound := {
    survived := hp.stop
    stopped := by
      intro prices' hprices' _ hreach
      have heq := Option.some.inj (hprices'.symm.trans hprices)
      rw [heq] at hreach ⊢
      exact hstop hreach
    target := fun htake => ⟨prices, hprices, htarget htake⟩ }
  watches := by
    have hcounted : (closePosition cfg p i time price reason).counted = i := if_neg hreason
    rw [hcounted]
    exact hp
  mae := rfl
  mfe := rfl
  opposite := hopposite

private theorem turning_close {s : State} {P Q : Position → Prop} (h : Turning bars i P s) {time : Option String}
    {price : ℚ} {reason : ExitReason} (hclosed : Watched bars (closePosition cfg p i time price reason)) :
    Turning bars i Q (s.close cfg p i time price reason) where
  position := fun q hq => by cases hq
  trades := by
    intro t ht
    rcases List.mem_append.mp ht with ht | ht
    · exact h.trades t ht
    · rw [List.mem_singleton.mp ht]
      exact hclosed
  queued := h.queued

variable (hbar : pricesAt bars i = bar.prices)
include hbar

theorem fillPendingExit_turning {s : State} (h : Turning bars i (fun p => p.entryIndex < i) s) :
    Turning bars i (fun p => p.entryIndex < i) (fillPendingExit cfg bar i s).1 := by
  unfold fillPendingExit
  split
  · rename_i p queued reason hp hq
    split
    · rename_i hdue
      obtain ⟨hreason, -, before, hbefore⟩ := h.queued _ _ hq
      cases hprices : bar.prices with
      | none => exact ⟨h.position, h.trades, fun q r hr => by cases hr⟩
      | some prices =>
        have hclosed : Watched bars (closePosition cfg p i bar.time prices.o reason) :=
          closed_watched bar.time (h.position p hp).1 (by rw [hreason]; decide) (hbar.trans hprices)
            (fun _ => Or.inr (Or.inl ⟨hreason, rfl⟩)) (fun ht => by rw [hreason] at ht; cases ht)
            (fun _ => ⟨queued, before, hdue.symm, hbefore⟩)
        have hclose : Turning bars i (fun p => p.entryIndex < i) (s.close cfg p i bar.time prices.o reason) :=
          turning_close h hclosed
        exact ⟨hclose.position, hclose.trades, fun q r hr => by cases hr⟩
    · exact h
  · exact h

omit hbar in
theorem fillPendingEntry_turning {t : State × Bool} (h : Turning bars i (fun p => p.entryIndex < i) t.1) :
    Turning bars i (fun p => p.Sees i) (fillPendingEntry cfg bars bar i t).1 := by
  unfold fillPendingEntry
  split
  · refine ⟨fun p hp => ?_, h.trades, h.queued⟩
    change entryFill cfg bars bar i t.1 = some p at hp
    unfold entryFill at hp
    split at hp
    · split at hp
      · cases hp
        exact ⟨Watches.fresh rfl rfl le_rfl, le_rfl⟩
      · cases hp
    · cases hp
  · refine ⟨fun p hp => ⟨(h.position p hp).1, ?_⟩, h.trades, h.queued⟩
    have hbefore := (h.position p hp).2
    unfold Position.Sees
    split
    · exact hbefore.le
    · exact hbefore

/-- What the price exits leave open has not reached its stop on the bar. -/
theorem takePriceExit_turning {t : State × Bool} (h : Turning bars i (fun p => p.Sees i) t.1) :
    Turning bars i (fun p => p.Sees i → ∀ prices, bar.prices = some prices → ¬p.ReachesStop prices)
      (takePriceExit cfg bar i t).1 := by
  unfold takePriceExit
  split
  · rename_i p prices hp hprices
    split
    · rename_i price reason htrigger
      obtain ⟨⟨hopposite, hend⟩, hstop, htarget⟩ := exitTrigger_some htrigger
      have hclosed : Watched bars (closePosition cfg p i bar.time price reason) :=
        closed_watched bar.time (h.position p hp).1 hend (hbar.trans hprices)
          (fun hreach => (hstop hreach).imp_right Or.inr) htarget (fun ho => absurd ho hopposite)
      exact turning_close h hclosed
    · rename_i htrigger
      refine ⟨fun q hq => ⟨(h.position q hq).1, fun _ prices' hprices' => ?_⟩, h.trades, h.queued⟩
      rw [hp] at hq
      cases hq
      rw [hprices] at hprices'
      cases hprices'
      exact exitTrigger_none htrigger
  · rename_i hnone
    refine ⟨fun q hq => ⟨(h.position q hq).1, fun _ prices hprices => ?_⟩, h.trades, h.queued⟩
    exact absurd hprices (hnone q prices hq)

omit hbar in
theorem readSignals_turning {t : State × Bool}
    (h : Turning bars i (fun p => p.Sees i → ∀ prices, bar.prices = some prices → ¬p.ReachesStop prices) t.1) :
    Turning bars i (fun p => p.Sees i → ∀ prices, bar.prices = some prices → ¬p.ReachesStop prices)
      (readSignals cfg bars bar i t).1 := by
  unfold readSignals
  split
  · split
    · split
      · exact ⟨h.position, h.trades, h.queued⟩
      · exact h
    · refine ⟨fun p hp => ?_, h.trades, h.queued⟩
      cases hp
      refine ⟨Watches.fresh rfl rfl le_rfl, fun hsees => ?_⟩
      exact absurd hsees (Nat.lt_irrefl i)
  · exact h

theorem queueOppositeExit_turning {P : Position → Prop} {t : State × Bool} (h : Turning bars i P t.1) :
    Turning bars i P (queueOppositeExit cfg bar i t).1 := by
  have hqueue : bar.prices.isSome → Turning bars i P { t.1 with pendingExit := some (i, .oppositeSignal) } := by
    intro hcomplete
    refine ⟨h.position, h.trades, fun q reason hq => ?_⟩
    cases hq
    obtain ⟨prices, hprices⟩ := Option.isSome_iff_exists.mp hcomplete
    exact ⟨rfl, le_rfl, prices, hbar.trans hprices⟩
  unfold queueOppositeExit
  split
  · rename_i p _
    cases p.side
    · dsimp only
      split
      · rename_i hcond
        exact hqueue hcond.2.2.2.1
      · exact h
    · dsimp only
      split
      · rename_i hcond
        exact hqueue hcond.2.2.2.1
      · exact h
  · exact h

theorem trackExcursions_turning {t : State × Bool} (hexited : t.2 = true → t.1.position = none)
    (hentry : ∀ p, t.1.position = some p → p.entryIndex ≤ i)
    (h : Turning bars i (fun p => p.Sees i → ∀ prices, bar.prices = some prices → ¬p.ReachesStop prices) t.1) :
    (∀ p, (trackExcursions bar i t).1.position = some p → Watches bars p (i + 1)) ∧
      (∀ u ∈ (trackExcursions bar i t).1.trades, Watched bars u) ∧
      (trackExcursions bar i t).1.pendingExit = t.1.pendingExit := by
  unfold trackExcursions
  split
  · rename_i p prices hp hprices
    have hopen : t.2 = false := by
      by_contra hx
      rw [hexited (by simpa using hx)] at hp
      cases hp
    have hsees : p.Sees i ↔ ¬(p.entryBasis = .close ∧ i = p.entryIndex) := by
      have hle := hentry p hp
      unfold Position.Sees
      cases p.entryBasis with
      | «open» => simpa using hle
      | close =>
        simp only [true_and]
        omega
    obtain ⟨hwatches, hstop⟩ := h.position p hp
    split
    · rename_i hcounts
      refine ⟨fun q hq => ?_, h.trades, rfl⟩
      have hsaw := hsees.mpr hcounts.2
      cases hside : p.side with
      | long =>
        rw [hside] at hq
        cases hq
        refine hwatches.move (hbar.trans hprices) hsaw (hstop hsaw prices hprices) ?_
        simp [Position.favourable, Position.adverse, Position.best, Position.worst, hside, PositionSide.direction]
      | short =>
        rw [hside] at hq
        cases hq
        refine hwatches.move (hbar.trans hprices) hsaw (hstop hsaw prices hprices) ?_
        simp [Position.favourable, Position.adverse, Position.best, Position.worst, hside, PositionSide.direction]
    · rename_i hcounts
      refine ⟨fun q hq => ?_, h.trades, rfl⟩
      rw [hp] at hq
      cases hq
      refine hwatches.skip fun hsaw => absurd ⟨hopen, hsees.mp hsaw⟩ hcounts
  · rename_i hnone
    refine ⟨fun q hq => (h.position q hq).1.skip fun _ => ?_, h.trades, rfl⟩
    rw [hbar, Option.eq_none_iff_forall_ne_some]
    exact fun prices hprices => hnone q prices hq hprices

end Phases

section Run
variable {cfg : Settings} {bars : List Bar}

theorem barTurn_turning {bar : Bar} {i : Nat} {s : State} (hbar : pricesAt bars i = bar.prices) (hr : Ready cfg i s)
    (h : Turning bars i (fun p => p.entryIndex < i) s) :
    Turning bars (i + 1) (fun p => p.entryIndex < i + 1) (barTurn cfg bars bar i s) := by
  obtain ⟨t0, hdue⟩ := fillPendingExit_turned bar hr
  have t2 := takePriceExit_turned bar (fillPendingEntry_turned bars bar t0 hdue)
  have t4 := queueOppositeExit_turned bar (readSignals_turned bars bar t2)
  have h0 : Turning bars i (fun p => p.entryIndex < i) (fillPendingExit cfg bar i s).1 :=
    fillPendingExit_turning hbar h
  have h2 : Turning bars i (fun p => p.Sees i → ∀ prices, bar.prices = some prices → ¬p.ReachesStop prices)
      (takePriceExit cfg bar i (fillPendingEntry cfg bars bar i (fillPendingExit cfg bar i s))).1 :=
    takePriceExit_turning hbar (fillPendingEntry_turning h0)
  have h4 : Turning bars i (fun p => p.Sees i → ∀ prices, bar.prices = some prices → ¬p.ReachesStop prices)
      (queueOppositeExit cfg bar i (readSignals cfg bars bar i
        (takePriceExit cfg bar i (fillPendingEntry cfg bars bar i (fillPendingExit cfg bar i s))))).1 :=
    queueOppositeExit_turning hbar (readSignals_turning h2)
  obtain ⟨hwatches, htrades, hpending⟩ := trackExcursions_turning hbar t4.exited (fun p hp => (t4.held p hp).1) h4
  have hentry := (trackExcursions_turned bar t4).held
  refine ⟨fun p hp => ⟨hwatches p hp, Nat.lt_succ_of_le (hentry p hp).1⟩, htrades, fun q reason hq => ?_⟩
  obtain ⟨hreason, hle, hprices⟩ := h4.queued q reason (hpending ▸ hq)
  exact ⟨hreason, Nat.le_succ_of_le hle, hprices⟩

theorem start_turning : Turning bars 0 (fun p => p.entryIndex < 0) (start cfg) where
  position := fun p hp => by cases hp
  trades := fun t ht => absurd ht List.not_mem_nil
  queued := fun q reason hq => by cases hq

/-- Every bar of the run is reached with the open position watched and the trades in order. -/
theorem before_turning (cfg : Settings) (bars : List Bar) (i : Nat) :
    Turning bars i (fun p => p.entryIndex < i) (before cfg bars i) := by
  induction i with
  | zero => exact start_turning
  | succ i ih =>
    rw [before_succ, step]
    cases hbar : bars[i]? with
    | some bar => exact barTurn_turning (by rw [pricesAt, hbar]; rfl) (before_ready cfg bars i) ih
    | none =>
      have hnone : pricesAt bars i = none := by rw [pricesAt, hbar]; rfl
      refine ⟨fun p hp => ⟨(ih.position p hp).1.skip fun _ => hnone, Nat.lt_succ_of_lt (ih.position p hp).2⟩,
        ih.trades, fun q r hq => ?_⟩
      obtain ⟨hreason, hle, hprices⟩ := ih.queued q r hq
      exact ⟨hreason, Nat.le_succ_of_le hle, hprices⟩

/-- The end of the data closes what is still open, at a price that all its bars came before. -/
private theorem closeAtEnd_watched (cfg : Settings) (bars : List Bar) :
    ∀ t ∈ (closeAtEnd cfg bars (before cfg bars bars.length)).trades, Watched bars t := by
  have h := before_turning cfg bars bars.length
  unfold closeAtEnd
  split
  · rename_i p last hp hlast
    split
    · rename_i c hc
      have hlength : bars.length - 1 + 1 = bars.length :=
        Nat.sub_add_cancel (List.length_pos_of_mem (List.mem_of_getLast? hlast))
      have hwatches := (h.position p hp).1
      intro t ht
      rcases List.mem_append.mp ht with ht | ht
      · exact h.trades t ht
      · rw [List.mem_singleton.mp ht]
        exact {
          sound := {
            survived := fun ⟨k, hk, hseen⟩ => hwatches.stop ⟨k, Nat.lt_of_lt_pred hk, hseen⟩
            stopped := fun prices hprices hsees hreach =>
              absurd ⟨bars.length - 1, by omega, hsees, prices, hprices, hreach⟩ hwatches.stop
            target := fun htake => by cases htake }
          watches := by
            change Watches bars p (bars.length - 1 + 1)
            rwa [hlength]
          mae := rfl
          mfe := rfl
          opposite := fun ho => by cases ho }
    · exact h.trades
  · exact h.trades

theorem simulate_watched (cfg : Settings) (bars : List Bar) : ∀ t ∈ (simulate cfg bars).trades, Watched bars t := by
  intro t ht
  obtain ⟨u, hu, k, rfl⟩ := mem_numbered ht
  have h := closeAtEnd_watched cfg bars u hu
  exact ⟨⟨h.sound.survived, h.sound.stopped, h.sound.target⟩, h.watches, h.mae, h.mfe, h.opposite⟩

private theorem mem_simulate {u : Trade} {m : Nat} (hm : m ≤ bars.length) (hu : u ∈ (before cfg bars m).trades) :
    ∃ k, { u with tradeId := k } ∈ (simulate cfg bars).trades := by
  obtain ⟨new, hnew, -⟩ := before_extends cfg bars hm
  have hlast : u ∈ (before cfg bars bars.length).trades := by
    rw [hnew]
    exact List.mem_append_left _ hu
  have hend : u ∈ (closeAtEnd cfg bars (before cfg bars bars.length)).trades := by
    unfold closeAtEnd
    split
    · split
      · exact List.mem_append_left _ hlast
      · exact hlast
    · exact hlast
  obtain ⟨k, hk, heq⟩ := List.mem_iff_getElem.mp hend
  refine ⟨k + 1, List.mem_mapIdx.mpr ⟨k, hk, ?_⟩⟩
  rw [heq]

private theorem queued_booked {i : Nat} {p : Position} {prices : Prices} (h : QueuesExit bars cfg i p)
    (hprices : pricesAt bars (i + 1) = some prices) :
    ∃ u ∈ (before cfg bars (i + 2)).trades, u.entryIndex = p.entryIndex ∧ u.exitIndex = i + 1 ∧
      u.exitReason = .oppositeSignal ∧ u.closing.referencePrice = prices.o := by
  obtain ⟨bar, hbar, hbarPrices⟩ := Option.bind_eq_some_iff.mp hprices
  refine ⟨closePosition cfg p (i + 1) bar.time prices.o .oppositeSignal, ?_, rfl, rfl, rfl, rfl⟩
  have hfill : (fillPendingExit cfg bar (i + 1) (before cfg bars (i + 1))).1.trades =
      (before cfg bars (i + 1)).trades ++ [closePosition cfg p (i + 1) bar.time prices.o .oppositeSignal] := by
    unfold fillPendingExit
    rw [h.1, h.2]
    dsimp only
    rw [if_pos rfl, hbarPrices]
    rfl
  have htake : ∀ t : State × Bool, t.1.trades ⊆ (takePriceExit cfg bar (i + 1) t).1.trades := by
    intro t u hu
    unfold takePriceExit
    split
    · split
      · exact List.mem_append_left _ hu
      · exact hu
    · exact hu
  rw [before_succ, step, hbar]
  change _ ∈ (barTurn cfg bars bar (i + 1) (before cfg bars (i + 1))).trades
  rw [barTurn_trades]
  apply htake
  rw [fillPendingEntry_trades, hfill]
  exact List.mem_append_right _ (List.mem_singleton_self _)

private theorem queued_iff : (∀ i p, QueuesExit bars cfg i p → ∀ m prices, NextComplete bars i m prices →
    ∃ t ∈ (simulate cfg bars).trades, t.entryIndex = p.entryIndex ∧ t.exitIndex = m ∧
      t.exitReason = .oppositeSignal ∧ t.closing.referencePrice = prices.o) ↔
    ∀ i p, QueuesExit bars cfg i p → ∀ m prices, NextComplete bars i m prices → m = i + 1 := by
  refine forall₃_congr fun i p h => forall₃_congr fun m prices hnext => ?_
  obtain ⟨hlt, hprices, hnone⟩ := hnext
  constructor
  · rintro ⟨t, ht, -, hexit, hreason, -⟩
    obtain ⟨k, before, hk, hbefore⟩ := (simulate_watched cfg bars t ht).opposite hreason
    by_contra hne
    rw [hnone k (by omega) (by omega)] at hbefore
    cases hbefore
  · rintro rfl
    obtain ⟨u, hu, hentry, hexit, hreason, hprice⟩ := queued_booked h hprices
    obtain ⟨bar, hbar, -⟩ := Option.bind_eq_some_iff.mp hprices
    obtain ⟨hbound, -⟩ := List.getElem?_eq_some_iff.mp hbar
    obtain ⟨k, hk⟩ := mem_simulate (by omega) hu
    exact ⟨_, hk, hentry, hexit, hreason, hprice⟩

private theorem cover_iff {t : Trade} (h : Watched bars t) : ExcursionsCover t ↔ Spanned bars t := by
  constructor
  · intro hc
    exact ⟨(h.watches.mae _).mp hc.mae, (h.watches.mfe _).mp hc.mfe⟩
  · rintro ⟨hmae, hmfe⟩
    have hmae' := (h.watches.mae _).mpr hmae
    have hmfe' := (h.watches.mfe _).mpr hmfe
    refine ⟨hmae', hmfe', ?_, ?_⟩
    · rw [h.mae]
      exact roundTo_mono 6 (hmae'.trans (le_max_right _ _))
    · rw [h.mfe]
      exact roundTo_mono 6 (hmfe'.trans (le_max_right _ _))

/-- Stops and targets are always taken as promised. A queued exit is forgotten on an incomplete bar,
and the bar of an exit is left out of the excursions. -/
theorem exitsPessimistic_iff (cfg : Settings) (bars : List Bar) :
    ExitsPessimistic bars cfg ↔ ExitsInReach bars cfg := by
  have hwatched := simulate_watched cfg bars
  constructor
  · intro h
    exact ⟨queued_iff.mp h.queued, fun t ht => (cover_iff (hwatched t ht)).mp (h.excursions t ht)⟩
  · intro h
    exact {
      unstopped := fun i p hp => ((before_turning cfg bars i).position p hp).1.stop
      exits := fun t ht => (hwatched t ht).sound
      queued := queued_iff.mpr h.queued
      excursions := fun t ht => (cover_iff (hwatched t ht)).mpr (h.spanned t ht) }

/-- A long signal, and a stop two points below on the bar of the entry. -/
def stoppedOut : List Bar :=
  [{ open? := some 100, high? := some 101, low? := some 99, close? := some 100, longSignal := true },
   { open? := some 100, high? := some 101, low? := some 97, close? := some 98 }]

def twoPointStop : Settings where
  exits := { stopMode := .points, stopValue := 2 }
  costs := { slippageBps := 0 }

/-- A short signal while long, then a bar without a close, then one with all prices. -/
def gapInData : List Bar :=
  [{ open? := some 100, high? := some 101, low? := some 99, close? := some 100, longSignal := true },
   { open? := some 100, high? := some 101, low? := some 99, close? := some 100 },
   { open? := some 100, high? := some 101, low? := some 99, close? := some 100, shortSignal := true },
   { open? := some 100, high? := some 101, low? := some 99, close? := none },
   { open? := some 90, high? := some 91, low? := some 89, close? := some 90 }]

/-- The stopped trade reports no adverse excursion, and the queued exit never comes. -/
theorem excursion_and_exit_lost :
    ¬ExitsPessimistic stoppedOut twoPointStop ∧ ¬ExitsPessimistic gapInData {} := by
  constructor
  · intro h
    have hcover : ∀ t ∈ (simulate twoPointStop stoppedOut).trades,
        t.closing.position.adverse t.closing.referencePrice ≤ t.closing.position.mae :=
      fun t ht => (h.excursions t ht).mae
    revert hcover
    decide +kernel
  · intro h
    have hqueued : ∃ p, QueuesExit gapInData {} 2 p := by
      have hstate : ((before {} gapInData 3).position.isSome ∧
          (before {} gapInData 3).pendingExit = some (2, .oppositeSignal)) := by
        decide +kernel
      obtain ⟨p, hp⟩ := Option.isSome_iff_exists.mp hstate.1
      exact ⟨p, hp, hstate.2⟩
    obtain ⟨p, hp⟩ := hqueued
    have hnext : NextComplete gapInData 2 4 ⟨90, 91, 89, 90⟩ := by
      refine ⟨by decide, by decide +kernel, fun k hk hlt => ?_⟩
      obtain rfl : k = 3 := by omega
      rfl
    obtain ⟨t, ht, -, -, hreason, -⟩ := h.queued 2 p hp 4 _ hnext
    have hnone : ∀ t ∈ (simulate {} gapInData).trades, t.exitReason ≠ .oppositeSignal := by
      decide +kernel
    exact hnone t ht hreason

end Run

end Droid.Research
