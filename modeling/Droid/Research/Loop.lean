import Droid.Research.Backtest

/-! What every turn of the backtest loop keeps: one position at a time, closes booked in order, and
an equity that is the last reported one. -/
namespace Droid.Research
open Lib

section
variable (cfg : Settings)

def lastEquity (trades : List Trade) : ℚ :=
  (trades.getLast?.map Trade.equityAfter).getD cfg.execution.initialCapital

structure Held (trades : List Trade) (p : Position) : Prop where
  after : ∀ u ∈ trades, u.exitIndex < p.entryIndex
  equity : p.equityBefore = lastEquity cfg trades
  quantity : p.quantity = sized cfg p.equityBefore p.entryPrice
  price : p.entryPrice = cfg.costs.fillPrice p.entryReference p.side.entryLeg

/-- The trades of a run: each closes a position held against the ones before it. -/
inductive Booked : List Trade → Prop where
  | nil : Booked []
  | close {trades : List Trade} {p : Position} (index : Nat) (time : Option String) (price : ℚ)
      (reason : ExitReason) (booked : Booked trades) (held : Held cfg trades p)
      (opened : p.entryIndex ≤ index) :
      Booked (trades ++ [closePosition cfg p index time price reason])

theorem lastEquity_concat (trades : List Trade) (t : Trade) :
    lastEquity cfg (trades ++ [t]) = t.equityAfter := by
  simp [lastEquity]

/-- Within bar `i`, over the trades `old` from before it. -/
structure Turned (old : List Trade) (i : Nat) (t : State × Bool) : Prop where
  booked : Booked cfg t.1.trades
  equity : t.1.equity = lastEquity cfg t.1.trades
  added : ∃ new, t.1.trades = old ++ new ∧ (∀ u ∈ new, u.exitIndex = i) ∧ (t.2 = false → new = [])
  past : ∀ u ∈ old, u.exitIndex < i
  exited : t.2 = true → t.1.position = none
  held : ∀ p, t.1.position = some p → p.entryIndex ≤ i ∧ Held cfg t.1.trades p ∧
    t.1.pendingEntry = none

/-- Before bar `i`. -/
structure Ready (i : Nat) (s : State) : Prop where
  booked : Booked cfg s.trades
  equity : s.equity = lastEquity cfg s.trades
  past : ∀ u ∈ s.trades, u.exitIndex < i
  held : ∀ p, s.position = some p → p.entryIndex < i ∧ Held cfg s.trades p ∧ s.pendingEntry = none

variable {cfg}

theorem Ready.turned {i : Nat} {s : State} (h : Ready cfg i s) : Turned cfg s.trades i (s, false) where
  booked := h.booked
  equity := h.equity
  added := ⟨[], by simp, by simp, fun _ => rfl⟩
  past := h.past
  exited := by simp
  held := fun p hp => ⟨(h.held p hp).1.le, (h.held p hp).2⟩

namespace Turned
variable {old : List Trade} {i : Nat} {t : State × Bool}

theorem open_trades (h : Turned cfg old i t) {p : Position} (hp : t.1.position = some p) :
    t.1.trades = old := by
  obtain ⟨new, hnew, -, hnone⟩ := h.added
  have hopen : t.2 = false := by
    by_contra hx
    rw [h.exited (by simpa using hx)] at hp
    cases hp
  rw [hnew, hnone hopen, List.append_nil]

theorem close (h : Turned cfg old i t) {p : Position} (hp : t.1.position = some p)
    (time : Option String) (price : ℚ) (reason : ExitReason) (pendingExit : Option (Nat × ExitReason)) :
    Turned cfg old i ({ t.1.close cfg p i time price reason with pendingExit }, true) := by
  obtain ⟨hentry, hheld, -⟩ := h.held p hp
  have hold := h.open_trades hp
  refine ⟨.close i time price reason h.booked hheld hentry, (lastEquity_concat cfg _ _).symm,
    ⟨[closePosition cfg p i time price reason], ?_, ?_, by simp⟩, h.past, fun _ => rfl,
    fun q hq => by cases hq⟩
  · rw [← hold]
    rfl
  · intro u hu
    rw [List.mem_singleton.mp hu]
    rfl

theorem enter (h : Turned cfg old i t) (hflat : t.2 = false) {p : Position} (hentry : p.entryIndex = i)
    (hequity : p.equityBefore = t.1.equity)
    (hquantity : p.quantity = sized cfg p.equityBefore p.entryPrice)
    (hprice : p.entryPrice = cfg.costs.fillPrice p.entryReference p.side.entryLeg) :
    Turned cfg old i ({ t.1 with position := some p, pendingEntry := none }, t.2) := by
  refine ⟨h.booked, h.equity, h.added, h.past, ?_, ?_⟩
  · intro hx
    rw [hflat] at hx
    cases hx
  · rintro _ ⟨⟩
    obtain ⟨new, hnew, -, hnone⟩ := h.added
    refine ⟨hentry.le, ⟨fun u hu => ?_, hequity.trans h.equity, hquantity, hprice⟩, rfl⟩
    rw [hentry]
    apply h.past u
    have : u ∈ old ++ new := hnew ▸ hu
    rwa [hnone hflat, List.append_nil] at this

theorem same (h : Turned cfg old i t) {s : State} (htrades : s.trades = t.1.trades)
    (hequity : s.equity = t.1.equity) (hposition : s.position = t.1.position)
    (hpending : s.pendingEntry = t.1.pendingEntry ∨ s.position = none) :
    Turned cfg old i (s, t.2) where
  booked := htrades ▸ h.booked
  equity := by rw [hequity, htrades, h.equity]
  added := htrades ▸ h.added
  past := h.past
  exited := fun hx => hposition ▸ h.exited hx
  held := by
    intro p hp
    obtain ⟨h1, h2, h3⟩ := h.held p (hposition ▸ hp)
    refine ⟨h1, htrades ▸ h2, ?_⟩
    rcases hpending with hs | hs
    · rw [hs, h3]
    · rw [hs] at hp
      cases hp

theorem ready (h : Turned cfg old i t) : Ready cfg (i + 1) t.1 where
  booked := h.booked
  equity := h.equity
  past := by
    intro u hu
    obtain ⟨new, hnew, hat, -⟩ := h.added
    rw [hnew] at hu
    rcases List.mem_append.mp hu with hu | hu
    · exact Nat.lt_succ_of_lt (h.past u hu)
    · rw [hat u hu]
      exact Nat.lt_succ_self i
  held := fun p hp => ⟨Nat.lt_succ_of_le (h.held p hp).1, (h.held p hp).2⟩

end Turned

/-! The phases of a turn. -/

section
variable (bars : List Bar) (bar : Bar) {i : Nat} {old : List Trade}

/-- Without a queued entry beside it, a position keeps the entry phase out. -/
theorem fillPendingExit_turned {s : State} (h : Ready cfg i s) :
    Turned cfg s.trades i (fillPendingExit cfg bar i s) ∧
      ((fillPendingExit cfg bar i s).2 = true → (fillPendingExit cfg bar i s).1.pendingEntry = none) := by
  have ht := h.turned
  unfold fillPendingExit
  cases hp : s.position with
  | none => exact ⟨ht, fun hx => by cases hx⟩
  | some p =>
    cases hq : s.pendingExit with
    | none => exact ⟨ht, fun hx => by cases hx⟩
    | some queued =>
      obtain ⟨j, reason⟩ := queued
      dsimp only
      split
      · cases bar.prices with
        | none =>
          exact ⟨ht.same rfl rfl hp.symm (Or.inl rfl), fun hx => by cases hx⟩
        | some prices =>
          exact ⟨ht.close hp bar.time prices.o reason none, fun _ => (h.held p hp).2.2⟩
      · exact ⟨ht, fun hx => by cases hx⟩

theorem entryFill_spec {s : State} {p : Position} (h : entryFill cfg bars bar i s = some p) :
    p.entryIndex = i ∧ p.equityBefore = s.equity ∧
      p.quantity = sized cfg p.equityBefore p.entryPrice ∧
      p.entryPrice = cfg.costs.fillPrice p.entryReference p.side.entryLeg := by
  unfold entryFill at h
  split at h
  · split at h
    · obtain rfl := Option.some.inj h
      exact ⟨rfl, rfl, rfl, rfl⟩
    · cases h
  · cases h

theorem fillPendingEntry_turned {t : State × Bool} (h : Turned cfg old i t)
    (hdue : t.2 = true → t.1.pendingEntry = none) :
    Turned cfg old i (fillPendingEntry cfg bars bar i t) := by
  unfold fillPendingEntry
  split
  · rename_i hd
    have hflat : t.2 = false := by
      by_contra hx
      rw [dueEntry, hdue (by simpa using hx)] at hd
      revert hd
      cases t.1.position <;> simp
    cases hf : entryFill cfg bars bar i t.1 with
    | none =>
      have hnone : t.1.position = none := by
        unfold dueEntry at hd
        cases hp : t.1.position with
        | none => rfl
        | some p =>
          rw [hp] at hd
          cases hd
      exact h.same rfl rfl hnone.symm (Or.inr rfl)
    | some p =>
      obtain ⟨h1, h2, h3, h4⟩ := entryFill_spec bars bar hf
      exact h.enter hflat h1 h2 h3 h4
  · exact h

theorem takePriceExit_turned {t : State × Bool} (h : Turned cfg old i t) :
    Turned cfg old i (takePriceExit cfg bar i t) := by
  unfold takePriceExit
  cases hp : t.1.position with
  | none => exact h
  | some p =>
    cases bar.prices with
    | none => exact h
    | some prices =>
      dsimp only
      split
      · rename_i price reason _
        exact h.close hp bar.time price reason t.1.pendingExit
      · exact h

theorem readSignals_turned {t : State × Bool} (h : Turned cfg old i t) :
    Turned cfg old i (readSignals cfg bars bar i t) := by
  unfold readSignals
  split
  · rename_i prices side hnone hflat _ _
    split
    · split
      · exact h.same rfl rfl rfl (Or.inr hnone)
      · exact h
    · exact h.enter hflat rfl rfl rfl rfl
  · exact h

theorem queueOppositeExit_turned {t : State × Bool} (h : Turned cfg old i t) :
    Turned cfg old i (queueOppositeExit cfg bar i t) := by
  unfold queueOppositeExit
  split
  · rename_i p _
    cases p.side
    · dsimp only
      split
      · exact h.same rfl rfl rfl (Or.inl rfl)
      · exact h
    · dsimp only
      split
      · exact h.same rfl rfl rfl (Or.inl rfl)
      · exact h
  · exact h

theorem trackExcursions_turned {t : State × Bool} (h : Turned cfg old i t) :
    Turned cfg old i (trackExcursions bar i t) := by
  unfold trackExcursions
  cases hp : t.1.position with
  | none => exact h
  | some p =>
    cases bar.prices with
    | none => exact h
    | some prices =>
      dsimp only
      split
      · obtain ⟨h1, h2, h3⟩ := h.held p hp
        refine ⟨h.booked, h.equity, h.added, h.past, ?_, ?_⟩
        · intro hx
          rw [h.exited hx] at hp
          cases hp
        · rintro _ ⟨⟩
          have hprice := h2.price
          cases hside : p.side with
          | long =>
            rw [hside] at hprice
            exact ⟨h1, ⟨h2.after, h2.equity, h2.quantity, hprice⟩, h3⟩
          | short =>
            rw [hside] at hprice
            exact ⟨h1, ⟨h2.after, h2.equity, h2.quantity, hprice⟩, h3⟩
      · exact h

theorem barTurn_turned {s : State} (h : Ready cfg i s) :
    ∃ flag, Turned cfg s.trades i (barTurn cfg bars bar i s, flag) := by
  obtain ⟨h0, hdue⟩ := fillPendingExit_turned bar h
  have h1 := fillPendingEntry_turned bars bar h0 hdue
  have h2 := takePriceExit_turned bar h1
  have h3 := readSignals_turned bars bar h2
  have h4 := queueOppositeExit_turned bar h3
  have h5 := trackExcursions_turned bar h4
  exact ⟨_, h5.same rfl rfl rfl (Or.inl rfl)⟩

end

theorem start_ready : Ready cfg 0 (start cfg) where
  booked := .nil
  equity := rfl
  past := fun u hu => absurd hu List.not_mem_nil
  held := fun p hp => by cases hp

theorem before_succ (bars : List Bar) (i : Nat) :
    before cfg bars (i + 1) = step cfg bars (before cfg bars i) i := by
  rw [before, List.range_succ, List.foldl_append]
  rfl

/-- Every bar of the run is reached ready. -/
theorem before_ready (cfg : Settings) (bars : List Bar) (i : Nat) : Ready cfg i (before cfg bars i) := by
  induction i with
  | zero => exact start_ready
  | succ i ih =>
    rw [before_succ, step]
    split
    · obtain ⟨flag, h⟩ := barTurn_turned bars _ ih
      exact h.ready
    · exact ⟨ih.booked, ih.equity, fun u hu => Nat.lt_succ_of_lt (ih.past u hu),
        fun p hp => ⟨Nat.lt_succ_of_lt (ih.held p hp).1, (ih.held p hp).2⟩⟩

/-- A turn appends the trades it closes, all at its own bar. -/
theorem before_trades (cfg : Settings) (bars : List Bar) (i : Nat) :
    ∃ new, (before cfg bars (i + 1)).trades = (before cfg bars i).trades ++ new ∧
      ∀ u ∈ new, u.exitIndex = i := by
  rw [before_succ, step]
  split
  · obtain ⟨flag, h⟩ := barTurn_turned bars _ (before_ready cfg bars i)
    obtain ⟨new, hnew, hat, -⟩ := h.added
    exact ⟨new, hnew, hat⟩
  · exact ⟨[], by simp, by simp⟩

/-- Trades stay as they were booked. -/
theorem before_extends (cfg : Settings) (bars : List Bar) {m k : Nat} (h : m ≤ k) :
    ∃ new, (before cfg bars k).trades = (before cfg bars m).trades ++ new ∧
      ∀ u ∈ new, m ≤ u.exitIndex := by
  induction k, h using Nat.le_induction with
  | base => exact ⟨[], by simp, by simp⟩
  | succ k hk ih =>
    obtain ⟨new, hnew, hat⟩ := ih
    obtain ⟨more, hmore, hmoreAt⟩ := before_trades cfg bars k
    refine ⟨new ++ more, by rw [hmore, hnew, List.append_assoc], ?_⟩
    intro u hu
    rcases List.mem_append.mp hu with hu | hu
    · exact hat u hu
    · rw [hmoreAt u hu]
      exact hk

theorem mem_numbered {trades : List Trade} {t : Trade} (h : t ∈ numbered trades) :
    ∃ u ∈ trades, ∃ k, t = { u with tradeId := k } := by
  obtain ⟨k, hk, rfl⟩ := List.mem_mapIdx.mp h
  exact ⟨_, List.getElem_mem hk, _, rfl⟩

end

end Droid.Research
