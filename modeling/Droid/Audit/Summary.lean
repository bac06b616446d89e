import Droid.Audit.Ledger
import Droid.Signals.OutcomeMetrics
import Droid.Signals.OutcomeTracker
import Droid.Lib.Tally

/-! The summary of the ledger: headline figures over two lists of statuses, breakdowns over all trades. -/
namespace Droid.Audit
open Lib Signals Paper

/-- The statuses that the summary takes for the end of a trade. -/
def closedStatuses : List String :=
  ["WON", "LOST", "CLOSED", "TARGET_2_HIT", "STOP_LOSS_HIT", "RUNNER_TIME_STOP_HIT", "TIME_STOP_HIT"]

def winningStatuses : List String := ["TARGET_1_HIT", "TARGET_2_HIT", "WON", "RUNNER_TIME_STOP_HIT"]

def losingStatuses : List String := ["STOP_LOSS_HIT", "LOST", "TIME_STOP_HIT"]

namespace AuditTradeRecord
variable (t : AuditTradeRecord)

def counted : Bool := ¬ excludedId t.signalId ∧ t.status ≠ "VOID"

def realized : ℚ := t.actualPnlInr.getD 0

def unrealized : ℚ := t.unrealizedPnlInr.getD 0

/-- The verdict, or without one the status or a realized gain. -/
def tradeIsWinner : Bool :=
  match t.isWinner with
  | some verdict => verdict
  | none => t.status ∈ winningStatuses ∨ 0 < t.realized

def tradeIsLoser : Bool :=
  match t.isWinner with
  | some verdict => !verdict
  | none => t.status ∈ losingStatuses ∨ t.realized < 0

/-- What a trade contributes to the breakdowns: the realized result, or without one the running one. -/
def breakdownPnl : ℚ := t.actualPnlInr.getD t.unrealized

/-- The capital of an open trade; an option without a premium fill has none. -/
def activeExposure (cents : ℚ → ℚ) : ℚ :=
  if t.isOption then
    (t.actualFillPrice.filter (· ≤ spotThreshold)).elim 0 fun price => cents (price * t.tradeQty)
  else cents (orElse t.actualFillPrice t.triggerPrice * t.tradeQty)

end AuditTradeRecord

structure SummaryEntry where
  total : Int := 0
  wins : Int := 0
  losses : Int := 0
  netPnl : ℚ := 0
  winRate : ℚ := 0
  deriving DecidableEq, Repr

def SummaryEntry.add (cents : ℚ → ℚ) (entry : SummaryEntry) (t : AuditTradeRecord) : SummaryEntry :=
  { entry with
    total := entry.total + 1
    wins := if t.tradeIsWinner then entry.wins + 1 else entry.wins
    losses := if ¬ t.tradeIsWinner ∧ t.tradeIsLoser then entry.losses + 1 else entry.losses
    netPnl := cents (entry.netPnl + t.breakdownPnl) }

def percentOf (part whole : Int) : ℚ := if 0 < whole then roundTo 1 (part / whole * 100) else 0

def SummaryEntry.rated (entry : SummaryEntry) : SummaryEntry :=
  { entry with winRate := percentOf entry.wins (entry.wins + entry.losses) }

/-- The trades by strategy or underlying, in order of first occurrence. -/
def breakdown (cents : ℚ → ℚ) (key : AuditTradeRecord → String) (trades : List AuditTradeRecord) :
    Dict String SummaryEntry :=
  (tally key { } (SummaryEntry.add cents) trades).mapValues fun _ => SummaryEntry.rated

structure SummaryMetrics where
  totalSignalsAudited : Nat
  openTrades : Nat
  closedTrades : Nat
  winningTrades : Nat
  losingTrades : Nat
  winRatePct : ℚ
  netRealizedPnlInr : ℚ
  netUnrealizedPnlInr : ℚ
  totalPnlInr : ℚ
  liveWinningTrades : Nat
  liveLosingTrades : Nat
  totalActiveExposureInr : ℚ
  grossProfitInr : ℚ
  grossLossInr : ℚ
  profitFactor : ℚ
  maxWinInr : ℚ
  maxLossInr : ℚ
  avgTradePnlInr : ℚ
  avgHoldingTimeSeconds : ℚ
  strategyBreakdown : Dict String SummaryEntry
  underlyingBreakdown : Dict String SummaryEntry

def countedTrades (ledger : Ledger) : List AuditTradeRecord := ledger.values.filter (·.counted)

def closedTrades (ledger : Ledger) : List AuditTradeRecord :=
  (countedTrades ledger).filter (·.status ∈ closedStatuses)

def openTrades (ledger : Ledger) : List AuditTradeRecord :=
  (countedTrades ledger).filter (·.status ∈ liveStatuses)

/-- The summary, with what rounds an amount to cents as a parameter. -/
def summaryMetrics (cents : ℚ → ℚ) (ledger : Ledger) : SummaryMetrics :=
  let all := countedTrades ledger
  let closed := closedTrades ledger
  let opened := openTrades ledger
  let winners := closed.filter (·.tradeIsWinner)
  let losers := closed.filter (·.tradeIsLoser)
  let netRealized := cents (closed.map (·.realized)).sum
  let netUnrealized := cents (opened.map (·.unrealized)).sum
  let grossProfit := cents (winners.map (·.realized)).sum
  let grossLoss := cents |(losers.map (·.realized)).sum|
  let executed := all.filter (·.status ∈ ["EXECUTED", "TARGET_1_HIT", "TRIGGERED"])
  { totalSignalsAudited := all.length
    openTrades := opened.length
    closedTrades := closed.length
    winningTrades := winners.length
    losingTrades := losers.length
    winRatePct := percentOf winners.length closed.length
    netRealizedPnlInr := netRealized
    netUnrealizedPnlInr := netUnrealized
    totalPnlInr := cents (netRealized + netUnrealized)
    liveWinningTrades := opened.countP (0 < ·.unrealized)
    liveLosingTrades := opened.countP (·.unrealized < 0)
    totalActiveExposureInr := cents (executed.map (·.activeExposure cents)).sum
    grossProfitInr := grossProfit
    grossLossInr := grossLoss
    profitFactor :=
      if 0 < grossLoss then cents (grossProfit / grossLoss) else if 0 < grossProfit then grossProfit else 1
    maxWinInr := (winners.map (·.realized)).max?.getD 0
    maxLossInr := (losers.map (·.realized)).min?.getD 0
    avgTradePnlInr := if closed = [] then 0 else cents (netRealized / closed.length)
    avgHoldingTimeSeconds :=
      if closed = [] then 0
      else roundTo 0 (((closed.map (·.holdingTimeSeconds.getD 0)).sum : Int) / closed.length)
    strategyBreakdown := breakdown cents (·.strategy) all
    underlyingBreakdown := breakdown cents (·.underlying) all }

def getSummaryMetrics (ledger : Ledger) : SummaryMetrics := summaryMetrics (roundTo 2) ledger

def exactMetrics (ledger : Ledger) : SummaryMetrics := summaryMetrics id ledger

def netOver (entries : Dict String SummaryEntry) : ℚ := entries.sum fun _ e => e.netPnl

def winsOver (entries : Dict String SummaryEntry) : Int := entries.sum fun _ e => e.wins

def lossesOver (entries : Dict String SummaryEntry) : Int := entries.sum fun _ e => e.losses

/-- Every counted trade is open or closed and not both, both breakdowns come to the headline result before
amounts are rounded, and over the closed trades their wins and losses are the headline ones. -/
structure AddsUp (ledger : Ledger) : Prop where
  partition : ∀ t ∈ countedTrades ledger, Xor (t ∈ openTrades ledger) (t ∈ closedTrades ledger)
  strategies : netOver (exactMetrics ledger).strategyBreakdown = (exactMetrics ledger).totalPnlInr
  underlyings : netOver (exactMetrics ledger).underlyingBreakdown = (exactMetrics ledger).totalPnlInr
  wins : winsOver (breakdown (roundTo 2) (·.strategy) (closedTrades ledger)) =
    (getSummaryMetrics ledger).winningTrades
  losses : lossesOver (breakdown (roundTo 2) (·.strategy) (closedTrades ledger)) =
    (getSummaryMetrics ledger).losingTrades

/-- The reported results are the exact ones up to half a cent for each rounding. -/
structure Rounded (ledger : Ledger) : Prop where
  strategies : |netOver (getSummaryMetrics ledger).strategyBreakdown -
    netOver (exactMetrics ledger).strategyBreakdown| ≤ (countedTrades ledger).length * (1 / 200)
  underlyings : |netOver (getSummaryMetrics ledger).underlyingBreakdown -
    netOver (exactMetrics ledger).underlyingBreakdown| ≤ (countedTrades ledger).length * (1 / 200)
  total : |(getSummaryMetrics ledger).totalPnlInr - (exactMetrics ledger).totalPnlInr| ≤ 2 * (1 / 200)

/-- Every status is on one of the two lists; what closed trades without a realized result still show as
running makes up for what open trades have realized beyond their running result; and no closed trade
without a verdict has a result that contradicts its status. -/
structure Reconciles (ledger : Ledger) : Prop where
  statuses : ∀ t ∈ countedTrades ledger, t.status ∈ liveStatuses ∨ t.status ∈ closedStatuses
  results : (((closedTrades ledger).filter (·.actualPnlInr = none)).map (·.unrealized)).sum +
    (((openTrades ledger).filter (·.actualPnlInr ≠ none)).map fun t => t.realized - t.unrealized).sum = 0
  verdicts : ∀ t ∈ closedTrades ledger, t.isWinner = none →
    (t.status ∈ winningStatuses → 0 ≤ t.realized) ∧ (t.status ∈ losingStatuses → t.realized ≤ 0)

/-! ### Sums over the breakdowns -/

section Breakdown
variable (key : AuditTradeRecord → String) (trades : List AuditTradeRecord)

theorem netOver_breakdown (cents : ℚ → ℚ) : netOver (breakdown cents key trades) =
    (tally key { } (SummaryEntry.add cents) trades).sum fun _ e => e.netPnl := Dict.sum_mapValues _ _ _

/-- Before rounding a breakdown comes to the sum of the trades, whatever they are grouped by. -/
theorem netOver_exact : netOver (breakdown id key trades) = (trades.map (·.breakdownPnl)).sum := by
  rw [netOver_breakdown]
  exact sum_tally SummaryEntry.netPnl AuditTradeRecord.breakdownPnl rfl (fun _ _ => rfl) trades

theorem netOver_rounded : |netOver (breakdown (roundTo 2) key trades) - netOver (breakdown id key trades)| ≤
    trades.length * (1 / 200) := by
  have hadd : ∀ (e : SummaryEntry) (t : AuditTradeRecord),
      |(e.add (roundTo 2) t).netPnl - (e.netPnl + t.breakdownPnl)| ≤ 1 / 200 := by
    intro e t
    refine (abs_roundTo_sub_le 2 (e.netPnl + t.breakdownPnl)).trans_eq ?_
    norm_num
  rw [netOver_exact, netOver_breakdown]
  exact abs_sum_tally_sub_le SummaryEntry.netPnl AuditTradeRecord.breakdownPnl rfl hadd trades

private theorem sum_indicator (p : AuditTradeRecord → Bool) :
    (trades.map fun t => if p t then (1 : Int) else 0).sum = (trades.filter p).length := by
  induction trades with
  | nil => rfl
  | cons t trades ih =>
    rw [List.map_cons, List.sum_cons, ih, List.filter_cons]
    split
    · rw [List.length_cons]
      push_cast
      ring
    · exact zero_add _

theorem winsOver_breakdown (cents : ℚ → ℚ) :
    winsOver (breakdown cents key trades) = (trades.filter (·.tradeIsWinner)).length := by
  have hadd : ∀ (e : SummaryEntry) (t : AuditTradeRecord),
      (e.add cents t).wins = e.wins + if t.tradeIsWinner then 1 else 0 := by
    intro e t
    rw [SummaryEntry.add]
    split
    · rfl
    · exact (add_zero _).symm
  have hsum : (tally key ({ } : SummaryEntry) (SummaryEntry.add cents) trades).sum (fun _ e => e.wins) =
      (trades.map fun t => if t.tradeIsWinner then (1 : Int) else 0).sum :=
    sum_tally SummaryEntry.wins _ rfl hadd trades
  rw [winsOver, breakdown, Dict.sum_mapValues]
  exact hsum.trans (sum_indicator trades _)

theorem lossesOver_breakdown (cents : ℚ → ℚ) : lossesOver (breakdown cents key trades) =
    (trades.filter fun t => !t.tradeIsWinner && t.tradeIsLoser).length := by
  have hadd : ∀ (e : SummaryEntry) (t : AuditTradeRecord),
      (e.add cents t).losses = e.losses + if !t.tradeIsWinner && t.tradeIsLoser then 1 else 0 := by
    intro e t
    simp only [SummaryEntry.add]
    cases t.tradeIsWinner <;> cases t.tradeIsLoser <;> simp
  have hsum : (tally key ({ } : SummaryEntry) (SummaryEntry.add cents) trades).sum (fun _ e => e.losses) =
      (trades.map fun t => if !t.tradeIsWinner && t.tradeIsLoser then (1 : Int) else 0).sum :=
    sum_tally SummaryEntry.losses _ rfl hadd trades
  rw [lossesOver, breakdown, Dict.sum_mapValues]
  exact hsum.trans (sum_indicator trades _)

end Breakdown

/-! ### What the headline figures leave out -/

section Lists
variable {α : Type}

private theorem sum_map_filter (p : α → Bool) (f : α → ℚ) (l : List α) :
    ((l.filter p).map f).sum = (l.map fun t => if p t then f t else 0).sum := by
  induction l with
  | nil => rfl
  | cons t l ih =>
    rw [List.filter_cons, List.map_cons, List.sum_cons, ← ih]
    split
    · rw [List.map_cons, List.sum_cons]
    · exact (zero_add _).symm

private theorem sum_split {p q : α → Bool} {l : List α} (h : ∀ t ∈ l, Xor (p t = true) (q t = true))
    (f : α → ℚ) : (l.map f).sum = ((l.filter p).map f).sum + ((l.filter q).map f).sum := by
  rw [sum_map_filter, sum_map_filter, ← List.sum_map_add]
  congr 1
  refine List.map_congr_left fun t ht => ?_
  rcases h t ht with ⟨hp, hq⟩ | ⟨hq, hp⟩ <;> simp [hp, hq]

/-- A test that no item passes selects as many as one that differs only there. -/
private theorem length_filter_and_iff (p q : α → Bool) (l : List α) :
    (l.filter fun t => !p t && q t).length = (l.filter q).length ↔ ∀ t ∈ l, ¬ (p t = true ∧ q t = true) := by
  rw [← List.filter_filter]
  constructor
  · intro h t ht ⟨hp, hq⟩
    have hall := List.length_filter_eq_length_iff.mp h t (List.mem_filter.mpr ⟨ht, hq⟩)
    rw [hp] at hall
    cases hall
  · intro h
    refine List.length_filter_eq_length_iff.mpr fun t ht => ?_
    obtain ⟨ht, hq⟩ := List.mem_filter.mp ht
    cases hp : p t with
    | false => rfl
    | true => exact absurd ⟨hp, hq⟩ (h t ht)

end Lists

theorem statuses_disjoint {status : String} (h : status ∈ liveStatuses) : status ∉ closedStatuses := by
  have hall : ∀ s ∈ liveStatuses, s ∉ closedStatuses := by decide
  exact hall status h

theorem xor_open_closed_iff {ledger : Ledger} {t : AuditTradeRecord} (ht : t ∈ countedTrades ledger) :
    Xor (t ∈ openTrades ledger) (t ∈ closedTrades ledger) ↔
      t.status ∈ liveStatuses ∨ t.status ∈ closedStatuses := by
  have hopen : t ∈ openTrades ledger ↔ t.status ∈ liveStatuses := by
    simp [openTrades, ht]
  have hclosed : t ∈ closedTrades ledger ↔ t.status ∈ closedStatuses := by
    simp [closedTrades, ht]
  rw [hopen, hclosed]
  constructor
  · exact Xor.or
  · rintro (hl | hc)
    · exact Or.inl ⟨hl, statuses_disjoint hl⟩
    · exact Or.inr ⟨hc, fun hl => statuses_disjoint hl hc⟩

/-- The breakdowns exceed the headline result by what the two lists read differently. -/
theorem sum_breakdownPnl {ledger : Ledger}
    (h : ∀ t ∈ countedTrades ledger, t.status ∈ liveStatuses ∨ t.status ∈ closedStatuses) :
    ((countedTrades ledger).map (·.breakdownPnl)).sum = (exactMetrics ledger).totalPnlInr +
      ((((closedTrades ledger).filter (·.actualPnlInr = none)).map (·.unrealized)).sum +
        (((openTrades ledger).filter (·.actualPnlInr ≠ none)).map fun t => t.realized - t.unrealized).sum) := by
  have hsplit : ((countedTrades ledger).map (·.breakdownPnl)).sum =
      ((openTrades ledger).map (·.breakdownPnl)).sum + ((closedTrades ledger).map (·.breakdownPnl)).sum := by
    refine sum_split (fun t ht => ?_) _
    have hxor := (xor_open_closed_iff ht).mpr (h t ht)
    simpa [openTrades, closedTrades, ht] using hxor
  have hclosed : ((closedTrades ledger).map (·.breakdownPnl)).sum =
      ((closedTrades ledger).map (·.realized)).sum +
        (((closedTrades ledger).filter (·.actualPnlInr = none)).map (·.unrealized)).sum := by
    rw [sum_map_filter, ← List.sum_map_add]
    congr 1
    refine List.map_congr_left fun t _ => ?_
    rw [AuditTradeRecord.breakdownPnl, AuditTradeRecord.realized]
    cases t.actualPnlInr <;> simp
  have hopen : ((openTrades ledger).map (·.breakdownPnl)).sum =
      ((openTrades ledger).map (·.unrealized)).sum +
        (((openTrades ledger).filter (·.actualPnlInr ≠ none)).map fun t => t.realized - t.unrealized).sum := by
    rw [sum_map_filter, ← List.sum_map_add]
    congr 1
    refine List.map_congr_left fun t _ => ?_
    rw [AuditTradeRecord.breakdownPnl, AuditTradeRecord.realized]
    cases t.actualPnlInr <;> simp
  have htotal : (exactMetrics ledger).totalPnlInr =
      ((closedTrades ledger).map (·.realized)).sum + ((openTrades ledger).map (·.unrealized)).sum := rfl
  rw [hsplit, hopen, hclosed, htotal]
  ring

/-- A winner and loser at once has no verdict, and a result that contradicts its status. -/
theorem not_winner_and_loser_iff (t : AuditTradeRecord) :
    ¬ (t.tradeIsWinner = true ∧ t.tradeIsLoser = true) ↔ (t.isWinner = none →
      (t.status ∈ winningStatuses → 0 ≤ t.realized) ∧ (t.status ∈ losingStatuses → t.realized ≤ 0)) := by
  have hdisjoint : t.status ∈ winningStatuses → t.status ∉ losingStatuses := by
    have hall : ∀ s ∈ winningStatuses, s ∉ losingStatuses := by decide
    exact hall t.status
  cases hverdict : t.isWinner with
  | some verdict =>
    cases verdict <;> simp [AuditTradeRecord.tradeIsWinner, AuditTradeRecord.tradeIsLoser, hverdict]
  | none =>
    simp only [AuditTradeRecord.tradeIsWinner, AuditTradeRecord.tradeIsLoser, hverdict, decide_eq_true_eq,
      true_imp_iff]
    constructor
    · intro h
      exact ⟨fun hw => not_lt.mp fun hlt => h ⟨Or.inl hw, Or.inr hlt⟩,
        fun hl => not_lt.mp fun hlt => h ⟨Or.inr hlt, Or.inl hl⟩⟩
    · rintro ⟨hwin, hlose⟩ ⟨hw | hgain, hl | hloss⟩
      · exact hdisjoint hw hl
      · exact absurd (hwin hw) (not_le.mpr hloss)
      · exact absurd (hlose hl) (not_le.mpr hgain)
      · exact absurd hgain (not_lt.mpr hloss.le)

/-! ### When the summary adds up -/

theorem summary_rounded (ledger : Ledger) : Rounded ledger := by
  refine ⟨netOver_rounded _ _, netOver_rounded _ _, ?_⟩
  have hrealized := abs_le.mp (abs_roundTo_sub_le 2 ((closedTrades ledger).map (·.realized)).sum)
  have hunrealized := abs_le.mp (abs_roundTo_sub_le 2 ((openTrades ledger).map (·.unrealized)).sum)
  have hreported : (getSummaryMetrics ledger).totalPnlInr =
      roundTo 2 ((closedTrades ledger).map (·.realized)).sum +
        roundTo 2 ((openTrades ledger).map (·.unrealized)).sum :=
    ((isDecimal_roundTo 2 _).add (isDecimal_roundTo 2 _)).roundTo_eq
  have hexact : (exactMetrics ledger).totalPnlInr =
      ((closedTrades ledger).map (·.realized)).sum + ((openTrades ledger).map (·.unrealized)).sum := rfl
  rw [hreported, hexact, abs_le]
  norm_num at hrealized hunrealized ⊢
  constructor <;> linarith

/-- The summary adds up exactly when no status escapes its lists, the fallbacks of the breakdowns cancel
and no verdict is missing where status and result disagree; rounding is never to blame. -/
theorem summary_addsUp_iff (ledger : Ledger) :
    (AddsUp ledger ↔ Reconciles ledger) ∧ Rounded ledger := by
  have hpartition : (∀ t ∈ countedTrades ledger, Xor (t ∈ openTrades ledger) (t ∈ closedTrades ledger)) ↔
      ∀ t ∈ countedTrades ledger, t.status ∈ liveStatuses ∨ t.status ∈ closedStatuses :=
    forall₂_congr fun t ht => xor_open_closed_iff ht
  have hwins : winsOver (breakdown (roundTo 2) (·.strategy) (closedTrades ledger)) =
      (getSummaryMetrics ledger).winningTrades := winsOver_breakdown _ _ _
  have hlosses : lossesOver (breakdown (roundTo 2) (·.strategy) (closedTrades ledger)) =
      (getSummaryMetrics ledger).losingTrades ↔ ∀ t ∈ closedTrades ledger, t.isWinner = none →
        (t.status ∈ winningStatuses → 0 ≤ t.realized) ∧ (t.status ∈ losingStatuses → t.realized ≤ 0) := by
    rw [lossesOver_breakdown]
    have hlosing : (getSummaryMetrics ledger).losingTrades =
        ((closedTrades ledger).filter (·.tradeIsLoser)).length := rfl
    rw [hlosing, Int.ofNat_inj, length_filter_and_iff]
    exact forall₂_congr fun t _ => not_winner_and_loser_iff t
  have hstrategies : netOver (exactMetrics ledger).strategyBreakdown =
      ((countedTrades ledger).map (·.breakdownPnl)).sum := netOver_exact _ _
  have hunderlyings : netOver (exactMetrics ledger).underlyingBreakdown =
      ((countedTrades ledger).map (·.breakdownPnl)).sum := netOver_exact _ _
  refine ⟨⟨fun h => ?_, fun h => ?_⟩, summary_rounded ledger⟩
  · have hstatuses := hpartition.mp h.partition
    have hsum := hstrategies.symm.trans h.strategies
    rw [sum_breakdownPnl hstatuses, add_eq_left] at hsum
    exact ⟨hstatuses, hsum, hlosses.mp h.losses⟩
  · have hsum := sum_breakdownPnl h.statuses
    rw [h.results, add_zero] at hsum
    exact ⟨hpartition.mpr h.statuses, hstrategies.trans hsum, hunderlyings.trans hsum, hwins,
      hlosses.mpr h.verdicts⟩

/-- The statuses that the writers of the ledger can leave: its own, and the names of the states. -/
def Written (status : String) : Prop :=
  status ∈ ["ARMED", "CONFIRMED", "EXECUTED", "WON", "LOST", "CLOSED", "VOID"] ∨
    ∃ state : SignalFsmState, status = state.label

/-- A signal registered while armed, which then expires. -/
def expiredLedger : Ledger :=
  (Ledger.recordSignalCreated Dict.empty 0
    { signalId := "s1", underlying := "NIFTY", strategy := "ORB", direction := "LONG_CALL"
      spotPrice := 25000, trigger := 25010 }).recordStateTransition 300000 "s1" "EXPIRED" none "TTL"

/-- The expired trade is counted, and neither open nor closed. -/
theorem expired_not_addsUp :
    ¬ ∀ ledger : Ledger, (∀ t ∈ ledger.values, Written t.status) → AddsUp ledger := by
  intro hall
  have hstatus : expiredLedger.values.map (·.status) = ["EXPIRED"] := by decide +kernel
  have hwritten : ∀ t ∈ expiredLedger.values, Written t.status := by
    intro t ht
    have hmem := List.mem_map_of_mem (f := (·.status)) ht
    rw [hstatus, List.mem_singleton] at hmem
    exact Or.inr ⟨.expired, hmem⟩
  have hcounted : (countedTrades expiredLedger).map (·.status) = ["EXPIRED"] := by decide +kernel
  obtain ⟨t, ht, htstatus⟩ := List.mem_map.mp (hcounted ▸ List.mem_singleton_self "EXPIRED")
  have hxor := (xor_open_closed_iff ht).mp ((hall expiredLedger hwritten).partition t ht)
  rw [htstatus] at hxor
  revert hxor
  decide

end Droid.Audit
