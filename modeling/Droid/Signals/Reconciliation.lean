import Droid.Lib.Run
import Droid.Signals.FillReconciler

/-! Runs of the reconciler's calls for one signal: the exit fills add up to what the record says. -/
namespace Droid.Signals
open Lib

/-- A signal with the record that the reconciler has of it. -/
structure Reconciliation where
  sig : SignalInstance
  record : Option FillReconciliationRecord := none

inductive ReconcilerCall where
  | entry (now : Int) (fillPrice : ℚ) (quantity : Int) (lotSize : Option Int)
  | target1 (now : Int) (exitFillPrice : ℚ)
  | final (now : Int) (exitFillPrice : ℚ) (exitReason : String)

/-- An exit at a price that is no index level. -/
def ReconcilerCall.PremiumExit : ReconcilerCall → Prop
  | .entry .. => False
  | .target1 _ exitFillPrice | .final _ exitFillPrice _ => exitFillPrice ≤ spotThreshold

namespace Reconciliation

def step (s : Reconciliation) : ReconcilerCall → Reconciliation
  | .entry now fillPrice quantity lotSize =>
    let (sig, record, _) := reconcileEntry now s.sig fillPrice quantity lotSize
    { sig, record }
  | .target1 now exitFillPrice =>
    let (sig, record) := reconcileT1Exit now s.sig s.record exitFillPrice
    { sig, record }
  | .final now exitFillPrice exitReason =>
    let (sig, record) := reconcileFinalExit now s.sig s.record exitFillPrice exitReason
    { sig, record }

def remaining (s : Reconciliation) : Int := (s.record.map (·.remainingQty)).getD 0

end Reconciliation

namespace FillReconciliationRecord

/-- The fills after the entry's. -/
def exitFills (record : FillReconciliationRecord) : List OptionStageFill := record.fills.tail

/-- The exit fills of an entry account for the record and its signal. -/
structure Conserved (fillPrice : ℚ) (quantity : Int) (sig : SignalInstance)
    (record : FillReconciliationRecord) : Prop where
  split : (record.exitFills.map (·.quantity)).sum + record.remainingQty = quantity
  nonneg : 0 ≤ record.remainingQty
  signal : sig.remainingQty = record.remainingQty
  turnover : ∀ f ∈ record.exitFills, f.turnover = roundTo 2 (f.price * f.quantity)
  gross : record.grossRealizedPnl =
    (record.exitFills.map fun f => f.turnover - roundTo 2 (fillPrice * f.quantity)).sum
  grossError : |record.grossRealizedPnl -
    (record.exitFills.map fun f => f.turnover - fillPrice * f.quantity).sum| ≤
      record.exitFills.length * (1 / 200)
  costs : record.totalStatutoryCosts = (record.exitFills.map (·.totalCost)).sum
  net : record.netRealizedPnlInr = record.grossRealizedPnl - record.totalStatutoryCosts
  results : record.netRealizedPnlInr = (record.exitFills.map (·.realizedPnlInr)).sum

/-- The account with what it rests on: the entry is there at its premium, and the sums are in cents. -/
structure Balanced (fillPrice : ℚ) (quantity : Int) (sig : SignalInstance)
    (record : FillReconciliationRecord) : Prop extends Conserved fillPrice quantity sig record where
  price : record.entryFillPrice = fillPrice
  premium : fillPrice ≤ spotThreshold
  filled : record.fills ≠ []
  grossCents : IsDecimal 2 record.grossRealizedPnl
  costCents : IsDecimal 2 record.totalStatutoryCosts
  netCents : IsDecimal 2 record.netRealizedPnlInr

variable {fillPrice : ℚ} {quantity : Int} {sig sig' : SignalInstance} {record record' : FillReconciliationRecord}

theorem book_cents (hgross : IsDecimal 2 record.grossRealizedPnl) (hcosts : IsDecimal 2 record.totalStatutoryCosts)
    (hnet : IsDecimal 2 record.netRealizedPnlInr) (stage : Stage) (closed : Int) (price : ℚ) (now : Int) :
    ∃ fill : OptionStageFill, fill.stage = stage ∧ fill.price = price ∧ fill.quantity = closed ∧
      fill.turnover = roundTo 2 (price * closed) ∧ IsDecimal 2 fill.totalCost ∧
      fill.realizedPnlInr = fill.turnover - roundTo 2 (record.entryFillPrice * closed) - fill.totalCost ∧
      (record.book stage closed price now).1.ledger =
        (record.entryFillPrice, record.fills ++ [fill],
          record.grossRealizedPnl + (fill.turnover - roundTo 2 (record.entryFillPrice * closed)),
          record.totalStatutoryCosts + fill.totalCost, record.netRealizedPnlInr + fill.realizedPnlInr) := by
  have hbuy := isDecimal_roundTo 2 (record.entryFillPrice * closed)
  have hsell := isDecimal_roundTo 2 (price * closed)
  have hcost : IsDecimal 2 (Paper.calculateOptionCosts (roundTo 2 (record.entryFillPrice * closed))
      (roundTo 2 (price * closed)) 2) := isDecimal_roundTo 2 _
  have hstageGross := hsell.sub hbuy
  have hstageNet := hstageGross.sub hcost
  refine ⟨{ stage, price, quantity := closed, timestampUtc := now, turnover := roundTo 2 (price * closed)
            totalCost := Paper.calculateOptionCosts (roundTo 2 (record.entryFillPrice * closed))
              (roundTo 2 (price * closed)) 2
            realizedPnlInr := roundTo 2 (price * closed) - roundTo 2 (record.entryFillPrice * closed) -
              Paper.calculateOptionCosts (roundTo 2 (record.entryFillPrice * closed))
                (roundTo 2 (price * closed)) 2 }, rfl, rfl, rfl, rfl, hcost, rfl, ?_⟩
  simp only [ledger, book, hstageGross.roundTo_eq, hstageNet.roundTo_eq, (hgross.add hstageGross).roundTo_eq,
    (hcosts.add hcost).roundTo_eq, (hnet.add hstageNet).roundTo_eq]

private theorem sum_map_concat {α M : Type} [AddMonoid M] (g : α → M) (l : List α) (a : α) :
    ((l ++ [a]).map g).sum = (l.map g).sum + g a := by
  rw [List.map_append, List.sum_append, List.map_singleton, List.sum_singleton]

theorem Balanced.booked (h : Balanced fillPrice quantity sig record) {stage : Stage} {closed : Int}
    (hle : closed ≤ record.remainingQty) {price : ℚ} {now : Int}
    (hledger : record'.ledger = (record.book stage closed price now).1.ledger)
    (hremaining : record'.remainingQty = record.remainingQty - closed)
    (hsig : sig'.remainingQty = record'.remainingQty) : Balanced fillPrice quantity sig' record' := by
  obtain ⟨fill, -, hprice, hquantity, hturnover, hcost, hresult, hbook⟩ :=
    book_cents h.grossCents h.costCents h.netCents stage closed price now
  rw [hbook, h.price] at hledger
  rw [h.price] at hresult
  simp only [ledger, Prod.mk.injEq] at hledger
  obtain ⟨hentry, hfills, hgross, hcosts, hnet⟩ := hledger
  have hexits : record'.exitFills = record.exitFills ++ [fill] := by
    rw [exitFills, hfills, List.tail_append_of_ne_nil h.filled]
    rfl
  have hbuy := isDecimal_roundTo 2 (fillPrice * closed)
  have hturnoverCents : IsDecimal 2 fill.turnover := by
    rw [hturnover]
    exact isDecimal_roundTo 2 _
  have hround := abs_roundTo_sub_le 2 (fillPrice * closed)
  have herror := h.grossError
  have hsplit := h.split
  refine ⟨⟨?_, ?_, hsig, ?_, ?_, ?_, ?_, ?_, ?_⟩, hentry, h.premium, ?_, ?_, ?_, ?_⟩
  · rw [hexits, hremaining, sum_map_concat, hquantity]
    omega
  · omega
  · intro f hf
    rw [hexits] at hf
    rcases List.mem_append.mp hf with hf | hf
    · exact h.turnover f hf
    · rw [List.mem_singleton.mp hf, hturnover, hprice, hquantity]
  · rw [hexits, hgross, h.gross, sum_map_concat, hquantity]
  · rw [hexits, hgross, sum_map_concat, hquantity, List.length_append, List.length_singleton]
    push_cast
    rw [abs_le] at herror hround ⊢
    constructor <;> linarith
  · rw [hexits, hcosts, h.costs, sum_map_concat]
  · rw [hnet, hgross, hcosts, h.net, hresult]
    ring
  · rw [hexits, hnet, h.results, sum_map_concat]
  · rw [hfills]
    exact List.append_ne_nil_of_left_ne_nil h.filled _
  · rw [hgross]
    exact h.grossCents.add (hturnoverCents.sub hbuy)
  · rw [hcosts]
    exact h.costCents.add hcost
  · rw [hnet, hresult]
    exact h.netCents.add ((hturnoverCents.sub hbuy).sub hcost)

/-- What books nothing and keeps what remains. -/
theorem Balanced.kept (h : Balanced fillPrice quantity sig record) (hledger : record'.ledger = record.ledger)
    (hremaining : record'.remainingQty = record.remainingQty) (hsig : sig'.remainingQty = record'.remainingQty) :
    Balanced fillPrice quantity sig' record' := by
  simp only [ledger, Prod.mk.injEq] at hledger
  obtain ⟨hentry, hfills, hgross, hcosts, hnet⟩ := hledger
  have hexits : record'.exitFills = record.exitFills := by rw [exitFills, hfills, exitFills]
  constructor
  · constructor
    · rw [hexits, hremaining]
      exact h.split
    · rw [hremaining]
      exact h.nonneg
    · exact hsig
    · rw [hexits]
      exact h.turnover
    · rw [hexits, hgross]
      exact h.gross
    · rw [hexits, hgross]
      exact h.grossError
    · rw [hexits, hcosts]
      exact h.costs
    · rw [hnet, hgross, hcosts]
      exact h.net
    · rw [hexits, hnet]
      exact h.results
  · rw [hentry]
    exact h.price
  · exact h.premium
  · rw [hfills]
    exact h.filled
  · rw [hgross]
    exact h.grossCents
  · rw [hcosts]
    exact h.costCents
  · rw [hnet]
    exact h.netCents

theorem stageExit_balanced (h : Balanced fillPrice quantity sig record) (now : Int) (price : ℚ) :
    Balanced fillPrice quantity (stageExit now sig record price).1 (stageExit now sig record price).2 ∧
      (stageExit now sig record price).2.remainingQty ≤ record.remainingQty := by
  obtain ⟨hclose0, hclose⟩ := t1CloseQty_le h.nonneg
  have hleft : (stageExit now sig record price).2.remainingQty = record.remainingQty - record.t1CloseQty :=
    (stageExit_remaining now sig record price).trans (max_eq_right (by omega))
  refine ⟨h.booked hclose rfl hleft rfl, ?_⟩
  rw [hleft]
  omega

theorem reconcileT1Exit_balanced (h : Balanced fillPrice quantity sig record) (now : Int) {price : ℚ}
    (hprice : price ≤ spotThreshold) :
    Balanced fillPrice quantity (reconcileT1Exit now sig (some record) price).1
        (reconcileT1Exit now sig (some record) price).2 ∧
      (reconcileT1Exit now sig (some record) price).2.remainingQty ≤ record.remainingQty := by
  rw [reconcileT1Exit_some]
  by_cases hreplayed : record.t1Replayed price now = true
  · rw [if_pos hreplayed]
    exact ⟨h, le_rfl⟩
  · rw [if_neg hreplayed, if_neg fun hindex => absurd hprice (not_le.mpr hindex.2)]
    exact stageExit_balanced h now price

theorem reconcileFinalExit_balanced (h : Balanced fillPrice quantity sig record) (now : Int) {price : ℚ}
    (hprice : price ≤ spotThreshold) (reason : String) :
    Balanced fillPrice quantity (reconcileFinalExit now sig (some record) price reason).1
        (reconcileFinalExit now sig (some record) price reason).2 ∧
      (reconcileFinalExit now sig (some record) price reason).2.remainingQty ≤ record.remainingQty := by
  have hnonneg := h.nonneg
  -- both prices are premiums
  have hdomain : record.domainMismatch sig price = false := by
    refine decide_eq_false fun hm => ?_
    rw [h.price] at hm
    exact hm.2.elim (not_lt.mpr h.premium) (not_lt.mpr hprice)
  by_cases hbooked : record.booked (.ofReason reason) price now = true
  · rw [reconcileFinalExit_some, if_pos hbooked]
    exact ⟨h, le_rfl⟩
  · obtain ⟨hsig, hremaining, -, -, hledger⟩ := reconcileFinalExit_closes now sig hbooked
    have hsame : (reconcileFinalExit now sig (some record) price reason).1.remainingQty =
        (reconcileFinalExit now sig (some record) price reason).2.remainingQty := by
      rw [hsig, hremaining, Int.cast_zero]
    refine ⟨?_, hremaining.trans_le hnonneg⟩
    by_cases hopen : 0 < record.remainingQty
    · rw [if_pos ⟨hopen, hdomain⟩] at hledger
      exact h.booked le_rfl hledger (hremaining.trans (sub_self _).symm) hsame
    · rw [if_neg fun hm => hopen hm.1] at hledger
      have hnone : record.remainingQty = 0 := by omega
      exact h.kept hledger (hremaining.trans hnone.symm) hsame

theorem reconcileEntry_balanced (now : Int) (sig : SignalInstance) (hfill : 0 < fillPrice)
    (hpremium : fillPrice ≤ spotThreshold) (hquantity : 0 ≤ quantity) (lotSize : Option Int) :
    Balanced fillPrice quantity (reconcileEntry now sig fillPrice quantity lotSize).1
      (reconcileEntry now sig fillPrice quantity lotSize).2.1 := by
  have hvalid : ¬ (fillPrice ≤ 0 ∨ (sig.isOption = true ∧ spotThreshold < fillPrice)) := by
    rintro (hle | ⟨-, hlt⟩)
    · exact absurd hfill (not_lt.mpr hle)
    · exact absurd hlt (not_lt.mpr hpremium)
  rw [reconcileEntry]
  simp only
  rw [if_neg hvalid]
  refine ⟨⟨zero_add _, hquantity, rfl, fun _ hf => absurd hf List.not_mem_nil, rfl, ?_, rfl, ?_, rfl⟩, rfl, hpremium,
    List.cons_ne_nil _ _, isDecimal_zero 2, isDecimal_zero 2, isDecimal_zero 2⟩
  · simp [exitFills]
  · exact (sub_zero 0).symm

end FillReconciliationRecord

namespace Reconciliation
open FillReconciliationRecord
variable {fillPrice : ℚ} {quantity : Int}

/-- An exit of an account that balances leaves one, with no more remaining. -/
def Accounts (fillPrice : ℚ) (quantity : Int) (s s' : Reconciliation) : Prop :=
  (∃ record ∈ s.record, Balanced fillPrice quantity s.sig record) →
    (∃ record ∈ s'.record, Balanced fillPrice quantity s'.sig record) ∧ s'.remaining ≤ s.remaining

theorem step_accounts {call : ReconcilerCall} (hcall : call.PremiumExit) (s : Reconciliation) :
    Accounts fillPrice quantity s (s.step call) := by
  rintro ⟨record, hrecord, h⟩
  obtain ⟨sig, existing⟩ := s
  cases hrecord
  cases call with
  | entry now price q lotSize => exact hcall.elim
  | target1 now price =>
    obtain ⟨hbalanced, hle⟩ := reconcileT1Exit_balanced h now hcall
    exact ⟨⟨_, rfl, hbalanced⟩, hle⟩
  | final now price reason =>
    obtain ⟨hbalanced, hle⟩ := reconcileFinalExit_balanced h now hcall reason
    exact ⟨⟨_, rfl, hbalanced⟩, hle⟩

/-- After an entry at a premium, the exits account for its quantity and its result however they
are called, and what remains never grows. -/
theorem exits_conserved (s : Reconciliation) (now : Int) (hfill : 0 < fillPrice)
    (hpremium : fillPrice ≤ spotThreshold) (hquantity : 0 ≤ quantity) (lotSize : Option Int)
    (calls : List ReconcilerCall) (hcalls : ∀ call ∈ calls, call.PremiumExit) :
    Always step (fun s => ∃ record ∈ s.record, Conserved fillPrice quantity s.sig record)
        (s.step (.entry now fillPrice quantity lotSize)) calls ∧
      ∀ pre mid, pre ++ mid <+: calls →
        (run step (s.step (.entry now fillPrice quantity lotSize)) (pre ++ mid)).remaining ≤
          (run step (s.step (.entry now fillPrice quantity lotSize)) pre).remaining := by
  have hentry : ∃ record ∈ (s.step (.entry now fillPrice quantity lotSize)).record,
      Balanced fillPrice quantity (s.step (.entry now fillPrice quantity lotSize)).sig record :=
    ⟨_, rfl, reconcileEntry_balanced now s.sig hfill hpremium hquantity lotSize⟩
  have hrefl : ∀ s, Accounts fillPrice quantity s s := fun s h => ⟨h, le_rfl⟩
  have htrans : ∀ a b c, Accounts fillPrice quantity a b → Accounts fillPrice quantity b c →
      Accounts fillPrice quantity a c := fun a b c hab hbc h =>
    ⟨(hbc (hab h).1).1, (hbc (hab h).1).2.trans (hab h).2⟩
  have hrelated := (related_iff_guarded hrefl htrans (s.step (.entry now fillPrice quantity lotSize)) calls).mpr
    (guarded_of_mem (fun call hc s => step_accounts (hcalls call hc) s) _)
  have hbalanced : ∀ pre, pre <+: calls →
      ∃ record ∈ (run step (s.step (.entry now fillPrice quantity lotSize)) pre).record,
        Balanced fillPrice quantity (run step (s.step (.entry now fillPrice quantity lotSize)) pre).sig record :=
    fun pre hpre => (hrelated [] pre hpre hentry).1
  constructor
  · rw [always_iff_prefixes]
    intro pre hpre
    obtain ⟨record, hrecord, h⟩ := hbalanced pre hpre
    exact ⟨record, hrecord, h.toConserved⟩
  · intro pre mid hmid
    exact (hrelated pre mid hmid (hbalanced pre ((List.prefix_append pre mid).trans hmid))).2

/-- A call on two lots of 75. -/
def twoLots : SignalInstance where
  signalId := "S"
  underlying := "NIFTY"
  direction := .longCall
  spotPrice := 24000
  entryMin := 23990
  entryMax := 24010
  trigger := 24000
  stopLoss := 23950
  target1 := 24075
  target2 := 24150
  riskRewardT1 := 15 / 10
  riskRewardT2 := 3
  createdAtUtc := 0
  expiresAtUtc := 300000
  lastUpdatedUtc := 0

/-- Two first targets and two stops of one entry. -/
def unruly : List ReconcilerCall :=
  [.target1 60000 120, .final 61000 (995 / 10) "STOP_LOSS_HIT", .target1 90000 (1201 / 10),
    .final 61000 (995 / 10) "STOP_LOSS_HIT"]

theorem unruly_conserved :
    Always step (fun s => ∃ record ∈ s.record, Conserved 100 150 s.sig record)
        (step { sig := twoLots } (.entry 1000 100 150 (some 75))) unruly ∧
      ∀ pre mid, pre ++ mid <+: unruly →
        (run step (step { sig := twoLots } (.entry 1000 100 150 (some 75))) (pre ++ mid)).remaining ≤
          (run step (step { sig := twoLots } (.entry 1000 100 150 (some 75))) pre).remaining := by
  refine exits_conserved { sig := twoLots } 1000 (by norm_num) (by norm_num [spotThreshold]) (by norm_num)
    (some 75) unruly fun call hcall => ?_
  simp only [unruly, List.mem_cons, List.not_mem_nil, or_false] at hcall
  rcases hcall with rfl | rfl | rfl | rfl <;> norm_num [ReconcilerCall.PremiumExit, spotThreshold]

end Reconciliation

end Droid.Signals
