import Droid.Signals.Reconciliation

/-! The legs of a reconciliation record: its net result is theirs, each counted once and after costs. -/
namespace Droid.Signals
open Lib

namespace FillReconciliationRecord

/-- A fill that closed a quantity against the entry, with its result after costs. -/
structure IsLeg (record : FillReconciliationRecord) (fill : OptionStageFill) : Prop where
  turnover : fill.turnover = roundTo 2 (fill.price * fill.quantity)
  result : fill.realizedPnlInr =
    fill.turnover - roundTo 2 (record.entryFillPrice * fill.quantity) - fill.totalCost

/-- After the entry's fill, if it has one, the record has legs, and its net result is theirs. -/
def NetOfLegs (record : FillReconciliationRecord) : Prop :=
  ∃ entry legs, record.fills = entry ++ legs ∧ entry.length ≤ 1 ∧ (∀ f ∈ legs, record.IsLeg f) ∧
    record.netRealizedPnlInr = (legs.map (·.realizedPnlInr)).sum

/-- The legs account for the net result, and the sums are in cents. -/
structure Tallied (record : FillReconciliationRecord) : Prop where
  legs : record.NetOfLegs
  grossCents : IsDecimal 2 record.grossRealizedPnl
  costCents : IsDecimal 2 record.totalStatutoryCosts
  netCents : IsDecimal 2 record.netRealizedPnlInr

variable {record record' : FillReconciliationRecord}

theorem tallied_of_start (hfills : record.fills.length ≤ 1) (hgross : record.grossRealizedPnl = 0)
    (hcosts : record.totalStatutoryCosts = 0) (hnet : record.netRealizedPnlInr = 0) : Tallied record := by
  refine ⟨⟨record.fills, [], (List.append_nil _).symm, hfills, fun _ hf => (nomatch hf), hnet⟩, ?_, ?_, ?_⟩
  · rw [hgross]
    exact isDecimal_zero 2
  · rw [hcosts]
    exact isDecimal_zero 2
  · rw [hnet]
    exact isDecimal_zero 2

theorem Tallied.of_ledger (h : Tallied record) (hledger : record'.ledger = record.ledger) : Tallied record' := by
  simp only [ledger, Prod.mk.injEq] at hledger
  obtain ⟨hentry, hfills, hgross, hcosts, hnet⟩ := hledger
  obtain ⟨⟨entry, legs, hsplit, hone, hlegs, hsum⟩, hgrossCents, hcostCents, hnetCents⟩ := h
  rw [← hfills] at hsplit
  rw [← hgross] at hgrossCents
  rw [← hcosts] at hcostCents
  rw [← hnet] at hnetCents hsum
  refine ⟨⟨entry, legs, hsplit, hone, fun f hf => ?_, hsum⟩, hgrossCents, hcostCents, hnetCents⟩
  refine ⟨(hlegs f hf).turnover, ?_⟩
  rw [hentry]
  exact (hlegs f hf).result

theorem Tallied.booked (h : Tallied record) {stage : Stage} {closed : Int} {price : ℚ} {now : Int}
    (hledger : record'.ledger = (record.book stage closed price now).1.ledger) : Tallied record' := by
  obtain ⟨fill, -, hprice, hquantity, hturnover, hcost, hresult, hbook⟩ :=
    book_cents h.grossCents h.costCents h.netCents stage closed price now
  obtain ⟨⟨entry, legs, hsplit, hone, hlegs, hsum⟩, hgrossCents, hcostCents, hnetCents⟩ := h
  rw [hbook] at hledger
  simp only [ledger, Prod.mk.injEq] at hledger
  obtain ⟨hentry, hfills, hgross, hcosts, hnet⟩ := hledger
  have hstageGross := (isDecimal_roundTo 2 (price * closed)).sub
    (isDecimal_roundTo 2 (record.entryFillPrice * closed))
  have hstageNet : IsDecimal 2 fill.realizedPnlInr := by
    rw [hresult, hturnover]
    exact hstageGross.sub hcost
  refine ⟨⟨entry, legs ++ [fill], ?_, hone, fun f hf => ?_, ?_⟩, ?_, ?_, ?_⟩
  · rw [hfills, hsplit, List.append_assoc]
  · rcases List.mem_append.mp hf with hf | hf
    · refine ⟨(hlegs f hf).turnover, ?_⟩
      rw [hentry]
      exact (hlegs f hf).result
    · rw [List.mem_singleton.mp hf]
      constructor
      · rw [hturnover, hprice, hquantity]
      · rw [hresult, hentry, hquantity]
  · rw [hnet, hsum, List.map_append, List.sum_append, List.map_singleton, List.sum_singleton]
  · rw [hgross, hturnover]
    exact hgrossCents.add hstageGross
  · rw [hcosts]
    exact hcostCents.add hcost
  · rw [hnet]
    exact hnetCents.add hstageNet

/-- A final exit, unless it is taken for a repetition, adds the leg of what remains, where the
prices are of one domain. -/
theorem ClosesOut.fills_eq {now : Int} {sig sig' : SignalInstance} {price : ℚ} {stage : Stage}
    (h : ClosesOut now sig record price stage sig' record') :
    ∃ runner, record'.fills = record.fills ++ runner ∧
      (∀ f ∈ runner, f.price = price ∧ f.quantity = record.remainingQty) ∧
      runner.length = if 0 < record.remainingQty ∧ record.domainMismatch sig price = false then 1 else 0 := by
  have hfills : record'.fills = _ := congrArg (·.2.1) h.ledger
  by_cases hsells : 0 < record.remainingQty ∧ record.domainMismatch sig price = false
  · rw [if_pos hsells] at hfills ⊢
    refine ⟨_, hfills, fun f hf => ?_, rfl⟩
    rw [List.mem_singleton.mp hf]
    exact ⟨rfl, rfl⟩
  · rw [if_neg hsells] at hfills ⊢
    exact ⟨[], hfills.trans (List.append_nil _).symm, fun _ hf => (nomatch hf), rfl⟩

theorem ClosesOut.entry_eq {now : Int} {sig sig' : SignalInstance} {price : ℚ} {stage : Stage}
    (h : ClosesOut now sig record price stage sig' record') :
    record'.entryFillPrice = record.entryFillPrice := by
  have hentry : record'.entryFillPrice = _ := congrArg (·.1) h.ledger
  rw [hentry]
  split <;> rfl

end FillReconciliationRecord

open FillReconciliationRecord

theorem reconcileFinalExit_synthetic (now : Int) (sig : SignalInstance) (record : FillReconciliationRecord)
    (price : ℚ) (reason : String) :
    (reconcileFinalExit now sig (some record) price reason).2.synthetic = record.synthetic := by
  rw [reconcileFinalExit_some]
  split
  · rfl
  · split
    · rfl
    · show (record.bookRest (.ofReason reason) price now).synthetic = record.synthetic
      rw [bookRest]
      split <;> rfl

theorem reconcileEntry_tallied (now : Int) (sig : SignalInstance) (fillPrice : ℚ) (quantity : Int)
    (lotSize : Option Int) : Tallied (reconcileEntry now sig fillPrice quantity lotSize).2.1 := by
  rw [reconcileEntry]
  simp only
  split
  · exact tallied_of_start (Nat.zero_le 1) rfl rfl rfl
  · exact tallied_of_start le_rfl rfl rfl rfl

theorem rebuildEntry_tallied (now : Int) (sig : SignalInstance) : Tallied (rebuildEntry now sig).2.1 := by
  rw [rebuildEntry]
  simp only
  generalize (if sig.intendedQty ≠ 0 then truncate sig.intendedQty
    else (sig.paperOrder.map PaperReceipt.quantity).getD (resolveSignalLotSize sig).1) = quantity
  have h := reconcileEntry_tallied now sig ((truthy sig.actualFillPrice).getD sig.trigger) quantity
    (some (resolveSignalLotSize sig).1)
  split
  · exact h.of_ledger rfl
  · exact h

theorem stageExit_tallied {record : FillReconciliationRecord} (h : Tallied record) (now : Int)
    (sig : SignalInstance) (price : ℚ) : Tallied (stageExit now sig record price).2 := by
  have hledger : (stageExit now sig record price).2.ledger =
      (record.book .target1 record.t1CloseQty price now).1.ledger := rfl
  exact h.booked hledger

theorem reconcileT1Exit_tallied (now : Int) (sig : SignalInstance) {existing : Option FillReconciliationRecord}
    (h : ∀ record ∈ existing, Tallied record) (price : ℚ) :
    Tallied (reconcileT1Exit now sig existing price).2 := by
  cases existing with
  | none =>
    rw [reconcileT1Exit_none]
    have hrebuilt := rebuildEntry_tallied now sig
    split
    · exact tallied_of_start (Nat.zero_le 1) rfl rfl rfl
    · split
      · exact stageExit_tallied hrebuilt now _ price
      · exact hrebuilt
  | some record =>
    rw [reconcileT1Exit_some]
    have hrecord := h record rfl
    split
    · exact hrecord
    · split
      · exact hrecord.of_ledger rfl
      · exact stageExit_tallied hrecord now sig price

private theorem finalExit_some_tallied {record : FillReconciliationRecord} (h : Tallied record) (now : Int)
    (sig : SignalInstance) (price : ℚ) (reason : String) :
    Tallied (reconcileFinalExit now sig (some record) price reason).2 := by
  by_cases hbooked : record.booked (.ofReason reason) price now = true
  · rw [reconcileFinalExit_some, if_pos hbooked]
    exact h
  · have hledger := (reconcileFinalExit_closes now sig hbooked).ledger
    split at hledger
    · exact h.booked hledger
    · exact h.of_ledger hledger

theorem reconcileFinalExit_tallied (now : Int) (sig : SignalInstance)
    {existing : Option FillReconciliationRecord} (h : ∀ record ∈ existing, Tallied record) (price : ℚ)
    (reason : String) : Tallied (reconcileFinalExit now sig existing price reason).2 := by
  cases existing with
  | none =>
    rw [reconcileFinalExit_none]
    have hrebuilt := rebuildEntry_tallied now sig
    split
    · exact finalExit_some_tallied hrebuilt now _ price reason
    · exact hrebuilt
  | some record => exact finalExit_some_tallied (h record rfl) now sig price reason

/-- Every call of the reconciler leaves a record that its legs account for. -/
theorem Reconciliation.step_tallied {s : Reconciliation} (h : ∀ record ∈ s.record, Tallied record)
    (call : ReconcilerCall) : ∃ record, (s.step call).record = some record ∧ Tallied record := by
  cases call with
  | entry now fillPrice quantity lotSize =>
    exact ⟨_, rfl, reconcileEntry_tallied now s.sig fillPrice quantity lotSize⟩
  | target1 now price => exact ⟨_, rfl, reconcileT1Exit_tallied now s.sig h price⟩
  | final now price reason => exact ⟨_, rfl, reconcileFinalExit_tallied now s.sig h price reason⟩

end Droid.Signals
