import Droid.Signals.Fsm
import Droid.Paper.Model

/-! The fill reconciler: entry, staged first exit and final exit of a signal's option fill. -/
namespace Droid.Signals
open Lib

/-- The stage of a fill; a final exit is named after its reason. -/
inductive Stage where
  | entry
  | target1
  | exit (reason : String)
  deriving DecidableEq, Repr

/-- The stage a final exit is booked under; a reason can spell one of the others. -/
def Stage.ofReason (reason : String) : Stage :=
  if reason = "ENTRY" then .entry else if reason = "TARGET_1" then .target1 else .exit reason

theorem Stage.ofReason_target1 (reason : String) :
    Stage.ofReason reason = .target1 ↔ reason = "TARGET_1" := by
  rw [ofReason]
  constructor
  · intro h
    split_ifs at h with hentry htarget
    exact htarget
  · rintro rfl
    decide

structure OptionStageFill where
  stage : Stage
  price : ℚ
  quantity : Int
  timestampUtc : Int
  turnover : ℚ
  totalCost : ℚ := 0
  realizedPnlInr : ℚ := 0
  deriving DecidableEq, Repr

inductive ReconciliationStatus where
  | reconciled | partialFill | reconciliationRequired
  deriving DecidableEq, Repr

structure FillReconciliationRecord where
  optionType : Option String := none
  strike : Option ℚ := none
  lotSize : Int := 75
  intendedQty : Int := 0
  remainingQty : Int := 0
  t1Qty : Int := 0
  entryFillPrice : ℚ := 0
  t1FillPrice : Option ℚ := none
  finalFillPrice : Option ℚ := none
  exitReason : Option String := none
  t1RealizedPnl : ℚ := 0
  finalRealizedPnl : ℚ := 0
  grossRealizedPnl : ℚ := 0
  totalStatutoryCosts : ℚ := 0
  netRealizedPnlInr : ℚ := 0
  realizedRr : ℚ := 0
  isFullyClosed : Bool := false
  fills : List OptionStageFill := []
  synthetic : Bool := false
  reconciliationStatus : ReconciliationStatus := .reconciled
  deriving DecidableEq, Repr

def spotThreshold : ℚ := 5000

def SignalInstance.isOption (sig : SignalInstance) : Bool :=
  sig.optionContract.isSome ∨ sig.direction.namesOption

/-- The contract's lot size; without one the fallback of the underlying, which is surfaced. -/
def resolveSignalLotSize (sig : SignalInstance) : Int × Bool :=
  let contractLot := (sig.optionContract.bind (·.lotSize)).getD 0
  if 0 < contractLot then (contractLot, false)
  else
    let underlying := sig.underlying.toUpper
    (if underlying = "NIFTY" then 75 else if underlying = "BANKNIFTY" then 30 else 10, true)

def stagedQty (quantity lotSize : Int) : Int :=
  let lots := max 1 (quantity / lotSize)
  let t1Lots := if lots > 1 then max 1 (lots / 2) else 1
  min quantity (t1Lots * lotSize)

/-- The lot size an entry is staged by: the explicit one, else the signal's. -/
def entryLot (sig : SignalInstance) (explicitLot : Option Int) : Int × Bool :=
  match explicitLot.filter (0 < ·) with
  | some lot => (lot, false)
  | none => resolveSignalLotSize sig

theorem resolveSignalLotSize_pos (sig : SignalInstance) : 0 < (resolveSignalLotSize sig).1 := by
  rw [resolveSignalLotSize]
  simp only
  split
  · assumption
  · split_ifs <;> decide

theorem entryLot_pos (sig : SignalInstance) (explicitLot : Option Int) : 0 < (entryLot sig explicitLot).1 := by
  rw [entryLot]
  split
  · rename_i lot hfilter
    exact of_decide_eq_true (Option.filter_eq_some_iff.mp hfilter).2
  · exact resolveSignalLotSize_pos sig

theorem stagedQty_nonneg {quantity lotSize : Int} (hq : 0 < quantity) (hl : 0 < lotSize) :
    0 ≤ stagedQty quantity lotSize := by
  unfold stagedQty
  simp only
  refine le_min hq.le (mul_nonneg ?_ hl.le)
  split_ifs
  · exact (zero_le_one' ℤ).trans (le_max_left 1 _)
  · exact zero_le_one' ℤ

/-- The record of an entry; an entry that is no premium is quarantined (false). -/
def reconcileEntry (now : Int) (sig : SignalInstance) (fillPrice : ℚ) (quantity : Int)
    (explicitLot : Option Int) : SignalInstance × FillReconciliationRecord × Bool :=
  let (lotSize, lotFallback) := entryLot sig explicitLot
  if fillPrice ≤ 0 ∨ (sig.isOption ∧ spotThreshold < fillPrice) then
    (sig,
      { lotSize, intendedQty := quantity, remainingQty := quantity
        entryFillPrice := max 0 fillPrice, reconciliationStatus := .reconciliationRequired }, false)
  else
    ({ sig with
        actualFillPrice := some fillPrice, entryPrice := some fillPrice
        intendedQty := quantity, remainingQty := quantity },
      { optionType := (sig.optionContract.bind (·.optionType)).or
          (some (if sig.direction = .longCall then "CE" else "PE"))
        strike := truthy (sig.optionContract.bind (·.strike))
        lotSize, intendedQty := quantity, remainingQty := quantity
        t1Qty := stagedQty quantity lotSize
        entryFillPrice := fillPrice
        fills := [{ stage := .entry, price := fillPrice, quantity, timestampUtc := now
                    turnover := roundTo 2 (fillPrice * quantity) }]
        synthetic := lotFallback
        reconciliationStatus := if lotFallback then .partialFill else .reconciled }, true)

/-- The record an exit starts from when none was registered. -/
def rebuildEntry (now : Int) (sig : SignalInstance) : SignalInstance × FillReconciliationRecord × Bool :=
  let (lotSize, lotFallback) := resolveSignalLotSize sig
  let quantity :=
    if sig.intendedQty ≠ 0 then truncate sig.intendedQty
    else (sig.paperOrder.map PaperReceipt.quantity).getD lotSize
  let (sig, record, ok) :=
    reconcileEntry now sig ((truthy sig.actualFillPrice).getD sig.trigger) quantity (some lotSize)
  if ok ∧ lotFallback then
    (sig, { record with
      synthetic := true
      reconciliationStatus :=
        if record.reconciliationStatus = .reconciled then .partialFill else record.reconciliationStatus }, ok)
  else (sig, record, ok)

/-- A record before its exits. -/
structure FillReconciliationRecord.Unbooked (record : FillReconciliationRecord) : Prop where
  entries : ∀ f ∈ record.fills, f.stage = .entry
  opened : record.isFullyClosed = false
  free : record.totalStatutoryCosts = 0

theorem FillReconciliationRecord.Unbooked.noTarget {record : FillReconciliationRecord} (h : record.Unbooked) :
    record.fills.countP (·.stage = .target1) = 0 := by
  refine List.countP_eq_zero.mpr fun f hf => ?_
  rw [h.entries f hf]
  decide

theorem reconcileEntry_unbooked (now : Int) (sig : SignalInstance) (fillPrice : ℚ) (quantity : Int)
    (lotSize : Option Int) : (reconcileEntry now sig fillPrice quantity lotSize).2.1.Unbooked := by
  rw [reconcileEntry]
  simp only
  by_cases hbad : fillPrice ≤ 0 ∨ (sig.isOption = true ∧ spotThreshold < fillPrice)
  · rw [if_pos hbad]
    exact ⟨fun _ hf => (nomatch hf), rfl, rfl⟩
  · rw [if_neg hbad]
    refine ⟨fun f hf => ?_, rfl, rfl⟩
    rw [List.mem_singleton.mp hf]

theorem rebuildEntry_unbooked (now : Int) (sig : SignalInstance) : (rebuildEntry now sig).2.1.Unbooked := by
  rw [rebuildEntry]
  simp only
  generalize (if sig.intendedQty ≠ 0 then truncate sig.intendedQty
    else (sig.paperOrder.map PaperReceipt.quantity).getD (resolveSignalLotSize sig).1) = quantity
  have h := reconcileEntry_unbooked now sig ((truthy sig.actualFillPrice).getD sig.trigger) quantity
    (some (resolveSignalLotSize sig).1)
  split
  · exact ⟨h.entries, h.opened, h.free⟩
  · exact h

/-- Add the result of closing a quantity at a price. -/
def FillReconciliationRecord.book (record : FillReconciliationRecord) (stage : Stage) (quantity : Int)
    (exitFillPrice : ℚ) (now : Int) : FillReconciliationRecord × ℚ :=
  let buyTurnover := roundTo 2 (record.entryFillPrice * quantity)
  let sellTurnover := roundTo 2 (exitFillPrice * quantity)
  let totalCost := Paper.calculateOptionCosts buyTurnover sellTurnover 2
  let stageGross := roundTo 2 (sellTurnover - buyTurnover)
  let stageNet := roundTo 2 (stageGross - totalCost)
  ({ record with
      totalStatutoryCosts := roundTo 2 (record.totalStatutoryCosts + totalCost)
      grossRealizedPnl := roundTo 2 (record.grossRealizedPnl + stageGross)
      netRealizedPnlInr := roundTo 2 (record.netRealizedPnlInr + stageNet)
      fills := record.fills ++
        [{ stage, price := exitFillPrice, quantity, timestampUtc := now, turnover := sellTurnover
           totalCost, realizedPnlInr := stageNet }] }, stageNet)

/-- The same stage at the same price within two seconds. -/
def FillReconciliationRecord.booked (record : FillReconciliationRecord) (stage : Stage) (price : ℚ)
    (now : Int) : Bool :=
  record.fills.any fun f => f.stage = stage ∧ |f.timestampUtc / 1000 - now / 1000| < 2 ∧ f.price = price

/-- What the first target closes: the staged quantity, or all that is left. -/
def FillReconciliationRecord.t1CloseQty (record : FillReconciliationRecord) : Int :=
  if record.t1Qty ≤ 0 ∨ record.t1Qty > record.remainingQty then record.remainingQty else record.t1Qty

theorem FillReconciliationRecord.t1CloseQty_le {record : FillReconciliationRecord} (h : 0 ≤ record.remainingQty) :
    0 ≤ record.t1CloseQty ∧ record.t1CloseQty ≤ record.remainingQty := by
  rw [FillReconciliationRecord.t1CloseQty]
  split
  · exact ⟨h, le_rfl⟩
  · omega

/-- `reconcile_t1_exit`, from the record the reconciler has of the signal. -/
def reconcileT1Exit (now : Int) (sig : SignalInstance) (existing : Option FillReconciliationRecord)
    (exitFillPrice : ℚ) : SignalInstance × FillReconciliationRecord :=
  match existing.filter fun record => record.t1FillPrice = some exitFillPrice ∧
      record.fills.any fun f => f.stage = .target1 ∧ |f.timestampUtc / 1000 - now / 1000| < 2 with
  | some record => (sig, record)
  | none =>
    if sig.isOption ∧ spotThreshold < exitFillPrice then
      (sig, { existing.getD { } with reconciliationStatus := .reconciliationRequired })
    else
      let (sig, record, ok) :=
        match existing with
        | some record => (sig, record, true)
        | none => rebuildEntry now sig
      if ¬ ok then (sig, record)
      else
        let closeQty := record.t1CloseQty
        let (record, stageNet) := record.book .target1 closeQty exitFillPrice now
        let remainingQty := max 0 (record.remainingQty - closeQty)
        ({ sig with remainingQty := remainingQty, t1RealizedQty := some closeQty },
          { record with t1FillPrice := some exitFillPrice, t1RealizedPnl := stageNet, remainingQty })

/-- Entry and exit are not both premiums. -/
def FillReconciliationRecord.domainMismatch (record : FillReconciliationRecord) (sig : SignalInstance)
    (exitFillPrice : ℚ) : Bool :=
  (sig.isOption ∨ truthyText record.optionType ∨ record.strike.isSome) ∧
    (spotThreshold < record.entryFillPrice ∨ spotThreshold < exitFillPrice)
where
  /-- A text that is there and not empty. -/
  truthyText (t : Option String) : Bool := t.any (· ≠ "")

/-- The blended result in units of the intended risk. -/
def FillReconciliationRecord.blendedRr (record : FillReconciliationRecord) (sig : SignalInstance)
    (exitFillPrice : ℚ) : ℚ :=
  let riskPerUnit : ℚ := (sig.riskR.filter (0 < ·)).getD (max 1 (record.entryFillPrice * (30 / 100)))
  let riskInr := riskPerUnit * record.intendedQty
  if 0 < riskInr ∧ ¬ (spotThreshold < record.entryFillPrice ∧ exitFillPrice < spotThreshold) then
    roundTo 2 (record.netRealizedPnlInr / riskInr)
  else record.realizedRr

def reconcileFinalExit (now : Int) (sig : SignalInstance) (existing : Option FillReconciliationRecord)
    (exitFillPrice : ℚ) (exitReason : String) : SignalInstance × FillReconciliationRecord :=
  let (sig, record, ok) :=
    match existing with
    | some record => (sig, record, true)
    | none => rebuildEntry now sig
  if ¬ ok ∨ record.booked (.ofReason exitReason) exitFillPrice now then (sig, record)
  else if 0 < record.remainingQty ∧ record.domainMismatch sig exitFillPrice then
    ({ sig with remainingQty := 0 },
      { record with
        remainingQty := 0, isFullyClosed := true, exitReason := some exitReason
        reconciliationStatus := .reconciliationRequired })
  else
    let record :=
      if 0 < record.remainingQty then
        let (record, stageNet) := record.book (.ofReason exitReason) record.remainingQty exitFillPrice now
        { record with finalFillPrice := some exitFillPrice, finalRealizedPnl := stageNet }
      else record
    ({ sig with remainingQty := 0 },
      { record with
        remainingQty := 0, isFullyClosed := true, exitReason := some exitReason
        realizedRr := record.blendedRr sig exitFillPrice })

/-! ### The two exits from a record -/

/-- A first target is taken for a repetition at the same price within two seconds. -/
def FillReconciliationRecord.t1Replayed (record : FillReconciliationRecord) (exitFillPrice : ℚ)
    (now : Int) : Bool :=
  record.t1FillPrice = some exitFillPrice ∧
    record.fills.any fun f => f.stage = .target1 ∧ |f.timestampUtc / 1000 - now / 1000| < 2

def stageExit (now : Int) (sig : SignalInstance) (record : FillReconciliationRecord) (exitFillPrice : ℚ) :
    SignalInstance × FillReconciliationRecord :=
  let closeQty := record.t1CloseQty
  let (record, stageNet) := record.book .target1 closeQty exitFillPrice now
  let remainingQty := max 0 (record.remainingQty - closeQty)
  ({ sig with remainingQty := remainingQty, t1RealizedQty := some closeQty },
    { record with t1FillPrice := some exitFillPrice, t1RealizedPnl := stageNet, remainingQty })

theorem stageExit_remaining (now : Int) (sig : SignalInstance) (record : FillReconciliationRecord)
    (exitFillPrice : ℚ) : (stageExit now sig record exitFillPrice).2.remainingQty =
      max 0 (record.remainingQty - record.t1CloseQty) := rfl

/-- The record with what was left of it booked under the stage. -/
def FillReconciliationRecord.bookRest (record : FillReconciliationRecord) (stage : Stage)
    (exitFillPrice : ℚ) (now : Int) : FillReconciliationRecord :=
  if 0 < record.remainingQty then
    let (record, stageNet) := record.book stage record.remainingQty exitFillPrice now
    { record with finalFillPrice := some exitFillPrice, finalRealizedPnl := stageNet }
  else record

theorem FillReconciliationRecord.bookRest_idle {record : FillReconciliationRecord}
    (h : ¬ 0 < record.remainingQty) (stage : Stage) (exitFillPrice : ℚ) (now : Int) :
    record.bookRest stage exitFillPrice now = record := if_neg h

theorem reconcileT1Exit_some (now : Int) (sig : SignalInstance) (record : FillReconciliationRecord)
    (exitFillPrice : ℚ) :
    reconcileT1Exit now sig (some record) exitFillPrice =
      if record.t1Replayed exitFillPrice now then (sig, record)
      else if sig.isOption ∧ spotThreshold < exitFillPrice then
        (sig, { record with reconciliationStatus := .reconciliationRequired })
      else stageExit now sig record exitFillPrice := by
  have hfilter : (some record).filter (fun record => decide (record.t1FillPrice = some exitFillPrice ∧
      record.fills.any fun f => f.stage = .target1 ∧ |f.timestampUtc / 1000 - now / 1000| < 2)) =
        if record.t1Replayed exitFillPrice now then some record else none := Option.filter_some
  rw [reconcileT1Exit]
  rw [hfilter]
  cases record.t1Replayed exitFillPrice now <;> rfl

theorem reconcileT1Exit_none (now : Int) (sig : SignalInstance) (exitFillPrice : ℚ) :
    reconcileT1Exit now sig none exitFillPrice =
      if sig.isOption ∧ spotThreshold < exitFillPrice then
        (sig, { reconciliationStatus := .reconciliationRequired })
      else if (rebuildEntry now sig).2.2 then
        stageExit now (rebuildEntry now sig).1 (rebuildEntry now sig).2.1 exitFillPrice
      else ((rebuildEntry now sig).1, (rebuildEntry now sig).2.1) := by
  rw [reconcileT1Exit]
  simp only [Option.filter_none]
  obtain ⟨sig', record, ok⟩ := rebuildEntry now sig
  cases ok <;> rfl

theorem reconcileFinalExit_some (now : Int) (sig : SignalInstance) (record : FillReconciliationRecord)
    (exitFillPrice : ℚ) (exitReason : String) :
    reconcileFinalExit now sig (some record) exitFillPrice exitReason =
      if record.booked (.ofReason exitReason) exitFillPrice now then (sig, record)
      else if 0 < record.remainingQty ∧ record.domainMismatch sig exitFillPrice then
        ({ sig with remainingQty := 0 },
          { record with
            remainingQty := 0, isFullyClosed := true, exitReason := some exitReason
            reconciliationStatus := .reconciliationRequired })
      else
        ({ sig with remainingQty := 0 },
          { record.bookRest (.ofReason exitReason) exitFillPrice now with
            remainingQty := 0, isFullyClosed := true, exitReason := some exitReason
            realizedRr := (record.bookRest (.ofReason exitReason) exitFillPrice now).blendedRr sig
              exitFillPrice }) := by
  rw [reconcileFinalExit]
  simp only [not_true_eq_false, false_or]
  rfl

namespace FillReconciliationRecord

def ledger (record : FillReconciliationRecord) : ℚ × List OptionStageFill × ℚ × ℚ × ℚ :=
  (record.entryFillPrice, record.fills, record.grossRealizedPnl, record.totalStatutoryCosts,
    record.netRealizedPnlInr)

/-- What a final exit makes of a record that it does not take for a repetition. -/
structure ClosesOut (now : Int) (sig : SignalInstance) (record : FillReconciliationRecord) (price : ℚ)
    (stage : Stage) (sig' : SignalInstance) (record' : FillReconciliationRecord) : Prop where
  signal : sig' = { sig with remainingQty := 0 }
  remaining : record'.remainingQty = 0
  closed : record'.isFullyClosed = true
  planned : record'.intendedQty = record.intendedQty ∧ record'.t1Qty = record.t1Qty
  ledger : record'.ledger =
    if 0 < record.remainingQty ∧ record.domainMismatch sig price = false then
      (record.book stage record.remainingQty price now).1.ledger
    else record.ledger

theorem bookRest_closes (record : FillReconciliationRecord) (stage : Stage) (price : ℚ) (now : Int) :
    ((record.bookRest stage price now).intendedQty = record.intendedQty ∧
        (record.bookRest stage price now).t1Qty = record.t1Qty) ∧
      (record.bookRest stage price now).ledger =
        if 0 < record.remainingQty then (record.book stage record.remainingQty price now).1.ledger
        else record.ledger := by
  rw [bookRest]
  split <;> exact ⟨⟨rfl, rfl⟩, rfl⟩

theorem reconcileFinalExit_closes (now : Int) (sig : SignalInstance) {record : FillReconciliationRecord}
    {price : ℚ} {reason : String} (h : ¬ record.booked (.ofReason reason) price now = true) :
    ClosesOut now sig record price (.ofReason reason) (reconcileFinalExit now sig (some record) price reason).1
      (reconcileFinalExit now sig (some record) price reason).2 := by
  obtain ⟨hplanned, hrest⟩ := bookRest_closes record (.ofReason reason) price now
  rw [reconcileFinalExit_some, if_neg h]
  cases hmismatch : record.domainMismatch sig price with
  | true =>
    have hledger : ¬ (0 < record.remainingQty ∧ record.domainMismatch sig price = false) := by simp [hmismatch]
    by_cases hopen : 0 < record.remainingQty
    · rw [if_pos ⟨hopen, rfl⟩]
      exact ⟨rfl, rfl, rfl, ⟨rfl, rfl⟩, (if_neg hledger).symm⟩
    · rw [if_neg fun hm => hopen hm.1, bookRest_idle hopen]
      exact ⟨rfl, rfl, rfl, ⟨rfl, rfl⟩, (if_neg hledger).symm⟩
  | false =>
    rw [if_neg fun hm => Bool.false_ne_true hm.2]
    refine ⟨rfl, rfl, rfl, hplanned, ?_⟩
    simp only [hmismatch, and_true]
    exact hrest

end FillReconciliationRecord

theorem reconcileFinalExit_none (now : Int) (sig : SignalInstance) (exitFillPrice : ℚ) (exitReason : String) :
    reconcileFinalExit now sig none exitFillPrice exitReason =
      if (rebuildEntry now sig).2.2 then
        reconcileFinalExit now (rebuildEntry now sig).1 (some (rebuildEntry now sig).2.1) exitFillPrice exitReason
      else ((rebuildEntry now sig).1, (rebuildEntry now sig).2.1) := by
  unfold reconcileFinalExit
  obtain ⟨sig', record, ok⟩ := rebuildEntry now sig
  cases ok with
  | true => rfl
  | false => simp

end Droid.Signals
