import Droid.Restore.Managers

/-! What a restore makes of a stored reconciliation record: the entry is reconciled once more over it. -/
namespace Droid.Restore
open Lib Signals Audit

/-- The fills, quantities, costs and realized profits of a record. -/
structure Holdings where
  fills : List OptionStageFill
  intendedQty : Int
  remainingQty : Int
  t1Qty : Int
  totalStatutoryCosts : ℚ
  t1RealizedPnl : ℚ
  finalRealizedPnl : ℚ
  grossRealizedPnl : ℚ
  netRealizedPnlInr : ℚ
  deriving DecidableEq

def holdings (record : FillReconciliationRecord) : Holdings where
  fills := record.fills
  intendedQty := record.intendedQty
  remainingQty := record.remainingQty
  t1Qty := record.t1Qty
  totalStatutoryCosts := record.totalStatutoryCosts
  t1RealizedPnl := record.t1RealizedPnl
  finalRealizedPnl := record.finalRealizedPnl
  grossRealizedPnl := record.grossRealizedPnl
  netRealizedPnlInr := record.netRealizedPnlInr

def undated (fill : OptionStageFill) : OptionStageFill := { fill with timestampUtc := 0 }

/-- The holdings but for the dates of the fills. -/
def Holdings.undated (h : Holdings) : Holdings := { h with fills := h.fills.map Restore.undated }

/-- The fill price is one of an option premium. -/
def ExecutedSignal.FilledAt (row : ExecutedSignal) (fill : ℚ) : Prop :=
  row.actualFillPrice = some fill ∧ 0 < fill ∧ fill ≤ spotThreshold

/-- The one fill of an entry for the row's whole quantity. -/
def ExecutedSignal.entryFill (row : ExecutedSignal) (fill : ℚ) (nowMs : Int) : OptionStageFill where
  stage := .entry
  price := fill
  quantity := row.tradeQty
  timestampUtc := nowMs
  turnover := roundTo 2 (fill * row.tradeQty)

/-- Nothing the file holds of a signal was updated after the clock of the restore. -/
structure FileCopies.NotAfter (file : FileCopies) (nowMs : Int) : Prop where
  signal : ∀ entry, file.signal = some entry → entry.updated ≤ nowMs
  reconciliation : ∀ entry, file.reconciliation = some entry → entry.updatedAtUtc ≤ nowMs

/-- The copies hold the record's holdings, and the signal the record's remaining quantity. -/
def Copies.Preserve (copies : Copies) (same : Holdings → Holdings → Prop) (stored : Reconciliation) : Prop :=
  (∃ restored, copies.reconciliation = some restored ∧ same (holdings restored.record) (holdings stored.record)) ∧
    ∃ sig, copies.signal = some sig ∧ sig.remainingQty = stored.record.remainingQty

/-- The record is nothing but the entry of the row's whole quantity, and its signal is still open. -/
structure BareEntry (row : ExecutedSignal) (fill : ℚ) (record : FillReconciliationRecord) : Prop where
  entry : record.fills.map undated = [row.entryFill fill 0]
  whole : record.intendedQty = row.tradeQty ∧ record.remainingQty = row.tradeQty
  staged : record.t1Qty = stagedQty row.tradeQty
    (entryLot (row.signalInstance ⟨0, fun _ => false⟩) (some row.lotSize)).1
  unbooked : record.totalStatutoryCosts = 0 ∧ record.t1RealizedPnl = 0 ∧ record.finalRealizedPnl = 0 ∧
    record.grossRealizedPnl = 0
  profit : record.netRealizedPnlInr = if row.isClosed then row.actualPnlInr.getD 0 else 0
  opened : row.isClosed = true → row.tradeQty = 0

section Restored
variable {clock : RestoreClock} {row : ExecutedSignal} {fill : ℚ}

theorem premium_of_filledAt (h : row.FilledAt fill) : row.premium row.actualFillPrice = some fill := by
  obtain ⟨hfill, -, hle⟩ := h
  rw [ExecutedSignal.premium, hfill]
  split
  · rw [Option.filter_some, if_pos (decide_eq_true hle)]
  · rfl

theorem entryLot_signalInstance (clock clock' : RestoreClock) (row : ExecutedSignal) (lot : Option Int) :
    entryLot (row.signalInstance clock) lot = entryLot (row.signalInstance clock') lot := by
  rw [entryLot, entryLot]
  split <;> rfl

/-- The record and the signal that the second reconciliation makes. -/
theorem reconciledEntry_eq (h : row.FilledAt fill) (clock : RestoreClock) :
    holdings (row.reconciledEntry clock fill).2.record =
        { fills := [row.entryFill fill clock.nowMs]
          intendedQty := row.tradeQty
          remainingQty := if row.isClosed then 0 else row.tradeQty
          t1Qty := stagedQty row.tradeQty
            (entryLot (row.signalInstance ⟨0, fun _ => false⟩) (some row.lotSize)).1
          totalStatutoryCosts := 0
          t1RealizedPnl := 0
          finalRealizedPnl := 0
          grossRealizedPnl := 0
          netRealizedPnlInr := if row.isClosed then row.actualPnlInr.getD 0 else 0 } ∧
      (row.reconciledEntry clock fill).1.remainingQty = row.tradeQty ∧
      (row.reconciledEntry clock fill).1.lastUpdatedUtc = clock.nowMs ∧
      (row.reconciledEntry clock fill).2.updatedAtUtc = clock.nowMs := by
  have hgood : ¬(fill ≤ 0 ∨ ((row.signalInstance clock).isOption = true ∧ spotThreshold < fill)) := by
    rintro (hle | ⟨-, hlt⟩)
    · exact absurd h.2.1 (not_lt.mpr hle)
    · exact absurd hlt (not_lt.mpr h.2.2)
  rw [ExecutedSignal.reconciledEntry, reconcileEntry]
  dsimp only
  rw [if_neg hgood, entryLot_signalInstance clock ⟨0, fun _ => false⟩]
  cases hclosed : row.isClosed with
  | true => exact ⟨by simp [holdings, ExecutedSignal.entryFill], rfl, rfl, rfl⟩
  | false => exact ⟨by simp [holdings, ExecutedSignal.entryFill], rfl, rfl, rfl⟩

theorem restored_copies (h : row.FilledAt fill) {file : FileCopies} (hfile : file.NotAfter clock.nowMs) :
    (((({} : Copies).fromRow clock row).fromFile clock file).signal = some (row.reconciledEntry clock fill).1) ∧
      ((({} : Copies).fromRow clock row).fromFile clock file).reconciliation =
        some (row.reconciledEntry clock fill).2 := by
  obtain ⟨-, -, hsignal, hrecon⟩ := reconciledEntry_eq h clock
  simp only [Copies.fromFile, Copies.fromRow, Option.all_none, if_true, premium_of_filledAt h]
  constructor
  · cases hentry : file.signal with
    | none => rfl
    | some entry =>
      simp [Dict.keepNewer, hsignal, hfile.signal entry hentry]
  · cases hentry : file.reconciliation with
    | none => rfl
    | some entry =>
      simp [Dict.keepNewer, hrecon, hfile.reconciliation entry hentry]

private theorem map_undated_singleton {fills : List OptionStageFill} (fill : OptionStageFill)
    (h : fills.map undated = [undated fill]) (hdate : ∀ f ∈ fills, f.timestampUtc = fill.timestampUtc) :
    fills = [fill] := by
  obtain ⟨f, rfl, hf⟩ := List.map_eq_singleton_iff.mp h
  have hsame := hdate f List.mem_cons_self
  obtain ⟨stage, price, quantity, timestampUtc, turnover, totalCost, realizedPnlInr⟩ := f
  obtain ⟨stage', price', quantity', timestampUtc', turnover', totalCost', realizedPnlInr'⟩ := fill
  simp only [undated, OptionStageFill.mk.injEq] at hf
  simp only at hsame
  obtain ⟨rfl, rfl, rfl, -, rfl, rfl, rfl⟩ := hf
  rw [hsame]

end Restored

section Preserved
variable {clock : RestoreClock} {table : Table} {row : ExecutedSignal} {fill : ℚ} {stored : Reconciliation}
  {file : Option StateFile}

private theorem preserve_iff {copies : Copies} {same : Holdings → Holdings → Prop} {sig : SignalInstance}
    {restored : Reconciliation} (hsignal : copies.signal = some sig)
    (hrecon : copies.reconciliation = some restored) :
    copies.Preserve same stored ↔
      same (holdings restored.record) (holdings stored.record) ∧ sig.remainingQty = stored.record.remainingQty := by
  rw [Copies.Preserve, hsignal, hrecon]
  constructor
  · rintro ⟨⟨_, hfound, hsame⟩, _, hfound', hqty⟩
    cases hfound
    cases hfound'
    exact ⟨hsame, hqty⟩
  · rintro ⟨hsame, hqty⟩
    exact ⟨⟨restored, rfl, hsame⟩, sig, rfl, hqty⟩

theorem restore_preserve_iff (hrow : row ∈ table.rows) (hselected : row.selected = true)
    (hfill : row.FilledAt fill) (hfile : (fileCopies file row.signalId).NotAfter clock.nowMs)
    (same : Holdings → Holdings → Prop) :
    ((({} : Managers).restore clock table file).copies row.signalId).Preserve same stored ↔
      same (holdings (row.reconciledEntry clock fill).2.record) (holdings stored.record) ∧
        row.tradeQty = stored.record.remainingQty := by
  have hempty : ({} : Managers).copies row.signalId = {} := rfl
  obtain ⟨hsignal, hrecon⟩ := restored_copies hfill hfile
  rw [copies_restore hrow hselected, hempty]
  rw [preserve_iff hsignal hrecon, (reconciledEntry_eq hfill clock).2.1, Int.cast_inj]

theorem undated_eq_iff (hfill : row.FilledAt fill) (clock : RestoreClock) (record : FillReconciliationRecord) :
    (holdings (row.reconciledEntry clock fill).2.record).undated = (holdings record).undated ∧
        row.tradeQty = record.remainingQty ↔ BareEntry row fill record := by
  rw [(reconciledEntry_eq hfill clock).1]
  simp only [holdings, Holdings.undated, Holdings.mk.injEq]
  constructor
  · rintro ⟨⟨hfills, hintended, hremaining, hstaged, hcosts, ht1, hfinal, hgross, hnet⟩, hqty⟩
    refine ⟨hfills.symm, ⟨hintended.symm, hqty.symm⟩, hstaged.symm,
      ⟨hcosts.symm, ht1.symm, hfinal.symm, hgross.symm⟩, hnet.symm, ?_⟩
    intro hclosed
    rw [if_pos hclosed, ← hqty] at hremaining
    exact hremaining.symm
  · rintro ⟨hfills, ⟨hintended, hremaining⟩, hstaged, ⟨hcosts, ht1, hfinal, hgross⟩, hnet, hopened⟩
    refine ⟨⟨hfills.symm, hintended.symm, ?_, hstaged.symm, hcosts.symm, ht1.symm, hfinal.symm, hgross.symm,
      hnet.symm⟩, hremaining.symm⟩
    rw [hremaining]
    split
    · rename_i hclosed
      exact (hopened hclosed).symm
    · rfl

/-- A restore into empty managers keeps the holdings of a filled row exactly where the stored record was nothing
but the entry of an open signal; the dates of the fills as well only where they are those of the restore. -/
theorem holdings_preserved_iff (hrow : row ∈ table.rows) (hselected : row.selected = true)
    (hfill : row.FilledAt fill) (_hstored : row.reconJson = some stored)
    (hfile : (fileCopies file row.signalId).NotAfter clock.nowMs) :
    (((({} : Managers).restore clock table file).copies row.signalId).Preserve
        (fun restored saved => restored.undated = saved.undated) stored ↔
      BareEntry row fill stored.record) ∧
    (((({} : Managers).restore clock table file).copies row.signalId).Preserve Eq stored ↔
      BareEntry row fill stored.record ∧ ∀ f ∈ stored.record.fills, f.timestampUtc = clock.nowMs) := by
  rw [restore_preserve_iff hrow hselected hfill hfile, restore_preserve_iff hrow hselected hfill hfile,
    undated_eq_iff hfill]
  refine ⟨Iff.rfl, ?_⟩
  have hfresh := (reconciledEntry_eq hfill clock).1
  constructor
  · rintro ⟨hsame, hqty⟩
    refine ⟨(undated_eq_iff hfill clock stored.record).mp ⟨congrArg Holdings.undated hsame, hqty⟩, ?_⟩
    rw [hfresh] at hsame
    have hfills : [_] = stored.record.fills := congrArg Holdings.fills hsame
    intro f hf
    rw [← hfills, List.mem_singleton] at hf
    rw [hf]
    rfl
  · rintro ⟨hbare, hdate⟩
    obtain ⟨hundated, hqty⟩ := (undated_eq_iff hfill clock stored.record).mpr hbare
    refine ⟨?_, hqty⟩
    rw [hfresh] at hundated ⊢
    have hfills := map_undated_singleton (row.entryFill fill clock.nowMs) hbare.entry hdate
    simp only [Holdings.undated, holdings, Holdings.mk.injEq] at hundated ⊢
    exact ⟨hfills.symm, hundated.2⟩

end Preserved

def enteredRecord : Reconciliation where
  record :=
    { lotSize := 75, intendedQty := 150, remainingQty := 150, t1Qty := 75, entryFillPrice := 100
      fills := [{ stage := .entry, price := 100, quantity := 150, timestampUtc := 2, turnover := 15000 }] }
  createdAtUtc := 2
  updatedAtUtc := 2

def enteredRow : ExecutedSignal where
  signalId := "two lots"
  underlying := "NIFTY"
  direction := "LONG_CALL"
  optionSymbol := some "NIFTY24000CE"
  lots := 2
  quantity := 150
  spotPriceAtCreation := some 24000
  actualFillPrice := some 100
  status := "EXECUTED"
  createdAtUtc := 1
  updatedAtUtc := 2
  reconJson := some enteredRecord

def stagedRecord : Reconciliation where
  record :=
    { lotSize := 75, intendedQty := 150, remainingQty := 75, t1Qty := 75, entryFillPrice := 100
      t1FillPrice := some 120, t1RealizedPnl := 1400, grossRealizedPnl := 1500, totalStatutoryCosts := 100
      netRealizedPnlInr := 1400
      fills :=
        [{ stage := .entry, price := 100, quantity := 150, timestampUtc := 2, turnover := 15000 },
          { stage := .target1, price := 120, quantity := 75, timestampUtc := 3, turnover := 9000
            totalCost := 100, realizedPnlInr := 1400 }] }
  createdAtUtc := 2
  updatedAtUtc := 3

def stagedRow : ExecutedSignal :=
  { enteredRow with status := "TARGET_1_HIT", t1Hit := some true, reconJson := some stagedRecord }

def atTen : RestoreClock := ⟨10, fun _ => true⟩

def enteredTable : Table := ⟨[enteredRow], by decide⟩

def stagedTable : Table := ⟨[stagedRow], by decide⟩

theorem holdings_preserved_entered :
    (((({} : Managers).restore atTen enteredTable none).copies enteredRow.signalId).Preserve
        (fun restored saved => restored.undated = saved.undated) enteredRecord ↔
      BareEntry enteredRow 100 enteredRecord.record) ∧
    (((({} : Managers).restore atTen enteredTable none).copies enteredRow.signalId).Preserve Eq enteredRecord ↔
      BareEntry enteredRow 100 enteredRecord.record ∧
        ∀ f ∈ enteredRecord.record.fills, f.timestampUtc = atTen.nowMs) :=
  have hrow : enteredRow ∈ enteredTable.rows := List.mem_singleton_self enteredRow
  have hselected : enteredRow.selected = true := by decide +kernel
  have hfill : enteredRow.FilledAt 100 := ⟨rfl, by decide +kernel, by decide +kernel⟩
  have hstored : enteredRow.reconJson = some enteredRecord := rfl
  have hfile : (fileCopies none enteredRow.signalId).NotAfter atTen.nowMs := by
    constructor <;> intro entry h <;> cases h
  holdings_preserved_iff hrow hselected hfill hstored hfile

/-- The restore gives the sold lot back to the signal, and the record its whole quantity and no profit. -/
theorem staged_exit_forgotten :
    ¬((({} : Managers).restore atTen stagedTable none).copies "two lots").Preserve
        (fun restored saved => restored.undated = saved.undated) stagedRecord ∧
      ((({} : Managers).restore atTen stagedTable none).copies "two lots").signal.map
        (fun sig => sig.remainingQty) = some 150 := by
  constructor
  · rintro ⟨⟨restored, hrestored, hsame⟩, -⟩
    have hprofit := congrArg Holdings.netRealizedPnlInr hsame
    have hzero : ((({} : Managers).restore atTen stagedTable none).copies "two lots").reconciliation.map
        (fun restored => restored.record.netRealizedPnlInr) = some 0 := by decide +kernel
    rw [hrestored] at hzero
    have hnet : restored.record.netRealizedPnlInr = 0 := Option.some.inj hzero
    simp only [Holdings.undated, holdings, hnet, stagedRecord] at hprofit
    norm_num at hprofit
  · decide +kernel

end Droid.Restore
