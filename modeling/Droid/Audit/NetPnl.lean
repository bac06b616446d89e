import Droid.Audit.Finality
import Droid.Signals.Legs

/-! The ledger beside the reconciler: a square-off books the net result of the reconciler's legs. -/
namespace Droid.Audit
open Lib Signals FillReconciliationRecord
open Reconciliation (twoLots)

structure Books where
  ledger : Ledger
  reconciler : Dict SignalId FillReconciliationRecord := Dict.empty

/-- What can happen to the books before a square-off: a tick of an underlying, a sync with the open
paper positions, and a call of the reconciler for a signal. -/
inductive BookEvent where
  | quote (nowMs : Int) (underlying : String) (currentPrice : ℚ) (mark : AuditTradeRecord → MarkReading)
  | sync (positions : List LivePosition)
  | reconcile (sig : SignalInstance) (call : ReconcilerCall)

namespace Books

def step (s : Books) : BookEvent → Books
  | .quote nowMs underlying currentPrice mark =>
    { s with ledger := s.ledger.updateLiveQuote nowMs underlying currentPrice mark }
  | .sync positions => { s with ledger := s.ledger.syncWithPaperService positions }
  | .reconcile sig call =>
    match (Reconciliation.step { sig, record := s.reconciler.get? sig.signalId } call).record with
    | none => s
    | some record => { s with reconciler := s.reconciler.insert sig.signalId record }

/-- The residual leg of a tracked trade is reconciled first, for the signal the FSM holds. -/
def finishResidual (s : Books) (nowMs : Int) (sig : Option SignalInstance) (id : SignalId) (exitPrice : ℚ)
    (exitReason : String) : Books :=
  match s.reconciler.get? id, sig with
  | some record, some sig =>
    if record.synthetic ∨ record.isFullyClosed then s
    else
      let (_, record) := reconcileFinalExit nowMs sig (some record) exitPrice exitReason
      { s with reconciler := s.reconciler.insert id record }
  | _, _ => s

/-- `record_square_off`, given the signal that the FSM holds under the id. -/
def recordSquareOff (s : Books) (nowMs : Int) (sig : Option SignalInstance) (id : SignalId) (exitPrice : ℚ)
    (exitReason : String) : Books :=
  match s.ledger.get? id with
  | none => s
  | some row =>
    let s :=
      if ¬ row.settled ∧ row.economicsOk exitPrice then s.finishResidual nowMs sig id exitPrice exitReason else s
    { s with ledger := s.ledger.recordSquareOff nowMs id (s.reconciler.get? id) exitPrice exitReason }

/-- Every record of the reconciler is accounted for by its legs. -/
def Tallied (s : Books) : Prop := ∀ id, ∀ record ∈ s.reconciler.get? id, record.Tallied

theorem step_tallied (s : Books) (event : BookEvent) (h : s.Tallied) : (s.step event).Tallied := by
  cases event with
  | quote nowMs underlying currentPrice mark => exact h
  | sync positions => exact h
  | reconcile sig call =>
    obtain ⟨record, hstep, hrecord⟩ :=
      Reconciliation.step_tallied (s := { sig, record := s.reconciler.get? sig.signalId })
        (h sig.signalId) call
    rw [step, hstep]
    intro id record' hrecord'
    rw [Dict.get?_insert] at hrecord'
    split at hrecord'
    · cases hrecord'
      exact hrecord
    · exact h id record' hrecord'

theorem run_tallied (ledger : Ledger) (events : List BookEvent) : (run step { ledger } events).Tallied := by
  apply run_of_always (P := Tallied)
  apply always_of_step step_tallied
  intro id record hrecord
  rw [Dict.get?_empty] at hrecord
  cases hrecord

/-- The runner leg is still to be sold, at a price of its domain, for a signal that is held. -/
def sellsRunner (record : FillReconciliationRecord) (sig : Option SignalInstance) (exitPrice : ℚ) : Bool :=
  ¬ record.isFullyClosed ∧ 0 < record.remainingQty ∧ sig.any fun held => ¬ record.domainMismatch held exitPrice

/-- The record at settlement: closed, with one runner leg more where that was to be sold, and with
the net result of its legs. -/
structure Finished (sig : Option SignalInstance) (exitPrice : ℚ) (record record' : FillReconciliationRecord) :
    Prop where
  closed : record'.isFullyClosed = true
  kept : record.isFullyClosed = true → record' = record
  runner : ∃ runner, record'.fills = record.fills ++ runner ∧
    (∀ f ∈ runner, f.price = exitPrice ∧ f.quantity = record.remainingQty) ∧
    runner.length = if sellsRunner record sig exitPrice then 1 else 0
  legs : record'.NetOfLegs

section SquareOff
variable {s : Books} {nowMs : Int} {sig : Option SignalInstance} {id : SignalId} {exitPrice : ℚ}
  {exitReason : String} {row : AuditTradeRecord} {record : FillReconciliationRecord}

theorem finishResidual_ledger (s : Books) (nowMs : Int) (sig : Option SignalInstance) (id : SignalId)
    (exitPrice : ℚ) (exitReason : String) :
    (s.finishResidual nowMs sig id exitPrice exitReason).ledger = s.ledger := by
  rw [finishResidual.eq_def]
  split
  · split <;> rfl
  · rfl

theorem finishResidual_finished (htallied : s.Tallied) (hrecord : record ∈ s.reconciler.get? id)
    (hreal : record.synthetic = false)
    (hfinal : record.isFullyClosed = true ∨
      sig.isSome = true ∧ record.booked (.ofReason exitReason) exitPrice nowMs = false) :
    ∃ record' ∈ (s.finishResidual nowMs sig id exitPrice exitReason).reconciler.get? id,
      Finished sig exitPrice record record' ∧ record'.Tallied ∧ record'.synthetic = false ∧
        record'.entryFillPrice = record.entryFillPrice := by
  have hget : s.reconciler.get? id = some record := hrecord
  have hlegs := htallied id record hrecord
  by_cases hclosed : record.isFullyClosed = true
  · have hsame : s.finishResidual nowMs sig id exitPrice exitReason = s := by
      rw [finishResidual.eq_def, hget]
      cases sig with
      | none => rfl
      | some held => exact if_pos (.inr hclosed)
    have hidle : sellsRunner record sig exitPrice = false := by simp [sellsRunner, hclosed]
    rw [hsame]
    refine ⟨record, hrecord, ⟨hclosed, fun _ => rfl, ⟨[], ?_, fun _ hf => (nomatch hf), ?_⟩, hlegs.legs⟩,
      hlegs, hreal, rfl⟩
    · exact (List.append_nil _).symm
    · rw [hidle]
      rfl
  · obtain ⟨hheld, hbooked⟩ := hfinal.resolve_left hclosed
    obtain ⟨held, rfl⟩ := Option.isSome_iff_exists.mp hheld
    have hcloses : ClosesOut nowMs held record exitPrice (.ofReason exitReason) _ _ :=
      reconcileFinalExit_closes nowMs held (Bool.eq_false_iff.mp hbooked)
    have hdone : s.finishResidual nowMs (some held) id exitPrice exitReason =
        { s with reconciler := s.reconciler.insert id
                  (reconcileFinalExit nowMs held (some record) exitPrice exitReason).2 } := by
      rw [finishResidual.eq_def, hget]
      refine if_neg ?_
      rw [hreal]
      exact fun hm => hm.elim Bool.false_ne_true hclosed
    obtain ⟨runner, hfills, hrunner, hlength⟩ := hcloses.fills_eq
    have hlegs' : (reconcileFinalExit nowMs held (some record) exitPrice exitReason).2.Tallied :=
      reconcileFinalExit_tallied nowMs held (fun r hr => (Option.mem_some.mp hr) ▸ hlegs) exitPrice exitReason
    have hsells : sellsRunner record (some held) exitPrice =
        decide (0 < record.remainingQty ∧ record.domainMismatch held exitPrice = false) := by
      simp [sellsRunner, hclosed]
    refine ⟨_, ?_, ⟨hcloses.closed, fun hc => absurd hc hclosed, ⟨runner, hfills, hrunner, ?_⟩, hlegs'.legs⟩,
      hlegs', ?_, ?_⟩
    · rw [hdone, Dict.get?_insert, if_pos rfl]
      rfl
    · rw [hlength, hsells]
      simp only [decide_eq_true_eq]
    · rw [reconcileFinalExit_synthetic]
      exact hreal
    · exact hcloses.entry_eq

theorem recordSquareOff_row (hrow : row ∈ s.ledger.get? id) :
    (s.recordSquareOff nowMs sig id exitPrice exitReason).ledger.get? id =
      some (row.recordSquareOff nowMs
        ((s.recordSquareOff nowMs sig id exitPrice exitReason).reconciler.get? id) exitPrice exitReason) := by
  have hget : s.ledger.get? id = some row := hrow
  have hmodify : ∀ s' : Books, s'.ledger = s.ledger → ∀ recon,
      (s'.ledger.recordSquareOff nowMs id recon exitPrice exitReason).get? id =
        some (row.recordSquareOff nowMs recon exitPrice exitReason) := by
    intro s' hledger recon
    rw [hledger, Ledger.recordSquareOff, Ledger.get?_modify, if_pos rfl, hget]
    rfl
  rw [recordSquareOff, hget]
  apply hmodify
  split
  · exact finishResidual_ledger s nowMs sig id exitPrice exitReason
  · rfl

theorem recordSquareOff_reconciler (hrow : row ∈ s.ledger.get? id) (hopen : row.settled = false)
    (hpriced : row.economicsOk exitPrice = true) :
    (s.recordSquareOff nowMs sig id exitPrice exitReason).reconciler =
      (s.finishResidual nowMs sig id exitPrice exitReason).reconciler := by
  rw [recordSquareOff, Option.mem_def.mp hrow]
  simp only [hopen, hpriced, Bool.false_eq_true, not_false_eq_true, and_self, if_true]

theorem closePriced_net {recon : Option FillReconciliationRecord} (h : row.canonicalRecord recon = some record) :
    (row.closePriced nowMs recon exitPrice exitReason).actualPnlInr =
      some (roundTo 2 record.netRealizedPnlInr) := by
  have hpnl : (row.result recon exitPrice).pnl = roundTo 2 record.netRealizedPnlInr := by
    rw [AuditTradeRecord.result, h]
  exact congrArg some hpnl

/-- After any run of entries, exits, syncs and ticks, the square-off of a trade whose record is real
and of its price domain books the net result of the finished record, or nothing where the prices
are not realized ones; the record being closed before, or closed now for a signal that is held. -/
theorem recordSquareOff_net (ledger : Ledger) (events : List BookEvent)
    (hrow : row ∈ (run step { ledger } events).ledger.get? id) (hopen : row.settled = false)
    (hrecord : record ∈ (run step { ledger } events).reconciler.get? id) (hreal : record.synthetic = false)
    (hdomain : row.sameDomain record = true)
    (hfinal : record.isFullyClosed = true ∨
      sig.isSome = true ∧ record.booked (.ofReason exitReason) exitPrice nowMs = false) :
    ∃ row' ∈ ((run step { ledger } events).recordSquareOff nowMs sig id exitPrice exitReason).ledger.get? id,
      row'.settled = true ∧
      if row.economicsOk exitPrice = true then
        ∃ record' ∈ ((run step { ledger } events).recordSquareOff nowMs sig id exitPrice
            exitReason).reconciler.get? id,
          Finished sig exitPrice record record' ∧ row'.actualPnlInr = some record'.netRealizedPnlInr
      else row'.actualPnlInr = none := by
  have htallied := run_tallied ledger events
  generalize run step { ledger } events = s at hrow hrecord htallied ⊢
  refine ⟨_, recordSquareOff_row hrow, row.recordSquareOff_closes nowMs _ exitPrice exitReason, ?_⟩
  rw [AuditTradeRecord.recordSquareOff, if_neg (Bool.eq_false_iff.mp hopen)]
  by_cases hpriced : row.economicsOk exitPrice = true
  · obtain ⟨record', hrecord', hfinished, hlegs, hreal', hentry⟩ :=
      finishResidual_finished htallied hrecord hreal hfinal
    have hdomain' : row.sameDomain record' = true := by
      rw [AuditTradeRecord.sameDomain, hentry]
      exact hdomain
    have hcanonical : row.canonicalRecord (some record') = some record' := by
      apply Option.filter_eq_some_iff.mpr
      simp [hreal', hfinished.closed, hdomain']
    rw [if_pos hpriced, if_pos hpriced, recordSquareOff_reconciler hrow hopen hpriced,
      Option.mem_def.mp hrecord', closePriced_net hcanonical, hlegs.netCents.roundTo_eq]
    exact ⟨record', rfl, hfinished, rfl⟩
  · rw [if_neg hpriced, if_neg hpriced]
    rfl

end SquareOff

def BooksNet (s : Books) (id : SignalId) : Prop :=
  ∃ row ∈ s.ledger.get? id, ∃ record ∈ s.reconciler.get? id, row.actualPnlInr = some record.netRealizedPnlInr

instance (s : Books) (id : SignalId) : Decidable (s.BooksNet id) :=
  inferInstanceAs (Decidable (∃ row ∈ s.ledger.get? id, ∃ record ∈ s.reconciler.get? id,
    row.actualPnlInr = some record.netRealizedPnlInr))

/-- Two lots of a call, bought at 100. -/
def bought : Ledger :=
  run Ledger.step Dict.empty
    [.recordSignalCreated 0 { Ledger.longCall with signalId := twoLots.signalId, lots := 2 },
      .recordPaperExecuted 1000 twoLots.signalId
        { paperOrderId := "o", fillPrice := 100, quantity := 150, lots := 2 } none]

/-- The entry, and one lot sold at the first target. -/
def entryAndTarget : List BookEvent :=
  [.reconcile twoLots (.entry 1000 100 150 (some 75)), .reconcile twoLots (.target1 60000 150)]

def staged : Books := run step { ledger := bought } entryAndTarget

def stagedRow : AuditTradeRecord := (staged.ledger.get? twoLots.signalId).get (by decide +kernel)

def stagedRecord : FillReconciliationRecord := (staged.reconciler.get? twoLots.signalId).get (by decide +kernel)

/-- While the signal is held the second lot is sold at 200 with its net result. -/
theorem runner_booksNet :
    (staged.recordSquareOff 90000 (some twoLots) twoLots.signalId 200 "TARGET_2_HIT").BooksNet
      twoLots.signalId := by
  have hrow : stagedRow ∈ staged.ledger.get? twoLots.signalId := Option.get_mem _
  have hrecord : stagedRecord ∈ staged.reconciler.get? twoLots.signalId := Option.get_mem _
  have hpriced : stagedRow.economicsOk 200 = true := by decide +kernel
  obtain ⟨row', hrow', -, h⟩ := @recordSquareOff_net 90000 (some twoLots) twoLots.signalId 200 "TARGET_2_HIT"
    stagedRow stagedRecord bought entryAndTarget hrow (by decide +kernel) hrecord (by decide +kernel)
    (by decide +kernel) (.inr (by decide +kernel))
  rw [if_pos hpriced] at h
  obtain ⟨record', hrecord', -, hnet⟩ := h
  exact ⟨row', hrow', record', hrecord', hnet⟩

/-- An exit at an index level books nothing, and without the signal the gross of both lots is booked
over the net result of the first. -/
theorem runner_beside_net :
    (staged.reconciler.get? twoLots.signalId).any (fun record => ¬ record.synthetic ∧
        (staged.ledger.get? twoLots.signalId).any (·.sameDomain record)) = true ∧
      ¬ (staged.recordSquareOff 90000 (some twoLots) twoLots.signalId 24800 "CLOSED").BooksNet
        twoLots.signalId ∧
      ¬ (staged.recordSquareOff 90000 none twoLots.signalId 200 "TARGET_2_HIT").BooksNet twoLots.signalId := by
  decide +kernel

end Books

end Droid.Audit
