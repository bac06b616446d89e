import Droid.Audit.Ledger

/-! Runs of the ledger's writers: which of them leave a settled trade as it was booked. -/
namespace Droid.Audit
open Lib Signals

/-- A call of one of the ledger's writers, with the time and what the marks and the reconciler answer. -/
inductive LedgerCall where
  | recordSignalCreated (nowMs : Int) (terms : SignalTerms)
  | recordStateTransition (nowMs : Int) (id : SignalId) (toState : String) (marketPrice : Option ℚ)
      (reason : String)
  | recordPaperExecuted (nowMs : Int) (id : SignalId) (fill : PaperFill) (mark : Option ℚ)
  | updateLiveQuote (nowMs : Int) (underlying : String) (currentPrice : ℚ)
      (mark : AuditTradeRecord → MarkReading)
  | recordSquareOff (nowMs : Int) (id : SignalId) (recon : Option FillReconciliationRecord)
      (exitPrice : ℚ) (exitReason : String)

structure Booked where
  status : String
  exitPrice : Option ℚ
  actualPnlInr : Option ℚ
  actualPnlPoints : Option ℚ
  actualPnlPct : Option ℚ
  theoreticalPnlPoints : Option ℚ
  theoreticalPnlInr : Option ℚ
  totalPnlInr : Option ℚ
  quantity : Int
  actualFillPrice : Option ℚ
  stateHistory : List AuditStateEvent

namespace AuditTradeRecord

def booked (row : AuditTradeRecord) : Booked where
  status := row.status
  exitPrice := row.exitPrice
  actualPnlInr := row.actualPnlInr
  actualPnlPoints := row.actualPnlPoints
  actualPnlPct := row.actualPnlPct
  theoreticalPnlPoints := row.theoreticalPnlPoints
  theoreticalPnlInr := row.theoreticalPnlInr
  totalPnlInr := row.totalPnlInr
  quantity := row.quantity
  actualFillPrice := row.actualFillPrice
  stateHistory := row.stateHistory

theorem settled_of_booked {row row' : AuditTradeRecord} (h : row'.booked = row.booked) :
    row'.settled = row.settled := by
  have hstatus : row'.status = row.status := congrArg Booked.status h
  rw [settled, settled, hstatus]

theorem recordStateTransition_settled {row : AuditTradeRecord} (h : row.settled = true) (nowMs : Int)
    (toState : String) (marketPrice : Option ℚ) (reason : String) :
    row.recordStateTransition nowMs toState marketPrice reason = row := if_pos h

theorem updateLiveQuote_settled {row : AuditTradeRecord} (h : row.settled = true) (nowMs : Int)
    (currentPrice : ℚ) (mark : AuditTradeRecord → MarkReading) :
    row.updateLiveQuote nowMs currentPrice mark = row := by
  apply if_neg
  intro hlive
  have hdisjoint : ∀ status ∈ liveStatuses, status ∉ settledStatuses := by decide
  exact hdisjoint row.status hlive (of_decide_eq_true h)

theorem recordPaperExecuted_open (row : AuditTradeRecord) (nowMs : Int) (fill : PaperFill) (mark : Option ℚ) :
    (row.recordPaperExecuted nowMs fill mark).settled = false := by
  have hstatus : (row.recordPaperExecuted nowMs fill mark).status = "EXECUTED" := rfl
  rw [settled, hstatus]
  decide

end AuditTradeRecord

theorem SignalTerms.record_open (terms : SignalTerms) (nowMs : Int) : (terms.record nowMs).settled = false := by
  have hstatus : (terms.record nowMs).status =
      if terms.status = "CONFIRMED" then "CONFIRMED" else "ARMED" := rfl
  rw [AuditTradeRecord.settled, hstatus]
  split <;> decide

namespace Ledger

def step (ledger : Ledger) : LedgerCall → Ledger
  | .recordSignalCreated nowMs terms => ledger.recordSignalCreated nowMs terms
  | .recordStateTransition nowMs id toState marketPrice reason =>
    ledger.recordStateTransition nowMs id toState marketPrice reason
  | .recordPaperExecuted nowMs id fill mark => ledger.recordPaperExecuted nowMs id fill mark
  | .updateLiveQuote nowMs underlying currentPrice mark =>
    ledger.updateLiveQuote nowMs underlying currentPrice mark
  | .recordSquareOff nowMs id recon exitPrice exitReason =>
    ledger.recordSquareOff nowMs id recon exitPrice exitReason

/-- Every settled trade of the first ledger is still there in the second, booked as it was. -/
def Sealed (ledger ledger' : Ledger) : Prop :=
  ∀ id, ∀ row ∈ ledger.get? id, row.settled = true → ∃ row' ∈ ledger'.get? id, row'.booked = row.booked

def OpenAt (ledger : Ledger) (id : SignalId) : Prop := ∀ row ∈ ledger.get? id, row.settled = false

instance (ledger : Ledger) (id : SignalId) : Decidable (ledger.OpenAt id) :=
  inferInstanceAs (Decidable (∀ row ∈ ledger.get? id, row.settled = false))

def Spares (ledger : Ledger) : LedgerCall → Prop
  | .recordSignalCreated _ terms => ledger.OpenAt terms.signalId
  | .recordPaperExecuted _ id _ _ => ledger.OpenAt id
  | _ => True

variable {ledger ledger' : Ledger}

theorem Sealed.refl (ledger : Ledger) : Sealed ledger ledger := fun _ row hrow _ => ⟨row, hrow, rfl⟩

theorem Sealed.trans {a b c : Ledger} (hab : Sealed a b) (hbc : Sealed b c) : Sealed a c := by
  intro id row hrow hsettled
  obtain ⟨row', hrow', hbooked'⟩ := hab id row hrow hsettled
  rw [← AuditTradeRecord.settled_of_booked hbooked'] at hsettled
  obtain ⟨row'', hrow'', hbooked''⟩ := hbc id row' hrow' hsettled
  exact ⟨row'', hrow'', hbooked''.trans hbooked'⟩

theorem modify_sealed {id : SignalId} {f : AuditTradeRecord → AuditTradeRecord}
    (h : ∀ row ∈ ledger.get? id, row.settled = true → f row = row) : Sealed ledger (ledger.modify id f) := by
  intro x row hrow hsettled
  refine ⟨row, ?_, rfl⟩
  rw [get?_modify]
  by_cases hx : x = id
  · subst hx
    rw [if_pos rfl, Option.mem_def.mp hrow, Option.map_some, h row hrow hsettled]
    rfl
  · rw [if_neg hx]
    exact hrow

/-- A call that opens whatever row there is under an id seals the ledger only where none is settled. -/
theorem openAt_of_sealed {id : SignalId} (h : Sealed ledger ledger') (hopen : ledger'.OpenAt id) :
    ledger.OpenAt id := by
  intro row hrow
  by_contra hsettled
  have hsettled := Bool.of_not_eq_false hsettled
  obtain ⟨row', hrow', hbooked⟩ := h id row hrow hsettled
  rw [← AuditTradeRecord.settled_of_booked hbooked, hopen row' hrow'] at hsettled
  cases hsettled

theorem recordSignalCreated_sealed_iff (ledger : Ledger) (nowMs : Int) (terms : SignalTerms) :
    Sealed ledger (ledger.recordSignalCreated nowMs terms) ↔ ledger.OpenAt terms.signalId := by
  constructor
  · intro h
    apply openAt_of_sealed h
    intro row hrow
    rw [recordSignalCreated, Dict.get?_insert, if_pos rfl] at hrow
    cases hrow
    exact terms.record_open nowMs
  · intro hopen id row hrow hsettled
    refine ⟨row, ?_, rfl⟩
    rw [recordSignalCreated, Dict.get?_insert]
    by_cases hid : id = terms.signalId
    · -- nothing is settled under the new id
      rw [hid] at hrow
      rw [hopen row hrow] at hsettled
      cases hsettled
    · rw [if_neg hid]
      exact hrow

theorem recordPaperExecuted_sealed_iff (ledger : Ledger) (nowMs : Int) (id : SignalId) (fill : PaperFill)
    (mark : Option ℚ) : Sealed ledger (ledger.recordPaperExecuted nowMs id fill mark) ↔ ledger.OpenAt id := by
  constructor
  · intro h
    apply openAt_of_sealed h
    intro row hrow
    rw [recordPaperExecuted, get?_modify, if_pos rfl] at hrow
    obtain ⟨row', -, rfl⟩ := Option.map_eq_some_iff.mp hrow
    exact row'.recordPaperExecuted_open nowMs fill mark
  · intro hopen
    apply modify_sealed
    intro row hrow hsettled
    rw [hopen row hrow] at hsettled
    cases hsettled

theorem updateLiveQuote_sealed (ledger : Ledger) (nowMs : Int) (underlying : String) (currentPrice : ℚ)
    (mark : AuditTradeRecord → MarkReading) :
    Sealed ledger (ledger.updateLiveQuote nowMs underlying currentPrice mark) := by
  intro id row hrow hsettled
  refine ⟨row, ?_, rfl⟩
  rw [updateLiveQuote, Dict.get?_mapValues, Option.mem_def.mp hrow, Option.map_some,
    row.updateLiveQuote_settled hsettled, ite_self]
  rfl

/-- A call leaves the settled trades as they were booked exactly when it spares them. -/
theorem step_sealed_iff (ledger : Ledger) (call : LedgerCall) :
    Sealed ledger (ledger.step call) ↔ ledger.Spares call := by
  cases call with
  | recordSignalCreated nowMs terms => exact recordSignalCreated_sealed_iff ledger nowMs terms
  | recordStateTransition nowMs id toState marketPrice reason =>
    refine iff_of_true (modify_sealed fun row _ hsettled => ?_) trivial
    exact row.recordStateTransition_settled hsettled nowMs toState marketPrice reason
  | recordPaperExecuted nowMs id fill mark => exact recordPaperExecuted_sealed_iff ledger nowMs id fill mark
  | updateLiveQuote nowMs underlying currentPrice mark =>
    exact iff_of_true (updateLiveQuote_sealed ledger nowMs underlying currentPrice mark) trivial
  | recordSquareOff nowMs id recon exitPrice exitReason =>
    refine iff_of_true (modify_sealed fun row _ hsettled => ?_) trivial
    exact row.recordSquareOff_settled nowMs recon exitPrice exitReason hsettled

/-- What is settled somewhere along the run stays as it was booked. -/
def SettledFinal (ledger : Ledger) (calls : List LedgerCall) : Prop :=
  ∀ pre mid, pre ++ mid <+: calls → Sealed (run step ledger pre) (run step ledger (pre ++ mid))

/-- Settled trades are final along a run of the writers if and only if no call registers or fills a
trade that is settled by then. -/
theorem settledFinal_iff (ledger : Ledger) (calls : List LedgerCall) :
    ledger.SettledFinal calls ↔ Guarded step Spares ledger calls := by
  rw [SettledFinal, related_iff_guarded Sealed.refl (fun _ _ _ => Sealed.trans) ledger calls]
  apply guarded_congr (I := fun _ => True)
  · exact fun _ _ _ _ => trivial
  · exact fun ledger call _ => step_sealed_iff ledger call
  · trivial

def longCall : SignalTerms :=
  { signalId := "s", underlying := "NIFTY", direction := "LONG_CALL", spotPrice := 24800, trigger := 24800 }

def oneLot : PaperFill := { paperOrderId := "o", fillPrice := 120, quantity := 75, lots := 1 }

def stoppedOut : Ledger :=
  run step Dict.empty [.recordSignalCreated 0 longCall, .recordPaperExecuted 1000 "s" oneLot none,
    .recordSquareOff 2000 "s" none 100 "STOP_LOSS_HIT"]

/-- A late fill, and a second registration, open the settled trade again. -/
theorem stoppedOut_reopened :
    ¬ stoppedOut.SettledFinal [.recordPaperExecuted 3000 "s" oneLot none] ∧
      ¬ stoppedOut.SettledFinal [.recordSignalCreated 3000 longCall] := by
  have hsettled : ¬ stoppedOut.OpenAt "s" := by decide +kernel
  constructor
  · intro h
    have hsealed := h [] [.recordPaperExecuted 3000 "s" oneLot none] (List.prefix_refl _)
    refine hsettled (openAt_of_sealed hsealed ?_)
    decide +kernel
  · intro h
    have hsealed := h [] [.recordSignalCreated 3000 longCall] (List.prefix_refl _)
    refine hsettled (openAt_of_sealed hsealed ?_)
    decide +kernel

end Ledger

end Droid.Audit
