import Droid.Audit.Ledger
import Droid.Signals.OutcomeTracker

/-! The rows of the signal desk are views of the ledger's records: each writer keeps them in step. -/
namespace Droid.Audit
open Lib Signals

def statusText : AuditStatus → String
  | .state s => s.label
  | .executed => "EXECUTED"
  | .won => "WON"
  | .lost => "LOST"
  | .void => "VOID"

structure Shows (desk : Signals.AuditTradeRecord) (row : AuditTradeRecord) : Prop where
  buys : row.side = "BUY"
  isOption : desk.isOption = row.isOption
  isBullish : desk.isBullish = row.isBullish
  triggerPrice : desk.triggerPrice = row.triggerPrice
  lotSize : desk.lotSize = row.lotSize
  lots : desk.lots = row.lots
  quantity : desk.quantity = row.quantity
  actualFillPrice : desk.actualFillPrice = row.actualFillPrice
  exitPrice : desk.exitPrice = row.exitPrice
  exitReason : desk.exitReason = row.exitReason
  actualPnlInr : desk.actualPnlInr = row.actualPnlInr
  economicsUnavailable : desk.economicsUnavailable = row.economicsUnavailable
  status : statusText desk.status = row.status

namespace Shows
variable {desk : Signals.AuditTradeRecord} {row : AuditTradeRecord}

theorem settled_text (status : AuditStatus) :
    statusText status ∈ settledStatuses ↔ status ∈ Signals.settledStatuses := by
  cases status with
  | state s => cases s <;> decide
  | executed => decide
  | won => decide
  | lost => decide
  | void => decide

theorem executed_text (status : AuditStatus) : statusText status = "EXECUTED" ↔ status = .executed := by
  cases status with
  | state s => cases s <;> decide
  | executed => decide
  | won => decide
  | lost => decide
  | void => decide

theorem confirmed_text (s : SignalFsmState) : s.label = "CONFIRMED" ↔ s = .confirmed := by
  cases s <;> decide

theorem settled (h : Shows desk row) : desk.settled = row.settled := by
  rw [Signals.AuditTradeRecord.settled, AuditTradeRecord.settled, ← h.status]
  exact decide_eq_decide.mpr (settled_text desk.status).symm

theorem buysOption (h : Shows desk row) : row.buysOption = row.isOption := by
  simp [AuditTradeRecord.buysOption, h.buys]

theorem recordStateTransition (h : Shows desk row) (nowMs : Int) (toState : SignalFsmState)
    (marketPrice : Option ℚ) (reason : String) :
    Shows (desk.recordStateTransition toState)
      (row.recordStateTransition nowMs toState.label marketPrice reason) := by
  rw [Signals.AuditTradeRecord.recordStateTransition, AuditTradeRecord.recordStateTransition, h.settled]
  by_cases hsettled : row.settled = true
  · rw [if_pos (.inl hsettled), if_pos hsettled]
    exact h
  · rw [if_neg hsettled]
    have hheld : (row.status ∈ ["WON", "LOST", "CLOSED"] ∧ toState.label ∉ ["WON", "LOST", "CLOSED"]) ∨
        (row.status = "EXECUTED" ∧ toState.label = "CONFIRMED") ↔
          desk.status = .executed ∧ toState = .confirmed := by
      rw [← h.status, executed_text, confirmed_text]
      refine or_iff_right ?_
      rintro ⟨hdone, -⟩
      rw [h.status] at hdone
      have hwords : ∀ status ∈ ["WON", "LOST", "CLOSED"], status ∈ settledStatuses := by decide
      exact hsettled (decide_eq_true (hwords row.status hdone))
    by_cases hstay : desk.status = .executed ∧ toState = .confirmed
    · rw [if_pos (.inr hstay)]
      refine { h with status := ?_ }
      simp only [decide_eq_true (hheld.mpr hstay), if_true]
      exact h.status
    · rw [if_neg fun hm => hm.elim hsettled hstay]
      refine { h with status := ?_ }
      simp only [decide_eq_false (mt hheld.mp hstay), Bool.false_eq_true, if_false]
      rfl

theorem recordPaperExecuted (h : Shows desk row) (nowMs : Int) (fill : PaperFill) (hside : fill.side = "BUY")
    (mark : Option ℚ) :
    Shows (desk.recordPaperExecuted fill.fillPrice fill.quantity fill.lots)
      (row.recordPaperExecuted nowMs fill mark) := by
  refine { h with buys := ?_, lots := rfl, quantity := rfl, actualFillPrice := rfl, status := rfl }
  show ((givenText (some fill.side)).getD "BUY").toUpper = "BUY"
  rw [hside]
  decide +kernel

theorem canonicalNet (h : Shows desk row) (recon : Option FillReconciliationRecord) :
    desk.canonicalNet recon =
      (row.canonicalRecord recon).map fun record => roundTo 2 record.netRealizedPnlInr := by
  cases recon with
  | none => rfl
  | some record =>
    have hdomain : row.sameDomain record =
        if record.entryFillPrice ≤ 0 ∧ (truthy desk.actualFillPrice).any (0 < ·) then false
        else (truthy desk.actualFillPrice).all fun fill =>
          spotThreshold < fill ↔ spotThreshold < record.entryFillPrice := by
      rw [AuditTradeRecord.sameDomain, h.actualFillPrice]
      split
      · rename_i hmissing
        exact decide_eq_false fun hm => hm.1 hmissing
      · rename_i hreal
        simp [hreal]
    rw [Signals.AuditTradeRecord.canonicalNet, AuditTradeRecord.canonicalRecord, Option.filter_some,
      Option.filter_some]
    by_cases hreal : ¬ record.synthetic = true ∧ record.isFullyClosed = true
    · rw [if_pos (decide_eq_true hreal)]
      simp only [← hdomain]
      cases row.sameDomain record with
      | true => simp [hreal]
      | false => simp
    · rw [if_neg fun hm => hreal (of_decide_eq_true hm), if_neg ?_]
      · rfl
      · exact fun hm => hreal ⟨(of_decide_eq_true hm).1, (of_decide_eq_true hm).2.1⟩

theorem grossPnl (h : Shows desk row) (exitPrice : ℚ) :
    row.grossPnl exitPrice =
      let qty := if desk.quantity ≠ 0 then desk.quantity else desk.lots * desk.lotSize
      let gross := roundTo 2 (desk.pointsDiff exitPrice * qty)
      if desk.isOption then max gross (-roundTo 2 (desk.actualFillPrice.getD desk.triggerPrice * qty))
      else gross := by
  have hpoints : desk.pointsDiff exitPrice = row.pointsDiff exitPrice := by
    rw [Signals.AuditTradeRecord.pointsDiff, AuditTradeRecord.pointsDiff, AuditTradeRecord.entryPrice,
      if_pos h.buys, h.isOption, h.isBullish, h.actualFillPrice, h.triggerPrice]
  rw [AuditTradeRecord.grossPnl, AuditTradeRecord.tradeQty, AuditTradeRecord.entryPrice, h.buysOption, hpoints,
    h.isOption, h.quantity, h.lots, h.lotSize, h.actualFillPrice, h.triggerPrice]

/-- The desk and the ledger judge a result alike. -/
theorem verdict_text (exitReason : String) (pnl : ℚ) :
    statusText
        (if exitReason ∈ ["STOP_LOSS_HIT", "LOSS"] then .lost
        else if exitReason ∈ ["TARGET_1_HIT", "TARGET_2_HIT", "WON"] then .won
        else if 0 < pnl then .won else if pnl < 0 then .lost else .state .closed) =
      (AuditTradeRecord.verdict exitReason pnl).2 := by
  rw [AuditTradeRecord.verdict]
  by_cases hloss : exitReason ∈ ["STOP_LOSS_HIT", "LOSS"]
  · rw [if_pos hloss, if_pos hloss]
    rfl
  · rw [if_neg hloss, if_neg hloss]
    by_cases hwin : exitReason ∈ ["TARGET_1_HIT", "TARGET_2_HIT", "WON"]
    · rw [if_pos hwin, if_pos hwin]
      rfl
    · rw [if_neg hwin, if_neg hwin, apply_ite statusText, apply_ite statusText]
      rfl

theorem recordSquareOff (h : Shows desk row) (hopen : row.settled = false) (nowMs : Int)
    (recon : Option FillReconciliationRecord) (exitPrice : ℚ) (exitReason : String) :
    Shows (desk.squareOff recon exitPrice exitReason) (row.recordSquareOff nowMs recon exitPrice exitReason) := by
  have heconomics : desk.economicsOk exitPrice = row.economicsOk exitPrice := by
    rw [Signals.AuditTradeRecord.economicsOk, AuditTradeRecord.economicsOk, h.isOption, h.actualFillPrice]
  have hpnl : (row.result recon exitPrice).pnl = (desk.canonicalNet recon).getD (row.grossPnl exitPrice) := by
    rw [h.canonicalNet, AuditTradeRecord.result]
    cases row.canonicalRecord recon <;> rfl
  rw [Signals.AuditTradeRecord.squareOff, AuditTradeRecord.recordSquareOff,
    if_neg (Bool.eq_false_iff.mp hopen), heconomics]
  cases hpriced : row.economicsOk exitPrice with
  | false =>
    simp only [Bool.false_eq_true, not_false_eq_true, if_true, if_false]
    refine { h with exitPrice := ?_, exitReason := rfl, actualPnlInr := rfl, economicsUnavailable := rfl
                    status := rfl }
    rw [h.isOption]
    rfl
  | true =>
    simp only [not_true_eq_false, if_true, if_false]
    rw [← h.grossPnl exitPrice, ← hpnl]
    refine { h with exitPrice := rfl, exitReason := rfl, actualPnlInr := rfl, status := ?_ }
    exact verdict_text exitReason _

end Shows

end Droid.Audit
