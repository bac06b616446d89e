import Droid.Signals.Reconciliation

/-! Exits of a signal whose entry was refused: which of them the quarantine withholds. -/
namespace Droid.Signals
open Lib FillReconciliationRecord

/-- The calls that a signal can still receive after its entry. -/
inductive ExitCall where
  | target1 (now : Int) (exitFillPrice : ℚ)
  | final (now : Int) (exitFillPrice : ℚ) (exitReason : String)

def ExitCall.call : ExitCall → ReconcilerCall
  | .target1 now exitFillPrice => .target1 now exitFillPrice
  | .final now exitFillPrice exitReason => .final now exitFillPrice exitReason

def ExitCall.finalPrice : ExitCall → Option ℚ
  | .target1 .. => none
  | .final _ exitFillPrice _ => some exitFillPrice

/-- A fill that is missing, not positive, or an index level for an option. -/
def Refused (sig : SignalInstance) (fillPrice : Option ℚ) : Prop :=
  ∀ price ∈ fillPrice, price ≤ 0 ∨ (sig.isOption = true ∧ spotThreshold < price)

namespace Reconciliation

/-- `reconcile_entry` of a fill that may be missing; that is refused as 0 is. -/
def enterFill (s : Reconciliation) (now : Int) (fillPrice : Option ℚ) (quantity : Int) (lotSize : Option Int) :
    Reconciliation := s.step (.entry now (fillPrice.getD 0) quantity lotSize)

def exit (s : Reconciliation) (call : ExitCall) : Reconciliation := s.step call.call

/-- Nothing is booked, and the record asks for its reconciliation. -/
def Quarantined (s : Reconciliation) : Prop :=
  ∃ record, s.record = some record ∧ record.grossRealizedPnl = 0 ∧ record.netRealizedPnlInr = 0 ∧
    record.reconciliationStatus = .reconciliationRequired

/-- The record asks for its reconciliation, whatever it has booked. -/
def Flagged (s : Reconciliation) : Prop :=
  ∃ record, s.record = some record ∧ record.reconciliationStatus = .reconciliationRequired

end Reconciliation

/-- Each first target is an index level quoted for an option, and so is the entry or the first final exit
when there is something to sell. -/
structure Withheld (option : Bool) (entry : ℚ) (quantity : Int) (calls : List ExitCall) : Prop where
  targets : ∀ now price, .target1 now price ∈ calls → option = true ∧ spotThreshold < price
  rest : 0 < quantity → ∀ price ∈ (calls.filterMap ExitCall.finalPrice).head?,
    option = true ∧ (spotThreshold < entry ∨ spotThreshold < price)

theorem withheld_nil (option : Bool) (entry : ℚ) (quantity : Int) : Withheld option entry quantity [] :=
  ⟨fun _ _ h => (nomatch h), fun _ _ h => (nomatch h)⟩

theorem withheld_target1 {option : Bool} {entry : ℚ} {quantity : Int} {now : Int} {price : ℚ}
    {calls : List ExitCall} : Withheld option entry quantity (.target1 now price :: calls) ↔
      (option = true ∧ spotThreshold < price) ∧ Withheld option entry quantity calls := by
  constructor
  · intro h
    exact ⟨h.targets now price List.mem_cons_self,
      fun now' price' hmem => h.targets now' price' (List.mem_cons_of_mem _ hmem), h.rest⟩
  · rintro ⟨hhead, h⟩
    refine ⟨fun now' price' hmem => ?_, h.rest⟩
    rcases List.mem_cons.mp hmem with heq | hmem
    · cases heq
      exact hhead
    · exact h.targets now' price' hmem

/-- After the first final exit there is nothing left to sell. -/
theorem withheld_final {option : Bool} {entry : ℚ} {quantity : Int} {now : Int} {price : ℚ} {reason : String}
    {calls : List ExitCall} : Withheld option entry quantity (.final now price reason :: calls) ↔
      (0 < quantity → option = true ∧ (spotThreshold < entry ∨ spotThreshold < price)) ∧
        Withheld option entry 0 calls := by
  constructor
  · intro h
    exact ⟨fun hq => h.rest hq price rfl,
      fun now' price' hmem => h.targets now' price' (List.mem_cons_of_mem _ hmem),
      fun hzero => absurd hzero (lt_irrefl 0)⟩
  · rintro ⟨hhead, h⟩
    refine ⟨fun now' price' hmem => ?_, fun hq price' hprice => ?_⟩
    · rcases List.mem_cons.mp hmem with heq | hmem
      · cases heq
      · exact h.targets now' price' hmem
    · cases hprice
      exact hhead hq

/-! ### What a refused entry leaves, and what a booking makes of it -/

structure Held (option : Bool) (entry : ℚ) (quantity : Int) (sig : SignalInstance)
    (record : FillReconciliationRecord) : Prop where
  option : sig.isOption = option
  contract : record.optionType = none ∧ record.strike = none
  entry : record.entryFillPrice = entry
  remaining : record.remainingQty = quantity
  target : record.t1Qty = 0
  fills : record.fills = []
  gross : record.grossRealizedPnl = 0
  net : record.netRealizedPnlInr = 0
  status : record.reconciliationStatus = .reconciliationRequired

/-- The entries that a quarantine keeps: none, or an option's at an index level. -/
def RefusedPrice (option : Bool) (entry : ℚ) : Prop := entry = 0 ∨ (option = true ∧ spotThreshold < entry)

theorem reconcileEntry_refused (now : Int) {sig : SignalInstance} {fillPrice : Option ℚ}
    (h : Refused sig fillPrice) (quantity : Int) (lotSize : Option Int) :
    Held sig.isOption (max 0 (fillPrice.getD 0)) quantity
        (reconcileEntry now sig (fillPrice.getD 0) quantity lotSize).1
        (reconcileEntry now sig (fillPrice.getD 0) quantity lotSize).2.1 ∧
      RefusedPrice sig.isOption (max 0 (fillPrice.getD 0)) := by
  have hbad : fillPrice.getD 0 ≤ 0 ∨ (sig.isOption = true ∧ spotThreshold < fillPrice.getD 0) := by
    cases fillPrice with
    | none => exact Or.inl le_rfl
    | some price => exact h price rfl
  constructor
  · simp only [reconcileEntry]
    rw [if_pos hbad]
    exact ⟨rfl, ⟨rfl, rfl⟩, rfl, rfl, rfl, rfl, rfl, rfl, rfl⟩
  · rcases hbad with hle | ⟨hoption, hlt⟩
    · exact Or.inl (max_eq_left hle)
    · exact Or.inr ⟨hoption, hlt.trans_le (le_max_right 0 _)⟩

theorem calculateOptionCosts_eq (turnover : ℚ) :
    Paper.calculateOptionCosts turnover turnover 2 =
      roundTo 2 (4720 / 100 + turnover * (446236 / 100000000)) := by
  rw [Paper.calculateOptionCosts]
  congr 1
  push_cast
  ring

/-- Prices on the two sides of the threshold give equal turnovers only for quantities too small to
cost nothing. -/
theorem costs_ne_zero {entry price : ℚ} {quantity : Int} (hentry : entry = 0 ∨ (spotThreshold < entry ∧
    price ≤ spotThreshold)) (hequal : roundTo 2 (price * quantity) = roundTo 2 (entry * quantity)) :
    Paper.calculateOptionCosts (roundTo 2 (entry * quantity)) (roundTo 2 (entry * quantity)) 2 ≠ 0 := by
  intro hzero
  rw [calculateOptionCosts_eq] at hzero
  have hclose := abs_le.mp (abs_roundTo_sub_le 2 (4720 / 100 + roundTo 2 (entry * quantity) * (446236 / 100000000)))
  rw [hzero] at hclose
  rcases hentry with rfl | ⟨hentry, hprice⟩
  · rw [zero_mul, roundTo_zero] at hclose
    norm_num at hclose
  · have hsold := abs_le.mp (abs_roundTo_sub_le 2 (price * quantity))
    have hbought := abs_le.mp (abs_roundTo_sub_le 2 (entry * quantity))
    rw [hequal] at hsold
    rw [spotThreshold] at hentry hprice
    norm_num at hclose hsold hbought
    -- the turnover is near -10577, so the quantity is neither above -2 nor below -3
    rcases le_or_gt quantity (-3) with hq | hq
    · have hq' : (quantity : ℚ) ≤ -3 := by exact_mod_cast hq
      nlinarith
    · have hq' : (-2 : ℚ) ≤ quantity := by exact_mod_cast Int.add_one_le_of_lt hq
      nlinarith

theorem book_shows {record : FillReconciliationRecord} (hgross : record.grossRealizedPnl = 0)
    (hnet : record.netRealizedPnlInr = 0) {price : ℚ}
    (hentry : record.entryFillPrice = 0 ∨ (spotThreshold < record.entryFillPrice ∧ price ≤ spotThreshold))
    (stage : Stage) (quantity now : Int) :
    ¬ ((record.book stage quantity price now).1.grossRealizedPnl = 0 ∧
      (record.book stage quantity price now).1.netRealizedPnlInr = 0) := by
  rintro ⟨hg, hn⟩
  have hg' : roundTo 2 (price * quantity) - roundTo 2 (record.entryFillPrice * quantity) = 0 := by
    have hsub := ((isDecimal_roundTo 2 (price * quantity)).sub
      (isDecimal_roundTo 2 (record.entryFillPrice * quantity))).roundTo_eq
    simpa only [book, hgross, zero_add, roundTo_roundTo, hsub] using hg
  have hequal := sub_eq_zero.mp hg'
  have hcost := ((isDecimal_roundTo 2 (4720 / 100 + roundTo 2 (record.entryFillPrice * quantity) *
    (446236 / 100000000))).neg).roundTo_eq
  simp only [book, hnet, zero_add, hequal, sub_self, roundTo_zero, zero_sub, roundTo_roundTo] at hn
  rw [calculateOptionCosts_eq, hcost, neg_eq_zero, ← calculateOptionCosts_eq] at hn
  exact costs_ne_zero hentry hequal hn

namespace Held
variable {option : Bool} {entry : ℚ} {quantity : Int} {sig : SignalInstance} {record : FillReconciliationRecord}
  (h : Held option entry quantity sig record)
include h

theorem domainMismatch_iff (price : ℚ) : record.domainMismatch sig price = true ↔
    option = true ∧ (spotThreshold < entry ∨ spotThreshold < price) := by
  rw [domainMismatch, h.option, h.contract.1, h.contract.2, h.entry]
  simp [domainMismatch.truthyText]

theorem sold_at (hrefused : RefusedPrice option entry) {price : ℚ}
    (hprice : ¬ (option = true ∧ spotThreshold < price)) :
    record.entryFillPrice = 0 ∨ (spotThreshold < record.entryFillPrice ∧ price ≤ spotThreshold) := by
  rw [h.entry]
  rcases hrefused with hzero | ⟨hoption, hlt⟩
  · exact Or.inl hzero
  · exact Or.inr ⟨hlt, not_lt.mp fun hp => hprice ⟨hoption, hp⟩⟩

theorem not_replayed (price : ℚ) (now : Int) : ¬ record.t1Replayed price now = true := by
  rw [t1Replayed, h.fills]
  simp

theorem not_booked (stage : Stage) (price : ℚ) (now : Int) : ¬ record.booked stage price now = true := by
  rw [booked, h.fills]
  simp

theorem target1_withheld (now : Int) {price : ℚ} (hprice : option = true ∧ spotThreshold < price) :
    Held option entry quantity (reconcileT1Exit now sig (some record) price).1
      (reconcileT1Exit now sig (some record) price).2 := by
  rw [reconcileT1Exit_some, if_neg (h.not_replayed price now), h.option, if_pos hprice]
  exact ⟨h.option, h.contract, h.entry, h.remaining, h.target, h.fills, h.gross, h.net, rfl⟩

theorem target1_shows (hrefused : RefusedPrice option entry) (now : Int) {price : ℚ}
    (hprice : ¬ (option = true ∧ spotThreshold < price)) :
    ¬ ((reconcileT1Exit now sig (some record) price).2.grossRealizedPnl = 0 ∧
      (reconcileT1Exit now sig (some record) price).2.netRealizedPnlInr = 0) := by
  rw [reconcileT1Exit_some, if_neg (h.not_replayed price now), h.option, if_neg hprice]
  exact book_shows h.gross h.net (h.sold_at hrefused hprice) .target1 record.t1CloseQty now

/-- A final exit with nothing to sell, or between the price domains, leaves nothing to sell. -/
theorem final_withheld (now : Int) {price : ℚ} (reason : String)
    (hprice : 0 < quantity → option = true ∧ (spotThreshold < entry ∨ spotThreshold < price)) :
    Held option entry 0 (reconcileFinalExit now sig (some record) price reason).1
      (reconcileFinalExit now sig (some record) price reason).2 := by
  rw [reconcileFinalExit_some, if_neg (h.not_booked _ price now)]
  by_cases hq : 0 < record.remainingQty
  · have hmismatch := (h.domainMismatch_iff price).mpr (hprice (h.remaining ▸ hq))
    rw [if_pos ⟨hq, hmismatch⟩]
    exact ⟨h.option, h.contract, h.entry, rfl, h.target, h.fills, h.gross, h.net, rfl⟩
  · rw [if_neg fun hm => hq hm.1, bookRest_idle hq]
    exact ⟨h.option, h.contract, h.entry, rfl, h.target, h.fills, h.gross, h.net, h.status⟩

theorem final_shows (hrefused : RefusedPrice option entry) (now : Int) {price : ℚ} (reason : String)
    (hprice : ¬ (0 < quantity → option = true ∧ (spotThreshold < entry ∨ spotThreshold < price))) :
    ¬ ((reconcileFinalExit now sig (some record) price reason).2.grossRealizedPnl = 0 ∧
      (reconcileFinalExit now sig (some record) price reason).2.netRealizedPnlInr = 0) := by
  obtain ⟨hq, hdomain⟩ := Classical.not_imp.mp hprice
  rw [← h.remaining] at hq
  have hmismatch := mt (h.domainMismatch_iff price).mp hdomain
  have hpremium : ¬ (option = true ∧ spotThreshold < price) := fun hp => hdomain ⟨hp.1, Or.inr hp.2⟩
  rw [reconcileFinalExit_some, if_neg (h.not_booked _ price now), if_neg fun hm => hmismatch hm.2]
  simp only [bookRest, if_pos hq]
  exact book_shows h.gross h.net (h.sold_at hrefused hpremium) (.ofReason reason) record.remainingQty now

end Held

theorem exit_flagged (s : Reconciliation) (call : ExitCall) (h : s.Flagged) : (s.exit call).Flagged := by
  obtain ⟨record, hrecord, hstatus⟩ := h
  cases call with
  | target1 now price =>
    have hstep : (reconcileT1Exit now s.sig (some record) price).2.reconciliationStatus =
        .reconciliationRequired := by
      rw [reconcileT1Exit_some]
      split_ifs
      · exact hstatus
      · rfl
      · exact hstatus
    refine ⟨(reconcileT1Exit now s.sig s.record price).2, rfl, ?_⟩
    rwa [hrecord]
  | final now price reason =>
    have hstep : (reconcileFinalExit now s.sig (some record) price reason).2.reconciliationStatus =
        .reconciliationRequired := by
      rw [reconcileFinalExit_some]
      split_ifs
      · exact hstatus
      · rfl
      · simp only [bookRest]
        split_ifs <;> exact hstatus
    refine ⟨(reconcileFinalExit now s.sig s.record price reason).2, rfl, ?_⟩
    rwa [hrecord]

theorem quarantined_iff_withheld {option : Bool} {entry : ℚ} (hrefused : RefusedPrice option entry)
    {quantity : Int} {s : Reconciliation} {record : FillReconciliationRecord} (hrecord : s.record = some record)
    (h : Held option entry quantity s.sig record) (calls : List ExitCall) :
    Always Reconciliation.exit Reconciliation.Quarantined s calls ↔ Withheld option entry quantity calls := by
  have hstart : s.Quarantined := ⟨record, hrecord, h.gross, h.net, h.status⟩
  induction calls generalizing s record quantity with
  | nil => exact ⟨fun _ => withheld_nil option entry quantity, fun _ => hstart⟩
  | cons call calls ih =>
    rw [Always, and_iff_right hstart]
    cases call with
    | target1 now price =>
      rw [withheld_target1]
      by_cases hprice : option = true ∧ spotThreshold < price
      · rw [and_iff_right hprice]
        have hnext := h.target1_withheld now hprice
        rw [← hrecord] at hnext
        exact ih rfl hnext ⟨_, rfl, hnext.gross, hnext.net, hnext.status⟩
      · refine ⟨fun hrun => ?_, fun hw => absurd hw.1 hprice⟩
        obtain ⟨record', hrecord', hgross, hnet, -⟩ := hrun.head
        cases hrecord'
        rw [hrecord] at hgross hnet
        exact absurd ⟨hgross, hnet⟩ (h.target1_shows hrefused now hprice)
    | final now price reason =>
      rw [withheld_final]
      by_cases hprice : 0 < quantity → option = true ∧ (spotThreshold < entry ∨ spotThreshold < price)
      · rw [and_iff_right hprice]
        have hnext := h.final_withheld now reason hprice
        rw [← hrecord] at hnext
        exact ih rfl hnext ⟨_, rfl, hnext.gross, hnext.net, hnext.status⟩
      · refine ⟨fun hrun => ?_, fun hw => absurd hw.1 hprice⟩
        obtain ⟨record', hrecord', hgross, hnet, -⟩ := hrun.head
        cases hrecord'
        rw [hrecord] at hgross hnet
        exact absurd ⟨hgross, hnet⟩ (h.final_shows hrefused now reason hprice)

/-! ### Quarantine over all later exits -/

/-- A refused entry keeps its flag through every exit; it stays without a result exactly when every first
target and, with a quantity to sell, the first final exit are withheld. -/
theorem refused_quarantined_iff (s : Reconciliation) (now : Int) (fillPrice : Option ℚ) (quantity : Int)
    (lotSize : Option Int) (h : Refused s.sig fillPrice) (calls : List ExitCall) :
    Always Reconciliation.exit Reconciliation.Flagged (s.enterFill now fillPrice quantity lotSize) calls ∧
      (Always Reconciliation.exit Reconciliation.Quarantined (s.enterFill now fillPrice quantity lotSize) calls ↔
        Withheld s.sig.isOption (max 0 (fillPrice.getD 0)) quantity calls) := by
  obtain ⟨hheld, hrefused⟩ := reconcileEntry_refused now h quantity lotSize
  exact ⟨always_of_step exit_flagged ⟨_, rfl, hheld.status⟩ calls,
    quarantined_iff_withheld hrefused rfl hheld calls⟩

def unfilledCall : SignalInstance where
  signalId := "sig-nifty-call"
  underlying := "NIFTY"
  direction := .longCall
  spotPrice := 25000
  entryMin := 24990
  entryMax := 25010
  trigger := 25000
  stopLoss := 24950
  target1 := 25060
  target2 := 25120
  riskRewardT1 := 6 / 5
  riskRewardT2 := 12 / 5
  createdAtUtc := 0
  expiresAtUtc := 300000
  lastUpdatedUtc := 0

/-- A missing fill with a first target withheld at an index level, and a final exit withheld after it. -/
theorem refused_quarantined_iff_unfilled :
    Always Reconciliation.exit Reconciliation.Quarantined
      (Reconciliation.enterFill { sig := unfilledCall } 0 none 75 none)
      [.target1 60000 25060, .final 90000 25000 "TARGET_2_HIT"] := by
  refine (refused_quarantined_iff { sig := unfilledCall } 0 none 75 none (fun _ h => (nomatch h)) _).2.mpr ?_
  refine withheld_target1.mpr ⟨⟨by decide, by norm_num [spotThreshold]⟩, ?_⟩
  exact withheld_final.mpr ⟨fun _ => ⟨by decide, Or.inr (by norm_num [spotThreshold])⟩, withheld_nil _ _ _⟩

/-- The same missing fill with a first target at a premium: a sale of 75 at 100 is booked against a
purchase at nothing. -/
theorem unfilled_target1_booked :
    ¬ ∀ (s : Reconciliation) (now : Int) (fillPrice : Option ℚ) (quantity : Int) (lotSize : Option Int),
      Refused s.sig fillPrice → ∀ calls, Always Reconciliation.exit Reconciliation.Quarantined
        (s.enterFill now fillPrice quantity lotSize) calls := by
  intro hall
  have hrun := hall { sig := unfilledCall } 0 none 75 none (fun _ h => (nomatch h)) [.target1 60000 100]
  obtain ⟨record, hrecord, hgross, -⟩ := hrun.2
  have hbooked : ((Reconciliation.enterFill { sig := unfilledCall } 0 none 75 none).exit
      (.target1 60000 100)).record.map (·.grossRealizedPnl) = some 7500 := by decide +kernel
  rw [hrecord, Option.map_some, hgross] at hbooked
  cases hbooked

end Droid.Signals
