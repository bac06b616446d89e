import Droid.Signals.Agreement

/-! Staged and final exit of a signal that is the only holder of its contract: when the
reconciler books what the paper engine sells. -/
namespace Droid.Signals
open Lib Paper FillReconciliationRecord

namespace Desk
variable {id : SignalId} {symbol : String} {d d' : Desk}

/-- The staged exit sells exactly when the reconciler books: something remains to be booked and
the mark is a premium. -/
def SellsAsBooked (tick : Tick) (d : Desk) (id : SignalId) (sig : SignalInstance) : Prop :=
  ∀ mark ∈ exitMark tick.env.marks sig,
    (d.reconciler.get? id = none → premiumMark sig mark = false) ∧
      ∀ record ∈ d.reconciler.get? id, record.remainingQty = 0 ∨
        (premiumMark sig mark = true ↔ d.Sells tick.env tick.cond id (target1Request mark record.t1Qty))

/-- What the final exit asks the paper engine for. -/
def finalRequest (tick : Tick) (sig : SignalInstance) (target : SignalFsmState) : CloseRequest where
  exitPrice := exitMark tick.env.marks sig
  reason := target.label

/-- The final exit is reconciled when it sells, by the tracker at a mark or by the ledger, and
not reconciled when the row says that it was settled before. -/
def ReconcilesAsSold (tick : Tick) (d : Desk) (id : SignalId) (sig : SignalInstance)
    (target : SignalFsmState) : Prop :=
  ∀ record ∈ d.reconciler.get? id, record.remainingQty = 0 ∨
    (¬ d.Unsettled id → exitMark tick.env.marks sig = none) ∧
      (d.Sells tick.env tick.cond id (finalRequest tick sig target) →
        ∃ row ∈ d.ledger.get? id, exitMark tick.env.marks sig ≠ none ∨
          record.synthetic = false ∧ ∀ res ∈ d.receipt? id, row.economicsOk
            (resolveExitPrice tick.env.marks res.1 res.2.symbol (d.shard.positions.get? (exitKey res.2))
              none).1 = true)

instance (tick : Tick) (d : Desk) (id : SignalId) (sig : SignalInstance) :
    Decidable (d.SellsAsBooked tick id sig) :=
  inferInstanceAs (Decidable (∀ mark ∈ exitMark tick.env.marks sig, (_ → _) ∧
    ∀ record ∈ d.reconciler.get? id, _ ∨ (_ ↔ _)))

instance (tick : Tick) (d : Desk) (id : SignalId) (sig : SignalInstance) (target : SignalFsmState) :
    Decidable (d.ReconcilesAsSold tick id sig target) :=
  inferInstanceAs (Decidable (∀ record ∈ d.reconciler.get? id, _ ∨ (_ → _) ∧
    (_ → ∃ row ∈ d.ledger.get? id, _ ∨ _ ∧ ∀ res ∈ d.receipt? id, _)))

/-! ### The record after a close -/

/-- The record is the one it was, or was ended. -/
def Follows (record record' : FillReconciliationRecord) : Prop := record' = record ∨ Ended record record'

theorem Follows.trans {r r' r'' : FillReconciliationRecord} (h : Follows r r') (h' : Follows r' r'') :
    Follows r r'' := by
  rcases h with rfl | hended
  · exact h'
  · rcases h' with rfl | hended'
    · exact .inr hended
    · exact .inr (hended.trans hended')

theorem finishReconciler_record (now : Int) {d : Desk} {record : FillReconciliationRecord}
    (hrecord : d.reconciler.get? id = some record) (hs : record.Sound) (h0 : 0 ≤ record.remainingQty)
    (price : ℚ) {reason : String} (hname : Stage.ofReason reason = .exit reason) :
    ∃ record', (d.finishReconciler now id price reason).reconciler.get? id = some record' ∧
      Follows record record' ∧
      (d.signal? id ≠ none → record.synthetic = false → record'.remainingQty = 0) := by
  rw [finishReconciler]
  rw [hrecord]
  cases hsig : d.signal? id with
  | none => exact ⟨record, hrecord, .inl rfl, fun h => absurd rfl h⟩
  | some sig =>
    simp only
    by_cases hskip : record.synthetic = true ∨ record.isFullyClosed = true
    · rw [if_pos hskip]
      refine ⟨record, hrecord, .inl rfl, fun _ hreal => ?_⟩
      rcases hskip with hsynthetic | hclosed
      · rw [hreal] at hsynthetic
        cases hsynthetic
      · exact hs.closed hclosed
    · rw [if_neg hskip]
      have hended := reconcileFinalExit_ended now sig hs h0 price hname
      exact ⟨_, (Dict.get?_insert _ _ _ _).trans (if_pos rfl), .inr hended, fun _ _ => hended.remaining⟩

theorem recordSquareOff_record (now : Int) {d : Desk} {record : FillReconciliationRecord}
    (hrecord : d.reconciler.get? id = some record) (hs : record.Sound) (h0 : 0 ≤ record.remainingQty)
    (row : AuditTradeRecord) (price : ℚ) {reason : String} (hname : Stage.ofReason reason = .exit reason) :
    ∃ record', (d.recordSquareOff now id row price reason).1.reconciler.get? id = some record' ∧
      Follows record record' ∧ (row.settled = false → row.economicsOk price = true →
        d.signal? id ≠ none → record.synthetic = false → record'.remainingQty = 0) := by
  rw [recordSquareOff]
  by_cases hsettled : row.settled = true
  · rw [if_pos hsettled]
    refine ⟨record, hrecord, .inl rfl, fun hopen => ?_⟩
    rw [hsettled] at hopen
    cases hopen
  · rw [if_neg hsettled]
    by_cases hok : row.economicsOk price = true
    · simp only [hok, if_true]
      obtain ⟨record', hrecord', hfollows, hdone⟩ := finishReconciler_record now hrecord hs h0 price hname
      exact ⟨record', hrecord', hfollows, fun _ _ => hdone⟩
    · rw [Bool.not_eq_true] at hok
      simp only [hok, Bool.false_eq_true, if_false]
      exact ⟨record, hrecord, .inl rfl, fun _ h => (by cases h)⟩

theorem auditClose_audited (now : Int) {d : Desk} {row : AuditTradeRecord} (hrow : d.ledger.get? id = some row)
    (reason : String) (price : ℚ) (flat staged : Bool) :
    ∃ row', (d.auditClose now id reason price flat staged).2 = .audited row' := by
  rw [auditClose]
  rw [hrow]
  cases staged <;> exact ⟨_, rfl⟩

theorem auditClose_record (now : Int) {d : Desk} {record : FillReconciliationRecord}
    (hrecord : d.reconciler.get? id = some record) (hs : record.Sound) (h0 : 0 ≤ record.remainingQty)
    {reason : String} (hname : Stage.ofReason reason = .exit reason) (price : ℚ) (flat staged : Bool) :
    ∃ record', (d.auditClose now id reason price flat staged).1.reconciler.get? id = some record' ∧
      (record' = record ∨ staged = false ∧ Ended record record') ∧
      ∀ row, d.ledger.get? id = some row → row.settled = false → staged = false →
        row.economicsOk price = true → d.signal? id ≠ none → record.synthetic = false →
        record'.remainingQty = 0 := by
  rw [auditClose]
  cases hrow : d.ledger.get? id with
  | none => exact ⟨record, hrecord, .inl rfl, fun row h => by cases h⟩
  | some row =>
    cases staged with
    | true => exact ⟨record, hrecord, .inl rfl, fun _ _ _ h => by cases h⟩
    | false =>
      have hbooked : Stage.ofReason (if flat then "NO_MARK" else reason) =
          .exit (if flat then "NO_MARK" else reason) := by
        cases flat
        · exact hname
        · show Stage.ofReason "NO_MARK" = .exit "NO_MARK"
          decide
      obtain ⟨record', hrecord', hfollows, hdone⟩ :=
        recordSquareOff_record now hrecord hs h0 row price hbooked
      refine ⟨record', hrecord', hfollows.imp_right fun h => ⟨rfl, h⟩, fun row' hrow' hopen _ => ?_⟩
      cases hrow'
      exact hdone hopen

theorem reconcileFinal_record (ts : Int) {d : Desk} {record : FillReconciliationRecord}
    (hrecord : d.reconciler.get? id = some record) (hs : record.Sound) (h0 : 0 ≤ record.remainingQty)
    {sig : SignalInstance} (hsig : d.signal? id = some sig) (mark : Option ℚ) {reason : String}
    (hname : Stage.ofReason reason = .exit reason) :
    ∃ record', (d.reconcileFinal ts id mark reason).reconciler.get? id = some record' ∧
      Follows record record' ∧ (mark ≠ none → record'.remainingQty = 0) ∧ (mark = none → record' = record) := by
  unfold reconcileFinal
  cases mark with
  | none => exact ⟨record, hrecord, .inl rfl, fun h => absurd rfl h, fun _ => rfl⟩
  | some price =>
    rw [hsig, hrecord]
    have hended := reconcileFinalExit_ended ts sig hs h0 price hname
    exact ⟨_, (Dict.get?_insert _ _ _ _).trans (if_pos rfl), .inr hended, fun _ => hended.remaining,
      fun h => (nomatch h)⟩

/-- And changes nothing else that the agreement looks at. -/
theorem reconcileFinal_beside (ts : Int) {d : Desk} {sig : SignalInstance} (hsig : d.signal? id = some sig)
    (mark : Option ℚ) (reason : String) : Beside id d (d.reconcileFinal ts id mark reason) := by
  unfold reconcileFinal
  cases mark with
  | none => exact .refl id d
  | some price =>
    rw [hsig]
    exact setRecord_beside hsig (reconcileFinalExit_face ts sig _ price reason)

/-- The record of a position of this size. -/
structure Matches (held : Int) (record : FillReconciliationRecord) : Prop where
  sound : record.Sound
  remaining : record.remainingQty = held
  booked : record.bookedQty ≤ record.intendedQty - held

theorem Matches.ended {held : Int} {record record' : FillReconciliationRecord} (h : Matches held record)
    (hend : record' = record ∨ held = 0 ∧ Ended record record') : Matches held record' := by
  rcases hend with rfl | ⟨rfl, hended⟩
  · exact h
  · have hbooked := hended.booked
    have hbefore := h.booked
    have hnone := h.remaining
    have hintended := hended.intended
    exact ⟨hended.sound, hended.remaining, by omega⟩

theorem Steady.matches (h : Steady id symbol d) {record : FillReconciliationRecord}
    (hrecord : d.reconciler.get? id = some record) :
    Matches (d.shard.held (bookKey symbol)) record := by
  have hremaining := h.remaining
  unfold Desk.remaining at hremaining
  rw [hrecord] at hremaining
  exact ⟨h.sound record hrecord, hremaining, h.booked record hrecord⟩

/-- The agreement after a call that wrote the record and did not add to the position. -/
theorem Steady.update (h : Steady id symbol d) (ht : d'.shard.Tidy)
    (hface : (d'.signal? id).map (·.face) = (d.signal? id).map (·.face))
    (hnonneg : 0 ≤ d'.shard.held (bookKey symbol))
    (hle : d'.shard.held (bookKey symbol) ≤ d.shard.held (bookKey symbol))
    {record' : FillReconciliationRecord} (hrecord' : d'.reconciler.get? id = some record')
    (hmatches : Matches (d'.shard.held (bookKey symbol)) record')
    (hunstaged : ∀ sig, d.signal? id = some sig → sig.fsmState = .confirmed → record'.Unstaged) :
    Steady id symbol d' := by
  refine ⟨⟨?_, fun r hr => ?_⟩, ht, hnonneg, fun r hr => ?_, fun sig' hsig' => ?_⟩
  · rw [remaining]
    rw [hrecord']
    exact hmatches.remaining
  · cases hrecord'.symm.trans hr
    exact hmatches.booked
  · cases hrecord'.symm.trans hr
    exact hmatches.sound
  · rw [hsig', Option.map_some] at hface
    obtain ⟨sig, hsig, hsame⟩ := Option.map_eq_some_iff.mp hface.symm
    have hdeal : sig'.deal = sig.deal := congrArg Prod.snd hsame.symm
    have hstate : sig'.fsmState = sig.fsmState := congrArg Prod.fst hsame.symm
    have hplaced := (h.placed sig hsig).moved hdeal (.inl hstate)
    refine ⟨hplaced.contract, fun receipt hr => ?_, fun hnone => ?_, fun hc r hr => ?_⟩
    · obtain ⟨hsymbol, -, hv⟩ := hplaced.holder receipt hr
      exact ⟨hsymbol, by rw [hrecord']; rfl, hv⟩
    · have hzero := hplaced.fresh hnone
      omega
    · cases hrecord'.symm.trans hr
      exact hunstaged sig hsig (hstate.symm.trans hc)

/-! ### The staged exit -/

theorem receipt?_deal (d : Desk) (id : SignalId) : (d.receipt? id).map Prod.snd =
    ((d.signal? id).bind (·.paperOrder)).filter fun r => ¬ (r.symbol = "" ∨ r.quantity = 0) := by
  unfold receipt?
  cases hsig : d.signal? id with
  | none => rfl
  | some sig =>
    cases hreceipt : sig.paperOrder with
    | none => simp [hreceipt]
    | some receipt =>
      by_cases hempty : receipt.symbol = "" ∨ receipt.quantity = 0
      · simp [hreceipt, hempty, Option.filter]
      · simp [hreceipt, hempty, Option.filter]

theorem sells_target1_iff (env : Surroundings) (cond : Conditions) (d : Desk) (id : SignalId) (mark : ℚ)
    (t1Qty : Int) :
    d.Sells env cond id (target1Request mark t1Qty) ↔
      d.Unsettled id ∧ ∃ receipt, (d.receipt? id).map Prod.snd = some receipt ∧
        ∃ pos, d.shard.openPosition (exitKey receipt) = some pos ∧ 0 < finalCloseQty pos (some t1Qty) ∧
          0 ≤ mark ∧ d.shard.takesExit cond pos (finalCloseQty pos (some t1Qty)) false = true := by
  constructor
  · rintro ⟨hrow, ⟨sig, receipt⟩, hreceipt, pos, hpos, hq, hprice, htaken⟩
    exact ⟨hrow, receipt, by rw [Option.mem_def.mp hreceipt]; rfl, pos, hpos, hq, hprice, htaken⟩
  · rintro ⟨hrow, receipt, hreceipt, pos, hpos, hq, hprice, htaken⟩
    obtain ⟨⟨sig, receipt'⟩, hres, rfl⟩ := Option.map_eq_some_iff.mp hreceipt
    exact ⟨hrow, (sig, receipt'), hres, pos, hpos, hq, hprice, htaken⟩

theorem sells_target1_congr (env : Surroundings) (cond : Conditions) (hshard : d'.shard = d.shard)
    (hrow : d'.Unsettled id ↔ d.Unsettled id)
    (hdeal : (d'.signal? id).bind (·.paperOrder) = (d.signal? id).bind (·.paperOrder)) (mark : ℚ)
    (t1Qty : Int) :
    d'.Sells env cond id (target1Request mark t1Qty) ↔ d.Sells env cond id (target1Request mark t1Qty) := by
  rw [sells_target1_iff, sells_target1_iff, receipt?_deal, receipt?_deal, hdeal, hshard, hrow]

/-- What a staged exit sells of a position is what the reconciler books of as much. -/
theorem finalCloseQty_target1 {record : FillReconciliationRecord} (hs : record.Sound)
    {pos : VirtualPosition} (hq : pos.quantity = record.remainingQty) :
    finalCloseQty pos (some record.t1Qty) = record.t1CloseQty := by
  have hstaged := hs.staged
  rw [finalCloseQty, t1CloseQty]
  by_cases hn : record.t1Qty ≠ 0 ∧ record.t1Qty ≤ pos.quantity
  · rw [if_neg (by omega), Option.filter_some, if_pos (decide_eq_true hn)]
    rfl
  · rw [if_pos (by omega), Option.filter_some, if_neg (by simpa using hn)]
    exact hq

theorem finalCloseQty_le (pos : VirtualPosition) (quantityToClose : Option Int) :
    finalCloseQty pos quantityToClose ≤ pos.quantity := by
  rw [finalCloseQty]
  cases hq : quantityToClose.filter fun n => n ≠ 0 ∧ n ≤ pos.quantity with
  | none => exact le_rfl
  | some n => exact (of_decide_eq_true (Option.filter_eq_some_iff.mp hq).2).2

theorem close_face (env : Surroundings) (cond : Conditions) (ht : d.shard.Tidy) (id : SignalId)
    (req : CloseRequest) :
    ((d.closeSignalPosition env cond id req).1.signal? id).map (·.face) = (d.signal? id).map (·.face) := by
  have hcloses := closeSignalPosition_closes env cond ht id req
  generalize d.closeSignalPosition env cond id req = res at hcloses ⊢
  cases hcloses with
  | noReceipt hnone => rfl
  | settled sig receipt row hreceipt hrow hsettled => rfl
  | flat sig receipt price flat staged hreceipt hrow hnone =>
    exact (auditClose_beside env.now d id req.reason price flat staged).face
  | unfilled shard res hres hidle hsame => rfl
  | filled sig receipt pos shard price flat hsells hreceipt hpos hprice htidy hheld =>
    exact (auditClose_beside env.now { d with shard } id req.reason price flat _).face

theorem close_record (env : Surroundings) (cond : Conditions) (ht : d.shard.Tidy)
    (hnonneg : 0 ≤ d.shard.held (bookKey symbol))
    (hsymbol : ∀ sig receipt, d.receipt? id = some (sig, receipt) → receipt.symbol = symbol)
    {record : FillReconciliationRecord} (hrecord : d.reconciler.get? id = some record) (hs : record.Sound)
    (h0 : 0 ≤ record.remainingQty) (req : CloseRequest)
    (hname : Stage.ofReason req.reason = .exit req.reason)
    (hreq : req.reason = "TARGET_1_HIT" ∨ req.quantityToClose = none) :
    ∃ record', (d.closeSignalPosition env cond id req).1.reconciler.get? id = some record' ∧
      (record' = record ∨
        (d.closeSignalPosition env cond id req).1.shard.held (bookKey symbol) = 0 ∧ Ended record record') := by
  have hcloses := closeSignalPosition_closes env cond ht id req
  generalize d.closeSignalPosition env cond id req = res at hcloses ⊢
  cases hcloses with
  | noReceipt hnone => exact ⟨record, hrecord, .inl rfl⟩
  | settled sig receipt row hreceipt hrow hsettled => exact ⟨record, hrecord, .inl rfl⟩
  | unfilled shard res hres hidle hsame => exact ⟨record, hrecord, .inl rfl⟩
  | flat sig receipt price flat staged hreceipt hrow hnone =>
    have hkey : exitKey receipt = bookKey symbol := congrArg (·, ProductType.intraday) (hsymbol sig receipt hreceipt)
    rw [hkey] at hnone
    obtain ⟨record', hget, hend, -⟩ :=
      auditClose_record env.now hrecord hs h0 hname price flat staged
    rw [(auditClose_beside env.now d id req.reason price flat staged).shard]
    exact ⟨record', hget, hend.imp_right fun h => ⟨Shard.held_of_none hnone, h.2⟩⟩
  | filled sig receipt pos shard price flat hsells hreceipt hpos hprice htidy hheld =>
    have hkey : exitKey receipt = bookKey symbol := congrArg (·, ProductType.intraday) (hsymbol sig receipt hreceipt)
    rw [hkey] at hpos hheld
    obtain ⟨-, hside, -, hq⟩ := ht.buy hpos hnonneg
    obtain ⟨record', hget, hend, -⟩ := auditClose_record (d := { d with shard }) env.now hrecord hs h0
      hname price flat
      (decide (req.reason = "TARGET_1_HIT" ∧ finalCloseQty pos req.quantityToClose < pos.quantity))
    rw [(auditClose_beside env.now { d with shard } id req.reason price flat _).shard]
    refine ⟨record', hget, hend.imp_right fun h => ⟨?_, h.2⟩⟩
    -- not staged, so the whole position was sold
    have hall : finalCloseQty pos req.quantityToClose = pos.quantity := by
      have hle := finalCloseQty_le pos req.quantityToClose
      rcases hreq with hreason | hnone
      · have hnot := of_decide_eq_false h.1
        have hge : ¬ finalCloseQty pos req.quantityToClose < pos.quantity := fun hlt => hnot ⟨hreason, hlt⟩
        omega
      · rw [hnone]
        rfl
    show shard.held (bookKey symbol) = 0
    rw [hheld, if_pos rfl, hside, hall, hq]
    simp [OrderSide.opposite, OrderSide.mult]

/-- What a staged exit does: the reconciler books at a premium, the paper engine sells when it
can, and neither looks at the other. -/
theorem closeTarget1_spec (tick : Tick) (h : Steady id symbol d) {sig : SignalInstance}
    (hsig : d.signal? id = some sig) {record : FillReconciliationRecord}
    (hrecord : d.reconciler.get? id = some record) (hunstaged : record.Unstaged) (mark : ℚ) {d' : Desk}
    (hd' : d' = ((d.setRecord id (reconcileT1Exit tick.ts sig (some record) mark)).closeSignalPosition
      tick.env tick.cond id
        (target1Request mark (reconcileT1Exit tick.ts sig (some record) mark).2.t1Qty)).1) :
    d'.shard.Tidy ∧ (d'.signal? id).map (·.face) = (d.signal? id).map (·.face) ∧
      (¬ d.Sells tick.env tick.cond id (target1Request mark record.t1Qty) →
        d'.shard.held (bookKey symbol) = d.shard.held (bookKey symbol)) ∧
      (d.Sells tick.env tick.cond id (target1Request mark record.t1Qty) →
        d'.shard.held (bookKey symbol) = d.shard.held (bookKey symbol) - record.t1CloseQty) ∧
      ∃ booked, booked.Sound ∧ booked.intendedQty = record.intendedQty ∧
        booked.remainingQty =
          record.remainingQty - (if premiumMark sig mark then record.t1CloseQty else 0) ∧
        booked.bookedQty = record.bookedQty + (if premiumMark sig mark then record.t1CloseQty else 0) ∧
        ∃ record', d'.reconciler.get? id = some record' ∧
          (record' = booked ∨ d'.shard.held (bookKey symbol) = 0 ∧ Ended booked record') := by
  have hmatches := h.matches hrecord
  have hnonneg := h.nonneg
  have hremaining := hmatches.remaining
  obtain ⟨hsound, ht1, hintended, hrem, hbook⟩ :=
    reconcileT1Exit_spec tick.ts sig hunstaged hmatches.sound (hremaining ▸ hnonneg) mark
  have hface := reconcileT1Exit_face tick.ts sig (some record) mark
  obtain ⟨hclose0, hclose⟩ := t1CloseQty_le (show 0 ≤ record.remainingQty by omega)
  rw [ht1] at hd'
  generalize reconcileT1Exit tick.ts sig (some record) mark = res at hd' hsound hintended hrem hbook hface
  obtain ⟨sig₂, record₂⟩ := res
  simp only at hsound hintended hrem hbook hface
  have hset : Beside id d (d.setRecord id (sig₂, record₂)) := setRecord_beside hsig hface
  have hget : (d.setRecord id (sig₂, record₂)).reconciler.get? id = some record₂ :=
    (Dict.get?_insert _ _ _ _).trans (if_pos rfl)
  have hsells : (d.setRecord id (sig₂, record₂)).Sells tick.env tick.cond id
      (target1Request mark record.t1Qty) ↔
        d.Sells tick.env tick.cond id (target1Request mark record.t1Qty) := by
    refine sells_target1_congr tick.env tick.cond ?_ ?_ ?_ mark record.t1Qty
    · rfl
    · exact Iff.rfl
    · rw [setRecord_signal, hsig]
      exact congrArg (·.2.2.2.2) hface
  have hsymbol : ∀ sig' receipt, (d.setRecord id (sig₂, record₂)).receipt? id = some (sig', receipt) →
      receipt.symbol = symbol := by
    intro sig' receipt hreceipt
    obtain ⟨hsig', hr⟩ := receipt?_eq hreceipt
    rw [setRecord_signal] at hsig'
    cases hsig'
    exact ((h.placed sig hsig).holder receipt ((congrArg (·.2.2.2.2) hface).symm.trans hr)).1
  obtain ⟨htidy, hheld⟩ := close_held tick.env tick.cond (d := d.setRecord id (sig₂, record₂)) h.tidy id
    (target1Request mark record.t1Qty)
  have hcface := close_face (d := d.setRecord id (sig₂, record₂)) tick.env tick.cond h.tidy id
    (target1Request mark record.t1Qty)
  have hnonneg₂ : 0 ≤ record₂.remainingQty := by
    rw [hrem]
    split <;> omega
  have hname : Stage.ofReason "TARGET_1_HIT" = .exit "TARGET_1_HIT" := by decide
  obtain ⟨record₃, hget₃, hend⟩ := close_record tick.env tick.cond (d := d.setRecord id (sig₂, record₂)) h.tidy
    hnonneg hsymbol hget hsound hnonneg₂ (target1Request mark record.t1Qty) hname (.inl rfl)
  rw [← hd'] at htidy hheld hcface hget₃ hend
  refine ⟨htidy, hcface.trans hset.face, fun hn => ?_, fun hs => ?_, record₂, hsound, hintended, hrem, hbook,
    record₃, hget₃, hend⟩
  · rcases hheld with ⟨-, hsame⟩ | ⟨-, -, -, hs, -⟩
    · exact hsame _
    · exact absurd (hsells.mp hs) hn
  · rcases hheld with ⟨hn, -⟩ | ⟨sig', receipt, pos, -, hreceipt, hpos, hmoved⟩
    · exact absurd (hsells.mpr hs) hn
    · have hkey : exitKey receipt = bookKey symbol :=
        congrArg (·, ProductType.intraday) (hsymbol sig' receipt hreceipt)
      rw [hkey] at hpos hmoved
      obtain ⟨-, hside, -, hq⟩ := h.tidy.buy hpos hnonneg
      have hfinal := finalCloseQty_target1 hmatches.sound (hq.trans hremaining.symm)
      rw [hmoved, if_pos rfl, hside, ← hfinal]
      simp only [OrderSide.opposite, OrderSide.mult, target1Request, setRecord, setSignal]
      omega

/-- A staged exit that sells as much as it books. -/
theorem closeTarget1_steady (tick : Tick) (h : Steady id symbol d) {sig : SignalInstance}
    (hsig : d.signal? id = some sig) (hstate : sig.fsmState = .target1Hit)
    {record : FillReconciliationRecord} (hrecord : d.reconciler.get? id = some record)
    (hunstaged : record.Unstaged) (mark : ℚ)
    (hg : record.remainingQty = 0 ∨
      (premiumMark sig mark = true ↔ d.Sells tick.env tick.cond id (target1Request mark record.t1Qty)))
    {d' : Desk}
    (hd' : d' = ((d.setRecord id (reconcileT1Exit tick.ts sig (some record) mark)).closeSignalPosition
      tick.env tick.cond id
        (target1Request mark (reconcileT1Exit tick.ts sig (some record) mark).2.t1Qty)).1) :
    Steady id symbol d' := by
  have hmatches := h.matches hrecord
  have hnonneg := h.nonneg
  have hremaining := hmatches.remaining
  have hbefore := hmatches.booked
  obtain ⟨hclose0, hclose⟩ := t1CloseQty_le (show 0 ≤ record.remainingQty by omega)
  obtain ⟨htidy, hface, hkept, hsold, booked, hsound, hintended, hrem, hbook, record', hget, hend⟩ :=
    closeTarget1_spec tick h hsig hrecord hunstaged mark hd'
  have hafter : d'.shard.held (bookKey symbol) = d.shard.held (bookKey symbol) -
      (if premiumMark sig mark then record.t1CloseQty else 0) := by
    by_cases hs : d.Sells tick.env tick.cond id (target1Request mark record.t1Qty)
    · rw [hsold hs]
      rcases hg with hzero | hiff
      · split <;> omega
      · rw [if_pos (hiff.mpr hs)]
    · rw [hkept hs]
      rcases hg with hzero | hiff
      · split <;> omega
      · rw [if_neg fun hp => hs (hiff.mp hp), sub_zero]
  have hc : 0 ≤ (if premiumMark sig mark then record.t1CloseQty else 0) ∧
      (if premiumMark sig mark then record.t1CloseQty else 0) ≤ record.remainingQty := by
    split <;> omega
  refine h.update htidy hface ?_ ?_ hget (Matches.ended ⟨hsound, ?_, ?_⟩ hend) ?_
  · omega
  · omega
  · omega
  · omega
  · intro sig' hsig' hconfirmed
    cases hsig.symm.trans hsig'
    rw [hstate] at hconfirmed
    cases hconfirmed

theorem closeTarget1_parts (tick : Tick) (h : Steady id symbol d) {sig : SignalInstance}
    (hsig : d.signal? id = some sig) {record : FillReconciliationRecord}
    (hrecord : d.reconciler.get? id = some record) (hunstaged : record.Unstaged)
    (hopen : 0 < record.remainingQty) {mark : ℚ} (hpremium : premiumMark sig mark = true)
    (hunsold : ¬ d.Sells tick.env tick.cond id (target1Request mark record.t1Qty)) {d' : Desk}
    (hd' : d' = ((d.setRecord id (reconcileT1Exit tick.ts sig (some record) mark)).closeSignalPosition
      tick.env tick.cond id
        (target1Request mark (reconcileT1Exit tick.ts sig (some record) mark).2.t1Qty)).1) :
    ¬ Agrees id symbol d' := by
  have hremaining := (h.matches hrecord).remaining
  obtain ⟨-, -, hkept, -, booked, -, -, hrem, -, record', hget, hend⟩ :=
    closeTarget1_spec tick h hsig hrecord hunstaged mark hd'
  have hheld := hkept hunsold
  rw [hpremium, if_pos rfl] at hrem
  have hpositive : 0 < record.t1CloseQty := by
    rw [t1CloseQty]
    split <;> omega
  rintro ⟨hagree, -⟩
  unfold remaining at hagree
  rw [hget, Option.map_some, Option.getD_some] at hagree
  rcases hend with rfl | ⟨hzero, -⟩
  · omega
  · omega

/-- What the staged exit rests on is not touched by the transition before it. -/
theorem SellsAsBooked.transition {tick : Tick} {sig sig' : SignalInstance} (h : d.SellsAsBooked tick id sig)
    (hsig : d.signal? id = some sig) {target : SignalFsmState} (ht : target ≠ .closed)
    (marketPrice : Option ℚ) (reason : String)
    (hsig' : (d.transition tick.env id target marketPrice reason).1.signal? id = some sig')
    (hdeal : sig'.deal = sig.deal) :
    (d.transition tick.env id target marketPrice reason).1.SellsAsBooked tick id sig' := by
  obtain ⟨-, hshard, hrecord, -⟩ := transition_fsm tick.env d id target marketPrice reason
  have hrow := transition_unsettled tick.env d id marketPrice reason ht
  simp only [SignalInstance.deal, Prod.mk.injEq] at hdeal
  obtain ⟨-, hdirection, hoption, hreceipt⟩ := hdeal
  have hmarks : exitMark tick.env.marks sig' = exitMark tick.env.marks sig := by
    unfold exitMark
    rw [hoption]
  have hpremium : ∀ mark, premiumMark sig' mark = premiumMark sig mark := by
    intro mark
    unfold premiumMark SignalInstance.isOption
    rw [hdirection, hoption]
  intro mark hmark
  rw [hmarks] at hmark
  obtain ⟨hnone, hsome⟩ := h mark hmark
  rw [hrecord, hpremium]
  refine ⟨hnone, fun record hget => ?_⟩
  rw [sells_target1_congr tick.env tick.cond hshard hrow (by rw [hsig, hsig']; exact hreceipt)]
  exact hsome record hget

theorem bookTarget1_steady (tick : Tick) (h : Steady id symbol d) {sig : SignalInstance}
    (hsig : d.signal? id = some sig) (hstate : sig.fsmState = .target1Hit)
    (hunstaged : ∀ record, d.reconciler.get? id = some record → record.Unstaged) {mark : Option ℚ}
    (hmark : mark = exitMark tick.env.marks sig) (hg : d.SellsAsBooked tick id sig) :
    Steady id symbol (d.bookTarget1 tick mark id) := by
  unfold bookTarget1
  rw [hsig]
  cases mark with
  | none => exact h
  | some mark =>
    obtain ⟨hnone, hsome⟩ := hg mark hmark.symm
    simp only
    cases hrecord : d.reconciler.get? id with
    | some record =>
      exact closeTarget1_steady tick h hsig hstate hrecord (hunstaged record hrecord) mark
        (hsome record hrecord) rfl
    | none =>
      -- without a record there is no receipt, and at an index level nothing is booked
      have hpremium := hnone hrecord
      have hreceipt : sig.paperOrder = none := by
        cases hr : sig.paperOrder with
        | none => rfl
        | some receipt =>
          have hsome := ((h.placed sig hsig).holder receipt hr).2.1
          rw [hrecord] at hsome
          cases hsome
      have hzero := (h.placed sig hsig).fresh hreceipt
      have hindex : sig.isOption = true ∧ spotThreshold < mark := by
        simpa [premiumMark] using hpremium
      have hbooked : reconcileT1Exit tick.ts sig none mark =
          (sig, { ({ } : FillReconciliationRecord) with reconciliationStatus := .reconciliationRequired }) :=
        if_pos hindex
      rw [hbooked]
      have hreceipt? : (d.setRecord id (sig, { ({ } : FillReconciliationRecord) with
          reconciliationStatus := .reconciliationRequired })).receipt? id = none := by
        have hdeal := receipt?_deal (d.setRecord id (sig, { ({ } : FillReconciliationRecord) with
          reconciliationStatus := .reconciliationRequired })) id
        rw [setRecord_signal, Option.bind_some, hreceipt] at hdeal
        exact Option.map_eq_none_iff.mp hdeal
      rw [closeSignalPosition]
      rw [hreceipt?]
      refine h.update h.tidy (setRecord_beside hsig rfl).face h.nonneg le_rfl
        ((Dict.get?_insert _ _ _ _).trans (if_pos rfl)) ⟨⟨le_rfl, ?_, ?_⟩, hzero.symm, ?_⟩ ?_
      · exact fun h => (by cases h)
      · exact fun f hf => (by cases hf)
      · show (0 : Int) ≤ 0 - d.shard.held (bookKey symbol)
        omega
      · exact fun _ _ _ f hf => (by cases hf)

theorem takeTarget1_moved (tick : Tick) (h : Steady id symbol d) {sig : SignalInstance}
    (hsig : d.signal? id = some sig) (hstate : sig.fsmState = .confirmed) (mark : Option ℚ) :
    ∃ moved sig', moved.signal? id = some sig' ∧ sig'.deal = sig.deal ∧ sig'.fsmState = .target1Hit ∧
      Steady id symbol moved ∧ moved.reconciler.get? id = d.reconciler.get? id ∧
      (d.SellsAsBooked tick id sig → moved.SellsAsBooked tick id sig') ∧
      (∀ price t1Qty, moved.Sells tick.env tick.cond id (target1Request price t1Qty) ↔
        d.Sells tick.env tick.cond id (target1Request price t1Qty)) ∧
      leaves (d.takeTarget1 tick mark id) = moved.bookTarget1 tick mark id := by
  obtain ⟨-, hshard, hrecord, -⟩ :=
    transition_fsm tick.env d id .target1Hit (some tick.price) "TARGET_1_ACHIEVED"
  obtain ⟨sig', hsig', hstep⟩ :=
    transition_signal tick.env d .target1Hit (some tick.price) "TARGET_1_ACHIEVED" hsig
  have hrow := transition_unsettled tick.env d id (some tick.price) "TARGET_1_ACHIEVED"
    (show SignalFsmState.target1Hit ≠ .closed by decide)
  have hedge : SignalFsmState.target1Hit ∈ allowedTransitions sig.fsmState := by
    rw [hstate]
    decide
  refine ⟨_, sig', hsig', hstep.deal, hstep.free hedge (by decide),
    h.rests (transition_rests tick.env h.tidy id _ _ _ fun _ => by decide), by rw [hrecord],
    fun hg => hg.transition hsig (by decide) _ _ hsig' hstep.deal, fun price t1Qty => ?_, ?_⟩
  · refine sells_target1_congr tick.env tick.cond hshard hrow ?_ price t1Qty
    rw [hsig, hsig']
    exact congrArg (·.2.2.2) hstep.deal
  · rw [takeTarget1]
    split
    · rename_i hraised
      have hexpired := hstep.raised (by rw [hraised])
      cases hexpired
    · rename_i hres
      rw [hres]
      rfl

theorem takeTarget1_steady (tick : Tick) (h : Steady id symbol d) {sig : SignalInstance}
    (hsig : d.signal? id = some sig) (hstate : sig.fsmState = .confirmed) (hg : d.SellsAsBooked tick id sig) :
    Steady id symbol (leaves (d.takeTarget1 tick (exitMark tick.env.marks sig) id)) := by
  obtain ⟨moved, sig', hsig', hdeal, hstate', hmoved, hrecord, hbooked, -, hend⟩ :=
    takeTarget1_moved tick h hsig hstate (exitMark tick.env.marks sig)
  rw [hend]
  refine bookTarget1_steady tick hmoved hsig' hstate' ?_ ?_ (hbooked hg)
  · rw [hrecord]
    exact (h.placed sig hsig).unstaged hstate
  · unfold exitMark
    rw [show sig'.optionContract = sig.optionContract from congrArg (·.2.2.1) hdeal]

/-- The first target parts the books when there is a premium to book at and no sale. -/
theorem takeTarget1_parts (tick : Tick) (h : Steady id symbol d) {sig : SignalInstance}
    (hsig : d.signal? id = some sig) (hstate : sig.fsmState = .confirmed)
    {record : FillReconciliationRecord} (hrecord : d.reconciler.get? id = some record)
    (hopen : 0 < record.remainingQty) {mark : ℚ} (hpremium : premiumMark sig mark = true)
    (hunsold : ¬ d.Sells tick.env tick.cond id (target1Request mark record.t1Qty)) :
    ¬ Agrees id symbol (leaves (d.takeTarget1 tick (some mark) id)) := by
  obtain ⟨moved, sig', hsig', hdeal, -, hmoved, hrecord', -, hsells, hend⟩ :=
    takeTarget1_moved tick h hsig hstate (some mark)
  have hunstaged := (h.placed sig hsig).unstaged hstate record hrecord
  rw [hrecord] at hrecord'
  have hpremium' : premiumMark sig' mark = true := by
    rw [← hpremium]
    unfold premiumMark SignalInstance.isOption
    rw [show sig'.optionContract = sig.optionContract from congrArg (·.2.2.1) hdeal,
      show sig'.direction = sig.direction from congrArg (·.2.1) hdeal]
  rw [hend]
  unfold bookTarget1
  rw [hsig', hrecord']
  exact closeTarget1_parts tick hmoved hsig' hrecord' hunstaged hopen hpremium'
    (fun hs => hunsold ((hsells _ _).mp hs)) rfl

/-! ### The final exit -/

/-- After a close that kept all, without a mark, or sold all and left a record that is ended. -/
theorem reconcileFinal_steady (ts : Int) (h : Steady id symbol d) {sig : SignalInstance}
    (hsig : d.signal? id = some sig) {record record₁ : FillReconciliationRecord}
    (hrecord : d.reconciler.get? id = some record) (ht : d'.shard.Tidy)
    (hface : (d'.signal? id).map (·.face) = (d.signal? id).map (·.face))
    (hrecord₁ : d'.reconciler.get? id = some record₁) (hfollows : Follows record record₁) (mark : Option ℚ)
    {reason : String} (hname : Stage.ofReason reason = .exit reason)
    (hdone : d'.shard.held (bookKey symbol) = d.shard.held (bookKey symbol) ∧ record₁ = record ∧ mark = none ∨
      d'.shard.held (bookKey symbol) = 0 ∧ (mark ≠ none ∨ record₁.remainingQty = 0)) :
    Steady id symbol (d'.reconcileFinal ts id mark reason) := by
  have hmatches := h.matches hrecord
  have hnonneg := h.nonneg
  have hremaining := hmatches.remaining
  have hbooked := hmatches.booked
  have hsound₁ : record₁.Sound ∧ 0 ≤ record₁.remainingQty := by
    rcases hfollows with rfl | hended
    · exact ⟨hmatches.sound, by omega⟩
    · exact ⟨hended.sound, hended.remaining.ge⟩
  rw [hsig, Option.map_some] at hface
  obtain ⟨sig₁, hsig₁, hsame⟩ := Option.map_eq_some_iff.mp hface
  obtain ⟨record₂, hrecord₂, hfollows₂, hmark, hnone⟩ :=
    reconcileFinal_record ts hrecord₁ hsound₁.1 hsound₁.2 hsig₁ mark hname
  have hbeside := reconcileFinal_beside ts hsig₁ mark reason
  have hshard := hbeside.shard
  have hface₂ : ((d'.reconcileFinal ts id mark reason).signal? id).map (·.face) =
      (d.signal? id).map (·.face) := by
    rw [hbeside.face, hsig₁, hsig, Option.map_some, Option.map_some, hsame]
  have hall := hfollows.trans hfollows₂
  refine h.update (by rw [hshard]; exact ht) hface₂ ?_ ?_ hrecord₂ ?_ fun sig' hsig' hconfirmed => ?_
  · rw [hshard]
    omega
  · rw [hshard]
    omega
  · rw [hshard]
    rcases hdone with ⟨hheld, rfl, hm⟩ | ⟨hheld, hzero⟩
    · rw [hheld, hnone hm]
      exact hmatches
    · rw [hheld]
      have hzero₂ : record₂.remainingQty = 0 := by
        by_cases hm : mark = none
        · rw [hnone hm]
          exact hzero.resolve_left fun hn => hn hm
        · exact hmark hm
      rcases hall with rfl | hended
      · exact ⟨hmatches.sound, hzero₂, by omega⟩
      · have hbooked₂ := hended.booked
        have hintended₂ := hended.intended
        exact ⟨hended.sound, hzero₂, by omega⟩
  · have hunstaged := (h.placed sig' hsig').unstaged hconfirmed record hrecord
    rcases hall with rfl | hended
    · exact hunstaged
    · exact hended.unstaged hunstaged

/-- The states that a final exit leads to. -/
def finalStates : List SignalFsmState := [.target2Hit, .stopLossHit, .timeStopHit, .runnerTimeStopHit]

theorem finalStates_end {target : SignalFsmState} (h : target ∈ finalStates) :
    (target ≠ .validated ∧ target ≠ .armed ∧ target ≠ .confirmed) ∧ target.label ≠ "TARGET_1_HIT" ∧
      Stage.ofReason target.label = .exit target.label := by
  simp only [finalStates, List.mem_cons, List.not_mem_nil, or_false] at h
  rcases h with rfl | rfl | rfl | rfl <;> decide

theorem takeFinal_steady (tick : Tick) (h : Steady id symbol d) {sig : SignalInstance}
    (hsig : d.signal? id = some sig) {target : SignalFsmState} (hfinal : target ∈ finalStates)
    (hg : d.ReconcilesAsSold tick id sig target) :
    Steady id symbol (leaves (d.takeFinal tick (exitMark tick.env.marks sig) id target)) := by
  obtain ⟨hne, hreason, hname⟩ := finalStates_end hfinal
  have hnonneg := h.nonneg
  have hsymbol : ∀ sig' receipt, d.receipt? id = some (sig', receipt) → receipt.symbol = symbol ∧
      ∃ record, d.reconciler.get? id = some record := by
    intro sig' receipt hreceipt
    obtain ⟨hsig', hr⟩ := receipt?_eq hreceipt
    obtain ⟨hs, hsome, -⟩ := (h.placed sig' hsig').holder receipt hr
    exact ⟨hs, Option.isSome_iff_exists.mp hsome⟩
  have hclose := closeSignalPosition_closes tick.env tick.cond h.tidy id (finalRequest tick sig target)
  have hface := close_face tick.env tick.cond h.tidy id (finalRequest tick sig target)
  obtain ⟨closed, hclosed, hend⟩ := takeFinal_leaves tick (exitMark tick.env.marks sig) d id target
  change closed = d.closeSignalPosition tick.env tick.cond id (finalRequest tick sig target) at hclosed
  rw [← hclosed] at hclose hface
  clear hclosed
  have hmove : ∀ {d' : Desk}, Steady id symbol d' → Steady id symbol
      (d'.transition tick.env id target (some tick.price) (target.label ++ "_TRIGGERED")).1 := fun h' =>
    h'.rests (transition_rests tick.env h'.tidy id _ _ _ fun _ => hne)
  cases hclose with
  | noReceipt hnone =>
    rcases hend with ⟨hend, -⟩ | ⟨-, row, hrow⟩
    · rw [hend]
      exact h
    · cases hrow
  | unfilled shard res hres hidle hsame =>
    rcases hend with ⟨hend, -⟩ | ⟨-, row, hrow⟩
    · rw [hend]
      exact h.rests (.of_eq (h.tidy.of_positions hsame) (Shard.held_congr hsame _) rfl rfl)
    · exact absurd hrow (hres row)
  | settled sig' receipt row hreceipt hrow hsettled =>
    obtain ⟨-, record, hrecord⟩ := hsymbol sig' receipt hreceipt
    have hzero := (h.matches hrecord).remaining
    rcases hend with ⟨-, hnot⟩ | ⟨hend, -⟩
    · exact absurd rfl (hnot row)
    · rw [hend]
      refine hmove (reconcileFinal_steady tick.ts h hsig hrecord h.tidy rfl hrecord (.inl rfl) _ hname ?_)
      rcases hg record hrecord with hnone | ⟨hunsettled, -⟩
      · exact .inr ⟨hzero.symm.trans hnone, .inr hnone⟩
      · refine .inl ⟨rfl, rfl, hunsettled fun hu => ?_⟩
        have hopen := hu row hrow
        rw [hsettled] at hopen
        cases hopen
  | flat sig' receipt price flat staged hreceipt hrow hnone =>
    obtain ⟨hs, record, hrecord⟩ := hsymbol sig' receipt hreceipt
    have hmatches := h.matches hrecord
    have hheld : d.shard.held (bookKey symbol) = 0 := by
      refine Shard.held_of_none ?_
      rw [← hs]
      exact hnone
    have hbeside := auditClose_beside tick.env.now d id (finalRequest tick sig target).reason price flat staged
    obtain ⟨record₁, hrecord₁, hcase, -⟩ := auditClose_record tick.env.now hrecord hmatches.sound
      (hmatches.remaining.trans hheld).ge hname price flat staged
    have hzero₁ : record₁.remainingQty = 0 := by
      rcases hcase with rfl | ⟨-, hended⟩
      · exact hmatches.remaining.trans hheld
      · exact hended.remaining
    have hclosed := reconcileFinal_steady tick.ts h hsig hrecord (by rw [hbeside.shard]; exact h.tidy) hface
      hrecord₁ (hcase.imp_right (·.2))
    rcases hend with ⟨hend, -⟩ | ⟨hend, -⟩
    · rw [hend]
      exact hclosed none hname (.inr ⟨by rw [hbeside.shard]; exact hheld, .inr hzero₁⟩)
    · rw [hend]
      exact hmove (hclosed _ hname (.inr ⟨by rw [hbeside.shard]; exact hheld, .inr hzero₁⟩))
  | filled sig' receipt pos shard price flat hsells hreceipt hpos hprice htidy hheld =>
    obtain ⟨hs, record, hrecord⟩ := hsymbol sig' receipt hreceipt
    have hmatches := h.matches hrecord
    have hkey : exitKey receipt = bookKey symbol := congrArg (·, ProductType.intraday) hs
    rw [hkey] at hpos
    obtain ⟨-, hside, hpositive, hq⟩ := h.tidy.buy hpos hnonneg
    have hsold : shard.held (bookKey symbol) = 0 := by
      rw [hheld, if_pos hkey, hside]
      simp only [OrderSide.opposite, OrderSide.mult, finalCloseQty, finalRequest, Option.filter_none,
        Option.getD_none]
      omega
    have hstaged : decide ((finalRequest tick sig target).reason = "TARGET_1_HIT" ∧
        finalCloseQty pos (finalRequest tick sig target).quantityToClose < pos.quantity) = false :=
      decide_eq_false fun hboth => hreason hboth.1
    rw [hstaged] at hend hface
    have hbeside := auditClose_beside tick.env.now { d with shard } id (finalRequest tick sig target).reason price
      flat false
    have hopen : record.remainingQty ≠ 0 := by
      rw [hmatches.remaining]
      omega
    -- the guard found the row, so the close is audited
    obtain ⟨-, hguard⟩ := (hg record hrecord).resolve_left hopen
    obtain ⟨row, hrow, hreconciled⟩ := hguard hsells
    rcases hend with ⟨-, hnot⟩ | ⟨hend, -⟩
    · obtain ⟨row', haudited⟩ := auditClose_audited tick.env.now (d := { d with shard }) hrow
        (finalRequest tick sig target).reason price flat false
      exact absurd haudited (hnot row')
    · obtain ⟨record₁, hrecord₁, hcase, hended⟩ := auditClose_record (d := { d with shard }) tick.env.now hrecord
        hmatches.sound (by rw [hmatches.remaining]; exact hnonneg) hname price flat false
      rw [hend]
      refine hmove (reconcileFinal_steady tick.ts h hsig hrecord (by rw [hbeside.shard]; exact htidy) hface
        hrecord₁ (hcase.imp_right (·.2)) _ hname (.inr ⟨by rw [hbeside.shard]; exact hsold, ?_⟩))
      by_cases hmark : exitMark tick.env.marks sig = none
      · obtain ⟨hreal, hok⟩ := hreconciled.resolve_left fun hn => hn hmark
        have hpriced := hok (sig', receipt) hreceipt
        have hasked : (finalRequest tick sig target).exitPrice = none := hmark
        rw [hasked] at hprice
        rw [hprice] at hpriced
        have hthere : d.signal? id ≠ none := by
          rw [hsig]
          exact Option.some_ne_none sig
        exact .inr (hended row hrow (hsells.1 row hrow) rfl hpriced hthere hreal)
      · exact .inl hmark

end Desk

end Droid.Signals
