import Droid.Lib.Run
import Droid.Signals.DeskFrames
import Droid.Signals.OutcomeTracker

/-! The reconciler's remaining quantity against the paper position of a signal that is the
only holder of its contract, and what leaves the two alone. -/
namespace Droid.Signals
open Lib Paper

/-! ### The record -/

namespace FillReconciliationRecord

/-- The quantity the exit stages booked. -/
def bookedQty (record : FillReconciliationRecord) : Int :=
  ((record.fills.filter (·.stage ≠ .entry)).map (·.quantity)).sum

/-- A closed record, or one with a final fill, has nothing remaining. -/
structure Sound (record : FillReconciliationRecord) : Prop where
  staged : 0 ≤ record.t1Qty
  closed : record.isFullyClosed = true → record.remainingQty = 0
  final : ∀ f ∈ record.fills, ∀ reason, f.stage = .exit reason → record.remainingQty = 0

/-- No first exit was booked. -/
def Unstaged (record : FillReconciliationRecord) : Prop := ∀ f ∈ record.fills, f.stage ≠ .target1

theorem bookedQty_append (record : FillReconciliationRecord) (fill : OptionStageFill)
    (h : fill.stage ≠ .entry) :
    ({ record with fills := record.fills ++ [fill] } : FillReconciliationRecord).bookedQty =
      record.bookedQty + fill.quantity := by
  simp [bookedQty, List.filter_append, h]

theorem Sound.booked {record : FillReconciliationRecord} (h : record.Sound) {reason : String} {price : ℚ}
    {now : Int} (hb : record.booked (.exit reason) price now = true) : record.remainingQty = 0 := by
  obtain ⟨f, hf, hstage⟩ := List.any_eq_true.mp hb
  rw [decide_eq_true_eq] at hstage
  exact h.final f hf reason hstage.1

end FillReconciliationRecord

open FillReconciliationRecord

def premiumMark (sig : SignalInstance) (mark : ℚ) : Bool := ¬ (sig.isOption ∧ spotThreshold < mark)

/-- The staged exit books its quantity at a premium, and nothing at an index level. -/
theorem reconcileT1Exit_spec (now : Int) (sig : SignalInstance) {record : FillReconciliationRecord}
    (hu : record.Unstaged) (hs : record.Sound) (h0 : 0 ≤ record.remainingQty) (mark : ℚ) :
    (reconcileT1Exit now sig (some record) mark).2.Sound ∧
      (reconcileT1Exit now sig (some record) mark).2.t1Qty = record.t1Qty ∧
      (reconcileT1Exit now sig (some record) mark).2.intendedQty = record.intendedQty ∧
      (reconcileT1Exit now sig (some record) mark).2.remainingQty =
        record.remainingQty - (if premiumMark sig mark then record.t1CloseQty else 0) ∧
      (reconcileT1Exit now sig (some record) mark).2.bookedQty =
        record.bookedQty + (if premiumMark sig mark then record.t1CloseQty else 0) := by
  obtain ⟨hclose0, hclose⟩ := t1CloseQty_le h0
  have hfirst : ¬ record.t1Replayed mark now = true := by
    intro hreplayed
    obtain ⟨f, hf, hstage⟩ := List.any_eq_true.mp (of_decide_eq_true hreplayed).2
    exact hu f hf (of_decide_eq_true hstage).1
  rw [reconcileT1Exit_some, if_neg hfirst]
  by_cases hp : sig.isOption = true ∧ spotThreshold < mark
  · have hmark : premiumMark sig mark = false := by simp [premiumMark, hp]
    rw [if_pos hp, hmark, if_neg Bool.false_ne_true, sub_zero, add_zero]
    exact ⟨⟨hs.staged, hs.closed, hs.final⟩, rfl, rfl, rfl, rfl⟩
  · have hmark : premiumMark sig mark = true := decide_eq_true hp
    have hleft : (stageExit now sig record mark).2.remainingQty = record.remainingQty - record.t1CloseQty :=
      (stageExit_remaining now sig record mark).trans (max_eq_right (by omega))
    rw [if_neg hp, hmark, if_pos rfl]
    refine ⟨⟨hs.staged, fun hc => ?_, fun f hf reason hstage => ?_⟩, rfl, rfl, hleft, ?_⟩
    · have hzero := hs.closed hc
      rw [hleft]
      omega
    · rw [hleft]
      rcases List.mem_append.mp hf with hf | hf
      · have hzero := hs.final f hf reason hstage
        omega
      · rw [List.mem_singleton.mp hf] at hstage
        cases hstage
    · exact bookedQty_append record _ (by simp)

/-- What is left of a record by a final exit: nothing remains, at most what remained was
booked, and no first exit. -/
structure Ended (record record' : FillReconciliationRecord) : Prop where
  sound : record'.Sound
  remaining : record'.remainingQty = 0
  intended : record'.intendedQty = record.intendedQty
  booked : record'.bookedQty ≤ record.bookedQty + record.remainingQty
  unstaged : record.Unstaged → record'.Unstaged

theorem Ended.trans {r r' r'' : FillReconciliationRecord} (h : Ended r r') (h' : Ended r' r'') :
    Ended r r'' where
  sound := h'.sound
  remaining := h'.remaining
  intended := h'.intended.trans h.intended
  booked := by
    have hfirst := h.booked
    have hsecond := h'.booked
    have hnone := h.remaining
    omega
  unstaged hu := h'.unstaged (h.unstaged hu)

theorem reconcileFinalExit_ended (now : Int) (sig : SignalInstance) {record : FillReconciliationRecord}
    (hs : record.Sound) (h0 : 0 ≤ record.remainingQty) (price : ℚ) {reason : String}
    (hname : Stage.ofReason reason = .exit reason) :
    Ended record (reconcileFinalExit now sig (some record) price reason).2 := by
  have hsame : record.bookedQty ≤ record.bookedQty + record.remainingQty := le_add_of_nonneg_right h0
  by_cases hb : record.booked (.ofReason reason) price now = true
  · rw [reconcileFinalExit_some, if_pos hb]
    rw [hname] at hb
    exact ⟨hs, hs.booked hb, rfl, hsame, id⟩
  · obtain ⟨-, hremaining, -, ⟨hintended, hstaged⟩, hledger⟩ := reconcileFinalExit_closes now sig hb
    have hsound : (reconcileFinalExit now sig (some record) price reason).2.Sound :=
      ⟨hstaged.symm ▸ hs.staged, fun _ => hremaining, fun _ _ _ _ => hremaining⟩
    have hfills := congrArg (·.2.1) hledger
    change (reconcileFinalExit now sig (some record) price reason).2.fills = _ at hfills
    split at hfills
    · rename_i hsells
      refine ⟨hsound, hremaining, hintended, ?_, fun hu f hf => ?_⟩
      · rw [bookedQty, hfills]
        exact (bookedQty_append record _ (by rw [hname]; simp)).le
      · rw [hfills] at hf
        rcases List.mem_append.mp hf with hf | hf
        · exact hu f hf
        · rw [List.mem_singleton.mp hf, hname]
          simp
    · refine ⟨hsound, hremaining, hintended, ?_, fun hu f hf => ?_⟩
      · rw [bookedQty, hfills]
        exact hsame
      · rw [hfills] at hf
        exact hu f hf

namespace FillReconciliationRecord.Unbooked
variable {record : FillReconciliationRecord}

theorem sound (h : record.Unbooked) (hstaged : 0 ≤ record.t1Qty) : record.Sound := by
  refine ⟨hstaged, fun hc => ?_, fun f hf reason hstage => ?_⟩
  · rw [h.opened] at hc
    cases hc
  · rw [h.entries f hf] at hstage
    cases hstage

theorem unstaged (h : record.Unbooked) : record.Unstaged := by
  intro f hf
  rw [h.entries f hf]
  decide

theorem bookedQty_eq (h : record.Unbooked) : record.bookedQty = 0 := by
  have hnone : record.fills.filter (·.stage ≠ .entry) = [] := by
    refine List.filter_eq_nil_iff.mpr fun f hf => ?_
    simp [h.entries f hf]
  rw [bookedQty, hnone]
  rfl

end FillReconciliationRecord.Unbooked

theorem reconcileEntry_spec (now : Int) (sig : SignalInstance) (fillPrice : ℚ) {quantity : Int}
    (hq : 0 < quantity) (explicitLot : Option Int) :
    (reconcileEntry now sig fillPrice quantity explicitLot).2.1.Sound ∧
      (reconcileEntry now sig fillPrice quantity explicitLot).2.1.remainingQty = quantity ∧
      (reconcileEntry now sig fillPrice quantity explicitLot).2.1.intendedQty = quantity ∧
      (reconcileEntry now sig fillPrice quantity explicitLot).2.1.bookedQty = 0 ∧
      (reconcileEntry now sig fillPrice quantity explicitLot).2.1.Unstaged := by
  have hfresh := reconcileEntry_unbooked now sig fillPrice quantity explicitLot
  obtain ⟨hremaining, hintended, hstaged⟩ :
      (reconcileEntry now sig fillPrice quantity explicitLot).2.1.remainingQty = quantity ∧
        (reconcileEntry now sig fillPrice quantity explicitLot).2.1.intendedQty = quantity ∧
        0 ≤ (reconcileEntry now sig fillPrice quantity explicitLot).2.1.t1Qty := by
    rw [reconcileEntry]
    simp only
    split
    · exact ⟨rfl, rfl, le_rfl⟩
    · exact ⟨rfl, rfl, stagedQty_nonneg hq (entryLot_pos sig explicitLot)⟩
  exact ⟨hfresh.sound hstaged, hremaining, hintended, hfresh.bookedQty_eq, hfresh.unstaged⟩

/-! ### The agreement -/

namespace Desk

/-- What the reconciler reports as remaining. -/
def remaining (d : Desk) (id : SignalId) : Int := ((d.reconciler.get? id).map (·.remainingQty)).getD 0

/-- The position key of the signal's contract. -/
def bookKey (symbol : String) : PositionId := (symbol, .intraday)

/-- The reconciler reports the open quantity, and the exit stages booked no more than the
paper service sold of the entry. -/
structure Agrees (id : SignalId) (symbol : String) (d : Desk) : Prop where
  remaining : d.remaining id = d.shard.held (bookKey symbol)
  booked : ∀ record, d.reconciler.get? id = some record →
    record.bookedQty ≤ record.intendedQty - d.shard.held (bookKey symbol)

/-- How a signal stands to its record: it trades its contract; with a receipt it has a record
and its entry is behind it; without one nothing is held. -/
structure Placed (symbol : String) (sig : SignalInstance) (record : Option FillReconciliationRecord)
    (held : Int) : Prop where
  contract : ∀ underlying, validateUnderlying sig.underlying = some underlying →
    sig.contractSymbol underlying = symbol
  holder : ∀ receipt, sig.paperOrder = some receipt →
    receipt.symbol = symbol ∧ record.isSome ∧ sig.fsmState ≠ .validated ∧ sig.fsmState ≠ .armed
  fresh : sig.paperOrder = none → held = 0
  unstaged : sig.fsmState = .confirmed → ∀ r, record = some r → r.Unstaged

/-- The agreement with what it rests on. -/
structure Steady (id : SignalId) (symbol : String) (d : Desk) : Prop extends Agrees id symbol d where
  tidy : d.shard.Tidy
  nonneg : 0 ≤ d.shard.held (bookKey symbol)
  sound : ∀ record, d.reconciler.get? id = some record → record.Sound
  placed : ∀ sig, d.signal? id = some sig →
    Placed symbol sig (d.reconciler.get? id) (d.shard.held (bookKey symbol))

/-! ### Steps that leave the books alone -/

/-- The view that the agreement takes of a desk is the same, but for a signal that moved. -/
structure Rests (id : SignalId) (symbol : String) (d d' : Desk) : Prop where
  tidy : d'.shard.Tidy
  held : d'.shard.held (bookKey symbol) = d.shard.held (bookKey symbol)
  record : d'.reconciler.get? id = d.reconciler.get? id
  signal : ∀ sig', d'.signal? id = some sig' → ∃ sig, d.signal? id = some sig ∧ sig'.deal = sig.deal ∧
    (sig'.fsmState = sig.fsmState ∨
      sig'.fsmState ≠ .validated ∧ sig'.fsmState ≠ .armed ∧ sig'.fsmState ≠ .confirmed)

variable {id : SignalId} {symbol : String} {d d' d'' : Desk}

theorem Rests.refl (h : d.shard.Tidy) : Rests id symbol d d :=
  ⟨h, rfl, rfl, fun sig hsig => ⟨sig, hsig, rfl, .inl rfl⟩⟩

theorem Rests.trans (h : Rests id symbol d d') (h' : Rests id symbol d' d'') : Rests id symbol d d'' := by
  refine ⟨h'.tidy, h'.held.trans h.held, h'.record.trans h.record, fun sig'' hsig'' => ?_⟩
  obtain ⟨sig', hsig', hdeal', hstate'⟩ := h'.signal sig'' hsig''
  obtain ⟨sig, hsig, hdeal, hstate⟩ := h.signal sig' hsig'
  refine ⟨sig, hsig, hdeal'.trans hdeal, ?_⟩
  rcases hstate' with heq | hne
  · rw [heq]
    exact hstate
  · exact .inr hne

theorem Placed.moved {sig sig' : SignalInstance} {record : Option FillReconciliationRecord} {held : Int}
    (h : Placed symbol sig record held) (hdeal : sig'.deal = sig.deal)
    (hstate : sig'.fsmState = sig.fsmState ∨
      sig'.fsmState ≠ .validated ∧ sig'.fsmState ≠ .armed ∧ sig'.fsmState ≠ .confirmed) :
    Placed symbol sig' record held := by
  simp only [SignalInstance.deal, Prod.mk.injEq] at hdeal
  obtain ⟨hu, -, hoption, hreceipt⟩ := hdeal
  constructor
  · intro underlying
    rw [hu, SignalInstance.contractSymbol, hoption]
    exact h.contract underlying
  · intro receipt
    rw [hreceipt]
    intro hr
    obtain ⟨hsymbol, hrecord, hv, ha⟩ := h.holder receipt hr
    refine ⟨hsymbol, hrecord, ?_⟩
    rcases hstate with heq | ⟨hv', ha', -⟩
    · rw [heq]
      exact ⟨hv, ha⟩
    · exact ⟨hv', ha'⟩
  · rw [hreceipt]
    exact h.fresh
  · intro hc
    rcases hstate with heq | ⟨-, -, hc'⟩
    · exact h.unstaged (heq.symm.trans hc)
    · exact absurd hc hc'

theorem Steady.rests (h : Steady id symbol d) (hr : Rests id symbol d d') : Steady id symbol d' := by
  refine ⟨⟨?_, ?_⟩, hr.tidy, ?_, ?_, ?_⟩
  · rw [Desk.remaining]
    rw [hr.record, hr.held]
    exact h.remaining
  · rw [hr.record, hr.held]
    exact h.booked
  · rw [hr.held]
    exact h.nonneg
  · rw [hr.record]
    exact h.sound
  · intro sig' hsig'
    obtain ⟨sig, hsig, hdeal, hstate⟩ := hr.signal sig' hsig'
    rw [hr.record, hr.held]
    exact (h.placed sig hsig).moved hdeal hstate

theorem transition_rests (env : Surroundings) (h : d.shard.Tidy) (x : SignalId) (target : SignalFsmState)
    (marketPrice : Option ℚ) (reason : String)
    (ht : x = id → target ≠ .validated ∧ target ≠ .armed ∧ target ≠ .confirmed) :
    Rests id symbol d (d.transition env x target marketPrice reason).1 := by
  obtain ⟨-, hshard, hrecord, -⟩ := transition_fsm env d x target marketPrice reason
  have helse := transition_elsewhere env d x target marketPrice reason
  refine ⟨by rw [hshard]; exact h, by rw [hshard], by rw [hrecord], fun sig' hsig' => ?_⟩
  by_cases hx : id = x
  · subst hx
    obtain ⟨sig, hsig, hmoved⟩ := transition_back env d target marketPrice reason hsig'
    refine ⟨sig, hsig, hmoved.deal, hmoved.state.imp_right fun hs => ?_⟩
    rw [hs.1]
    exact ht rfl
  · rw [helse.signal id hx] at hsig'
    exact ⟨sig', hsig', rfl, .inl rfl⟩

theorem Rests.of_eq (ht : d'.shard.Tidy)
    (hheld : d'.shard.held (bookKey symbol) = d.shard.held (bookKey symbol))
    (hrecord : d'.reconciler.get? id = d.reconciler.get? id) (hsignal : d'.signal? id = d.signal? id) :
    Rests id symbol d d' :=
  ⟨ht, hheld, hrecord, fun sig hsig => ⟨sig, hsignal.symm.trans hsig, rfl, .inl rfl⟩⟩

theorem Elsewhere.rests {x : SignalId} (h : Elsewhere x d d') (hx : id ≠ x) (ht : d.shard.Tidy) :
    Rests id symbol d d' :=
  .of_eq (by rw [h.shard]; exact ht) (by rw [h.shard]) (h.record id hx) (h.signal id hx)

/-! ### The sweep -/

theorem sweepTarget_ends {env : Surroundings} {nowMs : Int} {sig : SignalInstance}
    {target : SignalFsmState} {reason : String}
    (h : SignalFsmManager.sweepTarget env nowMs sig = some (target, reason)) :
    target ≠ .validated ∧ target ≠ .armed ∧ target ≠ .confirmed := by
  unfold SignalFsmManager.sweepTarget at h
  simp only at h
  split_ifs at h <;> cases h <;> decide

theorem sweepOne_rests (env : Surroundings) (h : d.shard.Tidy) (x : SignalId) :
    Rests id symbol d (d.sweepOne env x) := by
  rw [sweepOne]
  cases htarget : (d.signal? x).bind (SignalFsmManager.sweepTarget env env.now) with
  | none => exact .refl h
  | some res =>
    obtain ⟨target, reason⟩ := res
    obtain ⟨sig, -, hsweep⟩ := Option.bind_eq_some_iff.mp htarget
    exact transition_rests env h x target none reason fun _ => sweepTarget_ends hsweep

theorem sweepLoop_rests (env : Surroundings) (ids : List SignalId) (h : d.shard.Tidy) :
    Rests id symbol d (ids.foldl (sweepOne env) d) := by
  induction ids generalizing d with
  | nil => exact .refl h
  | cons x xs ih =>
    have hone : Rests id symbol d (d.sweepOne env x) := sweepOne_rests env h x
    exact hone.trans (ih hone.tidy)

theorem sweepExpired_rests (env : Surroundings) (h : d.shard.Tidy) :
    Rests id symbol d (d.sweepExpired env) := by
  have hloop : Rests id symbol d ((d.fsm.signals.entries.map Prod.fst).foldl (sweepOne env) d) :=
    sweepLoop_rests env _ h
  refine hloop.trans ⟨hloop.tidy, rfl, rfl, fun sig hsig => ⟨sig, ?_, rfl, .inl rfl⟩⟩
  unfold signal? sweepExpired SignalFsmManager.prune at hsig
  simp only [Dict.get?_filterKeys] at hsig
  split at hsig
  · exact hsig
  · cases hsig

/-! ### The turns of the other signals -/

/-- The signal's orders, past and to come, are for other symbols. -/
def Avoids (symbol : String) (sig : SignalInstance) : Prop :=
  (∀ underlying ∈ validateUnderlying sig.underlying, sig.contractSymbol underlying ≠ symbol) ∧
    ∀ receipt ∈ sig.paperOrder, receipt.symbol ≠ symbol

instance (symbol : String) (sig : SignalInstance) : Decidable (Avoids symbol sig) :=
  inferInstanceAs (Decidable ((∀ underlying ∈ validateUnderlying sig.underlying, _) ∧
    ∀ receipt ∈ sig.paperOrder, _))

theorem contractSymbol_of_deal {sig sig' : SignalInstance} (h : sig'.deal = sig.deal) (underlying : String) :
    sig'.contractSymbol underlying = sig.contractSymbol underlying := by
  simp only [SignalInstance.deal, Prod.mk.injEq] at h
  unfold SignalInstance.contractSymbol
  rw [h.2.2.1]

theorem Avoids.of_deal {sig sig' : SignalInstance} (h : Avoids symbol sig) (hdeal : sig'.deal = sig.deal) :
    Avoids symbol sig' := by
  have hsymbol := contractSymbol_of_deal hdeal
  simp only [SignalInstance.deal, Prod.mk.injEq] at hdeal
  obtain ⟨hu, -, -, hreceipt⟩ := hdeal
  constructor
  · intro underlying
    rw [hu, hsymbol]
    exact h.1 underlying
  · rw [hreceipt]
    exact h.2

theorem execute_rests (env : Surroundings) (cond : Conditions) (ht : d.shard.Tidy) {x : SignalId}
    (hx : id ≠ x) (ticket : Option Ticket) (ha : ∀ sig, d.signal? x = some sig → Avoids symbol sig) :
    Rests id symbol d (d.executeSignal env cond x ticket).1 := by
  rcases executeSignal_cases env cond d x ticket with
    heq | ⟨sig, t, underlying, hentry, ⟨-, -, -, -, heq⟩ | ⟨-, isNew, heq⟩⟩
  · rw [heq]
    exact .refl ht
  · rw [heq]
    exact .refl ht
  · obtain ⟨hsig, -, hu⟩ := entry?_eq hentry
    have hkey : ¬ entryKey sig underlying = bookKey symbol := fun hk =>
      (ha sig hsig).1 underlying hu (congrArg Prod.fst hk)
    have hdispatched := dispatch_dispatched env cond ht x sig t isNew underlying
    rw [heq]
    generalize d.dispatch env cond x sig t isNew underlying = res at hdispatched ⊢
    cases hdispatched with
    | refused d' hsame htidy hheld =>
      exact .of_eq htidy (hheld _) (by rw [hsame.reconciler]) (congrArg (·.signals.get? id) hsame.fsm)
    | rolledBack d' hsame htidy hoff hrolled hheld =>
      refine .of_eq htidy ?_ (by rw [hsame.reconciler]) (congrArg (·.signals.get? id) hsame.fsm)
      exact (hheld _).resolve_right fun h => hkey h.1.symm
    | filled shard order fill htidy hheld =>
      have hmoved : Rests id symbol d { d with shard } := by
        refine .of_eq htidy ?_ rfl rfl
        rw [hheld, if_neg hkey, add_zero]
      exact hmoved.trans ((bookEntry_elsewhere env _ x sig t isNew underlying order _ fill).rests hx htidy)
    | remembered order o fill hseen hstored hcounts hdomain =>
      exact (bookEntry_elsewhere env d x sig t isNew underlying order o.payload fill).rests hx ht

theorem close_rests (env : Surroundings) (cond : Conditions) (ht : d.shard.Tidy) {x : SignalId}
    (hx : id ≠ x) (req : CloseRequest) (ha : ∀ sig, d.signal? x = some sig → Avoids symbol sig) :
    Rests id symbol d (d.closeSignalPosition env cond x req).1 := by
  have hcloses := closeSignalPosition_closes env cond ht x req
  generalize d.closeSignalPosition env cond x req = res at hcloses ⊢
  cases hcloses with
  | noReceipt hnone => exact .refl ht
  | settled sig receipt row hreceipt hrow hsettled => exact .refl ht
  | flat sig receipt price flat staged hreceipt hrow hnone =>
    exact (auditClose_beside env.now d x req.reason price flat staged).toElsewhere.rests hx ht
  | unfilled shard res hres hidle hsame =>
    exact .of_eq (ht.of_positions hsame) (Shard.held_congr hsame _) rfl rfl
  | filled sig receipt pos shard price flat hsells hreceipt hpos hprice htidy hheld =>
    obtain ⟨hsig, hr⟩ := receipt?_eq hreceipt
    have hkey : ¬ exitKey receipt = bookKey symbol := fun hk =>
      (ha sig hsig).2 receipt hr (congrArg Prod.fst hk)
    have hmoved : Rests id symbol d { d with shard } := by
      refine .of_eq htidy ?_ rfl rfl
      rw [hheld, if_neg hkey, add_zero]
    exact hmoved.trans ((auditClose_beside env.now { d with shard } x req.reason price flat _).toElsewhere.rests
      hx htidy)

/-- The desk a turn leaves, whether it raised or not. -/
def leaves : Except Desk Desk → Desk
  | .ok d => d
  | .error d => d

@[simp] theorem leaves_ok (d : Desk) : leaves (.ok d) = d := rfl

@[simp] theorem leaves_error (d : Desk) : leaves (.error d) = d := rfl

@[simp] theorem leaves_unlessRaised (res : Desk × SignalFsmManager.TransitionResult) :
    leaves (unlessRaised res) = res.1 := by
  obtain ⟨d, r⟩ := res
  cases r <;> rfl

/-- How the turn of a trigger ends. -/
inductive Enters (tick : Tick) (d : Desk) (id : SignalId) : Desk → Prop
  | halted : Enters tick d id (d.trigger tick id).1
  | degraded : Enters tick d id
      ((d.trigger tick id).1.transition tick.env id .invalidated (some tick.price)
        "FNO_DATA_DEGRADED_CANNOT_ARM").1
  | refused (hok : (d.trigger tick id).2 = .ok)
      (hfill : ((d.trigger tick id).1.attemptEntry tick id).2.fill? = none) :
      Enters tick d id
        (((d.trigger tick id).1.attemptEntry tick id).1.transition tick.env id .invalidated (some tick.price)
          "EXECUTION_FAILED").1
  /-- Filled; the confirmation and the record after it may be missing. -/
  | filled (fillPrice : ℚ) (quantity : Int) (d' : Desk) (hok : (d.trigger tick id).2 = .ok)
      (hfill : ((d.trigger tick id).1.attemptEntry tick id).2.fill? = some (fillPrice, quantity))
      (hend : d' = ((d.trigger tick id).1.attemptEntry tick id).1 ∨
        ∃ confirmed, confirmed = (((d.trigger tick id).1.attemptEntry tick id).1.transition tick.env id
            .confirmed (some tick.price) "ENTRY_CONFIRMED").1 ∧
          (d' = confirmed ∨ d' = confirmed.registerFill tick.env.now id fillPrice quantity)) :
      Enters tick d id d'

theorem enterPosition_enters (tick : Tick) (d : Desk) (x : SignalId) :
    Enters tick d x (leaves (d.enterPosition tick x)) := by
  rw [enterPosition]
  rw [show d.trigger tick x = ((d.trigger tick x).1, (d.trigger tick x).2) from rfl]
  cases hres : (d.trigger tick x).2 with
  | raised => exact .halted
  | refused e =>
    simp only
    split
    · rw [leaves_unlessRaised]
      exact .degraded
    · exact .halted
  | ok =>
    simp only
    cases hfill : ((d.trigger tick x).1.attemptEntry tick x).2.fill? with
    | none =>
      simp only [leaves_unlessRaised]
      exact .refused hres hfill
    | some fill =>
      obtain ⟨fillPrice, quantity⟩ := fill
      simp only
      split
      · exact .filled fillPrice quantity _ hres hfill (.inl rfl)
      · split
        · rename_i hconfirm
          refine .filled fillPrice quantity _ hres hfill (.inr ⟨_, rfl, .inl ?_⟩)
          rw [hconfirm]
          rfl
        · rename_i hconfirm
          refine .filled fillPrice quantity _ hres hfill (.inr ⟨_, rfl, .inr ?_⟩)
          rw [hconfirm]
          rfl

theorem attemptEntry_rests (tick : Tick) (ht : d.shard.Tidy) {x : SignalId} (hx : id ≠ x)
    (ha : ∀ sig, d.signal? x = some sig → Avoids symbol sig) :
    Rests id symbol d (d.attemptEntry tick x).1 := by
  rw [attemptEntry]
  split
  · exact execute_rests tick.env tick.cond ht hx tick.ticket ha
  · exact .refl ht

theorem registerFill_elsewhere (now : Int) (d : Desk) (x : SignalId) (fillPrice : ℚ) (quantity : Int) :
    Elsewhere x d (d.registerFill now x fillPrice quantity) := by
  rw [registerFill]
  split
  · exact .refl x d
  · exact setRecord_elsewhere d x _

theorem transition_avoids (env : Surroundings) {x : SignalId} (target : SignalFsmState)
    (marketPrice : Option ℚ) (reason : String) (ha : ∀ sig, d.signal? x = some sig → Avoids symbol sig) :
    ∀ sig, (d.transition env x target marketPrice reason).1.signal? x = some sig → Avoids symbol sig := by
  intro sig' hsig'
  obtain ⟨sig, hsig, hmoved⟩ := transition_back env d target marketPrice reason hsig'
  exact (ha sig hsig).of_deal hmoved.deal

theorem enterPosition_rests (tick : Tick) (ht : d.shard.Tidy) {x : SignalId} (hx : id ≠ x)
    (ha : ∀ sig, d.signal? x = some sig → Avoids symbol sig) :
    Rests id symbol d (leaves (d.enterPosition tick x)) := by
  have hother : ∀ {d₁ : Desk} (target : SignalFsmState) (reason : String), Rests id symbol d d₁ →
      Rests id symbol d (d₁.transition tick.env x target (some tick.price) reason).1 := fun target reason h =>
    h.trans (transition_rests tick.env h.tidy x target _ reason fun he => absurd he.symm hx)
  have htrigger : Rests id symbol d (d.trigger tick x).1 := hother .triggered "TRIGGER_LEVEL_HIT" (.refl ht)
  have hentry := htrigger.trans (attemptEntry_rests tick htrigger.tidy hx (transition_avoids tick.env _ _ _ ha))
  have henters := enterPosition_enters tick d x
  generalize leaves (d.enterPosition tick x) = d' at henters ⊢
  cases henters with
  | halted => exact htrigger
  | degraded => exact hother _ _ htrigger
  | refused => exact hother _ _ hentry
  | filled fillPrice quantity _ hok hfill hend =>
    rcases hend with rfl | ⟨confirmed, rfl, rfl | rfl⟩
    · exact hentry
    · exact hother _ _ hentry
    · have hconfirmed := hother .confirmed "ENTRY_CONFIRMED" hentry
      exact hconfirmed.trans ((registerFill_elsewhere _ _ x _ _).rests hx hconfirmed.tidy)

theorem bookTarget1_rests (tick : Tick) (mark : Option ℚ) (ht : d.shard.Tidy) {x : SignalId} (hx : id ≠ x)
    (ha : ∀ sig, d.signal? x = some sig → Avoids symbol sig) :
    Rests id symbol d (d.bookTarget1 tick mark x) := by
  unfold bookTarget1
  split
  · rename_i mark' sig hsig
    have hset : Rests id symbol d
        (d.setRecord x (reconcileT1Exit tick.ts sig (d.reconciler.get? x) mark')) :=
      (setRecord_elsewhere d x _).rests hx ht
    refine hset.trans (close_rests tick.env tick.cond hset.tidy hx _ fun sig' hsig' => ?_)
    rw [setRecord_signal] at hsig'
    cases hsig'
    have hface := reconcileT1Exit_face tick.ts sig (d.reconciler.get? x) mark'
    exact (ha sig hsig).of_deal (congrArg Prod.snd hface)
  · exact .refl ht

theorem takeTarget1_leaves (tick : Tick) (mark : Option ℚ) (d : Desk) (x : SignalId) :
    ∃ moved, moved = (d.transition tick.env x .target1Hit (some tick.price) "TARGET_1_ACHIEVED").1 ∧
      (leaves (d.takeTarget1 tick mark x) = moved ∨
        leaves (d.takeTarget1 tick mark x) = moved.bookTarget1 tick mark x) := by
  refine ⟨_, rfl, ?_⟩
  rw [takeTarget1]
  split
  · rename_i hres
    rw [hres]
    exact .inl rfl
  · rename_i hres
    rw [hres]
    exact .inr rfl

theorem takeTarget1_rests (tick : Tick) (mark : Option ℚ) (ht : d.shard.Tidy) {x : SignalId} (hx : id ≠ x)
    (ha : ∀ sig, d.signal? x = some sig → Avoids symbol sig) :
    Rests id symbol d (leaves (d.takeTarget1 tick mark x)) := by
  have hmoved : Rests id symbol d
      (d.transition tick.env x .target1Hit (some tick.price) "TARGET_1_ACHIEVED").1 :=
    transition_rests tick.env ht x _ _ _ fun he => absurd he.symm hx
  obtain ⟨moved, rfl, hend | hend⟩ := takeTarget1_leaves tick mark d x
  · rw [hend]
    exact hmoved
  · rw [hend]
    exact hmoved.trans (bookTarget1_rests tick mark hmoved.tidy hx (transition_avoids tick.env _ _ _ ha))

/-- A final exit stops at a close that settled nothing; else the record and the state follow. -/
theorem takeFinal_leaves (tick : Tick) (mark : Option ℚ) (d : Desk) (x : SignalId) (target : SignalFsmState) :
    ∃ closed, closed = d.closeSignalPosition tick.env tick.cond x { exitPrice := mark, reason := target.label } ∧
      (leaves (d.takeFinal tick mark x target) = closed.1 ∧ (∀ row, closed.2 ≠ .audited row) ∨
        leaves (d.takeFinal tick mark x target) =
          ((closed.1.reconcileFinal tick.ts x mark target.label).transition tick.env x target
            (some tick.price) (target.label ++ "_TRIGGERED")).1 ∧ ∃ row, closed.2 = .audited row) := by
  refine ⟨_, rfl, ?_⟩
  rw [takeFinal]
  split
  · rename_i row hres
    rw [hres, leaves_unlessRaised]
    exact .inr ⟨rfl, row, rfl⟩
  · rename_i d' res hnot hres
    rw [hres]
    exact .inl ⟨rfl, hnot⟩

theorem reconcileFinal_elsewhere (ts : Int) (d : Desk) (x : SignalId) (mark : Option ℚ) (reason : String) :
    Elsewhere x d (d.reconcileFinal ts x mark reason) := by
  unfold reconcileFinal
  split
  · exact setRecord_elsewhere d x _
  · exact .refl x d

theorem takeFinal_rests (tick : Tick) (mark : Option ℚ) (ht : d.shard.Tidy) {x : SignalId} (hx : id ≠ x)
    (target : SignalFsmState) (ha : ∀ sig, d.signal? x = some sig → Avoids symbol sig) :
    Rests id symbol d (leaves (d.takeFinal tick mark x target)) := by
  obtain ⟨closed, rfl, ⟨hend, -⟩ | ⟨hend, -⟩⟩ := takeFinal_leaves tick mark d x target
  · rw [hend]
    exact close_rests tick.env tick.cond ht hx _ ha
  · rw [hend]
    have hclosed : Rests id symbol d (d.closeSignalPosition tick.env tick.cond x
        { exitPrice := mark, reason := target.label }).1 := close_rests tick.env tick.cond ht hx _ ha
    have hfinal := hclosed.trans
      ((reconcileFinal_elsewhere tick.ts _ x mark target.label).rests hx hclosed.tidy)
    exact hfinal.trans (transition_rests tick.env hfinal.tidy x _ _ _ fun he => absurd he.symm hx)

theorem ratchet_rests (ht : d.shard.Tidy) (x : SignalId) (price : ℚ) :
    Rests id symbol d { d with fsm := (d.fsm.ratchetBreakeven x price).1 } := by
  refine ⟨ht, rfl, rfl, fun sig' hsig' => ?_⟩
  unfold signal? at hsig'
  rcases ratchetBreakeven_cases d.fsm x price with
    hsame | ⟨sig, newSl, audit, hsig, -, -, -, -, hrecord⟩
  · rw [hsame] at hsig'
    exact ⟨sig', hsig', rfl, .inl rfl⟩
  · simp only [hrecord, SignalFsmManager.record, Dict.get?_insert] at hsig'
    split at hsig'
    · rename_i hx
      subst hx
      cases hsig'
      exact ⟨sig, hsig, rfl, .inl rfl⟩
    · exact ⟨sig', hsig', rfl, .inl rfl⟩

/-- The turn of another signal, whose orders are for other symbols. -/
theorem visit_rests (tick : Tick) (ht : d.shard.Tidy) {x : SignalId} (hx : id ≠ x)
    (ha : ∀ sig, d.signal? x = some sig → Avoids symbol sig) :
    Rests id symbol d (leaves (d.visit tick x)) := by
  rw [visit]
  cases hsig : d.signal? x with
  | none => exact .refl ht
  | some sig =>
    simp only
    split
    · exact .refl ht
    · exact enterPosition_rests tick ht hx ha
    · rw [leaves_unlessRaised]
      exact transition_rests tick.env ht x _ _ _ fun he => absurd he.symm hx
    · exact ratchet_rests ht x tick.price
    · exact takeTarget1_rests tick _ ht hx ha
    · exact takeFinal_rests tick _ ht hx _ ha

end Desk

end Droid.Signals
