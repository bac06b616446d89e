import Droid.Signals.Atomicity
import Droid.Signals.PaperEngine
import Droid.Paper.Exits
import Mathlib.Tactic.SplitIfs

/-! What the calls of the desk leave alone, and what an entry and an exit do to the shard. -/
namespace Droid.Signals
open Lib Paper

/-- What a signal trades, and the receipt of its entry. -/
def SignalInstance.deal (sig : SignalInstance) :
    String × Direction × Option OptionContract × Option PaperReceipt :=
  (sig.underlying, sig.direction, sig.optionContract, sig.paperOrder)

/-- The deal and the state. -/
def SignalInstance.face (sig : SignalInstance) :
    SignalFsmState × String × Direction × Option OptionContract × Option PaperReceipt :=
  (sig.fsmState, sig.deal)

/-! ### Transitions keep the deal -/

private theorem advance_deal (env : Surroundings) (sig : SignalInstance) (target : SignalFsmState)
    (marketPrice : Option ℚ) {sig' : SignalInstance}
    (h : advance env sig target marketPrice = .moved sig' ∨
      advance env sig target marketPrice = .raised sig') : sig'.deal = sig.deal := by
  refine advance_keeps SignalInstance.deal (fun sig f sig' hs => ?_) (fun _ _ => rfl) (fun _ _ => rfl)
    (fun sig now => ?_) h
  · cases f <;> cases hs <;> rfl
  · obtain ⟨_, _, _, _, hrun⟩ := startRunner_writes sig now
    rw [hrun]
    rfl

/-- The signal stayed in its state or moved along an edge to this one; it trades what it
traded. A transition that is answered with True, or that only its edge could refuse, moves;
only an expiry raises. -/
structure Moved (target : SignalFsmState) (res : SignalFsmManager.TransitionResult)
    (sig sig' : SignalInstance) : Prop where
  deal : sig'.deal = sig.deal
  state : sig'.fsmState = sig.fsmState ∨
    sig'.fsmState = target ∧ target ∈ allowedTransitions sig.fsmState
  ok : res = .ok → sig'.fsmState = target
  free : target ∈ allowedTransitions sig.fsmState → target ∉ [.armed, .triggered, .confirmed] →
    sig'.fsmState = target
  raised : res = .raised → target = .expired

theorem transition_moved (env : Surroundings) (m : SignalFsmManager) {id : SignalId}
    (target : SignalFsmState) (marketPrice : Option ℚ) (reason : String)
    {sig : SignalInstance} (hsig : m.signals.get? id = some sig) :
    ∃ sig', (m.transition env id target marketPrice reason none).1.signals.get? id = some sig' ∧
      Moved target (m.transition env id target marketPrice reason none).2 sig sig' := by
  by_cases hst : sig.fsmState = target
  · have hsame : m.transition env id target marketPrice reason none = (m, .ok) := by
      rw [SignalFsmManager.transition]
      simp only [hsig, if_pos hst]
    rw [hsame]
    exact ⟨sig, hsig, rfl, .inl rfl, fun _ => hst, fun _ _ => hst, fun h => (by cases h)⟩
  · rw [SignalFsmManager.transition]
    simp only [hsig, if_neg hst]
    rcases pure_admits env sig target marketPrice none hst with ⟨ha, hp⟩ | ⟨hn, e, he⟩
    · rw [hp]
      obtain ⟨sig', hstate, -, -, ⟨hstep, -⟩ | ⟨hstep, hexp, -⟩⟩ :=
        advance_cases env (sig.enter env.now target) target marketPrice
      · have hdeal := advance_deal env (sig.enter env.now target) target marketPrice (.inl hstep)
        simp only [hstep, (enqueueSettlement_frame _ _ _ _).1, SignalFsmManager.record]
        exact ⟨_, (Dict.get?_insert _ _ _ _).trans (if_pos rfl), hdeal, .inr ⟨hstate, ha.edge⟩,
          fun _ => hstate, fun _ _ => hstate, fun h => (by cases h)⟩
      · have hdeal := advance_deal env (sig.enter env.now target) target marketPrice (.inr hstep)
        simp only [hstep]
        exact ⟨_, (Dict.get?_insert _ _ _ _).trans (if_pos rfl), hdeal, .inr ⟨hstate, ha.edge⟩,
          fun _ => hstate, fun _ _ => hstate, fun _ => hexp⟩
    · simp only [he]
      refine ⟨sig, hsig, rfl, .inl rfl, fun h => (by cases h), fun hedge hgate => ?_,
        fun h => (by cases h)⟩
      exact absurd ⟨(fun _ h => by cases h), hedge, fun hfno => hgate hfno.1⟩ hn

namespace Desk

/-! ### Calls on one signal -/

/-- From d to d' only the entries of this signal change; the shard stays. -/
structure Elsewhere (id : SignalId) (d d' : Desk) : Prop where
  shard : d'.shard = d.shard
  signal : ∀ x, x ≠ id → d'.signal? x = d.signal? x
  record : ∀ x, x ≠ id → d'.reconciler.get? x = d.reconciler.get? x

/-- Nor do this signal's deal and state. -/
structure Beside (id : SignalId) (d d' : Desk) : Prop extends Elsewhere id d d' where
  face : (d'.signal? id).map (·.face) = (d.signal? id).map (·.face)

variable {id : SignalId} {d d' d'' : Desk}

theorem Elsewhere.refl (id : SignalId) (d : Desk) : Elsewhere id d d :=
  ⟨rfl, fun _ _ => rfl, fun _ _ => rfl⟩

theorem Elsewhere.trans (h : Elsewhere id d d') (h' : Elsewhere id d' d'') : Elsewhere id d d'' where
  shard := h'.shard.trans h.shard
  signal x hx := (h'.signal x hx).trans (h.signal x hx)
  record x hx := (h'.record x hx).trans (h.record x hx)

theorem Beside.refl (id : SignalId) (d : Desk) : Beside id d d := ⟨.refl id d, rfl⟩

theorem Beside.trans (h : Beside id d d') (h' : Beside id d' d'') : Beside id d d'' :=
  ⟨h.toElsewhere.trans h'.toElsewhere, h'.face.trans h.face⟩

theorem setRow_beside (d : Desk) (id : SignalId) (row : AuditTradeRecord) : Beside id d (d.setRow id row) :=
  ⟨⟨rfl, fun _ _ => rfl, fun _ _ => rfl⟩, rfl⟩

theorem setIntent_beside (d : Desk) (id : SignalId) (ticket : Ticket) (isNew : Bool) (state : IntentState) :
    Beside id d (d.setIntent ticket isNew state) := by
  rw [setIntent]
  split <;> exact ⟨⟨rfl, fun _ _ => rfl, fun _ _ => rfl⟩, rfl⟩

theorem setRecord_signal (d : Desk) (id : SignalId) (res : SignalInstance × FillReconciliationRecord) :
    (d.setRecord id res).signal? id = some res.1 := by
  unfold signal? setRecord setSignal
  rw [Dict.get?_insert, if_pos rfl]

theorem setRecord_elsewhere (d : Desk) (id : SignalId) (res : SignalInstance × FillReconciliationRecord) :
    Elsewhere id d (d.setRecord id res) where
  shard := rfl
  signal x hx := by
    unfold signal? setRecord setSignal
    rw [Dict.get?_insert, if_neg hx]
  record x hx := by
    rw [setRecord]
    rw [Dict.get?_insert, if_neg hx]

theorem setRecord_beside {sig : SignalInstance} (hsig : d.signal? id = some sig)
    {res : SignalInstance × FillReconciliationRecord} (hface : res.1.face = sig.face) :
    Beside id d (d.setRecord id res) := by
  refine ⟨setRecord_elsewhere d id res, ?_⟩
  rw [setRecord_signal, hsig, Option.map_some, Option.map_some, hface]

/-- Besides the FSM a transition changes a ledger row only. -/
theorem transition_fsm (env : Surroundings) (d : Desk) (id : SignalId) (target : SignalFsmState)
    (marketPrice : Option ℚ) (reason : String) :
    (d.transition env id target marketPrice reason).1.fsm =
        (d.fsm.transition env id target marketPrice reason none).1 ∧
      (d.transition env id target marketPrice reason).1.shard = d.shard ∧
      (d.transition env id target marketPrice reason).1.reconciler = d.reconciler ∧
      (d.transition env id target marketPrice reason).2 =
        (d.fsm.transition env id target marketPrice reason none).2 := by
  rw [transition]
  simp only
  split <;> exact ⟨rfl, rfl, rfl, rfl⟩

theorem transition_elsewhere (env : Surroundings) (d : Desk) (id : SignalId) (target : SignalFsmState)
    (marketPrice : Option ℚ) (reason : String) :
    Elsewhere id d (d.transition env id target marketPrice reason).1 := by
  obtain ⟨hfsm, hshard, hrecord, -⟩ := transition_fsm env d id target marketPrice reason
  refine ⟨hshard, fun x hx => ?_, fun x _ => by rw [hrecord]⟩
  unfold signal?
  rw [hfsm, transition_other env d.fsm id target marketPrice reason none hx]

theorem transition_signal (env : Surroundings) (d : Desk) {id : SignalId} (target : SignalFsmState)
    (marketPrice : Option ℚ) (reason : String) {sig : SignalInstance} (hsig : d.signal? id = some sig) :
    ∃ sig', (d.transition env id target marketPrice reason).1.signal? id = some sig' ∧
      Moved target (d.transition env id target marketPrice reason).2 sig sig' := by
  obtain ⟨hfsm, -, -, hres⟩ := transition_fsm env d id target marketPrice reason
  unfold signal?
  rw [hfsm, hres]
  exact transition_moved env d.fsm target marketPrice reason hsig

/-- And a signal there after it was there before. -/
theorem transition_back (env : Surroundings) (d : Desk) {id : SignalId} (target : SignalFsmState)
    (marketPrice : Option ℚ) (reason : String) {sig' : SignalInstance}
    (hsig' : (d.transition env id target marketPrice reason).1.signal? id = some sig') :
    ∃ sig, d.signal? id = some sig ∧
      Moved target (d.transition env id target marketPrice reason).2 sig sig' := by
  cases hsig : d.signal? id with
  | none =>
    obtain ⟨hfsm, -⟩ := transition_fsm env d id target marketPrice reason
    unfold signal? at hsig hsig'
    rw [hfsm, transition_absent env d.fsm target marketPrice reason none hsig, hsig] at hsig'
    cases hsig'
  | some sig =>
    obtain ⟨sig'', hsig'', hmoved⟩ := transition_signal env d target marketPrice reason hsig
    cases hsig''.symm.trans hsig'
    exact ⟨sig, rfl, hmoved⟩

theorem transition_intents (env : Surroundings) (d : Desk) (id : SignalId) (target : SignalFsmState)
    (marketPrice : Option ℚ) (reason : String) :
    (d.transition env id target marketPrice reason).1.intents = d.intents := by
  rw [transition]
  simp only
  split <;> rfl

end Desk

/-! ### The reconciler keeps deal and state -/

theorem reconcileEntry_face (now : Int) (sig : SignalInstance) (fillPrice : ℚ) (quantity : Int)
    (explicitLot : Option Int) : (reconcileEntry now sig fillPrice quantity explicitLot).1.face = sig.face := by
  rw [reconcileEntry]
  simp only
  split <;> rfl

theorem rebuildEntry_face (now : Int) (sig : SignalInstance) : (rebuildEntry now sig).1.face = sig.face := by
  rw [rebuildEntry]
  simp only
  split_ifs <;> exact reconcileEntry_face now sig _ _ _

theorem reconcileT1Exit_face (now : Int) (sig : SignalInstance) (existing : Option FillReconciliationRecord)
    (exitFillPrice : ℚ) : (reconcileT1Exit now sig existing exitFillPrice).1.face = sig.face := by
  unfold reconcileT1Exit
  split
  · rfl
  · split
    · rfl
    · cases existing with
      | some record => rfl
      | none =>
        simp only
        split
        · exact rebuildEntry_face now sig
        · exact rebuildEntry_face now sig

theorem reconcileFinalExit_face (now : Int) (sig : SignalInstance)
    (existing : Option FillReconciliationRecord) (exitFillPrice : ℚ) (exitReason : String) :
    (reconcileFinalExit now sig existing exitFillPrice exitReason).1.face = sig.face := by
  unfold reconcileFinalExit
  cases existing with
  | some record =>
    simp only
    split
    · rfl
    · split <;> rfl
  | none =>
    have hface := rebuildEntry_face now sig
    simp only
    split
    · exact hface
    · split <;> exact hface

namespace Desk
variable {id : SignalId} {d d' : Desk}

theorem finishReconciler_beside (now : Int) (d : Desk) (id : SignalId) (exitPrice : ℚ) (exitReason : String) :
    Beside id d (d.finishReconciler now id exitPrice exitReason) := by
  rw [finishReconciler]
  split
  · rename_i record sig _ hsig
    split
    · exact .refl id d
    · exact setRecord_beside hsig (reconcileFinalExit_face now sig _ exitPrice exitReason)
  · exact .refl id d

theorem recordSquareOff_beside (now : Int) (d : Desk) (id : SignalId) (row : AuditTradeRecord)
    (exitPrice : ℚ) (exitReason : String) :
    Beside id d (d.recordSquareOff now id row exitPrice exitReason).1 := by
  rw [recordSquareOff]
  split
  · exact .refl id d
  · refine .trans ?_ (setRow_beside _ id _)
    split
    · exact finishReconciler_beside now d id exitPrice exitReason
    · exact .refl id d

theorem auditClose_beside (now : Int) (d : Desk) (id : SignalId) (reason : String) (price : ℚ)
    (flat staged : Bool) : Beside id d (d.auditClose now id reason price flat staged).1 := by
  rw [auditClose]
  split
  · exact .refl id d
  · split
    · exact setRow_beside d id _
    · exact (recordSquareOff_beside now d id _ price _).trans (setRow_beside _ id _)

theorem confirmEntry_elsewhere (env : Surroundings) (d : Desk) (id : SignalId) (fill : ℚ) :
    Elsewhere id d (d.confirmEntry env id fill) := by
  rw [confirmEntry]
  split
  · exact .refl id d
  · split
    · exact transition_elsewhere env d id _ _ _
    · split
      · have hfirst := transition_elsewhere env d id .triggered (some fill) "PAPER_TRADE_TRIGGER_PROOF"
        split
        · rename_i heq
          rw [heq] at hfirst
          exact hfirst.trans (transition_elsewhere env _ id _ _ _)
        · rename_i heq
          rw [heq] at hfirst
          exact hfirst
      · exact .refl id d

theorem bookEntry_elsewhere (env : Surroundings) (d : Desk) (id : SignalId) (sig : SignalInstance)
    (ticket : Ticket) (isNew : Bool) (underlying : String) (order : OrderId) (orderPayload : OrderPayload)
    (fill : ℚ) :
    Elsewhere id d (d.bookEntry env id sig ticket isNew underlying order orderPayload fill) := by
  unfold bookEntry
  simp only
  refine .trans ?_ (setRow_beside _ id _).toElsewhere
  refine .trans ?_ (confirmEntry_elsewhere env _ id fill)
  exact (setIntent_beside d id ticket isNew _).toElsewhere.trans (setRecord_elsewhere _ id _)

/-! ### Entry -/

def entryKey (sig : SignalInstance) (underlying : String) : PositionId :=
  (sig.contractSymbol underlying, .intraday)

theorem entry?_eq {d : Desk} {id : SignalId} {ticket : Option Ticket} {sig : SignalInstance} {t : Ticket}
    {underlying : String} (h : d.entry? id ticket = some (sig, t, underlying)) :
    d.signal? id = some sig ∧ ticket = some t ∧ validateUnderlying sig.underlying = some underlying := by
  unfold entry? at h
  obtain ⟨sig', hsig, h⟩ := Option.bind_eq_some_iff.mp h
  obtain ⟨t', ht, h⟩ := Option.bind_eq_some_iff.mp h
  obtain ⟨u', hu, h⟩ := Option.bind_eq_some_iff.mp h
  cases h
  exact ⟨hsig, ht, hu⟩

/-- Only shard, ledger and intents differ. -/
structure SameSignals (d d' : Desk) : Prop where
  fsm : d'.fsm = d.fsm
  reconciler : d'.reconciler = d.reconciler

theorem setIntent_same (d : Desk) (ticket : Ticket) (isNew : Bool) (state : IntentState) :
    SameSignals d (d.setIntent ticket isNew state) ∧ (d.setIntent ticket isNew state).shard = d.shard := by
  rw [setIntent]
  split <;> exact ⟨⟨rfl, rfl⟩, rfl⟩

/-- The shard after the entry's order and the sale of all that is open under its symbol. -/
def rolledBack (cond : Conditions) (d : Desk) (sig : SignalInstance) (ticket : Ticket)
    (underlying : String) : Shard :=
  let (shard, _) := d.shard.placeOrder cond (ticket.payload (sig.contractSymbol underlying) underlying) false
  (shard.squareOffPosition cond (entryKey sig underlying) true).1

/-- How the dispatch of an entry ends. -/
inductive Dispatched (env : Surroundings) (cond : Conditions) (d : Desk) (id : SignalId)
    (sig : SignalInstance) (ticket : Ticket) (isNew : Bool) (underlying : String) :
    Desk × ExecutionResult → Prop where
  /-- Not filled: nothing is held that was not held before. -/
  | refused (d' : Desk) (same : SameSignals d d') (tidy : d'.shard.Tidy)
      (held : ∀ k, d'.shard.held k = d.shard.held k) :
      Dispatched env cond d id sig ticket isNew underlying (d', .refused)
  /-- Filled off its domain: all that is open under the symbol is sold, if it can be. -/
  | rolledBack (d' : Desk) (same : SameSignals d d') (tidy : d'.shard.Tidy)
      (offDomain : d.offDomainAnswer cond sig ticket underlying = true)
      (rolled : d'.shard = d.rolledBack cond sig ticket underlying)
      (held : ∀ k, d'.shard.held k = d.shard.held k ∨ k = entryKey sig underlying ∧
        (d'.shard.held k = 0 ∨ d'.shard.held k = d.shard.held k + ticket.quantity)) :
      Dispatched env cond d id sig ticket isNew underlying (d', .refused)
  /-- Filled just now. -/
  | filled (shard : Shard) (order : OrderId) (fill : ℚ) (tidy : shard.Tidy)
      (held : ∀ k, shard.held k = d.shard.held k +
        if entryKey sig underlying = k then ticket.quantity else 0) :
      Dispatched env cond d id sig ticket isNew underlying
        ({ d with shard }.bookEntry env id sig ticket isNew underlying order
          (ticket.payload (sig.contractSymbol underlying) underlying) fill, .executed fill ticket.quantity)
  /-- Answered with an order of an earlier dispatch, which counts as filled. -/
  | remembered (order : OrderId) (o : VirtualOrder) (fill : ℚ)
      (seen : d.shard.idempotency.get? ticket.tag = some order) (stored : d.shard.orders[order]? = some o)
      (counts : o.status ∉ [.pending, .rejected])
      (inDomain : d.offDomainAnswer cond sig ticket underlying = false) :
      Dispatched env cond d id sig ticket isNew underlying
        (d.bookEntry env id sig ticket isNew underlying order o.payload fill,
          .executed fill ticket.quantity)

theorem cancelled_positions (s : Shard) (order : OrderId) :
    ((s.cancelOrder order).toOption.getD s).positions = s.positions := by
  cases hc : s.cancelOrder order with
  | error e => rfl
  | ok s' => exact Shard.cancelOrder_positions hc

private theorem rollback_held (cond : Conditions) {d : Desk} (ht : d.shard.Tidy) (symbol : String) :
    (d.rollbackOffDomainFill cond symbol).shard.Tidy ∧
      ∀ k, (d.rollbackOffDomainFill cond symbol).shard.held k = d.shard.held k ∨
        k = (symbol, .intraday) ∧ (d.rollbackOffDomainFill cond symbol).shard.held k = 0 := by
  obtain ⟨htidy, hheld⟩ := Shard.squareOffPosition_held cond ht (symbol, .intraday) true
  refine ⟨htidy, fun k => ?_⟩
  rcases hheld with hsame | hzero
  · exact .inl (hsame k)
  · have hk := hzero k
    split at hk
    · rename_i hkey
      exact .inr ⟨hkey, hk⟩
    · exact .inl hk

theorem dispatch_dispatched (env : Surroundings) (cond : Conditions) {d : Desk} (ht : d.shard.Tidy)
    (id : SignalId) (sig : SignalInstance) (ticket : Ticket) (isNew : Bool) (underlying : String) :
    Dispatched env cond d id sig ticket isNew underlying
      (d.dispatch env cond id sig ticket isNew underlying) := by
  have htag : ((ticket.payload (sig.contractSymbol underlying) underlying).clientOrderId.filter (· ≠ "")) =
      some ticket.tag := by
    simp [Ticket.payload, Ticket.tag, Option.filter]
  have hanswer := d.shard.placeOrder_answer cond (ticket.payload (sig.contractSymbol underlying) underlying) false
  have htidy : (d.shard.placeOrder cond (ticket.payload (sig.contractSymbol underlying) underlying) false).1.Tidy :=
    ht.placeOrderLocked cond _ false none
  rcases hp : d.shard.placeOrder cond (ticket.payload (sig.contractSymbol underlying) underlying) false with
    ⟨shard, order⟩
  rw [hp] at hanswer htidy
  rw [dispatch]
  simp only [hp]
  -- what was answered, and how the held quantities stand then
  have hplaced : ∀ o, shard.orders[order]? = some o →
      (d.shard.idempotency.get? ticket.tag = some order ∧ shard = d.shard) ∨
        o.payload = ticket.payload (sig.contractSymbol underlying) underlying ∧
          ((o.status = .rejected ∨ o.status = .pending) ∧ (∀ k, shard.held k = d.shard.held k) ∨
            o.status = .filled ∧ ∀ k, shard.held k = d.shard.held k +
              if entryKey sig underlying = k then ticket.quantity else 0) := by
    intro o ho
    rcases hanswer with ⟨id', hseen, heq⟩ | ⟨-, o', ho', hp, hcase⟩
    · cases heq
      rw [htag] at hseen
      exact .inl ⟨hseen, rfl⟩
    · cases ho.symm.trans ho'
      refine .inr ⟨hp, hcase.imp_right fun h => ⟨h.1, fun k => ?_⟩⟩
      have hsigned : (ticket.payload (sig.contractSymbol underlying) underlying).signed = ticket.quantity :=
        one_mul _
      rw [h.2 k, hsigned]
      rfl
  cases ho : shard.orders[order]? with
  | none =>
    rcases hanswer with ⟨id', -, heq⟩ | ⟨-, o', ho', -, -⟩
    · cases heq
      exact .refused _ ⟨rfl, rfl⟩ ht fun _ => rfl
    · cases ho.symm.trans ho'
  | some o =>
    have hsettled : o.status = .pending ∨ o.status = .rejected →
        ∀ k, shard.held k = d.shard.held k := by
      intro hst
      rcases hplaced o ho with ⟨-, rfl⟩ | ⟨-, ⟨-, hheld⟩ | ⟨hfilled, -⟩⟩
      · exact fun _ => rfl
      · exact hheld
      · rw [hfilled] at hst
        rcases hst with h | h <;> cases h
    simp only
    by_cases hpending : o.status = .pending
    · rw [if_pos hpending]
      obtain ⟨hsame, hshard⟩ := setIntent_same
        { d with shard := (shard.cancelOrder order).toOption.getD shard } ticket isNew .rejected
      refine .refused _ ⟨hsame.fsm, hsame.reconciler⟩ ?_ fun k => ?_
      · rw [hshard]
        exact htidy.of_positions (cancelled_positions shard order)
      · rw [hshard]
        exact (Shard.held_congr (cancelled_positions shard order) k).trans (hsettled (.inl hpending) k)
    · rw [if_neg hpending]
      by_cases hrejected : o.status = .rejected
      · rw [if_pos hrejected]
        obtain ⟨hsame, hshard⟩ := setIntent_same { d with shard } ticket isNew .submitted
        refine .refused _ ⟨hsame.fsm, hsame.reconciler⟩ (by rw [hshard]; exact htidy) fun k => ?_
        rw [hshard]
        exact hsettled (.inr hrejected) k
      · rw [if_neg hrejected]
        have hcounts : o.status ∉ [.pending, .rejected] := by simp [hpending, hrejected]
        have hanswered : d.offDomainAnswer cond sig ticket underlying =
            decide (sig.optionContract.isSome ∧ offDomain (o.fillPrice.getD 0) ticket.basePrice) := by
          rw [offDomainAnswer]
          simp only [hp, ho, Option.any_some, hcounts, not_false_eq_true, true_and, Bool.decide_eq_true]
        split
        · rename_i hdomain
          obtain ⟨hsame, hshard⟩ := setIntent_same
            ({ d with shard }.rollbackOffDomainFill cond (sig.contractSymbol underlying)) ticket isNew .rejected
          obtain ⟨hroll, hheld⟩ := rollback_held cond (d := { d with shard }) htidy (sig.contractSymbol underlying)
          refine .rolledBack _ ⟨hsame.fsm, hsame.reconciler⟩ (by rw [hshard]; exact hroll)
            (hanswered.trans (decide_eq_true hdomain)) ?_ fun k => ?_
          · rw [hshard]
            rw [rolledBack]
            rw [hp]
            rfl
          · rw [hshard]
            rcases hheld k with hk | ⟨hkey, hk⟩
            · rcases hplaced o ho with ⟨-, rfl⟩ | ⟨-, ⟨-, hmoved⟩ | ⟨-, hmoved⟩⟩
              · exact .inl hk
              · exact .inl (hk.trans (hmoved k))
              · rw [hk]
                by_cases hkey : k = entryKey sig underlying
                · exact .inr ⟨hkey, .inr (by rw [hmoved k, if_pos hkey.symm])⟩
                · exact .inl (by rw [hmoved k, if_neg (Ne.symm hkey), add_zero])
            · exact .inr ⟨hkey, .inl hk⟩
        · rename_i hdomain
          rcases hplaced o ho with ⟨hseen, rfl⟩ | ⟨hpayload, ⟨hst, -⟩ | ⟨-, hmoved⟩⟩
          · exact .remembered order o _ hseen ho hcounts (hanswered.trans (decide_eq_false hdomain))
          · rcases hst with h | h
            · exact absurd h hrejected
            · exact absurd h hpending
          · rw [hpayload]
            exact .filled shard order _ htidy hmoved

theorem executeSignal_cases (env : Surroundings) (cond : Conditions) (d : Desk) (id : SignalId)
    (ticket : Option Ticket) :
    d.executeSignal env cond id ticket = (d, .refused) ∨
      ∃ sig t underlying, d.entry? id ticket = some (sig, t, underlying) ∧
        ((∃ order fillPrice quantity, d.intents.get? t.intentId = some (.filled order fillPrice quantity) ∧
            (d.executeSignal env cond id ticket).1 = d) ∨
          (∀ order fillPrice quantity, d.intents.get? t.intentId ≠ some (.filled order fillPrice quantity)) ∧
            ∃ isNew, d.executeSignal env cond id ticket = d.dispatch env cond id sig t isNew underlying) := by
  rw [executeSignal]
  cases hentry : d.entry? id ticket with
  | none => exact .inl rfl
  | some entry =>
    obtain ⟨sig, t, underlying⟩ := entry
    simp only
    cases hintent : d.intents.get? t.intentId with
    | none =>
      refine .inr ⟨sig, t, underlying, rfl, .inr ⟨?_, true, rfl⟩⟩
      intro _ _ _ h
      cases hintent.symm.trans h
    | some state =>
      cases state with
      | filled order fillPrice quantity =>
        exact .inr ⟨sig, t, underlying, rfl, .inl ⟨order, fillPrice, quantity, hintent, rfl⟩⟩
      | submitted => exact .inl rfl
      | rejected =>
        refine .inr ⟨sig, t, underlying, rfl, .inr ⟨?_, false, rfl⟩⟩
        intro _ _ _ h
        cases hintent.symm.trans h

/-! ### Exit -/

def exitKey (receipt : PaperReceipt) : PositionId := (receipt.symbol, .intraday)

theorem receipt?_eq {d : Desk} {id : SignalId} {sig : SignalInstance} {receipt : PaperReceipt}
    (h : d.receipt? id = some (sig, receipt)) : d.signal? id = some sig ∧ sig.paperOrder = some receipt := by
  unfold receipt? at h
  obtain ⟨sig', hsig, h⟩ := Option.bind_eq_some_iff.mp h
  obtain ⟨receipt', hr, h⟩ := Option.bind_eq_some_iff.mp h
  split at h
  · cases h
  · cases h
    exact ⟨hsig, hr⟩

/-- The row of the signal is not settled, if there is one. -/
def Unsettled (d : Desk) (id : SignalId) : Prop := ∀ row ∈ d.ledger.get? id, row.settled = false

/-- The close sells: it has a receipt and an unsettled row, the position is open, its order
validates, and the order path takes it. -/
def Sells (env : Surroundings) (cond : Conditions) (d : Desk) (id : SignalId) (req : CloseRequest) : Prop :=
  d.Unsettled id ∧ ∃ res ∈ d.receipt? id, ∃ pos ∈ d.shard.openPosition (exitKey res.2),
    0 < finalCloseQty pos req.quantityToClose ∧
      0 ≤ (resolveExitPrice env.marks res.1 res.2.symbol (d.shard.positions.get? (exitKey res.2))
        req.exitPrice).1 ∧
      d.shard.takesExit cond pos (finalCloseQty pos req.quantityToClose) req.permitClosed = true

/-- The mirrored state settles a row only when it is CLOSED. -/
theorem transition_unsettled (env : Surroundings) (d : Desk) (id : SignalId) {target : SignalFsmState}
    (marketPrice : Option ℚ) (reason : String) (ht : target ≠ .closed) :
    (d.transition env id target marketPrice reason).1.Unsettled id ↔ d.Unsettled id := by
  have hmirror : ∀ row : AuditTradeRecord, (row.recordStateTransition target).settled = row.settled := by
    intro row
    unfold AuditTradeRecord.recordStateTransition
    split
    · rfl
    · rename_i hopen
      have hunsettled : row.settled = false := by simpa using fun hs => hopen (.inl hs)
      rw [hunsettled]
      cases target <;> first | rfl | exact absurd rfl ht
  unfold transition
  simp only
  split
  · rename_i row hrow
    obtain ⟨hget, -⟩ := Option.filter_eq_some_iff.mp hrow
    unfold Unsettled
    simp only [setRow, Dict.get?_insert, if_pos, hget, Option.mem_def, Option.some.injEq, forall_eq',
      hmirror]
  · exact Iff.rfl

instance (d : Desk) (id : SignalId) : Decidable (d.Unsettled id) :=
  inferInstanceAs (Decidable (∀ row ∈ d.ledger.get? id, row.settled = false))

instance (env : Surroundings) (cond : Conditions) (d : Desk) (id : SignalId) (req : CloseRequest) :
    Decidable (d.Sells env cond id req) :=
  inferInstanceAs (Decidable (_ ∧ ∃ res ∈ d.receipt? id, ∃ pos ∈ _, _ ∧ _ ∧ _))

/-- How a close ends. -/
inductive Closes (env : Surroundings) (cond : Conditions) (d : Desk) (id : SignalId) (req : CloseRequest) :
    Desk × CloseResult → Prop where
  | noReceipt (hnone : d.receipt? id = none) : Closes env cond d id req (d, .nothing)
  | settled (sig : SignalInstance) (receipt : PaperReceipt) (row : AuditTradeRecord)
      (hreceipt : d.receipt? id = some (sig, receipt)) (hrow : d.ledger.get? id = some row)
      (hsettled : row.settled = true) :
      Closes env cond d id req (d, .audited row)
  | flat (sig : SignalInstance) (receipt : PaperReceipt) (price : ℚ) (flat staged : Bool)
      (hreceipt : d.receipt? id = some (sig, receipt)) (open_row : d.Unsettled id)
      (no_position : d.shard.openPosition (exitKey receipt) = none) :
      Closes env cond d id req (d.auditClose env.now id req.reason price flat staged)
  /-- The exit order does not validate or is not taken. -/
  | unfilled (shard : Shard) (res : CloseResult) (hres : ∀ row, res ≠ .audited row)
      (idle : ¬ d.Sells env cond id req) (same : shard.positions = d.shard.positions) :
      Closes env cond d id req ({ d with shard }, res)
  | filled (sig : SignalInstance) (receipt : PaperReceipt) (pos : VirtualPosition) (shard : Shard)
      (price : ℚ) (flat : Bool) (sells : d.Sells env cond id req)
      (hreceipt : d.receipt? id = some (sig, receipt))
      (position : d.shard.openPosition (exitKey receipt) = some pos)
      (hprice : resolveExitPrice env.marks sig receipt.symbol
        (d.shard.positions.get? (exitKey receipt)) req.exitPrice = (price, flat))
      (tidy : shard.Tidy)
      (held : ∀ k, shard.held k = d.shard.held k +
        if exitKey receipt = k then pos.side.opposite.mult * finalCloseQty pos req.quantityToClose else 0) :
      Closes env cond d id req ({ d with shard }.auditClose env.now id req.reason price flat
        (req.reason = "TARGET_1_HIT" ∧ finalCloseQty pos req.quantityToClose < pos.quantity))

theorem exitPayload_against {pos : VirtualPosition} {quantity : Int} {price : ℚ} {payload : OrderPayload}
    (h : exitPayload pos quantity price = some payload) :
    Shard.Against pos payload ∧ payload.quantity = quantity ∧ 0 < quantity ∧ 0 ≤ price := by
  unfold exitPayload at h
  split at h
  · rename_i hvalid
    cases h
    exact ⟨⟨rfl, rfl, rfl, rfl, rfl, rfl⟩, rfl, hvalid⟩
  · cases h

theorem sells_iff (env : Surroundings) (cond : Conditions) {d : Desk} {id : SignalId} (req : CloseRequest)
    {sig : SignalInstance} {receipt : PaperReceipt} {pos : VirtualPosition}
    (hreceipt : d.receipt? id = some (sig, receipt)) (hrow : d.Unsettled id)
    (hopen : d.shard.openPosition (exitKey receipt) = some pos) :
    d.Sells env cond id req ↔ 0 < finalCloseQty pos req.quantityToClose ∧
      0 ≤ (resolveExitPrice env.marks sig receipt.symbol (d.shard.positions.get? (exitKey receipt))
        req.exitPrice).1 ∧
      d.shard.takesExit cond pos (finalCloseQty pos req.quantityToClose) req.permitClosed = true := by
  constructor
  · rintro ⟨-, res, hres, pos', hpos, h⟩
    cases hreceipt.symm.trans hres
    cases hopen.symm.trans hpos
    exact h
  · intro h
    exact ⟨hrow, (sig, receipt), hreceipt, pos, hopen, h⟩

theorem closeSignalPosition_closes (env : Surroundings) (cond : Conditions) {d : Desk}
    (ht : d.shard.Tidy) (id : SignalId) (req : CloseRequest) :
    Closes env cond d id req (d.closeSignalPosition env cond id req) := by
  unfold closeSignalPosition
  cases hreceipt : d.receipt? id with
  | none => exact .noReceipt hreceipt
  | some res =>
    obtain ⟨sig, receipt⟩ := res
    simp only
    cases hrow : (d.ledger.get? id).filter (·.settled) with
    | some row =>
      obtain ⟨hget, hsettled⟩ := Option.filter_eq_some_iff.mp hrow
      exact .settled sig receipt row hreceipt hget hsettled
    | none =>
      have hunsettled : d.Unsettled id := by
        intro row hget
        rw [Option.mem_def.mp hget] at hrow
        simpa [Option.filter] using hrow
      simp only
      cases hopen : d.shard.openPosition (exitKey receipt) with
      | none =>
        have hpos : (d.shard.positions.get? (receipt.symbol, .intraday)).filter (·.isOpen) = none := hopen
        rw [hpos]
        exact .flat sig receipt _ _ _ hreceipt hunsettled hopen
      | some pos =>
        have hpos : (d.shard.positions.get? (receipt.symbol, .intraday)).filter (·.isOpen) = some pos := hopen
        have hiff := sells_iff env cond req hreceipt hunsettled hopen
        rw [hpos]
        simp only
        split
        · rename_i hinvalid
          refine .unfilled d.shard .raised (fun _ h => by cases h) (fun hs => ?_) rfl
          obtain ⟨hq, hprice, -⟩ := hiff.mp hs
          unfold exitPayload at hinvalid
          rw [dif_pos ⟨hq, hprice⟩] at hinvalid
          cases hinvalid
        · rename_i payload hpayload
          obtain ⟨ha, hq, hpositive, hprice⟩ := exitPayload_against hpayload
          obtain ⟨hget, hisOpen⟩ := Option.filter_eq_some_iff.mp hopen
          have hkey : payload.positionId = exitKey receipt := by
            rw [← (ht _ _ hget).1]
            exact Prod.ext ha.symbol ha.product
          have hposition := hopen
          rw [← hkey] at hposition
          rcases Shard.placeOrder_exit cond hposition ha req.permitClosed with
            ⟨fillPrice, source, htaken, heq⟩ | ⟨huntaken, reason, heq⟩
          · have hanswer := Shard.submit_answer (d.shard.applyFill payload fillPrice)
              { payload, status := .filled, fillPrice := some fillPrice, fillSource := some source
                estimatedCosts := some (estimateCosts payload.side fillPrice payload.quantity) }
            have htidy := ht.placeOrderLocked cond payload req.permitClosed none
            unfold Shard.placeOrder at heq
            rw [heq] at htidy
            rw [Shard.placeOrder]
            simp only [heq, hanswer, Option.any_some, decide_true, if_true]
            rw [hq] at htaken
            refine .filled sig receipt pos _ _ _ (hiff.mpr ⟨hpositive, hprice, htaken⟩) hreceipt hopen rfl
              htidy fun k => ?_
            rw [Shard.filled_held, hkey, OrderPayload.signed, ha.side, hq]
          · have hanswer : (d.shard.reject payload reason).1.orders[(d.shard.reject payload reason).2]? =
                some { payload, status := .rejected, rejectionReason := some reason } := by
              simp [Shard.reject, Shard.log]
            simp only [heq, hanswer, Option.any_some]
            refine .unfilled _ _ (fun _ h => by cases h) (fun hs => ?_) rfl
            rw [hq, (hiff.mp hs).2.2] at huntaken
            cases huntaken

theorem close_held (env : Surroundings) (cond : Conditions) {d : Desk} (ht : d.shard.Tidy)
    (id : SignalId) (req : CloseRequest) :
    (d.closeSignalPosition env cond id req).1.shard.Tidy ∧
      ((¬ d.Sells env cond id req ∧
          ∀ k, (d.closeSignalPosition env cond id req).1.shard.held k = d.shard.held k) ∨
        ∃ sig receipt pos, d.Sells env cond id req ∧ d.receipt? id = some (sig, receipt) ∧
          d.shard.openPosition (exitKey receipt) = some pos ∧
          ∀ k, (d.closeSignalPosition env cond id req).1.shard.held k = d.shard.held k +
            if exitKey receipt = k then
              pos.side.opposite.mult * finalCloseQty pos req.quantityToClose else 0) := by
  have hcloses := closeSignalPosition_closes env cond ht id req
  generalize d.closeSignalPosition env cond id req = res at hcloses ⊢
  cases hcloses with
  | noReceipt hnone =>
    refine ⟨ht, .inl ⟨?_, fun _ => rfl⟩⟩
    rintro ⟨-, res, hres, -⟩
    cases hnone.symm.trans hres
  | settled sig receipt row hreceipt hrow hsettled =>
    refine ⟨ht, .inl ⟨?_, fun _ => rfl⟩⟩
    rintro ⟨hopen, -⟩
    rw [hopen row hrow] at hsettled
    cases hsettled
  | flat sig receipt price flat staged hreceipt hrow hnone =>
    have hshard := (auditClose_beside env.now d id req.reason price flat staged).shard
    rw [hshard]
    refine ⟨ht, .inl ⟨?_, fun _ => rfl⟩⟩
    rintro ⟨-, res, hres, pos, hpos, -⟩
    cases hreceipt.symm.trans hres
    cases hnone.symm.trans hpos
  | unfilled shard res hres hidle hsame =>
    exact ⟨ht.of_positions hsame, .inl ⟨hidle, fun k => Shard.held_congr hsame k⟩⟩
  | filled sig receipt pos shard price flat hsells hreceipt hpos hprice htidy hheld =>
    have hshard := (auditClose_beside env.now { d with shard } id req.reason price flat
      (req.reason = "TARGET_1_HIT" ∧ finalCloseQty pos req.quantityToClose < pos.quantity)).shard
    rw [hshard]
    exact ⟨htidy, .inr ⟨sig, receipt, pos, hsells, hreceipt, hpos, hheld⟩⟩

/-- What an entry does to the held quantities. -/
theorem execute_held (env : Surroundings) (cond : Conditions) {d : Desk} (ht : d.shard.Tidy)
    (id : SignalId) (ticket : Option Ticket) :
    (d.executeSignal env cond id ticket).1.shard.Tidy ∧
      ((∀ k, (d.executeSignal env cond id ticket).1.shard.held k = d.shard.held k) ∨
        ∃ sig t underlying, d.entry? id ticket = some (sig, t, underlying) ∧
          (∀ k, k ≠ entryKey sig underlying →
            (d.executeSignal env cond id ticket).1.shard.held k = d.shard.held k) ∧
          (d.shard.held (entryKey sig underlying) ≤
              (d.executeSignal env cond id ticket).1.shard.held (entryKey sig underlying) ∨
            d.offDomainAnswer cond sig t underlying = true ∧
              (d.executeSignal env cond id ticket).1.shard.held (entryKey sig underlying) = 0)) := by
  rcases executeSignal_cases env cond d id ticket with
    heq | ⟨sig, t, underlying, hentry, ⟨-, -, -, -, heq⟩ | ⟨-, isNew, heq⟩⟩
  · rw [heq]
    exact ⟨ht, .inl fun _ => rfl⟩
  · rw [heq]
    exact ⟨ht, .inl fun _ => rfl⟩
  · rw [heq]
    have hdispatched := dispatch_dispatched env cond ht id sig t isNew underlying
    generalize d.dispatch env cond id sig t isNew underlying = res at hdispatched ⊢
    have hq := t.quantity_pos
    cases hdispatched with
    | refused d' hsame htidy hheld => exact ⟨htidy, .inl hheld⟩
    | rolledBack d' hsame htidy hoff hrolled hheld =>
      refine ⟨htidy, .inr ⟨sig, t, underlying, hentry, fun k hk => ?_, ?_⟩⟩
      · rcases hheld k with h | ⟨h, -⟩
        · exact h
        · exact absurd h hk
      · rcases hheld (entryKey sig underlying) with h | ⟨-, h | h⟩
        · exact .inl h.ge
        · exact .inr ⟨hoff, h⟩
        · refine .inl ?_
          rw [h]
          omega
    | filled shard order fill htidy hheld =>
      rw [(bookEntry_elsewhere env { d with shard } id sig t isNew underlying order _ fill).shard]
      refine ⟨htidy, .inr ⟨sig, t, underlying, hentry, fun k hk => ?_, .inl ?_⟩⟩
      · rw [hheld, if_neg (Ne.symm hk), add_zero]
      · rw [hheld, if_pos rfl]
        omega
    | remembered order o fill hseen hstored hcounts hdomain =>
      rw [(bookEntry_elsewhere env d id sig t isNew underlying order o.payload fill).shard]
      exact ⟨ht, .inl fun _ => rfl⟩

end Desk

end Droid.Signals
