import Droid.Signals.Agreement

/-! The entry of a signal that is the only holder of its contract: what it buys is what its
record starts with. -/
namespace Droid.Signals
open Lib Paper FillReconciliationRecord

namespace Desk
variable {id : SignalId} {symbol : String} {d d' : Desk}

/-- The entry is dispatched for the first time, or what it is answered with is taken back. -/
def EntersFresh (cond : Conditions) (d : Desk) (id : SignalId) (ticket : Option Ticket) : Prop :=
  ∀ entry ∈ d.entry? id ticket,
    (∀ intent ∈ d.intents.get? entry.2.1.intentId, intent.isFilled = false) ∧
      (d.offDomainAnswer cond entry.1 entry.2.1 entry.2.2 = true →
        (d.rolledBack cond entry.1 entry.2.1 entry.2.2).held (entryKey entry.1 entry.2.2) = 0) ∧
      (d.offDomainAnswer cond entry.1 entry.2.1 entry.2.2 = false →
        ∀ order ∈ d.shard.idempotency.get? entry.2.1.tag, ∀ o ∈ d.shard.orders[order]?,
          o.status ∈ [.pending, .rejected])

instance (cond : Conditions) (d : Desk) (id : SignalId) (ticket : Option Ticket) :
    Decidable (d.EntersFresh cond id ticket) :=
  inferInstanceAs (Decidable (∀ entry ∈ d.entry? id ticket, (∀ intent ∈ d.intents.get? _, _) ∧
    (_ → _) ∧ (_ → ∀ order ∈ d.shard.idempotency.get? _, ∀ o ∈ d.shard.orders[order]?, _)))

structure Holder (symbol : String) (sig : SignalInstance) : Prop where
  receipt : ∃ receipt, sig.paperOrder = some receipt ∧ receipt.symbol = symbol
  contract : ∀ underlying, validateUnderlying sig.underlying = some underlying →
    sig.contractSymbol underlying = symbol
  entered : sig.fsmState ≠ .validated ∧ sig.fsmState ≠ .armed

theorem Holder.of_deal {sig sig' : SignalInstance} (h : Holder symbol sig) (hdeal : sig'.deal = sig.deal)
    (hstate : sig'.fsmState ≠ .validated ∧ sig'.fsmState ≠ .armed) : Holder symbol sig' := by
  have hsame := contractSymbol_of_deal hdeal
  simp only [SignalInstance.deal, Prod.mk.injEq] at hdeal
  obtain ⟨hu, -, -, hr⟩ := hdeal
  refine ⟨?_, fun underlying => ?_, hstate⟩
  · rw [hr]
    exact h.receipt
  · rw [hu, hsame]
    exact h.contract underlying

/-- Just entered: the record has the whole quantity, and so has the position. -/
structure Entered (id : SignalId) (symbol : String) (quantity : Int) (d : Desk) : Prop where
  tidy : d.shard.Tidy
  held : d.shard.held (bookKey symbol) = quantity
  pos : 0 < quantity
  record : ∃ record, d.reconciler.get? id = some record ∧ record.Sound ∧ record.remainingQty = quantity ∧
    record.intendedQty = quantity ∧ record.bookedQty = 0 ∧ record.Unstaged
  signal : ∃ sig, d.signal? id = some sig ∧ Holder symbol sig

theorem Entered.steady {quantity : Int} (h : Entered id symbol quantity d) : Steady id symbol d := by
  obtain ⟨record, hrecord, hsound, hremaining, hintended, hbooked, hunstaged⟩ := h.record
  obtain ⟨sig, hsig, ⟨receipt, hreceipt, hsymbol⟩, hcontract, hentered⟩ := h.signal
  have hpos := h.pos
  refine ⟨⟨?_, fun r hr => ?_⟩, h.tidy, ?_, fun r hr => ?_, fun sig' hsig' => ?_⟩
  · rw [remaining]
    rw [hrecord, h.held]
    exact hremaining
  · cases hrecord.symm.trans hr
    rw [h.held]
    omega
  · rw [h.held]
    exact hpos.le
  · cases hrecord.symm.trans hr
    exact hsound
  · cases hsig.symm.trans hsig'
    refine ⟨hcontract, fun r hr => ?_, fun hnone => ?_, fun _ r hr => ?_⟩
    · cases hreceipt.symm.trans hr
      exact ⟨hsymbol, by rw [hrecord]; rfl, hentered⟩
    · cases hreceipt.symm.trans hnone
    · cases hrecord.symm.trans hr
      exact hunstaged

/-- A transition of an entered signal that does not lead back. -/
theorem Entered.transition {quantity : Int} (h : Entered id symbol quantity d) (env : Surroundings)
    {target : SignalFsmState} (marketPrice : Option ℚ) (reason : String)
    (ht : target ≠ .validated ∧ target ≠ .armed) :
    Entered id symbol quantity (d.transition env id target marketPrice reason).1 := by
  obtain ⟨-, hshard, hrecord, -⟩ := transition_fsm env d id target marketPrice reason
  obtain ⟨sig, hsig, hholder⟩ := h.signal
  obtain ⟨sig', hsig', hmoved⟩ := transition_signal env d target marketPrice reason hsig
  refine ⟨by rw [hshard]; exact h.tidy, by rw [hshard]; exact h.held, h.pos, by rw [hrecord]; exact h.record,
    sig', hsig', hholder.of_deal hmoved.deal ?_⟩
  rcases hmoved.state with heq | ⟨heq, -⟩
  · rw [heq]
    exact hholder.entered
  · rw [heq]
    exact ht

/-- The record of an entry, beside the position it bought. -/
theorem entered_of_record {quantity : Int} (ht : d.shard.Tidy)
    (hheld : d.shard.held (bookKey symbol) = quantity) (hpos : 0 < quantity) (now : Int)
    {sig : SignalInstance} (hholder : Holder symbol sig) (fillPrice : ℚ) (explicitLot : Option Int) :
    Entered id symbol quantity (d.setRecord id
      ((reconcileEntry now sig fillPrice quantity explicitLot).1,
        (reconcileEntry now sig fillPrice quantity explicitLot).2.1)) := by
  have hface := reconcileEntry_face now sig fillPrice quantity explicitLot
  refine ⟨ht, hheld, hpos, ⟨_, (Dict.get?_insert _ _ _ _).trans (if_pos rfl),
    reconcileEntry_spec now sig fillPrice hpos explicitLot⟩, _, setRecord_signal _ _ _,
    hholder.of_deal (congrArg Prod.snd hface) ?_⟩
  rw [show (reconcileEntry now sig fillPrice quantity explicitLot).1.fsmState = sig.fsmState from
    congrArg Prod.fst hface]
  exact hholder.entered

theorem Entered.registerFill {quantity : Int} (h : Entered id symbol quantity d) (now : Int) (fillPrice : ℚ) :
    Entered id symbol quantity (d.registerFill now id fillPrice quantity) := by
  obtain ⟨sig, hsig, hholder⟩ := h.signal
  rw [Desk.registerFill]
  rw [hsig]
  exact entered_of_record h.tidy h.held h.pos now hholder fillPrice _

theorem Entered.confirmEntry {quantity : Int} (h : Entered id symbol quantity d) (env : Surroundings)
    (fill : ℚ) : Entered id symbol quantity (d.confirmEntry env id fill) := by
  rw [Desk.confirmEntry]
  split
  · exact h
  · split
    · exact h.transition env _ _ (by decide)
    · split
      · have hfirst : Entered id symbol quantity
            (d.transition env id .triggered (some fill) "PAPER_TRADE_TRIGGER_PROOF").1 :=
          h.transition env _ _ (by decide)
        split
        · rename_i hres
          rw [hres] at hfirst
          exact hfirst.transition env _ _ (by decide)
        · rename_i hres
          rw [hres] at hfirst
          exact hfirst
      · exact h

theorem bookEntry_entered (env : Surroundings) (ht : d.shard.Tidy) {sig : SignalInstance}
    (htriggered : sig.fsmState = .triggered) (ticket : Ticket) (isNew : Bool) {underlying : String}
    (hcontract : ∀ underlying, validateUnderlying sig.underlying = some underlying →
      sig.contractSymbol underlying = symbol)
    (order : OrderId) {payload : OrderPayload} (hsymbol : payload.symbol = symbol) (fill : ℚ)
    (hheld : d.shard.held (bookKey symbol) = ticket.quantity) :
    Entered id symbol ticket.quantity
      (d.bookEntry env id sig ticket isNew underlying order payload fill) := by
  have hshard := (setIntent_same d ticket isNew (.filled order fill ticket.quantity)).2
  have hholder : Holder symbol (bookedSignal sig ticket payload.symbol payload.quantity fill) := by
    refine ⟨⟨_, rfl, hsymbol⟩, hcontract, ?_⟩
    show sig.fsmState ≠ .validated ∧ sig.fsmState ≠ .armed
    rw [htriggered]
    decide
  have hrecord : Entered id symbol ticket.quantity _ :=
    entered_of_record (d := d.setIntent ticket isNew (.filled order fill ticket.quantity))
      (by rw [hshard]; exact ht) (by rw [hshard]; exact hheld) ticket.quantity_pos env.now hholder fill
      (some (sig.contractLot underlying))
  have hconfirmed := hrecord.confirmEntry env fill
  exact ⟨hconfirmed.tidy, hconfirmed.held, hconfirmed.pos, hconfirmed.record, hconfirmed.signal⟩

theorem attemptEntry_steady (tick : Tick) (h : Steady id symbol d) {sig : SignalInstance}
    (hsig : d.signal? id = some sig) (htriggered : sig.fsmState = .triggered)
    (hzero : d.shard.held (bookKey symbol) = 0)
    (hg : tick.paperEligible = true → d.EntersFresh tick.cond id tick.ticket) :
    Rests id symbol d (d.attemptEntry tick id).1 ∧ (d.attemptEntry tick id).2.fill? = none ∨
      ∃ fillPrice quantity, (d.attemptEntry tick id).2.fill? = some (fillPrice, quantity) ∧
        Entered id symbol quantity (d.attemptEntry tick id).1 := by
  rw [attemptEntry]
  split
  · rename_i heligible
    have hfresh := hg heligible
    rcases executeSignal_cases tick.env tick.cond d id tick.ticket with
      heq | ⟨sig', t, underlying, hentry, ⟨order, fillPrice, quantity, hintent, -⟩ | ⟨-, isNew, heq⟩⟩
    · rw [heq]
      exact .inl ⟨.refl h.tidy, rfl⟩
    · have hfilled := (hfresh _ hentry).1 _ hintent
      cases hfilled
    · obtain ⟨hsig', -, hu⟩ := entry?_eq hentry
      cases hsig.symm.trans hsig'
      obtain ⟨-, hback, hseen⟩ := hfresh _ hentry
      have hcontract := (h.placed sig hsig).contract
      have hkey : entryKey sig underlying = bookKey symbol := by
        rw [entryKey, bookKey]
        rw [hcontract underlying hu]
      have hdispatched := dispatch_dispatched tick.env tick.cond h.tidy id sig t isNew underlying
      rw [heq]
      generalize d.dispatch tick.env tick.cond id sig t isNew underlying = res at hdispatched ⊢
      cases hdispatched with
      | refused d' hsame htidy hheld =>
        exact .inl ⟨.of_eq htidy (hheld _) (by rw [hsame.reconciler])
          (congrArg (·.signals.get? id) hsame.fsm), rfl⟩
      | rolledBack d' hsame htidy hoff hrolled hheld =>
        refine .inl ⟨.of_eq htidy ?_ (by rw [hsame.reconciler]) (congrArg (·.signals.get? id) hsame.fsm), rfl⟩
        rw [hzero, ← hkey, hrolled]
        exact hback hoff
      | filled shard order fill htidy hheld =>
        refine .inr ⟨fill, t.quantity, rfl, ?_⟩
        refine bookEntry_entered (d := { d with shard }) tick.env htidy htriggered t isNew hcontract order
          (hcontract underlying hu) fill ?_
        rw [hheld, if_pos hkey, hzero, zero_add]
      | remembered order o fill hstored hget hcounts hdomain =>
        exact absurd (hseen hdomain order hstored o hget) hcounts
  · exact .inl ⟨.refl h.tidy, rfl⟩

/-- A transition does not make an entry stale. -/
theorem EntersFresh.transition {cond : Conditions} {ticket : Option Ticket}
    (h : d.EntersFresh cond id ticket) (env : Surroundings) (target : SignalFsmState)
    (marketPrice : Option ℚ) (reason : String) :
    (d.transition env id target marketPrice reason).1.EntersFresh cond id ticket := by
  obtain ⟨-, hshard, -, -⟩ := transition_fsm env d id target marketPrice reason
  have hintents := transition_intents env d id target marketPrice reason
  rintro ⟨sig', t, underlying⟩ hentry
  obtain ⟨hsig', rfl, hu⟩ := entry?_eq hentry
  obtain ⟨sig, hsig, hmoved⟩ := transition_back env d target marketPrice reason hsig'
  have hdeal := hmoved.deal
  have hsymbol := contractSymbol_of_deal hdeal underlying
  simp only [SignalInstance.deal, Prod.mk.injEq] at hdeal
  obtain ⟨hunder, -, hoption, -⟩ := hdeal
  have hfirst : d.entry? id (some t) = some (sig, t, underlying) := by
    rw [hunder] at hu
    unfold entry?
    simp [hsig, hu]
  have hanswer : (d.transition env id target marketPrice reason).1.offDomainAnswer cond sig' t underlying =
      d.offDomainAnswer cond sig t underlying := by
    unfold offDomainAnswer
    rw [hshard, hsymbol, hoption]
  have hrolled : (d.transition env id target marketPrice reason).1.rolledBack cond sig' t underlying =
      d.rolledBack cond sig t underlying := by
    unfold rolledBack entryKey
    rw [hshard, hsymbol]
  simp only [hanswer, hrolled, hintents, hshard, entryKey, hsymbol]
  exact h _ hfirst

/-- The turn of a trigger. -/
theorem enterPosition_steady (tick : Tick) (h : Steady id symbol d) {sig : SignalInstance}
    (hsig : d.signal? id = some sig) (hstate : sig.fsmState ∈ [.validated, .armed])
    (hg : tick.paperEligible = true → d.EntersFresh tick.cond id tick.ticket) :
    Steady id symbol (leaves (d.enterPosition tick id)) := by
  -- nothing is held before the entry
  have hzero : d.shard.held (bookKey symbol) = 0 := by
    have hplaced := h.placed sig hsig
    cases hreceipt : sig.paperOrder with
    | none => exact hplaced.fresh hreceipt
    | some receipt =>
      obtain ⟨-, -, hv, ha⟩ := hplaced.holder receipt hreceipt
      rcases List.mem_cons.mp hstate with hs | hs
      · exact absurd hs hv
      · exact absurd (List.mem_singleton.mp hs) ha
  have hmove : ∀ {d₁ : Desk} (target : SignalFsmState) (reason : String),
      (target ≠ .validated ∧ target ≠ .armed ∧ target ≠ .confirmed) → Steady id symbol d₁ →
      Steady id symbol (d₁.transition tick.env id target (some tick.price) reason).1 :=
    fun target reason hne h₁ => h₁.rests (transition_rests tick.env h₁.tidy id target _ reason fun _ => hne)
  have htrigger : Steady id symbol (d.trigger tick id).1 := hmove .triggered _ (by decide) h
  obtain ⟨sig', hsig', hmoved⟩ :=
    transition_signal tick.env d .triggered (some tick.price) "TRIGGER_LEVEL_HIT" hsig
  obtain ⟨-, hshard, -, -⟩ := transition_fsm tick.env d id .triggered (some tick.price) "TRIGGER_LEVEL_HIT"
  have hattempt : (d.trigger tick id).2 = .ok → _ := fun hok =>
    attemptEntry_steady tick htrigger hsig' (hmoved.ok hok)
      (by unfold trigger; rw [hshard]; exact hzero) fun heligible => (hg heligible).transition tick.env _ _ _
  have henters := enterPosition_enters tick d id
  generalize leaves (d.enterPosition tick id) = d' at henters ⊢
  cases henters with
  | halted => exact htrigger
  | degraded => exact hmove _ _ (by decide) htrigger
  | refused hok hfill =>
    rcases hattempt hok with ⟨hrests, -⟩ | ⟨fillPrice, quantity, hfill', -⟩
    · exact hmove _ _ (by decide) (htrigger.rests hrests)
    · cases hfill.symm.trans hfill'
  | filled fillPrice quantity _ hok hfill hend =>
    rcases hattempt hok with ⟨-, hnone⟩ | ⟨fillPrice', quantity', hfill', hentered⟩
    · cases hfill.symm.trans hnone
    · cases hfill.symm.trans hfill'
      have hconfirmed := hentered.transition tick.env (some tick.price) "ENTRY_CONFIRMED"
        (show SignalFsmState.confirmed ≠ .validated ∧ SignalFsmState.confirmed ≠ .armed by decide)
      rcases hend with rfl | ⟨confirmed, rfl, rfl | rfl⟩
      · exact hentered.steady
      · exact hconfirmed.steady
      · exact (hconfirmed.registerFill _ fillPrice).steady

end Desk

end Droid.Signals
