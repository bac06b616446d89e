import Droid.Algo.Execution
import Droid.Lib.Run

/-! Status assignments of the order manager against `ALLOWED_TRANSITIONS`. -/
namespace Droid.Algo
open Lib

/-- A status stays as it is or moves along an edge of the table. -/
def Moves (s s' : OrderStatus) : Prop := s' = s ∨ s' ∈ allowedTransitions s

instance (s s' : OrderStatus) : Decidable (Moves s s') := inferInstanceAs (Decidable (_ ∨ _))

/-- What the lifecycle table promises of one event: the statuses it assigns form
a walk in the table, no settled order is cancelled, and an order whose
submission is unresolved is cancelled only on the broker's word. -/
structure Lawful (reg : BrokerRegistry) (p : OrderProcess) (e : OrderEvent) : Prop where
  walk : List.IsChain Moves (p.record.status :: (p.trace reg e).writes)
  settled : p.record.status ∈ [OrderStatus.filled, .rejected, .closed] →
    OrderStatus.cancelled ∉ (p.trace reg e).writes
  answered : p.record.status ∈ [OrderStatus.timedOut, .unknown] →
    OrderStatus.cancelled ∈ (p.trace reg e).writes →
      ∃ i r, e = .answer i (.result r) ∧ r.status = some .cancelled

/-- The status in which a call leaves the order while it awaits the broker. -/
def Awaiting.pending : Awaiting → OrderStatus
  | .submit => .submitted
  | .reconcile => .reconciling
  | .cancel => .cancelPending

/-- A price or quantity of the answer does not parse. -/
def BrokerResult.unreadable (r : BrokerResult) : Bool :=
  r.fillPrice = .malformed ∨ r.fillQuantity = .null ∨ r.fillQuantity = .malformed

/-- The status an answer stands for, given the call it answers. -/
def Awaiting.verdict : Awaiting → Answer → Option OrderStatus
  | _, .aborted => none
  | .submit, .timeout => some .timedOut
  | .submit, .error => some .unknown
  | .submit, .result r =>
    if r.unreadable then some .unknown else some (internalStatus r.status)
  | .reconcile, .timeout | .reconcile, .error => some .unknown
  | .reconcile, .result r =>
    match r.status with
    | some .filled => some .filled
    | some .partiallyFilled => some .partiallyFilled
    | some .rejected => some .rejected
    | some .cancelled => some .cancelled
    | _ => some .unknown
  | .cancel, .timeout | .cancel, .error => some .reconciling
  | .cancel, .result r =>
    match r.status with
    | some .filled => some .filled
    | some .partiallyFilled => some .partiallyFilled
    | some .cancelled => some .cancelled
    | _ => some .reconciling

/-- A FILLED answer whose price or quantity does not parse. -/
def Answer.unreadableFill : Answer → Bool
  | .result r => r.status = some .filled ∧ r.unreadable
  | _ => false

/-- The events that keep to the table: no submission straight from CREATED, no
cancellation from a status that the table does not let be cancelled, and no
answer that comes too late for the status the order has reached meanwhile, or
that reports a fill to a reconciliation in numbers that do not parse. -/
def KeepsTable (p : OrderProcess) : OrderEvent → Prop
  | .transition _ _ => True
  | .call .submit => p.record.status ≠ .created
  | .call .reconcile => True
  | .call .cancel =>
    match p.record.brokerId with
    | none => p.record.status ∈
        [OrderStatus.created, .riskApproved, .reconciling, .cancelPending, .cancelled]
    | some _ => p.record.status ∈
        [OrderStatus.submitted, .acknowledged, .partiallyFilled, .timedOut, .cancelPending]
  | .answer i answer => ∀ a adapter, p.awaiting[i]? = some (a, adapter) →
      (∀ s, a.verdict answer = some s → p.record.status = a.pending ∨ Moves p.record.status s) ∧
        ¬ (a = .reconcile ∧ answer.unreadableFill)

/-! ### What each half of a call assigns -/

theorem transitionRecord_writes {record : OrderRecord} {target : OrderStatus}
    {metadata : Option TransitionMetadata} {t : Traced}
    (h : transitionRecord record target metadata = .ok t) :
    t.writes = [] ∨ (t.writes = [target] ∧ target ∈ allowedTransitions record.status) := by
  rcases transitionRecord_cases h with rfl | ⟨hin, -, hwrites, -, -⟩
  · exact .inl rfl
  · exact .inr ⟨hwrites, hin⟩

theorem submitEnd_writes (t : Traced) (answer : Answer) :
    (submitEnd t answer).writes = t.writes ++ (Awaiting.submit.verdict answer).toList := by
  cases answer with
  | timeout => rfl
  | error => rfl
  | aborted => simp [submitEnd, Awaiting.verdict]
  | result r =>
    obtain ⟨id, status, price, quantity⟩ := r
    cases price <;> cases quantity <;>
      simp [submitEnd, Awaiting.verdict, BrokerResult.unreadable, PriceField.decimal,
        QuantityField.orDefault]

/-- What a reconciliation assigns on an answer; an unreadable fill is taken back. -/
theorem reconcileEnd_writes (t : Traced) (answer : Answer) :
    (reconcileEnd t answer).writes = t.writes ++ (Awaiting.reconcile.verdict answer).toList ++
      if answer.unreadableFill then [.unknown] else [] := by
  cases answer with
  | timeout => simp [reconcileEnd, Awaiting.verdict, Answer.unreadableFill]
  | error => simp [reconcileEnd, Awaiting.verdict, Answer.unreadableFill]
  | aborted => simp [reconcileEnd, Awaiting.verdict, Answer.unreadableFill]
  | result r =>
    obtain ⟨id, status, price, quantity⟩ := r
    cases status with
    | none => simp [reconcileEnd, Awaiting.verdict, Answer.unreadableFill]
    | some status =>
      cases status with
      | filled =>
        cases price <;> cases quantity <;>
          simp [reconcileEnd, Awaiting.verdict, Answer.unreadableFill, BrokerResult.unreadable,
            PriceField.orElse, QuantityField.orDefault]
      | partiallyFilled => simp [reconcileEnd, Awaiting.verdict, Answer.unreadableFill]
      | rejected => simp [reconcileEnd, Awaiting.verdict, Answer.unreadableFill]
      | cancelled => simp [reconcileEnd, Awaiting.verdict, Answer.unreadableFill]
      | other text => simp [reconcileEnd, Awaiting.verdict, Answer.unreadableFill]

/-- What a cancellation assigns on an answer; an unreadable fill goes on to RECONCILING. -/
theorem cancelEnd_writes (t : Traced) (answer : Answer) :
    (cancelEnd t answer).writes = t.writes ++ (Awaiting.cancel.verdict answer).toList ∨
      ((Awaiting.cancel.verdict answer = some .filled ∨
          Awaiting.cancel.verdict answer = some .partiallyFilled) ∧
        (cancelEnd t answer).writes =
          t.writes ++ (Awaiting.cancel.verdict answer).toList ++ [.reconciling]) := by
  cases answer with
  | timeout => exact .inl rfl
  | error => exact .inl rfl
  | aborted => exact .inl (by simp [cancelEnd, Awaiting.verdict])
  | result r =>
    obtain ⟨id, status, price, quantity⟩ := r
    cases status with
    | none => exact .inl rfl
    | some status =>
      cases status with
      | filled =>
        cases price <;> cases quantity <;>
          simp [cancelEnd, Awaiting.verdict, PriceField.orElse, QuantityField.orDefault]
      | partiallyFilled =>
        cases price <;> cases quantity <;>
          simp [cancelEnd, Awaiting.verdict, PriceField.orElse, QuantityField.orDefault]
      | rejected => exact .inl rfl
      | cancelled => exact .inl rfl
      | other text => exact .inl rfl

/-- In the status a call leaves behind, every answer to it is an edge of the table. -/
theorem verdict_moves {a : Awaiting} {answer : Answer} {s : OrderStatus}
    (h : a.verdict answer = some s) : Moves a.pending s := by
  cases a with
  | submit =>
    have hi : ∀ b, Moves .submitted (internalStatus b) := by
      intro b
      unfold internalStatus
      split <;> decide
    cases answer with
    | result r =>
      simp only [Awaiting.verdict] at h
      split at h
      · cases h
        decide
      · cases h
        exact hi r.status
    | timeout => cases h; decide
    | error => cases h; decide
    | aborted => cases h
  | reconcile =>
    cases answer with
    | result r =>
      simp only [Awaiting.verdict] at h
      split at h <;> cases h <;> decide
    | timeout => cases h; decide
    | error => cases h; decide
    | aborted => cases h
  | cancel =>
    cases answer with
    | result r =>
      simp only [Awaiting.verdict] at h
      split at h <;> cases h <;> decide
    | timeout => cases h; decide
    | error => cases h; decide
    | aborted => cases h

/-- The statuses an answered call assigns: the answer's, and one more after a
fill that does not parse. -/
theorem finish_writes (a : Awaiting) (record : OrderRecord) (answer : Answer) :
    (¬ (a = .reconcile ∧ answer.unreadableFill) ∧
        (a.finish { record } answer).writes = (a.verdict answer).toList) ∨
      (a = .reconcile ∧ answer.unreadableFill ∧
        (a.finish { record } answer).writes = [.filled, .unknown]) ∨
      (a = .cancel ∧ ∃ s ∈ [OrderStatus.filled, .partiallyFilled], a.verdict answer = some s ∧
        (a.finish { record } answer).writes = [s, .reconciling]) := by
  cases a with
  | submit => exact .inl ⟨by simp, submitEnd_writes { record } answer⟩
  | reconcile =>
    have hw := reconcileEnd_writes { record } answer
    by_cases hu : answer.unreadableFill
    · refine .inr (.inl ⟨rfl, hu, ?_⟩)
      cases answer with
      | result r =>
        have hf : r.status = some .filled := by
          simp only [Answer.unreadableFill, decide_eq_true_eq] at hu
          exact hu.1
        simpa [Awaiting.finish, Awaiting.verdict, hf, hu] using hw
      | timeout => cases hu
      | error => cases hu
      | aborted => cases hu
    · exact .inl ⟨fun h => hu h.2, by simpa [Awaiting.finish, hu] using hw⟩
  | cancel =>
    rcases cancelEnd_writes { record } answer with hw | ⟨hv, hw⟩
    · exact .inl ⟨by simp, hw⟩
    · refine .inr (.inr ⟨rfl, ?_⟩)
      rcases hv with hv | hv
      · exact ⟨.filled, by simp, hv, by simpa [Awaiting.finish, hv] using hw⟩
      · exact ⟨.partiallyFilled, by simp, hv, by simpa [Awaiting.finish, hv] using hw⟩

/-! ### One event against the table -/

theorem transition_writes (reg : BrokerRegistry) (p : OrderProcess) (target : OrderStatus)
    (metadata : Option TransitionMetadata) :
    (p.trace reg (.transition target metadata)).writes = [] ∨
      ((p.trace reg (.transition target metadata)).writes = [target] ∧
        target ∈ allowedTransitions p.record.status) := by
  simp only [OrderProcess.trace]
  split
  · rename_i t ht
    exact transitionRecord_writes ht
  · exact .inl rfl

theorem submit_writes (reg : BrokerRegistry) (p : OrderProcess) :
    (p.trace reg (.call .submit)).writes =
      if p.record.status = .created ∨ p.record.status = .riskApproved then [.submitted] else [] := by
  simp only [OrderProcess.trace, Awaiting.begin, submitBegin]
  by_cases hc : p.record.status = .created
  · simp [hc]
  · by_cases hr : p.record.status = .riskApproved <;> simp [hc, hr]

theorem reconcile_writes (reg : BrokerRegistry) (p : OrderProcess) :
    (p.trace reg (.call .reconcile)).writes =
      if p.record.status.unresolved then
        (if p.record.brokerId = none then [.reconciling, .unknown] else [.reconciling])
      else [] := by
  simp only [OrderProcess.trace, Awaiting.begin, reconcileBegin]
  by_cases hu : p.record.status.unresolved
  · cases p.record.brokerId <;> simp [hu]
  · simp [hu]

theorem cancel_writes (reg : BrokerRegistry) (p : OrderProcess) :
    (p.trace reg (.call .cancel)).writes =
      if p.record.brokerId = none then [.cancelled] else [.cancelPending] := by
  simp only [OrderProcess.trace, Awaiting.begin, cancelBegin]
  cases hb : p.record.brokerId <;> simp

theorem cancelled_first (reg : BrokerRegistry) (p : OrderProcess) (e : OrderEvent)
    {s : OrderStatus} {w : List OrderStatus} (h : (p.trace reg e).writes = s :: w) :
    OrderStatus.cancelled ∉ w := by
  have single : ∀ {x : OrderStatus}, s :: w = [x] → OrderStatus.cancelled ∉ w := by
    intro x hx
    rw [(List.cons.inj hx).2]
    exact List.not_mem_nil
  have pair : ∀ {x y : OrderStatus}, s :: w = [x, y] → y ≠ .cancelled → OrderStatus.cancelled ∉ w := by
    intro x y hx hy
    rw [(List.cons.inj hx).2]
    simpa using hy.symm
  cases e with
  | transition target metadata =>
    rcases transition_writes reg p target metadata with hw | ⟨hw, -⟩
    · rw [h] at hw
      cases hw
    · exact single (h.symm.trans hw)
  | call a =>
    cases a with
    | submit =>
      rw [submit_writes] at h
      split at h
      · exact single h.symm
      · cases h
    | reconcile =>
      rw [reconcile_writes] at h
      split at h
      · split at h
        · exact pair h.symm (by decide)
        · exact single h.symm
      · cases h
    | cancel =>
      rw [cancel_writes] at h
      split at h <;> exact single h.symm
  | answer i answer =>
    simp only [OrderProcess.trace] at h
    split at h
    · cases h
    · rename_i a adapter ha
      rcases finish_writes a p.record answer with ⟨-, hw⟩ | ⟨-, -, hw⟩ | ⟨-, x, -, -, hw⟩
      · rw [h] at hw
        cases hv : a.verdict answer with
        | none =>
          rw [hv] at hw
          cases hw
        | some x =>
          rw [hv] at hw
          exact single hw
      · exact pair (h.symm.trans hw) (by decide)
      · exact pair (h.symm.trans hw) (by decide)

/-- The table itself forbids the cancellations that `Lawful` names. -/
theorem lawful_iff_walk (reg : BrokerRegistry) (p : OrderProcess) (e : OrderEvent) :
    Lawful reg p e ↔ List.IsChain Moves (p.record.status :: (p.trace reg e).writes) := by
  refine ⟨Lawful.walk, fun hwalk => ?_⟩
  have hsource : OrderStatus.cancelled ∈ (p.trace reg e).writes →
      Moves p.record.status .cancelled := by
    intro hm
    cases hw : (p.trace reg e).writes with
    | nil =>
      rw [hw] at hm
      cases hm
    | cons s w =>
      rw [hw] at hm hwalk
      rcases List.mem_cons.mp hm with hs | hm
      · rw [hs]
        exact (List.isChain_cons_cons.mp hwalk).1
      · exact absurd hm (cancelled_first reg p e hw)
  have hbad : ∀ s ∈ [OrderStatus.filled, .rejected, .closed, .timedOut, .unknown],
      ¬ Moves s .cancelled := by decide
  refine ⟨hwalk, ?_, ?_⟩
  · intro hs hm
    refine hbad _ ?_ (hsource hm)
    simp only [List.mem_cons, List.not_mem_nil, or_false] at hs ⊢
    tauto
  · intro hs hm
    refine absurd (hsource hm) (hbad _ ?_)
    simp only [List.mem_cons, List.not_mem_nil, or_false] at hs ⊢
    tauto

private theorem chain_pair (s s' : OrderStatus) : List.IsChain Moves [s, s'] ↔ Moves s s' := by
  simp

/-- An answered call keeps to the table just when its answer is no surprise to it. -/
theorem answer_walk (a : Awaiting) (record : OrderRecord) (answer : Answer) :
    List.IsChain Moves (record.status :: (a.finish { record } answer).writes) ↔
      (∀ s, a.verdict answer = some s → record.status = a.pending ∨ Moves record.status s) ∧
        ¬ (a = .reconcile ∧ answer.unreadableFill) := by
  have hpending : ∀ s, a.verdict answer = some s →
      (record.status = a.pending ∨ Moves record.status s) → Moves record.status s := by
    rintro s hv (hp | hm)
    · rw [hp]
      exact verdict_moves hv
    · exact hm
  rcases finish_writes a record answer with ⟨hr, hw⟩ | ⟨ha, hu, hw⟩ | ⟨ha, x, hx, hv, hw⟩
  · rw [hw]
    cases hv : a.verdict answer with
    | none => simp [hr]
    | some x =>
      simp only [Option.toList_some, chain_pair, Option.some.injEq, forall_eq', hr, not_false_eq_true,
        and_true]
      exact ⟨.inr, hpending x hv⟩
  · refine iff_of_false ?_ (fun h => h.2 ⟨ha, hu⟩)
    rw [hw, List.isChain_cons_cons, chain_pair]
    exact fun h => absurd h.2 (by decide)
  · have hback : ∀ x ∈ [OrderStatus.filled, .partiallyFilled], Moves x .reconciling := by decide
    rw [hw, List.isChain_cons_cons, chain_pair]
    constructor
    · rintro ⟨hm, -⟩
      refine ⟨fun s hs => .inr ?_, fun h => ?_⟩
      · rw [hv] at hs
        cases hs
        exact hm
      · rw [ha] at h
        cases h.1
    · rintro ⟨h, -⟩
      exact ⟨hpending x hv (h x hv), hback x hx⟩

theorem lawful_iff (reg : BrokerRegistry) (p : OrderProcess) (e : OrderEvent) :
    Lawful reg p e ↔ KeepsTable p e := by
  rw [lawful_iff_walk]
  cases e with
  | transition target metadata =>
    refine iff_of_true ?_ trivial
    rcases transition_writes reg p target metadata with hw | ⟨hw, hin⟩
    · rw [hw]
      exact .singleton _
    · rw [hw]
      exact (chain_pair _ _).mpr (.inr hin)
  | call a =>
    cases a with
    | submit =>
      rw [submit_writes, KeepsTable]
      cases p.record.status <;> decide
    | reconcile =>
      refine iff_of_true ?_ trivial
      rw [reconcile_writes]
      cases p.record.brokerId with
      | none => cases p.record.status <;> decide
      | some id =>
        rw [if_neg (Option.some_ne_none id)]
        cases p.record.status <;> decide
    | cancel =>
      rw [cancel_writes, KeepsTable]
      cases p.record.brokerId with
      | none => cases p.record.status <;> decide
      | some id =>
        simp only [reduceCtorEq, if_false]
        cases p.record.status <;> decide
  | answer i answer =>
    simp only [OrderProcess.trace, KeepsTable]
    cases ha : p.awaiting[i]? with
    | none => simp
    | some a => simpa [Prod.ext_iff] using answer_walk a.1 p.record answer

/-- Along every run, overlapping calls included, the manager's status assignments
obey the table exactly when every event keeps to it. -/
theorem run_lawful_iff (reg : BrokerRegistry) (p : OrderProcess) (events : List OrderEvent) :
    Guarded (OrderProcess.step reg) (Lawful reg) p events ↔
      Guarded (OrderProcess.step reg) KeepsTable p events := by
  have hinv : ∀ (q : OrderProcess) (e : OrderEvent), True → Lawful reg q e → True :=
    fun _ _ _ _ => trivial
  exact guarded_congr hinv (fun q e _ => lawful_iff reg q e) trivial events

/-- A submission that timed out before the broker gave an id is cancelled unasked. -/
theorem timed_out_cancelled :
    ¬ Guarded (OrderProcess.step { }) (Lawful { })
      { record := {
          accountId := "a", clientOrderId := 1, symbol := "NIFTY", side := "BUY", quantity := 50
          price := some 100, orderType := "LIMIT", status := .riskApproved } }
      [.call .submit, .answer 0 .timeout, .call .cancel] := by
  intro h
  obtain ⟨i, r, he, -⟩ := h.2.2.1.answered (by decide) (by decide)
  cases he

end Droid.Algo
