import Droid.Signals.FsmManager

/-! What one transition does, and when it is all or nothing. -/
namespace Droid.Signals
open Lib

/-- The attribute that the signal model does not declare. -/
def OutcomeField.undeclared : OutcomeField → Bool
  | .intrinsicPerShare _ => true
  | _ => false

private theorem setattr_cases (sig : SignalInstance) (f : OutcomeField) :
    (f.undeclared = true ∧ sig.setattr f = none) ∨
      (f.undeclared = false ∧ ∃ sig', sig.setattr f = some sig' ∧ sig'.fsmState = sig.fsmState ∧
        sig'.version = sig.version ∧ sig'.stateHistory = sig.stateHistory) := by
  cases f <;> first | exact .inl ⟨rfl, rfl⟩ | exact .inr ⟨rfl, _, rfl, rfl, rfl, rfl⟩

/-- The attribute loop ends when all attributes are declared, and leaves state,
version and history alone in any case. -/
theorem setattrs_frame (sig : SignalInstance) (fs : List OutcomeField) :
    ((sig.setattrs fs).2 = true ↔ ∀ f ∈ fs, f.undeclared = false) ∧
      (sig.setattrs fs).1.fsmState = sig.fsmState ∧ (sig.setattrs fs).1.version = sig.version ∧
      (sig.setattrs fs).1.stateHistory = sig.stateHistory := by
  induction fs generalizing sig with
  | nil => simp [SignalInstance.setattrs]
  | cons f fs ih =>
    rw [List.forall_mem_cons]
    rcases setattr_cases sig f with ⟨hu, hs⟩ | ⟨hu, sig', hs, hstate, hversion, hhistory⟩
    · simp [SignalInstance.setattrs, hs, hu]
    · obtain ⟨ih, ihs, ihv, ihh⟩ := ih sig'
      simp only [SignalInstance.setattrs, hs, hu]
      exact ⟨by simpa using ih, ihs.trans hstate, ihv.trans hversion, ihh.trans hhistory⟩

theorem setattrs_keeps {α : Type} (view : SignalInstance → α)
    (hview : ∀ sig f sig', SignalInstance.setattr sig f = some sig' → view sig' = view sig)
    (sig : SignalInstance) (fs : List OutcomeField) : view (sig.setattrs fs).1 = view sig := by
  induction fs generalizing sig with
  | nil => rfl
  | cons f fs ih =>
    rw [SignalInstance.setattrs]
    cases hs : sig.setattr f with
    | none => rfl
    | some sig' => exact (ih sig').trans (hview sig f sig' hs)

/-! ### Where an undeclared attribute comes from -/

/-- The contract of the signal has a strike and a type, and there is a spot to settle it at. -/
def Settleable (sig : SignalInstance) (marketPrice : Option ℚ) : Prop :=
  ∃ c, sig.optionContract = some c ∧ 0 < c.strike.getD 0 ∧
    ((c.optionType.getD "").toUpper = "CE" ∨ (c.optionType.getD "").toUpper = "PE") ∧
    0 < marketPrice.getD sig.spotPrice

theorem intrinsic_isSome (sig : SignalInstance) (marketPrice : Option ℚ) :
    (resolveIntrinsicAtExpiry sig marketPrice).isSome ↔ Settleable sig marketPrice := by
  rw [resolveIntrinsicAtExpiry, Settleable]
  cases hc : sig.optionContract with
  | none => simp
  | some c =>
    by_cases hk : 0 < c.strike.getD 0 ∧
        ((c.optionType.getD "").toUpper = "CE" ∨ (c.optionType.getD "").toUpper = "PE")
    · by_cases hp : 0 < marketPrice.getD sig.spotPrice <;> simp [guard, hk, hp]
    · have hn : ¬ (0 < c.strike.getD 0 ∧
          ((c.optionType.getD "").toUpper = "CE" ∨ (c.optionType.getD "").toUpper = "PE") ∧
          0 < marketPrice.getD sig.spotPrice) := fun h => hk ⟨h.1, h.2.1⟩
      simp [guard, hk, hn]

private theorem friction_declared (schedule : IndianFnoCostSchedule) (marks : OptionMarks)
    (sig : SignalInstance) (grossR : ℚ) (price : Option ℚ) :
    ∀ f ∈ recordFrictionR schedule marks sig grossR price, f.undeclared = false := by
  rw [recordFrictionR]
  split <;> simp [OutcomeField.undeclared]

private theorem exit_declared (schedule : IndianFnoCostSchedule) (marks : OptionMarks)
    (sig : SignalInstance) (marketPrice : Option ℚ) {hit : List OutcomeField}
    (hhit : ∀ f ∈ hit, f.undeclared = false) (status outcome : String) (grossR : ℚ)
    (fallback : Option ℚ) :
    ∀ f ∈ exitOutcome schedule marks sig marketPrice hit status outcome grossR fallback,
      f.undeclared = false := by
  intro f hf
  simp only [exitOutcome, List.mem_append] at hf
  rcases hf with ((hf | hf) | hf) | hf
  · rw [List.mem_singleton.mp hf]
    rfl
  · exact hhit f hf
  · simp only [List.mem_cons, List.not_mem_nil, or_false] at hf
    rcases hf with rfl | rfl | rfl | rfl <;> rfl
  · exact friction_declared schedule marks sig grossR _ f hf

private theorem expiry_declared (schedule : IndianFnoCostSchedule) (marks : OptionMarks)
    (sig : SignalInstance) (marketPrice : Option ℚ) :
    (∀ f ∈ expiryOutcome schedule marks sig marketPrice, f.undeclared = false) ↔
      ¬ Settleable sig marketPrice := by
  rw [← intrinsic_isSome]
  rw [expiryOutcome]
  cases resolveIntrinsicAtExpiry sig marketPrice <;> simp [OutcomeField.undeclared]

theorem outcome_declared (schedule : IndianFnoCostSchedule) (marks : OptionMarks)
    (sig : SignalInstance) (marketPrice : Option ℚ) (target : SignalFsmState) :
    (∀ f ∈ computeTerminalOutcome schedule marks sig marketPrice target, f.undeclared = false) ↔
      ¬ (target = .expired ∧ Settleable sig marketPrice) := by
  have hother : target ≠ .expired →
      ((∀ f ∈ computeTerminalOutcome schedule marks sig marketPrice target, f.undeclared = false) →
        ((∀ f ∈ computeTerminalOutcome schedule marks sig marketPrice target, f.undeclared = false) ↔
          ¬ (target = .expired ∧ Settleable sig marketPrice))) :=
    fun hne h => iff_of_true h fun h => hne h.1
  cases target with
  | expired =>
    simp only [computeTerminalOutcome, true_and]
    exact expiry_declared schedule marks sig marketPrice
  | target1Hit => exact hother (by decide) (exit_declared _ _ _ _ (by simp [OutcomeField.undeclared]) _ _ _ _)
  | target2Hit => exact hother (by decide) (exit_declared _ _ _ _ (by simp [OutcomeField.undeclared]) _ _ _ _)
  | stopLossHit => exact hother (by decide) (exit_declared _ _ _ _ (by simp) _ _ _ _)
  | timeStopHit => exact hother (by decide) (exit_declared _ _ _ _ (by simp) _ _ _ _)
  | runnerTimeStopHit => exact hother (by decide) (exit_declared _ _ _ _ (by simp) _ _ _ _)
  | invalidated => exact hother (by decide) (by simp [computeTerminalOutcome, OutcomeField.undeclared])
  | detected => exact hother (by decide) (by simp [computeTerminalOutcome, OutcomeField.undeclared])
  | preArmed => exact hother (by decide) (by simp [computeTerminalOutcome, OutcomeField.undeclared])
  | validated => exact hother (by decide) (by simp [computeTerminalOutcome, OutcomeField.undeclared])
  | armed => exact hother (by decide) (by simp [computeTerminalOutcome, OutcomeField.undeclared])
  | triggered => exact hother (by decide) (by simp [computeTerminalOutcome, OutcomeField.undeclared])
  | confirmed => exact hother (by decide) (by simp [computeTerminalOutcome, OutcomeField.undeclared])
  | closed => exact hother (by decide) (by simp [computeTerminalOutcome, OutcomeField.undeclared])

/-! ### The pure step -/

/-- The transition reaches the attribute loop, and the loop raises. -/
structure RaisesOnExpiry (sig : SignalInstance) (target : SignalFsmState) (marketPrice : Option ℚ)
    (expectedVersion : Option Int) : Prop where
  expiry : target = .expired
  current : ∀ v, expectedVersion = some v → v = sig.version
  edge : target ∈ allowedTransitions sig.fsmState
  settleable : Settleable sig marketPrice

theorem startRunner_writes (sig : SignalInstance) (now : Int) :
    ∃ t1FillTimestamp runnerTimeStopAtUtc currentStopLoss breakevenActivated, sig.startRunner now =
      { sig with t1FillTimestamp, runnerTimeStopAtUtc, currentStopLoss, breakevenActivated } := by
  rw [SignalInstance.startRunner]
  simp only
  split
  · exact ⟨_, _, _, _, rfl⟩
  · exact ⟨_, _, _, _, rfl⟩

private theorem startRunner_frame (sig : SignalInstance) (now : Int) :
    (sig.startRunner now).fsmState = sig.fsmState ∧ (sig.startRunner now).version = sig.version ∧
      (sig.startRunner now).stateHistory = sig.stateHistory := by
  obtain ⟨_, _, _, _, hrun⟩ := startRunner_writes sig now
  rw [hrun]
  exact ⟨rfl, rfl, rfl⟩

/-- An outcome is written first, and the step raises when not all of it could be. -/
theorem advance_outcome (env : Surroundings) {sig sig' : SignalInstance} {target : SignalFsmState}
    {marketPrice : Option ℚ} {done : Bool} (hout : target ∈ outcomeStates)
    (hset : sig.setattrs (computeTerminalOutcome { } env.marks sig marketPrice target) = (sig', done)) :
    advance env sig target marketPrice =
      if done then .moved (if target = .target1Hit then sig'.startRunner env.now else sig') else .raised sig' := by
  have hnot : target ≠ .triggered ∧ target ≠ .confirmed := by
    revert hout
    cases target <;> decide
  unfold advance
  split
  · exact absurd rfl hnot.1
  · exact absurd rfl hnot.2
  · rw [if_pos hout, hset]
    cases done <;> rfl

theorem advance_cases (env : Surroundings) (sig : SignalInstance) (target : SignalFsmState)
    (marketPrice : Option ℚ) :
    ∃ sig', sig'.fsmState = sig.fsmState ∧ sig'.version = sig.version ∧
      sig'.stateHistory = sig.stateHistory ∧
      ((advance env sig target marketPrice = .moved sig' ∧
          ¬ (target = .expired ∧ Settleable sig marketPrice)) ∨
        (advance env sig target marketPrice = .raised sig' ∧
          target = .expired ∧ Settleable sig marketPrice)) := by
  by_cases hout : target ∈ outcomeStates
  · obtain ⟨hdone, hstate, hversion, hhistory⟩ := setattrs_frame sig
      (computeTerminalOutcome { } env.marks sig marketPrice target)
    rw [outcome_declared] at hdone
    rcases hset : sig.setattrs (computeTerminalOutcome { } env.marks sig marketPrice target) with ⟨sig', done⟩
    rw [hset] at hdone hstate hversion hhistory
    rw [advance_outcome env hout hset]
    cases done with
    | true =>
      by_cases ht : target = .target1Hit
      · obtain ⟨hs, hv, hh⟩ := startRunner_frame sig' env.now
        refine ⟨sig'.startRunner env.now, hs.trans hstate, hv.trans hversion, hh.trans hhistory, ?_⟩
        exact .inl ⟨by simp [ht], hdone.mp rfl⟩
      · exact ⟨sig', hstate, hversion, hhistory, .inl ⟨by simp [ht], hdone.mp rfl⟩⟩
    | false =>
      refine ⟨sig', hstate, hversion, hhistory, .inr ⟨rfl, ?_⟩⟩
      by_contra hn
      exact Bool.false_ne_true (hdone.mpr hn)
  · have hexp : ¬ (target = .expired ∧ Settleable sig marketPrice) := by
      rintro ⟨rfl, -⟩
      exact hout (by decide)
    cases target with
    | triggered =>
      exact ⟨{ sig with triggeredAtUtc := some env.now }, rfl, rfl, rfl, .inl ⟨rfl, hexp⟩⟩
    | confirmed => exact ⟨sig.confirm env.now, rfl, rfl, rfl, .inl ⟨rfl, hexp⟩⟩
    | detected => exact ⟨sig, rfl, rfl, rfl, .inl ⟨rfl, hexp⟩⟩
    | preArmed => exact ⟨sig, rfl, rfl, rfl, .inl ⟨rfl, hexp⟩⟩
    | validated => exact ⟨sig, rfl, rfl, rfl, .inl ⟨rfl, hexp⟩⟩
    | armed => exact ⟨sig, rfl, rfl, rfl, .inl ⟨rfl, hexp⟩⟩
    | closed => exact ⟨sig, rfl, rfl, rfl, .inl ⟨rfl, hexp⟩⟩
    | target1Hit => exact absurd (by decide) hout
    | target2Hit => exact absurd (by decide) hout
    | stopLossHit => exact absurd (by decide) hout
    | timeStopHit => exact absurd (by decide) hout
    | runnerTimeStopHit => exact absurd (by decide) hout
    | invalidated => exact absurd (by decide) hout
    | expired => exact absurd (by decide) hout

/-- What a step leaves, whether it ends or raises: a timestamp, the holding clock, an outcome,
or the outcome of a first target and the runner. -/
theorem advance_forms {env : Surroundings} {sig sig' : SignalInstance} {target : SignalFsmState}
    {marketPrice : Option ℚ} (h : advance env sig target marketPrice = .moved sig' ∨
      advance env sig target marketPrice = .raised sig') :
    (sig' = sig ∧ target ≠ .target1Hit) ∨
      (sig' = { sig with triggeredAtUtc := some env.now } ∧ target ≠ .target1Hit) ∨
      (sig' = sig.confirm env.now ∧ target ≠ .target1Hit) ∨
      ∃ fs, (sig' = (sig.setattrs fs).1 ∧ target ≠ .target1Hit) ∨
        (sig' = (sig.setattrs fs).1.startRunner env.now ∧ target = .target1Hit) := by
  have hdone := (setattrs_frame sig (computeTerminalOutcome { } env.marks sig marketPrice target)).1
  rw [outcome_declared] at hdone
  unfold advance at h
  split at h
  · rcases h with h | h <;> cases h
    exact .inr (.inl ⟨rfl, nofun⟩)
  · rcases h with h | h <;> cases h
    exact .inr (.inr (.inl ⟨rfl, nofun⟩))
  · split at h
    · refine .inr (.inr (.inr ⟨computeTerminalOutcome { } env.marks sig marketPrice target, ?_⟩))
      generalize sig.setattrs (computeTerminalOutcome { } env.marks sig marketPrice target) = res at h hdone ⊢
      obtain ⟨sig₁, done⟩ := res
      cases done with
      | true =>
        rcases h with h | h <;> cases h
        by_cases ht : target = .target1Hit
        · exact .inr ⟨if_pos ht, ht⟩
        · exact .inl ⟨if_neg ht, ht⟩
      | false =>
        rcases h with h | h <;> cases h
        refine .inl ⟨rfl, fun ht => ?_⟩
        exact Bool.false_ne_true (hdone.mpr fun hexp => nomatch ht.symm.trans hexp.1)
    · rename_i hout
      rcases h with h | h <;> cases h
      exact .inl ⟨rfl, fun ht => hout (by rw [ht]; decide)⟩

theorem advance_keeps {α : Type} (view : SignalInstance → α)
    (hset : ∀ sig f sig', SignalInstance.setattr sig f = some sig' → view sig' = view sig)
    (htriggered : ∀ sig now, view { sig with triggeredAtUtc := some now } = view sig)
    (hconfirm : ∀ sig now, view (sig.confirm now) = view sig)
    (hrunner : ∀ sig now, view (sig.startRunner now) = view sig)
    {env : Surroundings} {sig sig' : SignalInstance} {target : SignalFsmState}
    {marketPrice : Option ℚ} (h : advance env sig target marketPrice = .moved sig' ∨
      advance env sig target marketPrice = .raised sig') : view sig' = view sig := by
  rcases advance_forms h with
    ⟨rfl, -⟩ | ⟨rfl, -⟩ | ⟨rfl, -⟩ | ⟨fs, ⟨rfl, -⟩ | ⟨rfl, -⟩⟩
  · rfl
  · exact htriggered sig _
  · exact hconfirm sig _
  · exact setattrs_keeps view hset sig fs
  · exact (hrunner _ _).trans (setattrs_keeps view hset sig fs)

/-- The guards of a step pass: the version, the edge and the data gate. -/
structure Admits (sig : SignalInstance) (target : SignalFsmState) (expectedVersion : Option Int) :
    Prop where
  current : ∀ v, expectedVersion = some v → v = sig.version
  edge : target ∈ allowedTransitions sig.fsmState
  data : ¬ (target ∈ [.armed, .triggered, .confirmed] ∧ sig.fnoDegraded = true)

theorem Admits.ne {sig : SignalInstance} {target : SignalFsmState} {expectedVersion : Option Int}
    (h : Admits sig target expectedVersion) : sig.fsmState ≠ target := by
  have hedge := h.edge
  revert hedge
  cases sig.fsmState <;> cases target <;> decide

theorem pure_admits (env : Surroundings) (sig : SignalInstance) (target : SignalFsmState)
    (marketPrice : Option ℚ) (expectedVersion : Option Int) (hne : sig.fsmState ≠ target) :
    (Admits sig target expectedVersion ∧
        applyFsmTransitionPure env sig target marketPrice expectedVersion =
          advance env (sig.enter env.now target) target marketPrice) ∨
      (¬ Admits sig target expectedVersion ∧
        ∃ e, applyFsmTransitionPure env sig target marketPrice expectedVersion = .refused e) := by
  have hconflict : expectedVersion.any (· ≠ sig.version) = true ↔
      ¬ ∀ v, expectedVersion = some v → v = sig.version := by
    cases expectedVersion <;> simp
  rw [applyFsmTransitionPure]
  by_cases hv : expectedVersion.any (· ≠ sig.version) = true
  · exact .inr ⟨fun h => hconflict.mp hv h.current, _, if_pos hv⟩
  · rw [if_neg hv, if_neg hne]
    by_cases hedge : target ∈ allowedTransitions sig.fsmState
    · rw [if_neg (not_not.mpr hedge)]
      by_cases hfno : target ∈ [SignalFsmState.armed, .triggered, .confirmed] ∧ sig.fnoDegraded
      · exact .inr ⟨fun h => h.data hfno, _, if_pos hfno⟩
      · exact .inl ⟨⟨not_not.mp (mt hconflict.mpr hv), hedge, hfno⟩, if_neg hfno⟩
    · exact .inr ⟨fun h => hedge h.edge, _, if_pos hedge⟩

theorem advance_enters {env : Surroundings} {sig sig' : SignalInstance} {target : SignalFsmState}
    {marketPrice : Option ℚ} :
    (advance env (sig.enter env.now target) target marketPrice = .moved sig' →
      sig'.fsmState = target ∧ sig'.version = sig.version + 1 ∧
        ¬ (target = .expired ∧ Settleable sig marketPrice)) ∧
    (advance env (sig.enter env.now target) target marketPrice = .raised sig' →
      sig'.fsmState = target ∧ sig'.version = sig.version + 1 ∧
        target = .expired ∧ Settleable sig marketPrice) := by
  obtain ⟨moved, hstate, hversion, -, hcase⟩ :=
    advance_cases env (sig.enter env.now target) target marketPrice
  constructor
  · intro h
    rcases hcase with ⟨hm, hn⟩ | ⟨hr, -⟩
    · cases h.symm.trans hm
      exact ⟨hstate, hversion, hn⟩
    · cases h.symm.trans hr
  · intro h
    rcases hcase with ⟨hm, -⟩ | ⟨hr, hexp⟩
    · cases h.symm.trans hm
    · cases h.symm.trans hr
      exact ⟨hstate, hversion, hexp⟩

/-- A step into a new state is refused, or follows an edge of the table with one
more version and the history untouched; then it raises exactly on a settleable expiry. -/
theorem pure_cases (env : Surroundings) (sig : SignalInstance) (target : SignalFsmState)
    (marketPrice : Option ℚ) (expectedVersion : Option Int) (hne : sig.fsmState ≠ target) :
    ((∃ e, applyFsmTransitionPure env sig target marketPrice expectedVersion = .refused e) ∧
        ¬ RaisesOnExpiry sig target marketPrice expectedVersion) ∨
      target ∈ allowedTransitions sig.fsmState ∧ ∃ sig', sig'.fsmState = target ∧
        sig'.version = sig.version + 1 ∧ sig'.stateHistory = sig.stateHistory ∧
        ((applyFsmTransitionPure env sig target marketPrice expectedVersion = .moved sig' ∧
            ¬ RaisesOnExpiry sig target marketPrice expectedVersion) ∨
          (applyFsmTransitionPure env sig target marketPrice expectedVersion = .raised sig' ∧
            RaisesOnExpiry sig target marketPrice expectedVersion)) := by
  rcases pure_admits env sig target marketPrice expectedVersion hne with ⟨ha, hp⟩ | ⟨hn, e, he⟩
  · obtain ⟨sig', hs, hversion, hh, hcase⟩ :=
      advance_cases env (sig.enter env.now target) target marketPrice
    refine .inr ⟨ha.edge, sig', hs, hversion, hh, ?_⟩
    rw [hp]
    rcases hcase with ⟨hm, hn⟩ | ⟨hr, ht, hset⟩
    · exact .inl ⟨hm, fun h => hn ⟨h.expiry, h.settleable⟩⟩
    · exact .inr ⟨hr, ht, ha.current, ha.edge, hset⟩
  · refine .inl ⟨⟨e, he⟩, fun h => hn ⟨h.current, h.edge, fun hfno => ?_⟩⟩
    rw [h.expiry] at hfno
    exact absurd hfno.1 (by decide)

/-! ### The manager's transition -/

/-- The outbox is apart from the books. -/
theorem enqueueSettlement_frame (m : SignalFsmManager) (id : SignalId) (sig : SignalInstance)
    (target : SignalFsmState) : (m.enqueueSettlement id sig target).signals = m.signals ∧
      (m.enqueueSettlement id sig target).auditLog = m.auditLog := by
  rw [SignalFsmManager.enqueueSettlement]
  split <;> exact ⟨rfl, rfl⟩

/-- The entry a transition writes. -/
def transitionAudit (sig : SignalInstance) (id : SignalId) (target : SignalFsmState)
    (marketPrice : Option ℚ) (reason : String) : TransitionAudit :=
  { signalId := id, fromState := sig.fsmState, toState := target, marketPrice, reasonCode := reason }

/-- A transition changes nothing, or takes one signal along an edge of the table;
it records the step unless it raises. -/
theorem transition_cases (env : Surroundings) (m : SignalFsmManager) (id : SignalId)
    (target : SignalFsmState) (marketPrice : Option ℚ) (reason : String)
    (expectedVersion : Option Int) {res : SignalFsmManager × SignalFsmManager.TransitionResult}
    (hres : m.transition env id target marketPrice reason expectedVersion = res) :
    (res.1 = m ∧ ∀ sig, m.signals.get? id = some sig → sig.fsmState ≠ target →
        ¬ RaisesOnExpiry sig target marketPrice expectedVersion) ∨
      ∃ sig sig', m.signals.get? id = some sig ∧ sig.fsmState ≠ target ∧
        target ∈ allowedTransitions sig.fsmState ∧ sig'.fsmState = target ∧
        sig'.version = sig.version + 1 ∧ sig'.stateHistory = sig.stateHistory ∧
        ((¬ RaisesOnExpiry sig target marketPrice expectedVersion ∧ res.2 = .ok ∧
            res.1.signals = m.signals.insert id
              (sig'.note (transitionAudit sig id target marketPrice reason)) ∧
            res.1.auditLog = m.auditLog ++ [transitionAudit sig id target marketPrice reason]) ∨
          (RaisesOnExpiry sig target marketPrice expectedVersion ∧ res.2 = .raised ∧
            res.1.signals = m.signals.insert id sig')) := by
  unfold SignalFsmManager.transition at hres
  cases hsig : m.signals.get? id with
  | none =>
    rw [hsig] at hres
    subst hres
    exact .inl ⟨rfl, fun sig h => nomatch h⟩
  | some sig =>
    rw [hsig] at hres
    by_cases heq : sig.fsmState = target
    · simp only [heq, if_true] at hres
      subst hres
      refine .inl ⟨rfl, fun sig' h hne => ?_⟩
      cases h
      exact absurd heq hne
    · simp only [if_neg heq] at hres
      rcases pure_cases env sig target marketPrice expectedVersion heq with
        ⟨⟨e, he⟩, hn⟩ | ⟨hedge, sig', hs, hv, hh, ⟨hm, hn⟩ | ⟨hr, hraises⟩⟩
      · simp only [he] at hres
        subst hres
        exact .inl ⟨rfl, fun sig' h _ => Option.some.inj h ▸ hn⟩
      · simp only [hm] at hres
        subst hres
        obtain ⟨hsignals, hlog⟩ := enqueueSettlement_frame
          (m.record id sig' (transitionAudit sig id target marketPrice reason)) id sig' target
        exact .inr ⟨sig, sig', rfl, heq, hedge, hs, hv, hh, .inl ⟨hn, rfl, hsignals, hlog⟩⟩
      · simp only [hr] at hres
        subst hres
        exact .inr ⟨sig, sig', rfl, heq, hedge, hs, hv, hh, .inr ⟨hraises, rfl, rfl⟩⟩

theorem transition_absent (env : Surroundings) (m : SignalFsmManager) {id : SignalId}
    (target : SignalFsmState) (marketPrice : Option ℚ) (reason : String)
    (expectedVersion : Option Int) (h : m.signals.get? id = none) :
    m.transition env id target marketPrice reason expectedVersion = (m, .refused .notFound) := by
  rw [SignalFsmManager.transition]
  rw [h]

/-- A transition of a known signal does nothing, or is the advance of its step: recorded and
settled when it ends, and left as it is when it raises. -/
theorem transition_advances (env : Surroundings) (m : SignalFsmManager) {id : SignalId}
    (target : SignalFsmState) (marketPrice : Option ℚ) (reason : String)
    (expectedVersion : Option Int) {sig : SignalInstance} (hsig : m.signals.get? id = some sig) :
    (¬ Admits sig target expectedVersion ∧
        (m.transition env id target marketPrice reason expectedVersion).1 = m) ∨
      (Admits sig target expectedVersion ∧ ∃ moved,
        (advance env (sig.enter env.now target) target marketPrice = .moved moved ∧
          m.transition env id target marketPrice reason expectedVersion =
            ((m.record id moved (transitionAudit sig id target marketPrice reason)).enqueueSettlement
              id moved target, .ok)) ∨
        (advance env (sig.enter env.now target) target marketPrice = .raised moved ∧
          m.transition env id target marketPrice reason expectedVersion =
            ({ m with signals := m.signals.insert id moved }, .raised))) := by
  rw [SignalFsmManager.transition]
  simp only [hsig]
  by_cases heq : sig.fsmState = target
  · rw [if_pos heq]
    exact .inl ⟨fun h => h.ne heq, rfl⟩
  · rw [if_neg heq]
    rcases pure_admits env sig target marketPrice expectedVersion heq with ⟨ha, hp⟩ | ⟨hn, e, he⟩
    · obtain ⟨moved, -, -, -, ⟨hm, -⟩ | ⟨hr, -⟩⟩ :=
        advance_cases env (sig.enter env.now target) target marketPrice
      · rw [hp, hm]
        exact .inr ⟨ha, moved, .inl ⟨rfl, rfl⟩⟩
      · rw [hp, hr]
        exact .inr ⟨ha, moved, .inr ⟨rfl, rfl⟩⟩
    · rw [he]
      exact .inl ⟨hn, rfl⟩

theorem transition_other (env : Surroundings) (m : SignalFsmManager) (id : SignalId)
    (target : SignalFsmState) (marketPrice : Option ℚ) (reason : String)
    (expectedVersion : Option Int) {x : SignalId} (hx : x ≠ id) :
    (m.transition env id target marketPrice reason expectedVersion).1.signals.get? x =
      m.signals.get? x := by
  rcases transition_cases env m id target marketPrice reason expectedVersion rfl with
    ⟨hm, -⟩ | ⟨sig, sig', -, -, -, -, -, -, ⟨-, -, hsignals, -⟩ | ⟨-, -, hsignals⟩⟩
  · rw [hm]
  · rw [hsignals, Dict.get?_insert, if_neg hx]
  · rw [hsignals, Dict.get?_insert, if_neg hx]

/-- What every advance of its step does to a signal, a transition does to all signals. -/
theorem transition_related {R : SignalInstance → SignalInstance → Prop} (hrefl : ∀ sig, R sig sig)
    (hnote : ∀ sig sig' audit, R sig sig' → R sig (sig'.note audit)) (env : Surroundings)
    (m : SignalFsmManager) (id : SignalId) (target : SignalFsmState) (marketPrice : Option ℚ)
    (reason : String) (expectedVersion : Option Int)
    (hadvance : ∀ sig moved, (advance env (sig.enter env.now target) target marketPrice = .moved moved ∨
      advance env (sig.enter env.now target) target marketPrice = .raised moved) → R sig moved)
    {x : SignalId} {sig : SignalInstance} (hx : m.signals.get? x = some sig) :
    ∃ sig', (m.transition env id target marketPrice reason expectedVersion).1.signals.get? x = some sig' ∧
      R sig sig' := by
  by_cases hxi : x = id
  · subst hxi
    rcases transition_advances env m target marketPrice reason expectedVersion hx with
      ⟨-, hm⟩ | ⟨-, moved, ⟨hadv, hres⟩ | ⟨hadv, hres⟩⟩
    · rw [hm]
      exact ⟨sig, hx, hrefl sig⟩
    · rw [hres, (enqueueSettlement_frame _ _ _ _).1]
      exact ⟨_, (Dict.get?_insert _ _ _ _).trans (if_pos rfl),
        hnote sig moved _ (hadvance sig moved (.inl hadv))⟩
    · rw [hres]
      exact ⟨moved, (Dict.get?_insert _ _ _ _).trans (if_pos rfl), hadvance sig moved (.inr hadv)⟩
  · rw [transition_other env m id target marketPrice reason expectedVersion hxi]
    exact ⟨sig, hx, hrefl sig⟩

theorem transition_enters (env : Surroundings) (m : SignalFsmManager) {id : SignalId}
    {target : SignalFsmState} (marketPrice : Option ℚ) (reason : String)
    {expectedVersion : Option Int} {sig : SignalInstance} (hsig : m.signals.get? id = some sig)
    (h : Admits sig target expectedVersion) :
    ∃ sig', (m.transition env id target marketPrice reason expectedVersion).1.signals.get? id = some sig' ∧
      sig'.fsmState = target := by
  rcases transition_advances env m target marketPrice reason expectedVersion hsig with
    ⟨hn, -⟩ | ⟨-, moved, ⟨hadv, hres⟩ | ⟨hadv, hres⟩⟩
  · exact absurd h hn
  · rw [hres, (enqueueSettlement_frame _ _ _ _).1]
    exact ⟨_, (Dict.get?_insert _ _ _ _).trans (if_pos rfl), (advance_enters.1 hadv).1⟩
  · rw [hres]
    exact ⟨_, (Dict.get?_insert _ _ _ _).trans (if_pos rfl), (advance_enters.2 hadv).1⟩

theorem register_cases (m : SignalFsmManager) (new : SignalFsmManager.NewSignal) :
    ((m.register new).1 = m ∧ m.signals.contains new.val.signalId = true) ∨
      (m.signals.get? new.val.signalId = none ∧ ∃ audit : TransitionAudit,
        audit.toState = new.val.fsmState ∧
        (m.register new).1 =
          m.record new.val.signalId (SignalFsmManager.initialLevels new.val) audit) := by
  rw [SignalFsmManager.register, Dict.contains]
  cases hget : m.signals.get? new.val.signalId with
  | some existing => exact .inl ⟨rfl, rfl⟩
  | none => exact .inr ⟨rfl, _, rfl, rfl⟩

theorem ratchetBreakeven_cases (m : SignalFsmManager) (id : SignalId) (marketPrice : ℚ) :
    (m.ratchetBreakeven id marketPrice).1 = m ∨
      ∃ (sig : SignalInstance) (newSl : ℚ) (audit : TransitionAudit),
        m.signals.get? id = some sig ∧ sig.breakevenActivated = false ∧
        SignalFsmManager.ratchetStop sig marketPrice = some newSl ∧
        audit.fromState = sig.fsmState ∧ audit.toState = sig.fsmState ∧
        (m.ratchetBreakeven id marketPrice).1 =
          m.record id { sig with currentStopLoss := some newSl, breakevenActivated := true } audit := by
  rw [SignalFsmManager.ratchetBreakeven]
  split
  · exact .inl rfl
  · rename_i sig hsig
    split
    · exact .inl rfl
    · rename_i hidle
      split
      · exact .inl rfl
      · rename_i newSl hnew
        have hfresh : sig.breakevenActivated = false := by
          rw [← Bool.not_eq_true]
          exact fun hact => hidle (.inl hact)
        exact .inr ⟨sig, newSl, _, hsig, hfresh, hnew, rfl, rfl, rfl⟩

theorem delete_cases (env : Surroundings) (m : SignalFsmManager) (id : SignalId) :
    (m.signals.get? id = none ∧ m.delete env id = (m, false)) ∨
      ∃ (sig : SignalInstance) (audit : TransitionAudit), m.signals.get? id = some sig ∧
        audit.fromState = sig.fsmState ∧ audit.toState = .closed ∧ audit.tombstone = true ∧
        m.delete env id = (m.record id
          (if sig.fsmState ≠ .closed ∧
              (.closed ∈ allowedTransitions sig.fsmState ∨ sig.fsmState ∈ terminalStates) then
            sig.enter env.now .closed
          else sig) audit, true) := by
  rw [SignalFsmManager.delete]
  cases hget : m.signals.get? id with
  | none => exact .inl ⟨rfl, rfl⟩
  | some sig => exact .inr ⟨sig, _, rfl, rfl, rfl, rfl, rfl⟩

/-- Same state, version, outcome and history. -/
def SameBooks (sig sig' : SignalInstance) : Prop :=
  sig'.fsmState = sig.fsmState ∧ sig'.version = sig.version ∧
    sig'.exitPrice = sig.exitPrice ∧ sig'.outcomeStatus = sig.outcomeStatus ∧
    sig'.terminalOutcome = sig.terminalOutcome ∧ sig'.realizedRr = sig.realizedRr ∧
    sig'.realizedRrGross = sig.realizedRrGross ∧ sig'.realizedRrNet = sig.realizedRrNet ∧
    sig'.costBreakdownR = sig.costBreakdownR ∧ sig'.t1Hit = sig.t1Hit ∧ sig'.t2Hit = sig.t2Hit ∧
    sig'.stateHistory = sig.stateHistory

theorem SameBooks.refl (sig : SignalInstance) : SameBooks sig sig :=
  ⟨rfl, rfl, rfl, rfl, rfl, rfl, rfl, rfl, rfl, rfl, rfl, rfl⟩

/-- Success with the new state, one more version and one more entry in both logs. -/
structure Completed (m m' : SignalFsmManager) (id : SignalId) (target : SignalFsmState) : Prop where
  books : ∃ sig sig' audit, m.signals.get? id = some sig ∧ m'.signals.get? id = some sig' ∧
    sig'.fsmState = target ∧ sig'.version = sig.version + 1 ∧
    sig'.stateHistory = sig.stateHistory ++ [audit] ∧ m'.auditLog = m.auditLog ++ [audit]

structure Untouched (m m' : SignalFsmManager) (id : SignalId) : Prop where
  signal : ∀ sig, m.signals.get? id = some sig →
    ∃ sig', m'.signals.get? id = some sig' ∧ SameBooks sig sig'
  log : m'.auditLog = m.auditLog

/-- A transition is atomic when it completes with success or touches nothing. -/
def Atomic (m : SignalFsmManager) (id : SignalId) (target : SignalFsmState)
    (res : SignalFsmManager × SignalFsmManager.TransitionResult) : Prop :=
  (res.2 = .ok ∧ Completed m res.1 id target) ∨ Untouched m res.1 id

/-- A transition is atomic exactly when it is no expiry, allowed from the signal's
state and version, of a contract that can be settled. -/
theorem transition_atomic_iff (env : Surroundings) (m : SignalFsmManager) (id : SignalId)
    (target : SignalFsmState) (marketPrice : Option ℚ) (reason : String)
    (expectedVersion : Option Int) :
    Atomic m id target (m.transition env id target marketPrice reason expectedVersion) ↔
      ∀ sig, m.signals.get? id = some sig → sig.fsmState ≠ target →
        ¬ RaisesOnExpiry sig target marketPrice expectedVersion := by
  generalize hres : m.transition env id target marketPrice reason expectedVersion = res
  rcases transition_cases env m id target marketPrice reason expectedVersion hres with
    ⟨hm, hn⟩ | ⟨sig, sig', hsig, hne, -, hs, hv, hh, hcase⟩
  · refine iff_of_true (.inr ?_) hn
    rw [hm]
    exact ⟨fun sig h => ⟨sig, h, SameBooks.refl sig⟩, rfl⟩
  · rcases hcase with ⟨hn, hok, hsignals, hlog⟩ | ⟨hraises, hraised, hsignals⟩
    · have hget : res.1.signals.get? id =
          some (sig'.note (transitionAudit sig id target marketPrice reason)) := by
        rw [hsignals, Dict.get?_insert, if_pos rfl]
      refine iff_of_true (.inl ⟨hok, sig, _, _, hsig, hget, hs, hv, ?_, hlog⟩) fun sig'' h _ => ?_
      · exact congrArg (· ++ [_]) hh
      · cases hsig.symm.trans h
        exact hn
    · refine iff_of_false ?_ fun h => h sig hsig hne hraises
      rintro (⟨hok, -⟩ | ⟨hsignal, -⟩)
      · cases hraised.symm.trans hok
      · obtain ⟨sig'', hget, hstate, -⟩ := hsignal sig hsig
        rw [hsignals, Dict.get?_insert, if_pos rfl, Option.some.injEq] at hget
        subst hget
        exact hne (hstate.symm.trans hs)

def armedCall : SignalInstance :=
  { signalId := "s", underlying := "NIFTY", direction := .longCall, spotPrice := 23850
    entryMin := 23840, entryMax := 23860, trigger := 23850, stopLoss := 23800
    target1 := 23900, target2 := 23950, riskRewardT1 := 1, riskRewardT2 := 2
    optionContract := some { strike := some 23800, optionType := some "CE" }
    fsmState := .armed, createdAtUtc := 0, expiresAtUtc := 300000, lastUpdatedUtc := 0
    stateHistory := [{ signalId := "s", fromState := .detected, toState := .armed }] }

/-- Its expiry raises after the state has moved. -/
theorem expiry_half_done :
    ¬ Atomic { signals := Dict.empty.insert "s" armedCall } "s" .expired
      (SignalFsmManager.transition { now := 300001 } { signals := Dict.empty.insert "s" armedCall } "s" .expired
        none "TTL_EXCEEDED" none) := by
  have hmoved : ((SignalFsmManager.transition { now := 300001 }
      { signals := Dict.empty.insert "s" armedCall } "s" .expired
        none "TTL_EXCEEDED" none).1.signals.get? "s").map (·.fsmState) = some .expired ∧
      (SignalFsmManager.transition { now := 300001 } { signals := Dict.empty.insert "s" armedCall } "s"
        .expired none "TTL_EXCEEDED" none).2 = .raised := by decide +kernel
  rintro (⟨hok, -⟩ | ⟨hsignal, -⟩)
  · rw [hmoved.2] at hok
    cases hok
  · obtain ⟨sig', hget, hstate, -⟩ := hsignal armedCall rfl
    rw [hget] at hmoved
    exact absurd (hstate.symm.trans (Option.some.inj hmoved.1)) (by decide)

end Droid.Signals
