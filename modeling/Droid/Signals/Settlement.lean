import Droid.Signals.Sweeps

/-! The settlement intents of the manager: which holdings that end get one, and how much the
intents of one signal come to, along any run. -/
namespace Droid.Signals
open Lib SignalFsmManager

/-! ### What a step does to one signal and its intents -/

/-- The intents of one signal, oldest first. -/
def SignalFsmManager.intents (m : SignalFsmManager) (id : SignalId) : List SettlementIntent :=
  m.settlements.filter fun intent => intent.key.signalId = id

/-- The key of the intent for the next step of the signal. -/
def nextKey (id : SignalId) (sig : SignalInstance) (target : SignalFsmState) : SettlementKey :=
  settlementKey id { sig with version := sig.version + 1 } target

/-- The step does not raise, and the key of its intent is free. -/
def Enqueues (intents : List SettlementIntent) (id : SignalId) (sig : SignalInstance)
    (target : SignalFsmState) (marketPrice : Option ℚ) : Prop :=
  ¬ (target = .expired ∧ Settleable sig marketPrice) ∧
    ∀ intent ∈ intents, intent.key ≠ nextKey id sig target

/-- The signal keeps what it holds, enters a terminal state just when `enters` says so, and then
has one more intent, of what it holds, just when `emits` does. -/
structure SignalTurn (enters emits : Prop) (sig sig' : SignalInstance)
    (intents intents' : List SettlementIntent) : Prop where
  qty : sig'.remainingQty = sig.remainingQty
  entered : sig'.fsmState ≠ sig.fsmState ∧ sig'.fsmState ∈ terminalStates ↔ enters
  emitted : enters → emits → ∃ key, intents' = intents ++ [⟨key, truncate sig.remainingQty⟩]
  silent : ¬ (enters ∧ emits) → intents' = intents

theorem SignalTurn.congr {enters enters' emits : Prop} (h : enters ↔ enters') {sig sig' : SignalInstance}
    {intents intents' : List SettlementIntent} (hturn : SignalTurn enters emits sig sig' intents intents') :
    SignalTurn enters' emits sig sig' intents intents' :=
  ⟨hturn.qty, hturn.entered.trans h, fun he => hturn.emitted (h.mpr he),
    fun hn => hturn.silent fun he => hn ⟨h.mp he.1, he.2⟩⟩

/-- A call that leaves state, holding and intents alone. -/
theorem SignalTurn.aside {enters emits : Prop} (h : ¬ enters) {sig sig' : SignalInstance}
    {intents intents' : List SettlementIntent} (hstate : sig'.fsmState = sig.fsmState)
    (hqty : sig'.remainingQty = sig.remainingQty) (hintents : intents' = intents) :
    SignalTurn enters emits sig sig' intents intents' :=
  ⟨hqty, iff_of_false (fun he => he.1 hstate) h, fun he => absurd he h, fun _ => hintents⟩

theorem key_free_iff (m : SignalFsmManager) {id : SignalId} {key : SettlementKey} (h : key.signalId = id) :
    (∀ intent ∈ m.settlements, intent.key ≠ key) ↔ ∀ intent ∈ m.intents id, intent.key ≠ key := by
  constructor
  · exact fun hfree intent hi => hfree intent (List.mem_of_mem_filter hi)
  · rintro hfree intent hi rfl
    exact hfree intent (List.mem_filter.mpr ⟨hi, decide_eq_true h⟩) rfl

theorem enqueueSettlement_intents (m : SignalFsmManager) (id : SignalId) (sig : SignalInstance)
    (target : SignalFsmState) (x : SignalId) :
    (m.enqueueSettlement id sig target).intents x =
      if x = id ∧ target ∈ terminalStates ∧ ∀ intent ∈ m.intents id, intent.key ≠ settlementKey id sig target
      then m.intents x ++ [{ key := settlementKey id sig target, intendedQuantity := truncate sig.remainingQty }]
      else m.intents x := by
  have hfree : _ ↔ ∀ intent ∈ m.intents id, intent.key ≠ settlementKey id sig target :=
    key_free_iff m rfl
  unfold SignalFsmManager.enqueueSettlement
  by_cases htake : target ∈ terminalStates ∧ ∀ intent ∈ m.settlements, intent.key ≠ settlementKey id sig target
  · rw [if_pos htake]
    unfold SignalFsmManager.intents
    by_cases hx : x = id
    · subst hx
      rw [if_pos ⟨rfl, htake.1, hfree.mp htake.2⟩, List.filter_append]
      simp [settlementKey]
    · rw [if_neg fun h => hx h.1, List.filter_append]
      simp [settlementKey, Ne.symm hx]
  · rw [if_neg htake, if_neg fun h => htake ⟨h.2.1, hfree.mpr h.2.2⟩]

private theorem startRunner_holding (sig : SignalInstance) (now : Int) :
    ((sig.startRunner now).remainingQty, (sig.startRunner now).positionId) =
      (sig.remainingQty, sig.positionId) := by
  obtain ⟨_, _, _, _, hrun⟩ := startRunner_writes sig now
  rw [hrun]

theorem advance_holding {env : Surroundings} {sig sig' : SignalInstance} {target : SignalFsmState}
    {marketPrice : Option ℚ} (h : advance env sig target marketPrice = .moved sig' ∨
      advance env sig target marketPrice = .raised sig') :
    sig'.remainingQty = sig.remainingQty ∧ sig'.positionId = sig.positionId := by
  have hview := advance_keeps (fun sig => (sig.remainingQty, sig.positionId)) (fun sig f sig' hs => ?_)
    (fun _ _ => rfl) (fun _ _ => rfl) startRunner_holding h
  · exact Prod.mk.inj hview
  · cases f <;> cases hs <;> rfl

theorem transition_turn (env : Surroundings) (m : SignalFsmManager) {id : SignalId}
    (target : SignalFsmState) (marketPrice : Option ℚ) (reason : String)
    (expectedVersion : Option Int) {sig : SignalInstance} (hsig : m.signals.get? id = some sig) :
    ∃ sig', (m.transition env id target marketPrice reason expectedVersion).1.signals.get? id = some sig' ∧
      SignalTurn (Admits sig target expectedVersion ∧ target ∈ terminalStates)
        (Enqueues (m.intents id) id sig target marketPrice) sig sig' (m.intents id)
        ((m.transition env id target marketPrice reason expectedVersion).1.intents id) := by
  have hentered : Admits sig target expectedVersion → ∀ sig' : SignalInstance, sig'.fsmState = target →
      (sig'.fsmState ≠ sig.fsmState ∧ sig'.fsmState ∈ terminalStates ↔
        Admits sig target expectedVersion ∧ target ∈ terminalStates) := by
    rintro ha sig' rfl
    exact ⟨fun h => ⟨ha, h.2⟩, fun h => ⟨ha.ne.symm, h.2⟩⟩
  rcases transition_advances env m target marketPrice reason expectedVersion hsig with
    ⟨hn, hm⟩ | ⟨ha, moved, ⟨hadv, hres⟩ | ⟨hadv, hres⟩⟩
  · rw [hm]
    exact ⟨sig, hsig, .aside (fun h => hn h.1) rfl rfl rfl⟩
  · obtain ⟨hqty, hpos⟩ := advance_holding (.inl hadv)
    obtain ⟨hstate, hversion, hended⟩ := advance_enters.1 hadv
    have hkey : settlementKey id moved target = nextKey id sig target := by
      rw [nextKey, settlementKey]
      rw [hversion, hpos]
      rfl
    have hintents := enqueueSettlement_intents
      (m.record id moved (transitionAudit sig id target marketPrice reason)) id moved target id
    rw [hkey, hqty] at hintents
    rw [hres, (enqueueSettlement_frame _ _ _ _).1]
    refine ⟨_, (Dict.get?_insert _ _ _ _).trans (if_pos rfl), hqty, hentered ha _ hstate,
      fun he hemits => ?_, fun hn => ?_⟩
    · exact ⟨_, hintents.trans (if_pos ⟨rfl, he.2, hemits.2⟩)⟩
    · exact hintents.trans (if_neg fun h => hn ⟨⟨ha, h.2.1⟩, hended, h.2.2⟩)
  · obtain ⟨hqty, -⟩ := advance_holding (.inr hadv)
    obtain ⟨hstate, -, hended⟩ := advance_enters.2 hadv
    rw [hres]
    exact ⟨moved, (Dict.get?_insert _ _ _ _).trans (if_pos rfl), hqty, hentered ha _ hstate,
      fun _ h => absurd hended h.1, fun _ => rfl⟩

theorem transition_apart (env : Surroundings) (m : SignalFsmManager) (id : SignalId)
    (target : SignalFsmState) (marketPrice : Option ℚ) (reason : String)
    (expectedVersion : Option Int) {x : SignalId} (hx : x ≠ id) :
    (m.transition env id target marketPrice reason expectedVersion).1.intents x = m.intents x := by
  cases hsig : m.signals.get? id with
  | none => rw [transition_absent env m target marketPrice reason expectedVersion hsig]
  | some sig =>
    rcases transition_advances env m target marketPrice reason expectedVersion hsig with
      ⟨-, hm⟩ | ⟨-, moved, ⟨-, hres⟩ | ⟨-, hres⟩⟩
    · rw [hm]
    · rw [hres, enqueueSettlement_intents, if_neg fun h => hx h.1]
      rfl
    · rw [hres]
      rfl

def SweepTurn (env : Surroundings) (now : Int) (id : SignalId) (sig sig' : SignalInstance)
    (intents intents' : List SettlementIntent) : Prop :=
  SignalTurn (¬ Spared env now sig) (∃ target reason, sweepTarget env now sig = some (target, reason) ∧
    Enqueues intents id sig target none) sig sig' intents intents'

private theorem sweepOne_turn (env : Surroundings) (now : Int) (acc : SignalFsmManager × SweepCounts)
    (id : SignalId) : ∀ sig, acc.1.signals.get? id = some sig →
      ∃ sig', (sweepOne env now acc id).1.signals.get? id = some sig' ∧
        SweepTurn env now id sig sig' (acc.1.intents id) ((sweepOne env now acc id).1.intents id) := by
  intro sig hsig
  rcases sweepOne_eq env now acc id with ⟨sig₀, target, reason, hsig₀, htarget, heq⟩ | ⟨heq, hnone⟩
  · cases hsig.symm.trans hsig₀
    obtain ⟨hadmits, hends⟩ := sweepTarget_edge htarget
    obtain ⟨sig', hsig', hturn⟩ := transition_turn env acc.1 target none reason none hsig
    have hdue : ¬ Spared env now sig := fun hspared => by
      cases htarget.symm.trans ((sweepTarget_none_iff env now sig).mpr hspared)
    have hemits : (∃ target reason, sweepTarget env now sig = some (target, reason) ∧
        Enqueues (acc.1.intents id) id sig target none) ↔ Enqueues (acc.1.intents id) id sig target none := by
      constructor
      · rintro ⟨target', reason', htarget', h⟩
        cases htarget.symm.trans htarget'
        exact h
      · exact fun h => ⟨target, reason, htarget, h⟩
    rw [heq]
    refine ⟨sig', hsig', hturn.qty, hturn.entered.trans (iff_of_true ⟨hadmits, hends⟩ hdue),
      fun _ h => hturn.emitted ⟨hadmits, hends⟩ (hemits.mp h), fun hn => hturn.silent fun h => hn ?_⟩
    exact ⟨hdue, hemits.mpr h.2⟩
  · rw [heq]
    exact ⟨sig, hsig, .aside (not_not.mpr ((sweepTarget_none_iff env now sig).mp (hnone sig hsig))) rfl rfl rfl⟩

private theorem sweepOne_apart (env : Surroundings) (now : Int) (acc : SignalFsmManager × SweepCounts)
    (id : SignalId) {x : SignalId} (hx : x ≠ id) :
    (sweepOne env now acc id).1.intents x = acc.1.intents x := by
  rcases sweepOne_eq env now acc id with ⟨_, target, reason, -, -, heq⟩ | ⟨heq, -⟩
  · rw [heq, transition_apart env acc.1 id target none reason none hx]
  · rw [heq]

theorem sweepLoop_turn (env : Surroundings) (m : SignalFsmManager) (nowMs : Option Int)
    {id : SignalId} {sig : SignalInstance} (hsig : m.signals.get? id = some sig) :
    ∃ sig', (m.sweepLoop env nowMs).1.signals.get? id = some sig' ∧
      SweepTurn env (nowMs.getD env.now) id sig sig' (m.intents id)
        ((m.sweepLoop env nowMs).1.intents id) := by
  obtain ⟨hturns, -⟩ := foldl_own
    (fun (acc : SignalFsmManager × SweepCounts) id => (acc.1.signals.get? id, acc.1.intents id))
    (R := fun id o o' => ∀ sig, o.1 = some sig → ∃ sig', o'.1 = some sig' ∧
      SweepTurn env (nowMs.getD env.now) id sig sig' o.2 o'.2)
    (fun acc id x hx => Prod.ext (sweepOne_other env (nowMs.getD env.now) acc id hx)
      (sweepOne_apart env (nowMs.getD env.now) acc id hx))
    (sweepOne_turn env (nowMs.getD env.now)) (m, { }) m.signals.nodup
  exact hturns id (List.mem_map_of_mem (Dict.mem_entries_of_get? hsig)) sig hsig

def Closes (sig : SignalInstance) : Prop :=
  sig.fsmState ≠ .closed ∧ (.closed ∈ allowedTransitions sig.fsmState ∨ sig.fsmState ∈ terminalStates)

theorem delete_turn (env : Surroundings) (m : SignalFsmManager) {id : SignalId} {sig : SignalInstance}
    (hsig : m.signals.get? id = some sig) :
    ∃ sig', (m.delete env id).1.signals.get? id = some sig' ∧
      SignalTurn (Closes sig) False sig sig' (m.intents id) ((m.delete env id).1.intents id) := by
  unfold SignalFsmManager.delete
  simp only [hsig]
  by_cases hcloses : Closes sig
  · unfold Closes at hcloses
    simp only [if_pos hcloses]
    refine ⟨_, (Dict.get?_insert _ _ _ _).trans (if_pos rfl), rfl, iff_of_true ⟨?_, ?_⟩ hcloses,
      fun _ h => h.elim, fun _ => rfl⟩
    · exact hcloses.1.symm
    · show SignalFsmState.closed ∈ terminalStates
      decide
  · unfold Closes at hcloses
    simp only [if_neg hcloses]
    exact ⟨_, (Dict.get?_insert _ _ _ _).trans (if_pos rfl), rfl, iff_of_false (fun h => h.1 rfl) hcloses,
      fun h => absurd h hcloses, fun _ => rfl⟩

theorem delete_apart (env : Surroundings) (m : SignalFsmManager) (id : SignalId) {x : SignalId}
    (hx : x ≠ id) : (m.delete env id).1.signals.get? x = m.signals.get? x ∧
      (m.delete env id).1.intents x = m.intents x := by
  rcases delete_cases env m id with ⟨-, hsame⟩ | ⟨sig, audit, -, -, -, -, hrecord⟩
  · rw [hsame]
    exact ⟨rfl, rfl⟩
  · rw [hrecord]
    exact ⟨(Dict.get?_insert _ _ _ _).trans (if_neg hx), rfl⟩

/-- The ratchet moves stops only. -/
theorem ratchetBreakeven_aside (m : SignalFsmManager) (id : SignalId) (marketPrice : ℚ) {x : SignalId}
    {sig : SignalInstance} (hx : m.signals.get? x = some sig) :
    ∃ sig', (m.ratchetBreakeven id marketPrice).1.signals.get? x = some sig' ∧
      sig'.fsmState = sig.fsmState ∧ sig'.remainingQty = sig.remainingQty ∧
      (m.ratchetBreakeven id marketPrice).1.intents x = m.intents x := by
  rcases ratchetBreakeven_cases m id marketPrice with
    hsame | ⟨sig₀, newSl, audit, hsig₀, -, -, -, -, hrecord⟩
  · rw [hsame]
    exact ⟨sig, hx, rfl, rfl, rfl⟩
  · rw [hrecord]
    by_cases hxi : x = id
    · subst hxi
      cases hsig₀.symm.trans hx
      exact ⟨_, (Dict.get?_insert _ _ _ _).trans (if_pos rfl), rfl, rfl, rfl⟩
    · exact ⟨sig, (Dict.get?_insert _ _ _ _).trans ((if_neg hxi).trans hx), rfl, rfl, rfl⟩

/-! ### Runs -/

/-- The manager, and for each signal how many intents its id had when it was registered. -/
structure Outbox where
  book : Book := { }
  since : SignalId → Nat := fun _ => 0

namespace Outbox

def fsm (b : Outbox) : SignalFsmManager := b.book.fsm

def step (b : Outbox) (call : FsmCall) : Outbox where
  book := b.book.step call
  since :=
    match call with
    | .register new =>
      if b.fsm.signals.contains new.val.signalId then b.since
      else Function.update b.since new.val.signalId (b.fsm.intents new.val.signalId).length
    | _ => b.since

/-- The quantities of the intents of a signal since it was registered. -/
def emitted (b : Outbox) (id : SignalId) : List Int :=
  ((b.fsm.intents id).drop (b.since id)).map (·.intendedQuantity)

/-- What a call does before the sweep prunes. -/
def unpruned (b : Outbox) : FsmCall → SignalFsmManager
  | .sweepExpired env nowMs => (b.fsm.sweepLoop env nowMs).1
  | call => (b.step call).fsm

/-- The signals a call enters into a terminal state have an intent of all they hold, and the
intents of no signal come to more than it holds. -/
structure Settles (b : Outbox) (call : FsmCall) : Prop where
  covered : ∀ id sig sig', b.fsm.signals.get? id = some sig →
    (b.unpruned call).signals.get? id = some sig' → sig'.fsmState ≠ sig.fsmState →
    sig'.fsmState ∈ terminalStates → 0 < sig'.remainingQty →
    ∃ quantity ∈ (b.step call).emitted id, (quantity : ℚ) = sig'.remainingQty
  bounded : ∀ id sig', (b.unpruned call).signals.get? id = some sig' →
    (((b.step call).emitted id).sum : ℚ) ≤ max 0 sig'.remainingQty

def Enters (sig : SignalInstance) (id : SignalId) : FsmCall → Prop
  | .transition _ x target _ _ expectedVersion =>
    id = x ∧ Admits sig target expectedVersion ∧ target ∈ terminalStates
  | .sweepExpired env nowMs => ¬ Spared env (nowMs.getD env.now) sig
  | .delete _ x => id = x ∧ Closes sig
  | _ => False

def Emits (b : Outbox) (sig : SignalInstance) (id : SignalId) : FsmCall → Prop
  | .transition _ _ target marketPrice _ _ => Enqueues (b.fsm.intents id) id sig target marketPrice
  | .sweepExpired env nowMs => ∃ target reason,
      sweepTarget env (nowMs.getD env.now) sig = some (target, reason) ∧
        Enqueues (b.fsm.intents id) id sig target none
  | _ => False

/-- A holding that ends is a whole quantity, and gets an intent just when it has none. -/
def Sound (b : Outbox) (call : FsmCall) : Prop :=
  ∀ id sig, b.fsm.signals.get? id = some sig → Enters sig id call → 0 < sig.remainingQty →
    (truncate sig.remainingQty : ℚ) = sig.remainingQty ∧ (b.Emits sig id call ↔ b.emitted id = [])

theorem step_turn (b : Outbox) (call : FsmCall) {id : SignalId} {sig : SignalInstance}
    (hsig : b.fsm.signals.get? id = some sig) :
    ∃ sig', (b.unpruned call).signals.get? id = some sig' ∧
      SignalTurn (Enters sig id call) (b.Emits sig id call) sig sig' (b.fsm.intents id)
        ((b.step call).fsm.intents id) := by
  cases call with
  | register new =>
    rcases register_cases b.fsm new with ⟨hsame, -⟩ | ⟨hnew, audit, -, hrecord⟩
    · have hfsm : (b.step (.register new)).fsm = b.fsm := hsame
      change ∃ sig', (b.step (.register new)).fsm.signals.get? id = some sig' ∧ _
      rw [hfsm]
      exact ⟨sig, hsig, .aside not_false rfl rfl rfl⟩
    · have hne : id ≠ new.val.signalId := by
        rintro rfl
        cases hnew.symm.trans hsig
      have hfsm : (b.step (.register new)).fsm = b.fsm.record new.val.signalId (initialLevels new.val) audit :=
        hrecord
      change ∃ sig', (b.step (.register new)).fsm.signals.get? id = some sig' ∧ _
      rw [hfsm]
      exact ⟨sig, (Dict.get?_insert _ _ _ _).trans ((if_neg hne).trans hsig), .aside not_false rfl rfl rfl⟩
  | transition env x target marketPrice reason expectedVersion =>
    by_cases hx : id = x
    · subst hx
      obtain ⟨sig', hsig', hturn⟩ :=
        transition_turn env b.fsm target marketPrice reason expectedVersion hsig
      exact ⟨sig', hsig', hturn.congr ⟨fun h => ⟨rfl, h⟩, And.right⟩⟩
    · refine ⟨sig, ?_, .aside (fun h => hx h.1) rfl rfl ?_⟩
      · exact (transition_other env b.fsm x target marketPrice reason expectedVersion hx).trans hsig
      · exact transition_apart env b.fsm x target marketPrice reason expectedVersion hx
  | ratchetBreakeven x marketPrice =>
    obtain ⟨sig', hsig', hstate, hqty, hintents⟩ := ratchetBreakeven_aside b.fsm x marketPrice hsig
    exact ⟨sig', hsig', .aside not_false hstate hqty hintents⟩
  | sweepExpired env nowMs => exact sweepLoop_turn env b.fsm nowMs hsig
  | delete env x =>
    by_cases hx : id = x
    · subst hx
      obtain ⟨sig', hsig', hturn⟩ := delete_turn env b.fsm hsig
      exact ⟨sig', hsig', hturn.congr ⟨fun h => ⟨rfl, h⟩, And.right⟩⟩
    · obtain ⟨hstays, hintents⟩ := delete_apart env b.fsm x hx
      exact ⟨sig, hstays.trans hsig, .aside (fun h => hx h.1) rfl rfl hintents⟩

/-- What the runs keep: the marks lie within the intents, each intent is of what its signal holds,
and together they do not exceed it. -/
structure Kept (b : Outbox) : Prop where
  since : ∀ id sig, b.fsm.signals.get? id = some sig → b.since id ≤ (b.fsm.intents id).length
  qty : ∀ id sig, b.fsm.signals.get? id = some sig → ∀ quantity ∈ b.emitted id,
    quantity = truncate sig.remainingQty
  bounded : ∀ id sig, b.fsm.signals.get? id = some sig →
    ((b.emitted id).sum : ℚ) ≤ max 0 sig.remainingQty

/-- Only the registration of a new signal sets its mark. -/
theorem step_since (b : Outbox) (call : FsmCall) {id : SignalId} {sig : SignalInstance}
    (hsig : b.fsm.signals.get? id = some sig) : (b.step call).since id = b.since id := by
  cases call with
  | register new =>
    simp only [step]
    split
    · rfl
    · rename_i hnew
      refine Function.update_of_ne ?_ _ _
      rintro rfl
      exact hnew (Option.isSome_iff_exists.mpr ⟨sig, hsig⟩)
  | transition env x target marketPrice reason expectedVersion => rfl
  | ratchetBreakeven x marketPrice => rfl
  | sweepExpired env nowMs => rfl
  | delete env x => rfl

theorem step_emitted {b : Outbox} (h : b.Kept) (call : FsmCall) {id : SignalId} {sig sig' : SignalInstance}
    (hsig : b.fsm.signals.get? id = some sig)
    (hturn : SignalTurn (Enters sig id call) (b.Emits sig id call) sig sig' (b.fsm.intents id)
      ((b.step call).fsm.intents id)) :
    (Enters sig id call ∧ b.Emits sig id call ∧
        (b.step call).emitted id = b.emitted id ++ [truncate sig.remainingQty]) ∨
      (¬ (Enters sig id call ∧ b.Emits sig id call) ∧ (b.step call).emitted id = b.emitted id) := by
  rw [emitted]
  rw [step_since b call hsig]
  by_cases hemits : Enters sig id call ∧ b.Emits sig id call
  · obtain ⟨key, hintents⟩ := hturn.emitted hemits.1 hemits.2
    rw [hintents, List.drop_append_of_le_length (h.since id sig hsig), List.map_append]
    exact .inl ⟨hemits.1, hemits.2, rfl⟩
  · rw [hturn.silent hemits]
    exact .inr ⟨hemits, rfl⟩

theorem step_fresh (b : Outbox) (call : FsmCall) {id : SignalId} {sig' : SignalInstance}
    (hnone : b.fsm.signals.get? id = none) (hsig' : (b.unpruned call).signals.get? id = some sig') :
    (b.step call).since id = ((b.step call).fsm.intents id).length := by
  cases call with
  | register new =>
    rcases register_cases b.fsm new with ⟨hsame, -⟩ | ⟨hnew, audit, -, hrecord⟩
    · have hold : (b.fsm.register new).1.signals.get? id = some sig' := hsig'
      rw [hsame] at hold
      cases hnone.symm.trans hold
    · have hfsm : (b.step (.register new)).fsm = b.fsm.record new.val.signalId (initialLevels new.val) audit :=
        hrecord
      have hid : id = new.val.signalId := by
        by_contra hne
        change (b.step (.register new)).fsm.signals.get? id = some sig' at hsig'
        rw [hfsm] at hsig'
        cases hnone.symm.trans (((Dict.get?_insert _ _ _ _).trans (if_neg hne)).symm.trans hsig')
      subst hid
      have hcontains : b.fsm.signals.contains new.val.signalId = false := by
        rw [Dict.contains, hnew]
        rfl
      rw [hfsm]
      simp only [step, hcontains]
      exact Function.update_self _ _ _
  | transition env x target marketPrice reason expectedVersion =>
    have hmoves := transition_moves env b.fsm x target marketPrice reason expectedVersion
    cases (hmoves.absent id hnone).symm.trans hsig'
  | ratchetBreakeven x marketPrice =>
    cases ((ratchetBreakeven_moves b.fsm x marketPrice).absent id hnone).symm.trans hsig'
  | sweepExpired env nowMs =>
    cases ((sweepLoop_moves env b.fsm nowMs).absent id hnone).symm.trans hsig'
  | delete env x => cases ((delete_moves env b.fsm x).absent id hnone).symm.trans hsig'

theorem emitted_fresh {b : Outbox} {id : SignalId} (h : b.since id = (b.fsm.intents id).length) :
    b.emitted id = [] := by
  rw [emitted]
  rw [h, List.drop_length]
  rfl

theorem Kept.sum {b : Outbox} (h : b.Kept) {id : SignalId} {sig : SignalInstance}
    (hsig : b.fsm.signals.get? id = some sig) :
    (b.emitted id).sum = (b.emitted id).length * truncate sig.remainingQty := by
  rw [List.sum_eq_card_nsmul _ _ (h.qty id sig hsig), nsmul_eq_mul]

theorem truncate_nonpos {x : ℚ} (h : x ≤ 0) : truncate x ≤ 0 := by
  rw [truncate]
  split
  · rename_i hx
    rw [le_antisymm h hx, Int.floor_zero]
  · exact Int.ceil_le.mpr (by simpa using h)

/-- A call of a sound kind settles, and only such a call. -/
theorem step_settles_iff {b : Outbox} (h : b.Kept) (call : FsmCall) :
    b.Settles call ↔ b.Sound call := by
  constructor
  · intro hs id sig hsig henters hpos
    obtain ⟨sig', hsig', hturn⟩ := step_turn b call hsig
    obtain ⟨hne, hends⟩ := hturn.entered.mpr henters
    obtain ⟨quantity, hmem, hq⟩ := hs.covered id sig sig' hsig hsig' hne hends (hturn.qty ▸ hpos)
    rw [hturn.qty] at hq
    rcases step_emitted h call hsig hturn with ⟨-, hemits, hnew⟩ | ⟨hsilent, hold⟩
    · rw [hnew] at hmem
      have hwhole : (truncate sig.remainingQty : ℚ) = sig.remainingQty := by
        rcases List.mem_append.mp hmem with hmem | hmem
        · rw [← h.qty id sig hsig quantity hmem, hq]
        · rw [← List.mem_singleton.mp hmem, hq]
      refine ⟨hwhole, iff_of_true hemits ?_⟩
      -- a second intent would double the sum
      have hbound := hs.bounded id sig' hsig'
      rw [hnew, List.sum_append, h.sum hsig, List.sum_singleton, hturn.qty, max_eq_right hpos.le] at hbound
      push_cast at hbound
      rw [hwhole] at hbound
      by_contra hsome
      have hone : (1 : ℚ) ≤ (b.emitted id).length := by
        exact_mod_cast List.length_pos_iff.mpr hsome
      nlinarith
    · rw [hold] at hmem
      refine ⟨by rw [← h.qty id sig hsig quantity hmem, hq], iff_of_false ?_ ?_⟩
      · exact fun hemits => hsilent ⟨henters, hemits⟩
      · exact List.ne_nil_of_mem hmem
  · intro hs
    constructor
    · intro id sig sig' hsig hsig' hne hends hpos
      obtain ⟨sig'', hsig'', hturn⟩ := step_turn b call hsig
      cases hsig'.symm.trans hsig''
      rw [hturn.qty] at hpos ⊢
      have henters := hturn.entered.mp ⟨hne, hends⟩
      obtain ⟨hwhole, hiff⟩ := hs id sig hsig henters hpos
      rcases step_emitted h call hsig hturn with ⟨-, -, hnew⟩ | ⟨hsilent, hold⟩
      · exact ⟨_, by rw [hnew]; exact List.mem_append_right _ (List.mem_singleton_self _), hwhole⟩
      · have hsome : b.emitted id ≠ [] := fun hnil => hsilent ⟨henters, hiff.mpr hnil⟩
        obtain ⟨quantity, hmem⟩ := List.exists_mem_of_ne_nil _ hsome
        rw [hold]
        exact ⟨quantity, hmem, by rw [h.qty id sig hsig quantity hmem, hwhole]⟩
    · intro id sig' hsig'
      cases hsig : b.fsm.signals.get? id with
      | none =>
        rw [emitted_fresh (step_fresh b call hsig hsig')]
        simp
      | some sig =>
        obtain ⟨sig'', hsig'', hturn⟩ := step_turn b call hsig
        cases hsig'.symm.trans hsig''
        rw [hturn.qty]
        rcases step_emitted h call hsig hturn with ⟨henters, hemits, hnew⟩ | ⟨-, hold⟩
        · rw [hnew, List.sum_append, h.sum hsig, List.sum_singleton]
          rcases le_or_gt sig.remainingQty 0 with hneg | hpos
          · have hnonpos := truncate_nonpos hneg
            refine le_max_of_le_left ?_
            have hsum : (b.emitted id).length * truncate sig.remainingQty + truncate sig.remainingQty ≤ 0 := by
              nlinarith [Int.natCast_nonneg (b.emitted id).length]
            exact_mod_cast hsum
          · obtain ⟨hwhole, hiff⟩ := hs id sig hsig henters hpos
            rw [hiff.mp hemits]
            simp [hwhole]
        · rw [hold]
          exact h.bounded id sig hsig

/-- What is in the books after the call was there before the sweep pruned. -/
theorem unpruned_get? {b : Outbox} {call : FsmCall} {id : SignalId} {sig : SignalInstance}
    (h : (b.step call).fsm.signals.get? id = some sig) :
    (b.unpruned call).signals.get? id = some sig := by
  cases call with
  | sweepExpired env nowMs => exact sweepExpired_back h
  | register new => exact h
  | transition env x target marketPrice reason expectedVersion => exact h
  | ratchetBreakeven x marketPrice => exact h
  | delete env x => exact h

theorem step_kept {b : Outbox} (h : b.Kept) (call : FsmCall) (hs : b.Settles call) :
    (b.step call).Kept := by
  refine ⟨fun id sig' hget => ?_, fun id sig' hget => ?_, fun id sig' hget => ?_⟩
  · cases hsig : b.fsm.signals.get? id with
    | none => exact (step_fresh b call hsig (unpruned_get? hget)).le
    | some sig =>
      obtain ⟨sig'', -, hturn⟩ := step_turn b call hsig
      have hold := h.since id sig hsig
      rw [step_since b call hsig]
      by_cases hemits : Enters sig id call ∧ b.Emits sig id call
      · obtain ⟨key, hintents⟩ := hturn.emitted hemits.1 hemits.2
        rw [hintents, List.length_append]
        exact hold.trans (Nat.le_add_right _ _)
      · rw [hturn.silent hemits]
        exact hold
  · cases hsig : b.fsm.signals.get? id with
    | none =>
      rw [emitted_fresh (step_fresh b call hsig (unpruned_get? hget))]
      exact nofun
    | some sig =>
      obtain ⟨sig'', hsig'', hturn⟩ := step_turn b call hsig
      cases (unpruned_get? hget).symm.trans hsig''
      rw [hturn.qty]
      rcases step_emitted h call hsig hturn with ⟨-, -, hnew⟩ | ⟨-, hold⟩
      · rw [hnew]
        intro quantity hmem
        rcases List.mem_append.mp hmem with hmem | hmem
        · exact h.qty id sig hsig quantity hmem
        · exact List.mem_singleton.mp hmem
      · rw [hold]
        exact h.qty id sig hsig
  · exact hs.bounded id sig' (unpruned_get? hget)

theorem start_kept : Kept { } :=
  ⟨(fun _ _ h => nomatch h), (fun _ _ h => nomatch h), fun _ _ h => nomatch h⟩

/-- Along a run from the empty manager every call settles what it ends, once, exactly when every
call is of a sound kind. -/
theorem always_settles_iff (calls : List FsmCall) :
    Guarded step Settles { } calls ↔ Guarded step Sound { } calls :=
  guarded_congr (I := Kept) (fun _ call h hs => step_kept h call hs)
    (fun _ call h => step_settles_iff h call) start_kept calls

/-- A call held on 75 units. -/
def heldCall : NewSignal := ⟨{ armedCall with remainingQty := 75, stateHistory := [] }, rfl⟩

def stoppedOut : List FsmCall :=
  [.register heldCall, .transition { now := 1000 } "s" .triggered none "TRIGGER_LEVEL_HIT" none,
    .transition { now := 2000 } "s" .confirmed none "ENTRY_CONFIRMED" none,
    .transition { now := 3000 } "s" .stopLossHit none "STOP_LOSS_HIT_TRIGGERED" none]

/-- Closed after that, it is settled a second time. -/
theorem settled_twice :
    ¬ Guarded step Settles { } (stoppedOut ++ [.transition { now := 4000 } "s" .closed none "CLOSED" none]) := by
  rintro ⟨-, -, -, -, hclosed, -⟩
  have hheld : ((run step { } (stoppedOut ++
      [.transition { now := 4000 } "s" .closed none "CLOSED" none])).fsm.signals.get? "s").map
        (·.remainingQty) = some 75 := by decide +kernel
  have hsum : ((run step { } (stoppedOut ++
      [.transition { now := 4000 } "s" .closed none "CLOSED" none])).emitted "s").sum = 150 := by
    decide +kernel
  obtain ⟨sig, hsig, hqty⟩ := Option.map_eq_some_iff.mp hheld
  have hbound := hclosed.bounded "s" sig hsig
  rw [hqty] at hbound
  exact absurd (hbound.trans_eq' (congrArg Int.cast hsum).symm) (by decide +kernel)

end Outbox

end Droid.Signals
