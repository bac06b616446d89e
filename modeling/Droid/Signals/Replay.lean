import Droid.Signals.Atomicity
import Droid.Lib.Run
import Mathlib.Data.List.Chain

/-! The state history of every signal replays its state, along any run of the manager. -/
namespace Droid.Signals
open Lib SignalFsmManager

/-! ### Histories that replay -/

/-- A step that stays, follows an edge of the table, or is a delete. -/
def TransitionAudit.Lawful (a : TransitionAudit) : Prop :=
  a.fromState = a.toState ∨ a.toState ∈ allowedTransitions a.fromState ∨
    (a.tombstone = true ∧ a.toState = .closed)

/-- The history is a connected chain from the registration to the signal's state. -/
structure Replays (sig : SignalInstance) : Prop where
  registered : sig.stateHistory ≠ []
  connected : sig.stateHistory.IsChain fun a b => b.fromState = a.toState
  edges : ∀ a ∈ sig.stateHistory.tail, a.Lawful
  last : ∀ a ∈ sig.stateHistory.getLast?, a.toState = sig.fsmState
  proven : sig.stateHistory.IsChain fun a b =>
    b.toState = .confirmed → a.toState = .triggered ∨ a.toState = .confirmed

/-- Only TRIGGERED leads to CONFIRMED, and nothing leads out of CLOSED. -/
theorem TransitionAudit.Lawful.confirmed {a : TransitionAudit} (h : a.Lawful)
    (hc : a.toState = .confirmed) : a.fromState = .triggered ∨ a.fromState = .confirmed := by
  rcases h with h | h | ⟨-, h⟩
  · exact .inr (h.trans hc)
  · left
    rw [hc] at h
    revert h
    cases a.fromState <;> decide
  · cases hc.symm.trans h

theorem TransitionAudit.Lawful.closed {a : TransitionAudit} (h : a.Lawful)
    (hc : a.fromState = .closed) : a.toState = .closed := by
  rcases h with h | h | ⟨-, h⟩
  · exact h.symm.trans hc
  · rw [hc] at h
    cases h
  · exact h

/-! ### What a call does to one signal -/

/-- The signal is kept, or takes a lawful step and notes it. -/
def Turn (sig sig' : SignalInstance) : Prop :=
  sig' = sig ∨ ∃ (moved : SignalInstance) (audit : TransitionAudit),
    moved.stateHistory = sig.stateHistory ∧
    audit.fromState = sig.fsmState ∧ audit.toState = moved.fsmState ∧ audit.Lawful ∧
      sig' = moved.note audit

/-- State and history part: the state moves unnoted, or a step is noted that the
state does not take. -/
def Torn (sig sig' : SignalInstance) : Prop :=
  (sig'.stateHistory = sig.stateHistory ∧ sig'.fsmState ≠ sig.fsmState) ∨
    ∃ audit : TransitionAudit,
      sig'.stateHistory = sig.stateHistory ++ [audit] ∧ audit.toState ≠ sig'.fsmState

theorem Turn.noted {sig moved : SignalInstance} {audit : TransitionAudit}
    (hh : moved.stateHistory = sig.stateHistory) (hfrom : audit.fromState = sig.fsmState)
    (hto : audit.toState = moved.fsmState) (h : audit.Lawful) : Turn sig (moved.note audit) :=
  .inr ⟨moved, audit, hh, hfrom, hto, h, rfl⟩

theorem Torn.noted {sig : SignalInstance} {audit : TransitionAudit}
    (h : audit.toState ≠ sig.fsmState) : Torn sig (sig.note audit) :=
  .inr ⟨audit, rfl, h⟩

theorem Turn.replays {sig sig' : SignalInstance} (h : Turn sig sig') (hr : Replays sig) :
    Replays sig' := by
  rcases h with rfl | ⟨moved, audit, hh, hfrom, hto, hlawful, rfl⟩
  · exact hr
  · have hlast : ∀ a ∈ sig.stateHistory.getLast?, audit.fromState = a.toState :=
      fun a ha => hfrom.trans (hr.last a ha).symm
    have hnote : (moved.note audit).stateHistory = sig.stateHistory ++ [audit] :=
      congrArg (· ++ [audit]) hh
    constructor
    · simp [hnote]
    · rw [hnote]
      refine hr.connected.append (List.isChain_singleton _) fun a ha b hb => ?_
      cases Option.some.inj hb
      exact hlast a ha
    · rw [hnote, List.tail_append_of_ne_nil hr.registered]
      intro a ha
      rcases List.mem_append.mp ha with ha | ha
      · exact hr.edges a ha
      · rw [List.mem_singleton.mp ha]
        exact hlawful
    · rw [hnote, List.getLast?_concat]
      intro a ha
      cases Option.some.inj ha
      exact hto
    · rw [hnote]
      refine hr.proven.append (List.isChain_singleton _) fun a ha b hb hc => ?_
      cases Option.some.inj hb
      rw [← hlast a ha]
      exact hlawful.confirmed hc

theorem Replays.first (sig : SignalInstance) {audit : TransitionAudit} (hh : sig.stateHistory = [])
    (hto : audit.toState = sig.fsmState) : Replays (sig.note audit) := by
  have hnote : (sig.note audit).stateHistory = [audit] := congrArg (· ++ [audit]) hh
  constructor
  · simp [hnote]
  · rw [hnote]
    exact List.isChain_singleton _
  · simp [hnote]
  · rw [hnote]
    intro a ha
    cases Option.some.inj ha
    exact hto
  · rw [hnote]
    exact List.isChain_singleton _

theorem Turn.closed {sig sig' : SignalInstance} (h : Turn sig sig') (hc : sig.fsmState = .closed) :
    sig'.fsmState = .closed := by
  rcases h with rfl | ⟨moved, audit, -, hfrom, hto, hlawful, rfl⟩
  · exact hc
  · exact hto.symm.trans (hlawful.closed (hfrom.trans hc))

theorem Torn.not_replays {sig sig' : SignalInstance} (h : Torn sig sig') (hr : Replays sig) :
    ¬ Replays sig' := by
  intro hr'
  rcases h with ⟨hh, hne⟩ | ⟨audit, hh, hne⟩
  · have ha := List.getLast?_eq_some_getLast hr.registered
    have hstate := hr'.last _ ((congrArg List.getLast? hh).trans ha)
    exact hne (hstate.symm.trans (hr.last _ ha))
  · exact hne (hr'.last audit (by rw [hh, List.getLast?_concat]; rfl))

/-- From books m to books m' the ids in `bad` tear their signal and all others
give theirs a turn; no signal comes or goes. -/
structure Moves (bad : SignalId → SignalInstance → Prop) (m m' : Dict SignalId SignalInstance) :
    Prop where
  absent : ∀ x, m.get? x = none → m'.get? x = none
  present : ∀ x sig, m.get? x = some sig →
    ∃ sig', m'.get? x = some sig' ∧ ((bad x sig ∧ Torn sig sig') ∨ (¬ bad x sig ∧ Turn sig sig'))

variable {bad : SignalId → SignalInstance → Prop} {m m' : Dict SignalId SignalInstance}

theorem Moves.same (hbad : ∀ x sig, m.get? x = some sig → ¬ bad x sig) : Moves bad m m :=
  ⟨fun _ h => h, fun x sig h => ⟨sig, h, .inr ⟨hbad x sig h, .inl rfl⟩⟩⟩

theorem Moves.congr {bad' : SignalId → SignalInstance → Prop} (h : Moves bad m m')
    (hiff : ∀ x sig, m.get? x = some sig → (bad x sig ↔ bad' x sig)) : Moves bad' m m' := by
  refine ⟨h.absent, fun x sig hx => ?_⟩
  rw [← hiff x sig hx]
  exact h.present x sig hx

theorem Moves.insert {id : SignalId} {sig sig' : SignalInstance} (hsig : m.get? id = some sig)
    (hbad : ∀ x, x ≠ id → ∀ sig, ¬ bad x sig)
    (h : (bad id sig ∧ Torn sig sig') ∨ (¬ bad id sig ∧ Turn sig sig')) :
    Moves bad m (m.insert id sig') := by
  constructor
  · intro x hx
    have hne : x ≠ id := by
      rintro rfl
      cases hx.symm.trans hsig
    rw [Dict.get?_insert, if_neg hne, hx]
  · intro x sig₀ hx
    by_cases hxi : x = id
    · subst hxi
      cases hsig.symm.trans hx
      exact ⟨sig', by simp, h⟩
    · exact ⟨sig₀, by rw [Dict.get?_insert, if_neg hxi, hx], .inr ⟨hbad x hxi sig₀, .inl rfl⟩⟩

/-- All histories still replay exactly when no signal is bad. -/
theorem Moves.replays_iff (h : Moves bad m m')
    (hr : ∀ x sig, m.get? x = some sig → Replays sig) :
    (∀ x sig, m'.get? x = some sig → Replays sig) ↔
      ∀ x sig, m.get? x = some sig → ¬ bad x sig := by
  constructor
  · intro hr' x sig hx hb
    obtain ⟨sig', hx', ⟨-, ht⟩ | ⟨hn, -⟩⟩ := h.present x sig hx
    · exact ht.not_replays (hr x sig hx) (hr' x sig' hx')
    · exact hn hb
  · intro hgood x sig' hx'
    cases hx : m.get? x with
    | none => cases (h.absent x hx).symm.trans hx'
    | some sig =>
      obtain ⟨sig'', hx'', ⟨hb, -⟩ | ⟨-, ht⟩⟩ := h.present x sig hx
      · exact absurd hb (hgood x sig hx)
      · cases hx''.symm.trans hx'
        exact ht.replays (hr x sig hx)

theorem Moves.closed (h : Moves bad m m') (hgood : ∀ x sig, m.get? x = some sig → ¬ bad x sig)
    {x : SignalId} (hc : ∀ sig, m.get? x = some sig → sig.fsmState = .closed) :
    ∀ sig, m'.get? x = some sig → sig.fsmState = .closed := by
  intro sig' hx'
  cases hx : m.get? x with
  | none => cases (h.absent x hx).symm.trans hx'
  | some sig =>
    obtain ⟨sig'', hx'', ⟨hb, -⟩ | ⟨-, ht⟩⟩ := h.present x sig hx
    · exact absurd hb (hgood x sig hx)
    · cases hx''.symm.trans hx'
      exact ht.closed (hc sig hx)

/-! ### The calls -/

theorem transition_moves (env : Surroundings) (m : SignalFsmManager) (id : SignalId)
    (target : SignalFsmState) (marketPrice : Option ℚ) (reason : String)
    (expectedVersion : Option Int) :
    Moves (fun x sig => x = id ∧ sig.fsmState ≠ target ∧
        RaisesOnExpiry sig target marketPrice expectedVersion) m.signals
      (m.transition env id target marketPrice reason expectedVersion).1.signals := by
  rcases transition_cases env m id target marketPrice reason expectedVersion rfl with
    ⟨hm, hn⟩ | ⟨sig, sig', hsig, hne, hedge, hs, -, hh, hcase⟩
  · rw [hm]
    refine Moves.same ?_
    rintro x sig hx ⟨rfl, hne, hraises⟩
    exact hn sig hx hne hraises
  · have hother : ∀ x, x ≠ id → ∀ sig, ¬ (x = id ∧ sig.fsmState ≠ target ∧
        RaisesOnExpiry sig target marketPrice expectedVersion) := fun x hx _ h => hx h.1
    rcases hcase with ⟨hn, -, hsignals, -⟩ | ⟨hraises, -, hsignals⟩
    · rw [hsignals]
      refine Moves.insert hsig hother (.inr ⟨fun h => hn h.2.2, ?_⟩)
      exact .noted hh rfl hs.symm (.inr (.inl hedge))
    · rw [hsignals]
      refine Moves.insert hsig hother (.inl ⟨⟨rfl, hne, hraises⟩, .inl ⟨hh, ?_⟩⟩)
      exact fun h => hne (h.symm.trans hs)

theorem ratchetBreakeven_moves (m : SignalFsmManager) (id : SignalId) (marketPrice : ℚ) :
    Moves (fun _ _ => False) m.signals (m.ratchetBreakeven id marketPrice).1.signals := by
  rcases ratchetBreakeven_cases m id marketPrice with
    hsame | ⟨sig, newSl, audit, hsig, -, -, hfrom, hto, hrecord⟩
  · rw [hsame]
    exact .same fun _ _ _ h => h
  · rw [hrecord]
    exact .insert hsig (fun _ _ _ h => h)
      (.inr ⟨fun h => h, .noted rfl hfrom hto (.inl (hfrom.trans hto.symm))⟩)

/-- A delete notes a CLOSED step; the four states without a way to CLOSED do not take it. -/
theorem delete_moves (env : Surroundings) (m : SignalFsmManager) (id : SignalId) :
    Moves (fun x sig => x = id ∧ sig.fsmState ∈ [.detected, .validated, .armed, .triggered])
      m.signals (m.delete env id).1.signals := by
  rcases delete_cases env m id with ⟨hnone, hsame⟩ | ⟨sig, audit, hsig, hfrom, hto, hvoid, hrecord⟩
  · rw [hsame]
    refine .same ?_
    rintro x sig hx ⟨rfl, -⟩
    cases hx.symm.trans hnone
  · rw [hrecord]
    refine .insert hsig (fun x hx _ h => hx h.1) ?_
    have hpath : (sig.fsmState ≠ .closed ∧ (.closed ∈ allowedTransitions sig.fsmState ∨
        sig.fsmState ∈ terminalStates)) ∨ sig.fsmState = .closed ↔
          sig.fsmState ∉ [.detected, .validated, .armed, .triggered] := by
      cases sig.fsmState <;> decide
    by_cases hbad : sig.fsmState ∈ [.detected, .validated, .armed, .triggered]
    · obtain ⟨hstep, hclosed⟩ := not_or.mp (mt hpath.mp (not_not.mpr hbad))
      rw [if_neg hstep]
      exact .inl ⟨⟨rfl, hbad⟩, .noted fun h => hclosed (h.symm.trans hto)⟩
    · refine .inr ⟨fun h => hbad h.2, ?_⟩
      rcases hpath.mpr hbad with hstep | hclosed
      · rw [if_pos hstep]
        exact .noted rfl hfrom hto (.inr (.inr ⟨hvoid, hto⟩))
      · rw [if_neg fun h => h.1 hclosed]
        exact .noted rfl hfrom (hto.trans hclosed.symm) (.inr (.inr ⟨hvoid, hto⟩))

/-- The sweep sends the signal to EXPIRED: it has no fill, and its day, the market
or its entry window is over. -/
def DueToExpire (env : Surroundings) (nowMs : Int) (sig : SignalInstance) : Prop :=
  (sig.fsmState ∈ [.detected, .validated, .armed, .triggered] ∨
      (sig.fsmState = .confirmed ∧ truthy sig.actualFillPrice = none ∧ sig.paperOrder = none)) ∧
    (istDay sig.createdAtUtc < istDay nowMs ∨ env.marketClosed = true ∨
      ((if nowMs = 0 then env.now else nowMs) > sig.expiresAtUtc ∧
        sig.fsmState ∈ [.detected, .validated, .armed]))

theorem sweepTarget_expired (env : Surroundings) (nowMs : Int) (sig : SignalInstance) :
    (∃ reason, sweepTarget env nowMs sig = some (.expired, reason)) ↔ DueToExpire env nowMs sig := by
  rw [sweepTarget, DueToExpire]
  simp only [decide_eq_true_eq]
  by_cases hpre : sig.fsmState ∈ [.detected, .validated, .armed, .triggered] ∨
      (sig.fsmState = .confirmed ∧ truthy sig.actualFillPrice = none ∧ sig.paperOrder = none)
  · rw [if_pos hpre]
    by_cases hover : istDay sig.createdAtUtc < istDay nowMs ∨ env.marketClosed = true
    · rw [if_pos hover]
      exact iff_of_true ⟨_, rfl⟩ ⟨hpre, or_assoc.mp (.inl hover)⟩
    · rw [if_neg hover]
      by_cases h : (if nowMs = 0 then env.now else nowMs) > sig.expiresAtUtc ∧
          sig.fsmState ∈ [.detected, .validated, .armed]
      · rw [if_pos h]
        exact iff_of_true ⟨_, rfl⟩ ⟨hpre, .inr (.inr h)⟩
      · rw [if_neg h]
        refine iff_of_false (fun ⟨_, h⟩ => nomatch h) fun hdue => ?_
        exact (or_assoc.mpr hdue.2).elim hover h
  · rw [if_neg hpre]
    refine iff_of_false ?_ fun h => hpre h.1
    rintro ⟨reason, h⟩
    repeat (split at h <;> try cases h)

theorem DueToExpire.edge {env : Surroundings} {nowMs : Int} {sig : SignalInstance}
    (h : DueToExpire env nowMs sig) :
    sig.fsmState ≠ .expired ∧ .expired ∈ allowedTransitions sig.fsmState := by
  have hstate : sig.fsmState ∈ [.detected, .validated, .armed, .triggered, .confirmed] := by
    rcases h.1 with h | ⟨h, -⟩
    · exact List.mem_append_left [_] h
    · rw [h]
      decide
  revert hstate
  cases sig.fsmState <;> decide

def SweepRaises (env : Surroundings) (nowMs : Int) (sig : SignalInstance) : Prop :=
  DueToExpire env nowMs sig ∧ Settleable sig none

theorem sweepOne_eq (env : Surroundings) (nowMs : Int) (acc : SignalFsmManager × SweepCounts)
    (id : SignalId) :
    (∃ sig target reason, acc.1.signals.get? id = some sig ∧
        sweepTarget env nowMs sig = some (target, reason) ∧
        (sweepOne env nowMs acc id).1 = (acc.1.transition env id target none reason none).1) ∨
      ((sweepOne env nowMs acc id).1 = acc.1 ∧
        ∀ sig, acc.1.signals.get? id = some sig → sweepTarget env nowMs sig = none) := by
  rw [sweepOne]
  cases hsig : acc.1.signals.get? id with
  | none => exact .inr ⟨rfl, fun sig h => nomatch h⟩
  | some sig =>
    simp only [Option.bind_some]
    cases ht : sweepTarget env nowMs sig with
    | none => exact .inr ⟨rfl, fun sig' h => Option.some.inj h ▸ ht⟩
    | some res =>
      refine .inl ⟨sig, res.1, res.2, rfl, ht, ?_⟩
      simp only
      split <;> simp_all

theorem sweepOne_moves (env : Surroundings) (nowMs : Int) (acc : SignalFsmManager × SweepCounts)
    (id : SignalId) :
    Moves (fun x sig => x = id ∧ SweepRaises env nowMs sig) acc.1.signals
      (sweepOne env nowMs acc id).1.signals := by
  rcases sweepOne_eq env nowMs acc id with ⟨sig, target, reason, hsig, ht, heq⟩ | ⟨heq, hnone⟩
  · rw [heq]
    refine (transition_moves env acc.1 id target none reason none).congr fun x sig' hx => ?_
    refine and_congr_right fun hxi => ?_
    subst hxi
    cases hsig.symm.trans hx
    constructor
    · rintro ⟨-, hraises⟩
      exact ⟨(sweepTarget_expired env nowMs sig).mp ⟨reason, hraises.expiry ▸ ht⟩, hraises.settleable⟩
    · rintro ⟨hdue, hset⟩
      obtain ⟨reason', ht'⟩ := (sweepTarget_expired env nowMs sig).mpr hdue
      cases ht.symm.trans ht'
      exact ⟨hdue.edge.1, rfl, (fun _ h => nomatch h), hdue.edge.2, hset⟩
  · rw [heq]
    refine Moves.same ?_
    rintro x sig hx ⟨rfl, hdue, -⟩
    obtain ⟨reason, ht⟩ := (sweepTarget_expired env nowMs sig).mpr hdue
    cases (hnone sig hx).symm.trans ht

theorem sweepOne_other (env : Surroundings) (nowMs : Int)
    (acc : SignalFsmManager × SweepCounts) (id : SignalId) {x : SignalId} (hx : x ≠ id) :
    (sweepOne env nowMs acc id).1.signals.get? x = acc.1.signals.get? x := by
  rcases sweepOne_eq env nowMs acc id with ⟨_, target, reason, -, -, heq⟩ | ⟨heq, -⟩
  · rw [heq, transition_other env acc.1 id target none reason none hx]
  · rw [heq]

theorem sweepLoop_moves (env : Surroundings) (m : SignalFsmManager) (nowMs : Option Int) :
    Moves (fun _ sig => SweepRaises env (nowMs.getD env.now) sig) m.signals
      (m.sweepLoop env nowMs).1.signals := by
  have hown : ∀ (acc : SignalFsmManager × SweepCounts) (id : SignalId),
      (acc.1.signals.get? id = none → (sweepOne env (nowMs.getD env.now) acc id).1.signals.get? id = none) ∧
      ∀ sig, acc.1.signals.get? id = some sig →
        ∃ sig', (sweepOne env (nowMs.getD env.now) acc id).1.signals.get? id = some sig' ∧
          ((SweepRaises env (nowMs.getD env.now) sig ∧ Torn sig sig') ∨
            (¬ SweepRaises env (nowMs.getD env.now) sig ∧ Turn sig sig')) := by
    intro acc id
    have hone := sweepOne_moves env (nowMs.getD env.now) acc id
    exact ⟨hone.absent id, fun sig hsig => by simpa using hone.present id sig hsig⟩
  obtain ⟨hswept, hrest⟩ := foldl_own (fun acc : SignalFsmManager × SweepCounts => acc.1.signals.get?)
    (R := fun _ o o' => (o = none → o' = none) ∧ ∀ sig, o = some sig → ∃ sig', o' = some sig' ∧
      ((SweepRaises env (nowMs.getD env.now) sig ∧ Torn sig sig') ∨
        (¬ SweepRaises env (nowMs.getD env.now) sig ∧ Turn sig sig')))
    (fun acc id x => sweepOne_other env (nowMs.getD env.now) acc id) hown (m, { }) m.signals.nodup
  refine ⟨fun x hx => ?_, fun x sig hx => ?_⟩
  · by_cases hkey : x ∈ m.signals.entries.map Prod.fst
    · exact (hswept x hkey).1 hx
    · exact (hrest x hkey).trans hx
  · exact (hswept x (List.mem_map_of_mem (Dict.mem_entries_of_get? hx))).2 sig hx

/-! ### Runs -/

inductive FsmCall where
  | register (new : NewSignal)
  | transition (env : Surroundings) (id : SignalId) (target : SignalFsmState)
      (marketPrice : Option ℚ) (reason : String) (expectedVersion : Option Int)
  | ratchetBreakeven (id : SignalId) (marketPrice : ℚ)
  | sweepExpired (env : Surroundings) (nowMs : Option Int)
  | delete (env : Surroundings) (id : SignalId)

/-- The manager, and what it no longer tells: the signals pruned from memory as
they were, and the ids whose stored signal a delete has answered with True. -/
structure Book where
  fsm : SignalFsmManager := { }
  dropped : List SignalInstance := []
  voided : List SignalId := []

namespace Book

def step (b : Book) : FsmCall → Book
  | .register new =>
    { b with
      fsm := (b.fsm.register new).1
      -- a new signal under an old id is another signal
      voided := if b.fsm.signals.contains new.val.signalId then b.voided
        else b.voided.filter (· ≠ new.val.signalId) }
  | .transition env id target marketPrice reason expectedVersion =>
    { b with fsm := (b.fsm.transition env id target marketPrice reason expectedVersion).1 }
  | .ratchetBreakeven id marketPrice => { b with fsm := (b.fsm.ratchetBreakeven id marketPrice).1 }
  | .sweepExpired env nowMs =>
    let swept := (b.fsm.sweepLoop env nowMs).1
    { b with
      fsm := (b.fsm.sweepExpired env nowMs).1
      dropped := b.dropped ++ swept.overflowIds.filterMap swept.signals.get? }
  | .delete env id =>
    { b with
      fsm := (b.fsm.delete env id).1
      voided := if (b.fsm.delete env id).2 then id :: b.voided else b.voided }

/-- Every history replays, and deleted signals are CLOSED. -/
structure Replayed (b : Book) : Prop where
  live : ∀ id sig, b.fsm.signals.get? id = some sig → Replays sig
  dropped : ∀ sig ∈ b.dropped, Replays sig
  voided : ∀ id ∈ b.voided, ∀ sig, b.fsm.signals.get? id = some sig → sig.fsmState = .closed

def Sound (b : Book) : FsmCall → Prop
  | .transition _ id target marketPrice _ expectedVersion => ∀ sig, b.fsm.signals.get? id = some sig →
      sig.fsmState ≠ target → ¬ RaisesOnExpiry sig target marketPrice expectedVersion
  | .sweepExpired env nowMs => ∀ id sig, b.fsm.signals.get? id = some sig →
      ¬ SweepRaises env (nowMs.getD env.now) sig
  | .delete _ id => ∀ sig, b.fsm.signals.get? id = some sig →
      sig.fsmState ∉ [.detected, .validated, .armed, .triggered]
  | _ => True

private theorem replayed_iff_of_moves {b b' : Book} {bad : SignalId → SignalInstance → Prop}
    (h : Moves bad b.fsm.signals b'.fsm.signals) (hdropped : b'.dropped = b.dropped)
    (hvoided : b'.voided = b.voided) (hr : b.Replayed) :
    b'.Replayed ↔ ∀ x sig, b.fsm.signals.get? x = some sig → ¬ bad x sig := by
  rw [← h.replays_iff hr.live]
  refine ⟨Replayed.live, fun hlive => ⟨hlive, hdropped ▸ hr.dropped, ?_⟩⟩
  have hgood := (h.replays_iff hr.live).mp hlive
  rw [hvoided]
  exact fun id hid => h.closed hgood (hr.voided id hid)

private theorem register_replayed {b : Book} (hr : b.Replayed) (new : NewSignal) :
    (b.step (.register new)).Replayed := by
  rcases register_cases b.fsm new with ⟨hsame, hold⟩ | ⟨hnone, audit, hto, hrecord⟩
  · simp only [step, hsame, hold, if_true]
    exact hr
  · have hnew : b.fsm.signals.contains new.val.signalId = false := by rw [Dict.contains, hnone, Option.isSome_none]
    have hfirst : Replays ((initialLevels new.val).note audit) :=
      Replays.first (initialLevels new.val) new.property hto
    simp only [step, hnew, hrecord]
    refine ⟨fun id sig' h => ?_, hr.dropped, fun id hid sig' h => ?_⟩
    · rw [SignalFsmManager.record, Dict.get?_insert] at h
      split at h
      · exact Option.some.inj h ▸ hfirst
      · exact hr.live id sig' h
    · obtain ⟨hid, hne⟩ := List.mem_filter.mp hid
      rw [SignalFsmManager.record, Dict.get?_insert, if_neg (of_decide_eq_true hne)] at h
      exact hr.voided id hid sig' h

private theorem sweep_replayed_iff {b : Book} (hr : b.Replayed) (env : Surroundings)
    (nowMs : Option Int) :
    (b.step (.sweepExpired env nowMs)).Replayed ↔ b.Sound (.sweepExpired env nowMs) := by
  have hmoves := sweepLoop_moves env b.fsm nowMs
  have hsound : b.Sound (.sweepExpired env nowMs) ↔ ∀ x sig, b.fsm.signals.get? x = some sig →
      ¬ SweepRaises env (nowMs.getD env.now) sig := Iff.rfl
  rw [hsound, ← hmoves.replays_iff hr.live]
  simp only [step, SignalFsmManager.sweepExpired, SignalFsmManager.prune]
  constructor
  · intro hr' x sig hx
    by_cases hdrop : x ∈ (b.fsm.sweepLoop env nowMs).1.overflowIds
    · exact hr'.dropped sig (List.mem_append_right _ (List.mem_filterMap.mpr ⟨x, hdrop, hx⟩))
    · refine hr'.live x sig ?_
      simpa [hdrop] using hx
  · intro hlive
    have hgood := (hmoves.replays_iff hr.live).mp hlive
    refine ⟨fun x sig hx => ?_, fun sig hsig => ?_, fun x hx sig hget => ?_⟩
    · simp only [Dict.get?_filterKeys] at hx
      split at hx
      · exact hlive x sig hx
      · cases hx
    · rcases List.mem_append.mp hsig with hold | hnew
      · exact hr.dropped sig hold
      · obtain ⟨x, -, hx⟩ := List.mem_filterMap.mp hnew
        exact hlive x sig hx
    · simp only [Dict.get?_filterKeys] at hget
      split at hget
      · exact hmoves.closed hgood (hr.voided x hx) sig hget
      · cases hget

private theorem delete_replayed_iff {b : Book} (hr : b.Replayed) (env : Surroundings) (id : SignalId) :
    (b.step (.delete env id)).Replayed ↔ b.Sound (.delete env id) := by
  have hmoves := delete_moves env b.fsm id
  have hlast : ∀ sig', (b.fsm.delete env id).2 = true →
      (b.fsm.delete env id).1.signals.get? id = some sig' →
        ∃ audit ∈ sig'.stateHistory.getLast?, audit.toState = .closed := by
    intro sig'
    rcases delete_cases env b.fsm id with ⟨-, hsame⟩ | ⟨sig, audit, -, -, hto, -, hrecord⟩
    · rw [hsame]
      exact fun h => by cases h
    · rw [hrecord]
      intro _ hget
      simp only [SignalFsmManager.record, Dict.get?_insert, if_true, Option.some.injEq] at hget
      subst hget
      exact ⟨audit, List.getLast?_concat, hto⟩
  have hsound : b.Sound (.delete env id) ↔ ∀ x sig, b.fsm.signals.get? x = some sig →
      ¬ (x = id ∧ sig.fsmState ∈ [.detected, .validated, .armed, .triggered]) := by
    constructor
    · rintro h x sig hx ⟨rfl, hbad⟩
      exact h sig hx hbad
    · exact fun h sig hx hbad => h id sig hx ⟨rfl, hbad⟩
  rw [hsound, ← hmoves.replays_iff hr.live]
  refine ⟨Replayed.live, fun hlive => ⟨hlive, hr.dropped, fun x hx sig' hget => ?_⟩⟩
  have hold : x ∈ b.voided → sig'.fsmState = .closed := fun hx =>
    hmoves.closed ((hmoves.replays_iff hr.live).mp hlive) (hr.voided x hx) sig' hget
  simp only [step] at hx hget
  split at hx
  · rename_i hdone
    rcases List.mem_cons.mp hx with rfl | hx
    · obtain ⟨audit, hmem, hto⟩ := hlast sig' hdone hget
      exact ((hlive x sig' hget).last audit hmem).symm.trans hto
    · exact hold hx
  · exact hold hx

/-- One call keeps all histories replayable exactly when it is sound. -/
theorem step_replayed_iff {b : Book} (hr : b.Replayed) (call : FsmCall) :
    (b.step call).Replayed ↔ b.Sound call := by
  cases call with
  | register new => exact iff_of_true (register_replayed hr new) trivial
  | transition env id target marketPrice reason expectedVersion =>
    have hmoves := transition_moves env b.fsm id target marketPrice reason expectedVersion
    have hiff : (b.step (.transition env id target marketPrice reason expectedVersion)).Replayed ↔ _ :=
      replayed_iff_of_moves hmoves rfl rfl hr
    rw [hiff]
    constructor
    · exact fun h sig hx hne hraises => h id sig hx ⟨rfl, hne, hraises⟩
    · rintro h x sig hx ⟨rfl, hne, hraises⟩
      exact h sig hx hne hraises
  | ratchetBreakeven id marketPrice =>
    have hmoves := ratchetBreakeven_moves b.fsm id marketPrice
    have hiff : (b.step (.ratchetBreakeven id marketPrice)).Replayed ↔ _ :=
      replayed_iff_of_moves hmoves rfl rfl hr
    exact iff_of_true (hiff.mpr fun _ _ _ h => h) trivial
  | sweepExpired env nowMs => exact sweep_replayed_iff hr env nowMs
  | delete env id => exact delete_replayed_iff hr env id

theorem start_replayed : Replayed { } :=
  ⟨(fun _ _ h => nomatch h), (fun _ h => nomatch h), fun _ h => nomatch h⟩

/-- Along a run from the empty manager all histories replay, and deleted signals
stay CLOSED, exactly when every call is sound. -/
theorem always_replayed_iff (calls : List FsmCall) :
    Always step Replayed { } calls ↔ Guarded step Sound { } calls :=
  always_iff_guarded (I := fun _ => True) (P := Replayed) (fun _ _ _ => trivial)
    (fun _ call _ hr => step_replayed_iff hr call) trivial start_replayed calls

/-- A signal deleted as it was detected stays DETECTED. -/
theorem detected_deleted :
    ¬ Always step Replayed { }
      [.register ⟨{ armedCall with fsmState := .detected, stateHistory := [] }, rfl⟩,
        .delete { now := 1 } "s"] := by
  rintro ⟨-, -, hr⟩
  exact absurd (hr.voided "s" (by decide +kernel) _ rfl) (by decide)

end Book

end Droid.Signals
