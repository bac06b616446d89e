import Droid.Signals.Replay
import Droid.Signals.OutcomeTracker
import Mathlib.Tactic.SplitIfs

/-! The stop of a registered signal only tightens, and moves to cost once, along any run of
registrations, transitions, breakeven ratchets and ticks. -/
namespace Droid.Signals
open Lib

/-- A stop there protects no less: no lower for calls, no higher for all others. -/
def Direction.NoLooser (d : Direction) (stop stop' : ℚ) : Prop :=
  if d = .longCall then stop ≤ stop' else stop' ≤ stop

theorem Direction.NoLooser.refl (d : Direction) (stop : ℚ) : d.NoLooser stop stop := by
  rw [Direction.NoLooser]
  split <;> exact le_refl stop

theorem Direction.NoLooser.trans {d : Direction} {a b c : ℚ} (h : d.NoLooser a b)
    (h' : d.NoLooser b c) : d.NoLooser a c := by
  unfold Direction.NoLooser at *
  split_ifs at *
  · exact h.trans h'
  · exact h'.trans h

/-- The stop is no looser than it was, and where it was once it had moved to cost. -/
structure StopHeld (sig sig' : SignalInstance) : Prop where
  direction : sig'.direction = sig.direction
  level : ∀ stop, sig.currentStopLoss = some stop →
    ∃ stop', sig'.currentStopLoss = some stop' ∧ sig.direction.NoLooser stop stop'
  activated : sig.breakevenActivated = true →
    sig'.breakevenActivated = true ∧ sig'.currentStopLoss = sig.currentStopLoss

def SignalInstance.levels (sig : SignalInstance) : Direction × ℚ × Option ℚ × Option ℚ × Bool :=
  (sig.direction, sig.stopLoss, spotBeReference sig, sig.currentStopLoss, sig.breakevenActivated)

theorem StopHeld.of_levels {sig sig' : SignalInstance} (h : sig'.levels = sig.levels) :
    StopHeld sig sig' := by
  simp only [SignalInstance.levels, Prod.mk.injEq] at h
  obtain ⟨hd, -, -, hcur, hact⟩ := h
  refine ⟨hd, fun stop hstop => ⟨stop, hcur.trans hstop, .refl _ _⟩, fun h => ⟨hact.trans h, hcur⟩⟩

theorem StopHeld.trans {a b c : SignalInstance} (h : StopHeld a b) (h' : StopHeld b c) :
    StopHeld a c := by
  refine ⟨h'.direction.trans h.direction, fun stop hstop => ?_, fun hact => ?_⟩
  · obtain ⟨stop₁, hstop₁, hle₁⟩ := h.level stop hstop
    obtain ⟨stop₂, hstop₂, hle₂⟩ := h'.level stop₁ hstop₁
    rw [h.direction] at hle₂
    exact ⟨stop₂, hstop₂, hle₁.trans hle₂⟩
  · obtain ⟨hact₁, hcur₁⟩ := h.activated hact
    obtain ⟨hact₂, hcur₂⟩ := h'.activated hact₁
    exact ⟨hact₂, hcur₂.trans hcur₁⟩

theorem StopHeld.left_iff {a b c : SignalInstance} (h : b.levels = a.levels) :
    StopHeld a c ↔ StopHeld b c :=
  ⟨(StopHeld.of_levels h.symm).trans, (StopHeld.of_levels h).trans⟩

/-! ### The move to cost at the first target -/

theorem setattrs_levels (sig : SignalInstance) (fs : List OutcomeField) :
    (sig.setattrs fs).1.levels = sig.levels := by
  refine setattrs_keeps SignalInstance.levels (fun sig f sig' hs => ?_) sig fs
  cases f <;> cases hs <;> rfl

theorem spotBeReference_pos {sig : SignalInstance} {v : ℚ} (h : spotBeReference sig = some v) :
    0 < v := by
  unfold spotBeReference at h
  simp only at h
  split at h
  · rename_i w hw
    cases h
    rcases Option.or_eq_some_iff.mp hw with hw | ⟨-, hw⟩
    · exact (of_decide_eq_true (Option.filter_eq_some_iff.mp hw).2).1
    · exact (of_decide_eq_true (Option.filter_eq_some_iff.mp hw).2).1
  · simpa using List.find?_some h

/-- A stop of zero counts as none where it moves to cost; the initial stop in its place is
no looser, or the move makes up for it. -/
def SignalInstance.ZeroStopCovered (sig : SignalInstance) : Prop :=
  sig.currentStopLoss = some 0 →
    if sig.direction = .longCall then 0 ≤ sig.stopLoss ∨ (spotBeReference sig).isSome
    else sig.stopLoss ≤ 0

/-- The level the stop moves to from this one. -/
def SignalInstance.costStop (sig : SignalInstance) : ℚ :=
  let costRef := (spotBeReference sig).getD sig.stopLoss
  let current := (truthy sig.currentStopLoss).getD sig.stopLoss
  if sig.direction = .longCall then max current costRef else min current costRef

theorem startRunner_levels (sig : SignalInstance) (now : Int) :
    (sig.startRunner now).levels = if sig.breakevenActivated then sig.levels else
      (sig.direction, sig.stopLoss, spotBeReference sig, some sig.costStop, true) := by
  rw [SignalInstance.startRunner]
  simp only
  split <;> rfl

theorem costStop_noLooser_iff {sig : SignalInstance} {stop : ℚ} (hstop : sig.currentStopLoss = some stop) :
    sig.direction.NoLooser stop sig.costStop ↔ sig.ZeroStopCovered := by
  rw [SignalInstance.ZeroStopCovered, Direction.NoLooser, SignalInstance.costStop]
  rw [hstop]
  by_cases hzero : stop = 0
  · subst hzero
    have hnone : truthy (some (0 : ℚ)) = none := by decide
    simp only [hnone, Option.getD_none, true_implies]
    by_cases hd : sig.direction = .longCall
    · simp only [if_pos hd, le_max_iff]
      cases href : spotBeReference sig with
      | none => simp
      | some v => simpa using .inr (spotBeReference_pos href).le
    · simp only [if_neg hd, min_le_iff]
      cases href : spotBeReference sig with
      | none => simp
      | some v => simpa using fun h => absurd h (spotBeReference_pos href).not_ge
  · have hsome : truthy (some stop) = some stop := by simp [truthy, hzero]
    simp only [hsome, Option.getD_some, Option.some.injEq, hzero, false_implies, iff_true]
    split
    · exact le_max_left _ _
    · exact min_le_left _ _

theorem startRunner_held_iff (sig : SignalInstance) (now : Int) :
    StopHeld sig (sig.startRunner now) ↔ (sig.breakevenActivated = false → sig.ZeroStopCovered) := by
  have hlevels := startRunner_levels sig now
  cases hb : sig.breakevenActivated with
  | true =>
    rw [hb, if_pos rfl] at hlevels
    exact iff_of_true (.of_levels hlevels) nofun
  | false =>
    rw [hb, if_neg Bool.false_ne_true] at hlevels
    simp only [SignalInstance.levels, Prod.mk.injEq] at hlevels
    obtain ⟨hd, -, -, hcur, -⟩ := hlevels
    rw [eq_self, true_implies]
    constructor
    · intro h hzero
      obtain ⟨stop', hstop', hle⟩ := h.level 0 hzero
      cases hcur.symm.trans hstop'
      exact (costStop_noLooser_iff hzero).mp hle hzero
    · intro h
      refine ⟨hd, fun stop hstop => ⟨_, hcur, (costStop_noLooser_iff hstop).mpr h⟩, fun hb' => ?_⟩
      cases hb.symm.trans hb'

theorem advance_held_iff {env : Surroundings} {sig sig' : SignalInstance} {target : SignalFsmState}
    {marketPrice : Option ℚ} (h : advance env sig target marketPrice = .moved sig' ∨
      advance env sig target marketPrice = .raised sig') :
    StopHeld sig sig' ↔
      (target = .target1Hit → sig.breakevenActivated = false → sig.ZeroStopCovered) := by
  rcases advance_forms h with
    ⟨rfl, ht⟩ | ⟨rfl, ht⟩ | ⟨rfl, ht⟩ | ⟨fs, ⟨rfl, ht⟩ | ⟨rfl, ht⟩⟩
  · exact iff_of_true (.of_levels rfl) fun h => absurd h ht
  · exact iff_of_true (.of_levels rfl) fun h => absurd h ht
  · exact iff_of_true (.of_levels rfl) fun h => absurd h ht
  · exact iff_of_true (.of_levels (setattrs_levels sig fs)) fun h => absurd h ht
  · have hlevels := setattrs_levels sig fs
    rw [StopHeld.left_iff hlevels, startRunner_held_iff]
    simp only [SignalInstance.levels, Prod.mk.injEq] at hlevels
    obtain ⟨hd, hsl, href, hcur, hact⟩ := hlevels
    rw [SignalInstance.ZeroStopCovered]
    rw [hd, hsl, href, hcur, hact]
    exact ⟨fun h _ => h, fun h => h ht⟩

/-- There still is a stop, and it still was moved to cost. -/
structure StopStays (sig sig' : SignalInstance) : Prop where
  placed : sig.currentStopLoss.isSome → sig'.currentStopLoss.isSome
  activated : sig.breakevenActivated = true → sig'.breakevenActivated = true

theorem StopStays.refl (sig : SignalInstance) : StopStays sig sig := ⟨id, id⟩

theorem StopHeld.stays {sig sig' : SignalInstance} (h : StopHeld sig sig') : StopStays sig sig' := by
  refine ⟨fun hsome => ?_, fun hact => (h.activated hact).1⟩
  obtain ⟨stop, hstop⟩ := Option.isSome_iff_exists.mp hsome
  obtain ⟨stop', hstop', -⟩ := h.level stop hstop
  exact Option.isSome_iff_exists.mpr ⟨stop', hstop'⟩

theorem startRunner_stays (sig : SignalInstance) (now : Int) : StopStays sig (sig.startRunner now) := by
  have hlevels := startRunner_levels sig now
  split at hlevels
  · exact (StopHeld.of_levels hlevels).stays
  · obtain ⟨-, -, -, hstop, hact⟩ := by simpa [SignalInstance.levels] using hlevels
    exact ⟨fun _ => hstop ▸ rfl, fun _ => hact⟩

theorem advance_stays {env : Surroundings} {sig sig' : SignalInstance} {target : SignalFsmState}
    {marketPrice : Option ℚ} (h : advance env sig target marketPrice = .moved sig' ∨
      advance env sig target marketPrice = .raised sig') : StopStays sig sig' := by
  rcases advance_forms h with
    ⟨rfl, -⟩ | ⟨rfl, -⟩ | ⟨rfl, -⟩ | ⟨fs, ⟨rfl, -⟩ | ⟨rfl, -⟩⟩
  · exact .refl _
  · exact ⟨id, id⟩
  · exact ⟨id, id⟩
  · exact (StopHeld.of_levels (setattrs_levels sig fs)).stays
  · have hset := (StopHeld.of_levels (setattrs_levels sig fs)).stays
    have hrun := startRunner_stays (sig.setattrs fs).1 env.now
    exact ⟨hrun.placed ∘ hset.placed, hrun.activated ∘ hset.activated⟩

/-! ### The calls -/

/-- The stops of all registered signals are held; none leaves. -/
def StopsHeld (m m' : SignalFsmManager) : Prop :=
  ∀ id sig, m.signals.get? id = some sig → ∃ sig', m'.signals.get? id = some sig' ∧ StopHeld sig sig'

theorem StopsHeld.refl (m : SignalFsmManager) : StopsHeld m m :=
  fun _ sig h => ⟨sig, h, .of_levels rfl⟩

theorem StopsHeld.trans {a b c : SignalFsmManager} (h : StopsHeld a b) (h' : StopsHeld b c) :
    StopsHeld a c := by
  intro id sig hsig
  obtain ⟨sig₁, hsig₁, hheld₁⟩ := h id sig hsig
  obtain ⟨sig₂, hsig₂, hheld₂⟩ := h' id sig₁ hsig₁
  exact ⟨sig₂, hsig₂, hheld₁.trans hheld₂⟩

theorem stopsHeld_insert {m m' : SignalFsmManager} {id : SignalId} {sig sig' : SignalInstance}
    (hsig : m.signals.get? id = some sig) (hins : m'.signals = m.signals.insert id sig') :
    StopsHeld m m' ↔ StopHeld sig sig' := by
  constructor
  · intro h
    obtain ⟨sig'', hget, hheld⟩ := h id sig hsig
    rw [hins, Dict.get?_insert, if_pos rfl] at hget
    cases hget
    exact hheld
  · intro h x sig₀ hx
    rw [hins, Dict.get?_insert]
    by_cases hxi : x = id
    · subst hxi
      cases hsig.symm.trans hx
      exact ⟨sig', if_pos rfl, h⟩
    · exact ⟨sig₀, by rw [if_neg hxi, hx], .of_levels rfl⟩

theorem ratchetStop_noLooser {sig : SignalInstance} {marketPrice newSl : ℚ}
    (h : SignalFsmManager.ratchetStop sig marketPrice = some newSl) {stop : ℚ}
    (hstop : sig.currentStopLoss = some stop) : sig.direction.NoLooser stop newSl := by
  unfold SignalFsmManager.ratchetStop at h
  rw [Direction.NoLooser]
  rw [hstop] at h
  cases href : spotBeReference sig with
  | none => simp [href] at h
  | some costRef =>
    by_cases hd : sig.direction = .longCall
    · rw [if_pos hd]
      simp only [href, hd, Option.bind_eq_bind, Option.bind_some, if_true] at h
      obtain ⟨_, hguard, hnew⟩ := Option.bind_eq_some_iff.mp h
      cases hnew
      exact (by simpa [guard] using hguard : stop < _).le
    · rw [if_neg hd]
      simp only [href, hd, Option.bind_eq_bind, Option.bind_some, if_false] at h
      obtain ⟨_, hguard, hnew⟩ := Option.bind_eq_some_iff.mp h
      cases hnew
      exact (by simpa [guard] using hguard : _ < stop).le

theorem ratchetBreakeven_held (m : SignalFsmManager) (id : SignalId) (marketPrice : ℚ) :
    StopsHeld m (m.ratchetBreakeven id marketPrice).1 := by
  rcases ratchetBreakeven_cases m id marketPrice with
    hsame | ⟨sig, newSl, audit, hsig, hfresh, hnew, -, -, hrecord⟩
  · rw [hsame]
    exact .refl m
  · have hheld : StopHeld sig { sig with currentStopLoss := some newSl, breakevenActivated := true } := by
      refine ⟨rfl, fun stop hstop => ?_, fun hact => ?_⟩
      · exact ⟨newSl, rfl, ratchetStop_noLooser hnew hstop⟩
      · cases hfresh.symm.trans hact
    rw [stopsHeld_insert hsig (congrArg SignalFsmManager.signals hrecord)]
    exact hheld.trans (.of_levels rfl)

theorem register_held (m : SignalFsmManager) (new : SignalFsmManager.NewSignal) :
    StopsHeld m (m.register new).1 := by
  rcases register_cases m new with ⟨hsame, -⟩ | ⟨hnone, audit, -, hrecord⟩
  · rw [hsame]
    exact .refl m
  · rw [hrecord]
    intro x sig hx
    refine ⟨sig, ?_, .of_levels rfl⟩
    have hne : x ≠ new.val.signalId := by
      rintro rfl
      cases hnone.symm.trans hx
    exact (Dict.get?_insert _ _ _ _).trans ((if_neg hne).trans hx)

/-- The transition that moves an uncovered stop of zero to cost. -/
def CoversStop (m : SignalFsmManager) (id : SignalId) (target : SignalFsmState)
    (expectedVersion : Option Int) : Prop :=
  target = .target1Hit → ∀ sig, m.signals.get? id = some sig → Admits sig target expectedVersion →
    sig.breakevenActivated = false → sig.ZeroStopCovered

theorem transition_held_iff (env : Surroundings) (m : SignalFsmManager) (id : SignalId)
    (target : SignalFsmState) (marketPrice : Option ℚ) (reason : String)
    (expectedVersion : Option Int) :
    StopsHeld m (m.transition env id target marketPrice reason expectedVersion).1 ↔
      CoversStop m id target expectedVersion := by
  cases hsig : m.signals.get? id with
  | none =>
    rw [transition_absent env m target marketPrice reason expectedVersion hsig]
    exact iff_of_true (.refl m) fun _ sig h => nomatch hsig.symm.trans h
  | some sig =>
    have hcovers : CoversStop m id target expectedVersion ↔ (Admits sig target expectedVersion →
        target = .target1Hit → sig.breakevenActivated = false → sig.ZeroStopCovered) := by
      constructor
      · exact fun h ha ht => h ht sig hsig ha
      · intro h ht sig' hsig' ha
        cases hsig.symm.trans hsig'
        exact h ha ht
    have hadvance : ∀ moved, (advance env (sig.enter env.now target) target marketPrice = .moved moved ∨
        advance env (sig.enter env.now target) target marketPrice = .raised moved) →
        (StopHeld sig moved ↔
          (target = .target1Hit → sig.breakevenActivated = false → sig.ZeroStopCovered)) :=
      fun moved h => (StopHeld.left_iff (a := sig) (b := sig.enter env.now target) rfl).trans (advance_held_iff h)
    rw [hcovers]
    rcases transition_advances env m target marketPrice reason expectedVersion hsig with
      ⟨hn, hm⟩ | ⟨ha, moved, ⟨hadv, hres⟩ | ⟨hadv, hres⟩⟩
    · rw [hm]
      exact iff_of_true (.refl m) fun h => absurd h hn
    · rw [hres, stopsHeld_insert hsig (enqueueSettlement_frame _ _ _ _).1]
      have hnote : StopHeld sig (moved.note (transitionAudit sig id target marketPrice reason)) ↔
          StopHeld sig moved := ⟨fun h => h.trans (.of_levels rfl), fun h => h.trans (.of_levels rfl)⟩
      rw [hnote, hadvance moved (.inl hadv)]
      exact ⟨fun h _ => h, fun h => h ha⟩
    · rw [hres, stopsHeld_insert hsig rfl, hadvance moved (.inr hadv)]
      exact ⟨fun h _ => h, fun h => h ha⟩

/-! ### Runs -/

/-- The manager's `evaluate_tick` reads the signal and answers what the tick asks for. -/
def SignalFsmManager.evaluateTick (m : SignalFsmManager) (id : SignalId) (price : ℚ) (ts : Int) :
    SignalFsmManager × Option TickAction :=
  (m, (m.signals.get? id).bind fun sig => Signals.evaluateTick sig price ts)

inductive StopCall where
  | register (new : SignalFsmManager.NewSignal)
  | transition (env : Surroundings) (id : SignalId) (target : SignalFsmState)
      (marketPrice : Option ℚ) (reason : String) (expectedVersion : Option Int)
  | ratchetBreakeven (id : SignalId) (marketPrice : ℚ)
  | evaluateTick (id : SignalId) (price : ℚ) (ts : Int)

namespace StopCall

def step (m : SignalFsmManager) : StopCall → SignalFsmManager
  | .register new => (m.register new).1
  | .transition env id target marketPrice reason expectedVersion =>
    (m.transition env id target marketPrice reason expectedVersion).1
  | .ratchetBreakeven id marketPrice => (m.ratchetBreakeven id marketPrice).1
  | .evaluateTick id price ts => (m.evaluateTick id price ts).1

/-- The call moves no uncovered stop of zero to cost. -/
def Covered (m : SignalFsmManager) : StopCall → Prop
  | .transition _ id target _ _ expectedVersion => CoversStop m id target expectedVersion
  | _ => True

theorem step_held_iff (m : SignalFsmManager) (call : StopCall) :
    StopsHeld m (step m call) ↔ Covered m call := by
  cases call with
  | register new => exact iff_of_true (register_held m new) trivial
  | transition env id target marketPrice reason expectedVersion =>
    exact transition_held_iff env m id target marketPrice reason expectedVersion
  | ratchetBreakeven id marketPrice => exact iff_of_true (ratchetBreakeven_held m id marketPrice) trivial
  | evaluateTick id price ts => exact iff_of_true (.refl m) trivial

def activated (id : SignalId) (m : SignalFsmManager) : Bool :=
  (m.signals.get? id).any (·.breakevenActivated)

/-- Every registered signal has a stop. -/
def Placed (m : SignalFsmManager) : Prop :=
  ∀ id sig, m.signals.get? id = some sig → sig.currentStopLoss.isSome

/-- A call leaves every signal its stop and its activation, whether the stop holds or not. -/
theorem step_stays (m : SignalFsmManager) (call : StopCall) {id : SignalId} {sig : SignalInstance}
    (hsig : m.signals.get? id = some sig) :
    ∃ sig', (step m call).signals.get? id = some sig' ∧ StopStays sig sig' := by
  have hheld : Covered m call →
      ∃ sig', (step m call).signals.get? id = some sig' ∧ StopStays sig sig' := by
    intro hcov
    obtain ⟨sig', hsig', hheld⟩ := (step_held_iff m call).mpr hcov id sig hsig
    exact ⟨sig', hsig', hheld.stays⟩
  cases call with
  | transition env x target marketPrice reason expectedVersion =>
    refine transition_related StopStays.refl (fun _ _ _ h => ⟨h.placed, h.activated⟩) env m x target
      marketPrice reason expectedVersion (fun sig moved h => ?_) hsig
    exact ⟨(advance_stays h).placed, (advance_stays h).activated⟩
  | register new => exact hheld trivial
  | ratchetBreakeven x marketPrice => exact hheld trivial
  | evaluateTick x price ts => exact hheld trivial

theorem step_new (m : SignalFsmManager) (call : StopCall) {id : SignalId} {sig : SignalInstance}
    (hnone : m.signals.get? id = none) (hsig : (step m call).signals.get? id = some sig) :
    sig.currentStopLoss.isSome := by
  cases call with
  | register new =>
    change (m.register new).1.signals.get? id = some sig at hsig
    rcases register_cases m new with ⟨hsame, -⟩ | ⟨-, audit, -, hrecord⟩
    · rw [hsame] at hsig
      cases hnone.symm.trans hsig
    · rw [hrecord, SignalFsmManager.record, Dict.get?_insert] at hsig
      split at hsig
      · cases hsig
        rfl
      · cases hnone.symm.trans hsig
  | transition env x target marketPrice reason expectedVersion =>
    have hmoves := transition_moves env m x target marketPrice reason expectedVersion
    cases (hmoves.absent id hnone).symm.trans hsig
  | ratchetBreakeven x marketPrice =>
    cases ((ratchetBreakeven_moves m x marketPrice).absent id hnone).symm.trans hsig
  | evaluateTick x price ts => cases hnone.symm.trans hsig

theorem step_placed (m : SignalFsmManager) (call : StopCall) (h : Placed m) : Placed (step m call) := by
  intro id sig' hsig'
  cases hsig : m.signals.get? id with
  | some sig =>
    obtain ⟨sig'', hsig'', hstays⟩ := step_stays m call hsig
    cases hsig'.symm.trans hsig''
    exact hstays.placed (h id sig hsig)
  | none => exact step_new m call hsig hsig'

/-- Along the run every signal has a stop, no stop loosens or leaves the level it was moved to,
and breakeven is activated once at most. -/
structure Monotone (calls : List StopCall) : Prop where
  placed : Always step Placed { } calls
  held : ∀ pre mid, pre ++ mid <+: calls → StopsHeld (run step { } pre) (run step { } (pre ++ mid))
  once : ∀ id, rises step (activated id) { } calls ≤ 1

end StopCall

end Droid.Signals
