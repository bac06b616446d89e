import Droid.Signals.Replay
import Mathlib.Tactic.SplitIfs

/-! What a sweep of the manager leaves behind: which overdue signals it misses, that it moves
along edges, and that it prunes ended signals only. -/
namespace Droid.Signals
open Lib SignalFsmManager

def preEntryStates : List SignalFsmState := [.detected, .preArmed, .validated, .armed, .triggered]

/-- The holding clock of the state: the runner's after the first target. -/
def SignalInstance.timeStop (sig : SignalInstance) : Option Int :=
  if sig.fsmState = .target1Hit then sig.runnerTimeStopAtUtc else sig.timeStopAtUtc

/-- A former session day, or the market is closed. -/
def DayOver (env : Surroundings) (now : Int) (sig : SignalInstance) : Prop :=
  istDay sig.createdAtUtc < istDay now ∨ env.marketClosed = true

/-- No signal before entry may live on: its window, its day or the market is over. -/
def EntryOver (env : Surroundings) (now : Int) (sig : SignalInstance) : Prop :=
  sig.expiresAtUtc < now ∨ DayOver env now sig

/-- No position may be held on: its time stop is past, or the market is closed. -/
def HoldingOver (env : Surroundings) (now : Int) (sig : SignalInstance) : Prop :=
  (∃ t, sig.timeStop = some t ∧ t < now) ∨ env.marketClosed = true

/-- What must not survive a sweep. -/
def Overdue (env : Surroundings) (now : Int) (sig : SignalInstance) : Prop :=
  (sig.fsmState ∈ preEntryStates ∧ EntryOver env now sig) ∨
    (sig.fsmState ∈ [.confirmed, .target1Hit] ∧ HoldingOver env now sig)

/-- Neither a fill nor a paper order is noted. -/
def SignalInstance.Unfilled (sig : SignalInstance) : Prop :=
  truthy sig.actualFillPrice = none ∧ sig.paperOrder = none

/-- The clock is past, and is not the zero that counts as none. -/
def ClockPast (clock : Option Int) (now : Int) : Prop := ∃ t, clock = some t ∧ t ≠ 0 ∧ t < now

/-- Half an hour has passed since the first target. -/
def WindowPast (hit : Option Int) (now : Int) : Prop := ∃ t, hit = some t ∧ t ≠ 0 ∧ 1800000 < now - t

instance (clock : Option Int) (now : Int) : Decidable (ClockPast clock now) :=
  inferInstanceAs (Decidable (∃ t, clock = some t ∧ t ≠ 0 ∧ t < now))

instance (hit : Option Int) (now : Int) : Decidable (WindowPast hit now) :=
  inferInstanceAs (Decidable (∃ t, hit = some t ∧ t ≠ 0 ∧ 1800000 < now - t))

/-- The overdue signals that a sweep does not move. -/
inductive Missed (env : Surroundings) (now : Int) (sig : SignalInstance) : Prop where
  /-- PRE_ARMED is in no group of states. -/
  | preArmed (state : sig.fsmState = .preArmed) (due : EntryOver env now sig)
  /-- The entry window is not asked for once it is TRIGGERED. -/
  | triggered (state : sig.fsmState = .triggered) (day : ¬ DayOver env now sig)
      (late : sig.expiresAtUtc < now)
  /-- The wall clock stands in for a time of zero. -/
  | atZero (state : sig.fsmState ∈ [.detected, .validated, .armed]) (day : ¬ DayOver env now sig)
      (late : sig.expiresAtUtc < now) (zero : now = 0) (wall : env.now ≤ sig.expiresAtUtc)
  /-- Without a fill the time stop is not asked for. -/
  | unfilled (state : sig.fsmState = .confirmed) (fill : sig.Unfilled) (day : ¬ DayOver env now sig)
      (due : HoldingOver env now sig)
  /-- An open paper leg of a former day is left to the settlement at the end of the day. -/
  | openLeg (state : sig.fsmState ∈ [.confirmed, .target1Hit])
      (prior : istDay sig.createdAtUtc < istDay now) (leg : sig.paperOrder.isSome)
      (remaining : 0 < sig.remainingQty) (due : HoldingOver env now sig)
  /-- A filled position of the day is not closed with the market. -/
  | atClose (state : sig.fsmState = .confirmed) (fill : ¬ sig.Unfilled)
      (prior : ¬ istDay sig.createdAtUtc < istDay now) (due : HoldingOver env now sig)
      (clock : ¬ ClockPast sig.timeStopAtUtc now)
  /-- A runner clock of zero counts as none. -/
  | zeroClock (state : sig.fsmState = .target1Hit) (day : ¬ DayOver env now sig)
      (due : HoldingOver env now sig) (clock : ¬ ClockPast sig.runnerTimeStopAtUtc now)
      (window : ¬ WindowPast sig.t1FillTimestamp now)

private theorem truthy_any (clock : Option Int) (p : Int → Bool) :
    (truthy clock).any p = true ↔ ∃ t, clock = some t ∧ t ≠ 0 ∧ p t = true := by
  cases clock with
  | none => simp [truthy]
  | some t => by_cases h : t = 0 <;> simp [truthy, Option.filter, h]

theorem clockPast_iff (clock : Option Int) (now : Int) :
    (truthy clock).any (· < now) = true ↔ ClockPast clock now := by
  simp only [truthy_any, ClockPast, decide_eq_true_eq]

theorem windowPast_iff (hit : Option Int) (now : Int) :
    (truthy hit).any (fun t => now - t > 1800000) = true ↔ WindowPast hit now := by
  simp only [truthy_any, WindowPast, decide_eq_true_eq, gt_iff_lt]

/-- The signals the sweep leaves where they are, state by state; PRE_ARMED has no branch. -/
def Spared (env : Surroundings) (now : Int) (sig : SignalInstance) : Prop :=
  match sig.fsmState with
  | .detected | .validated | .armed => ¬ DayOver env now sig ∧
      ¬ (if now = 0 then env.now else now) > sig.expiresAtUtc
  | .triggered => ¬ DayOver env now sig
  | .confirmed =>
    (sig.Unfilled ∧ ¬ DayOver env now sig) ∨
      (¬ sig.Unfilled ∧ istDay sig.createdAtUtc < istDay now ∧ sig.paperOrder.isSome ∧ 0 < sig.remainingQty) ∨
      (¬ sig.Unfilled ∧ ¬ istDay sig.createdAtUtc < istDay now ∧ ¬ ClockPast sig.timeStopAtUtc now)
  | .target1Hit =>
    (istDay sig.createdAtUtc < istDay now ∧ sig.paperOrder.isSome ∧ 0 < sig.remainingQty) ∨
      (¬ DayOver env now sig ∧ ¬ ClockPast sig.runnerTimeStopAtUtc now ∧
        ¬ WindowPast sig.t1FillTimestamp now)
  | _ => True

theorem sweepTarget_none_iff (env : Surroundings) (now : Int) (sig : SignalInstance) :
    sweepTarget env now sig = none ↔ Spared env now sig := by
  rw [sweepTarget, Spared, DayOver, SignalInstance.Unfilled]
  cases hs : sig.fsmState <;> simp only [decide_eq_true_eq, clockPast_iff, windowPast_iff]
  all_goals simp
  all_goals grind

theorem Missed.overdue {env : Surroundings} {now : Int} {sig : SignalInstance}
    (h : Missed env now sig) : Overdue env now sig := by
  cases h with
  | preArmed state due => exact .inl ⟨by rw [state]; decide, due⟩
  | triggered state day late => exact .inl ⟨by rw [state]; decide, .inl late⟩
  | atZero state day late zero wall =>
    refine .inl ⟨?_, .inl late⟩
    revert state
    cases sig.fsmState <;> decide
  | unfilled state fill day due => exact .inr ⟨by rw [state]; decide, due⟩
  | openLeg state prior leg remaining due => exact .inr ⟨state, due⟩
  | atClose state fill prior due clock => exact .inr ⟨by rw [state]; decide, due⟩
  | zeroClock state day due clock window => exact .inr ⟨by rw [state]; decide, due⟩

theorem Missed.spared {env : Surroundings} {now : Int} {sig : SignalInstance}
    (h : Missed env now sig) : Spared env now sig := by
  rw [Spared]
  cases h with
  | preArmed state due => simp only [state]
  | triggered state day late => simpa only [state] using day
  | atZero state day late zero wall =>
    have hwall : ¬ (if now = 0 then env.now else now) > sig.expiresAtUtc := by
      rw [if_pos zero]
      exact not_lt.mpr wall
    simp only [List.mem_cons, List.not_mem_nil, or_false] at state
    rcases state with state | state | state <;> simpa only [state] using ⟨day, hwall⟩
  | unfilled state fill day due => simpa only [state] using .inl ⟨fill, day⟩
  | openLeg state prior leg remaining due =>
    have hfill : ¬ sig.Unfilled := fun hfill => by simp [hfill.2] at leg
    simp only [List.mem_cons, List.not_mem_nil, or_false] at state
    rcases state with state | state
    · simpa only [state] using .inr (.inl ⟨hfill, prior, leg, remaining⟩)
    · simpa only [state] using .inl ⟨prior, leg, remaining⟩
  | atClose state fill prior due clock =>
    simpa only [state] using .inr (.inr ⟨fill, prior, clock⟩)
  | zeroClock state day due clock window => simpa only [state] using .inr ⟨day, clock, window⟩

/-- Of what must not survive, the sweep leaves just the missed signals. -/
theorem missed_iff (env : Surroundings) (now : Int) (sig : SignalInstance) :
    Missed env now sig ↔ Overdue env now sig ∧ Spared env now sig := by
  refine ⟨fun h => ⟨h.overdue, h.spared⟩, ?_⟩
  rintro ⟨⟨hstate, hover⟩ | ⟨hstate, hover⟩, hspared⟩
  · have hlate (hday : ¬ DayOver env now sig) : sig.expiresAtUtc < now := hover.resolve_right hday
    have hpre (hgroup : sig.fsmState ∈ [.detected, .validated, .armed]) (hday : ¬ DayOver env now sig)
        (hwall : ¬ (if now = 0 then env.now else now) > sig.expiresAtUtc) : Missed env now sig := by
      by_cases hzero : now = 0
      · rw [if_pos hzero] at hwall
        exact .atZero hgroup hday (hlate hday) hzero (not_lt.mp hwall)
      · rw [if_neg hzero] at hwall
        exact absurd (hlate hday) hwall
    unfold Spared at hspared
    cases hs : sig.fsmState <;> simp only [hs] at hspared
    case preArmed => exact .preArmed hs hover
    case triggered => exact .triggered hs hspared (hlate hspared)
    case detected => exact hpre (by rw [hs]; decide) hspared.1 hspared.2
    case validated => exact hpre (by rw [hs]; decide) hspared.1 hspared.2
    case armed => exact hpre (by rw [hs]; decide) hspared.1 hspared.2
    all_goals
      rw [hs] at hstate
      exact absurd hstate (by decide)
  · unfold Spared at hspared
    simp only [List.mem_cons, List.not_mem_nil, or_false] at hstate
    rcases hstate with hs | hs <;> simp only [hs] at hspared
    · rcases hspared with ⟨hfill, hday⟩ | ⟨hfill, hprior, hleg, hrem⟩ | ⟨hfill, hprior, hclock⟩
      · exact .unfilled hs hfill hday hover
      · exact .openLeg (by rw [hs]; decide) hprior hleg hrem hover
      · exact .atClose hs hfill hprior hover hclock
    · rcases hspared with ⟨hprior, hleg, hrem⟩ | ⟨hday, hclock, hwindow⟩
      · exact .openLeg (by rw [hs]; decide) hprior hleg hrem hover
      · exact .zeroClock hs hday hover hclock hwindow

/-! ### The loop and the pruning -/

theorem sweepTarget_edge {env : Surroundings} {now : Int} {sig : SignalInstance}
    {target : SignalFsmState} {reason : String} (h : sweepTarget env now sig = some (target, reason)) :
    Admits sig target none ∧ target ∈ terminalStates := by
  have hedge : target ∈ allowedTransitions sig.fsmState ∧ target ∈ terminalStates := by
    unfold sweepTarget at h
    simp only [decide_eq_true_eq] at h
    split_ifs at h <;> cases h
    all_goals cases hs : sig.fsmState <;> simp_all [allowedTransitions, terminalStates]
  refine ⟨⟨nofun, hedge.1, fun hfno => ?_⟩, hedge.2⟩
  have hends := hedge.2
  have hgate := hfno.1
  revert hends hgate
  cases target <;> decide

/-- What becomes of a signal in the loop: it is spared, or ended along an edge. -/
def SweptTo (env : Surroundings) (now : Int) (sig sig' : SignalInstance) : Prop :=
  (Spared env now sig ∧ sig' = sig) ∨
    (¬ Spared env now sig ∧ sig'.fsmState ∈ allowedTransitions sig.fsmState ∧
      sig'.fsmState ∈ terminalStates)

private theorem sweepOne_swept (env : Surroundings) (now : Int) (acc : SignalFsmManager × SweepCounts)
    (id : SignalId) : ∀ sig, acc.1.signals.get? id = some sig →
      ∃ sig', (sweepOne env now acc id).1.signals.get? id = some sig' ∧ SweptTo env now sig sig' := by
  intro sig hsig
  rcases sweepOne_eq env now acc id with ⟨sig₀, target, reason, hsig₀, htarget, heq⟩ | ⟨heq, hnone⟩
  · cases hsig.symm.trans hsig₀
    obtain ⟨hadmits, hends⟩ := sweepTarget_edge htarget
    obtain ⟨sig', hsig', hstate⟩ := transition_enters env acc.1 none reason hsig hadmits
    rw [heq]
    refine ⟨sig', hsig', .inr ⟨fun hspared => ?_, hstate ▸ hadmits.edge, hstate ▸ hends⟩⟩
    cases htarget.symm.trans ((sweepTarget_none_iff env now sig).mpr hspared)
  · rw [heq]
    exact ⟨sig, hsig, .inl ⟨(sweepTarget_none_iff env now sig).mp (hnone sig hsig), rfl⟩⟩

theorem sweepLoop_swept (env : Surroundings) (m : SignalFsmManager) (nowMs : Option Int)
    {id : SignalId} {sig : SignalInstance} (hsig : m.signals.get? id = some sig) :
    ∃ sig', (m.sweepLoop env nowMs).1.signals.get? id = some sig' ∧
      SweptTo env (nowMs.getD env.now) sig sig' := by
  obtain ⟨hswept, -⟩ := foldl_own (fun acc : SignalFsmManager × SweepCounts => acc.1.signals.get?)
    (R := fun _ o o' => ∀ sig, o = some sig → ∃ sig', o' = some sig' ∧
      SweptTo env (nowMs.getD env.now) sig sig')
    (fun acc id x => sweepOne_other env (nowMs.getD env.now) acc id)
    (sweepOne_swept env (nowMs.getD env.now)) (m, { }) m.signals.nodup
  exact hswept id (List.mem_map_of_mem (Dict.mem_entries_of_get? hsig)) sig hsig

theorem overflowIds_ended {m : SignalFsmManager} {id : SignalId} (h : id ∈ m.overflowIds) :
    ∃ sig, m.signals.get? id = some sig ∧ sig.fsmState ∈ terminalStates := by
  obtain ⟨⟨k, sig⟩, he, rfl⟩ := List.mem_map.mp (List.mem_of_mem_take h)
  obtain ⟨hentry, hends⟩ := List.mem_filter.mp (List.mem_mergeSort.mp he)
  exact ⟨sig, (Dict.mem_entries_iff _ _ _).mp hentry, of_decide_eq_true hends⟩

theorem prune_get? (m : SignalFsmManager) (id : SignalId) :
    m.prune.signals.get? id = if id ∈ m.overflowIds then none else m.signals.get? id := by
  rw [SignalFsmManager.prune]
  by_cases h : id ∈ m.overflowIds <;> simp [h]

/-! ### What a sweep leaves -/

/-- Every signal a sweep moves goes along an edge, and every signal it removes has ended before. -/
structure Orderly (env : Surroundings) (m : SignalFsmManager) (nowMs : Option Int) : Prop where
  edges : ∀ id sig, m.signals.get? id = some sig →
    ∃ sig', (m.sweepLoop env nowMs).1.signals.get? id = some sig' ∧
      (sig' = sig ∨ sig'.fsmState ∈ allowedTransitions sig.fsmState)
  removed : ∀ id sig, (m.sweepLoop env nowMs).1.signals.get? id = some sig →
    (m.sweepExpired env nowMs).1.signals.get? id = some sig ∨ sig.fsmState ∈ terminalStates

structure Complete (env : Surroundings) (m : SignalFsmManager) (nowMs : Option Int) : Prop
    extends Orderly env m nowMs where
  survivors : ∀ id sig, (m.sweepExpired env nowMs).1.signals.get? id = some sig →
    ¬ Overdue env (nowMs.getD env.now) sig

/-- An orderly sweep whose survivors have ended or are spared. -/
structure Tidy (env : Surroundings) (m : SignalFsmManager) (nowMs : Option Int) : Prop
    extends Orderly env m nowMs where
  survivors : ∀ id sig, (m.sweepExpired env nowMs).1.signals.get? id = some sig →
    sig.fsmState ∈ terminalStates ∨ Spared env (nowMs.getD env.now) sig

theorem sweepExpired_get? (env : Surroundings) (m : SignalFsmManager) (nowMs : Option Int)
    (id : SignalId) : (m.sweepExpired env nowMs).1.signals.get? id =
      if id ∈ (m.sweepLoop env nowMs).1.overflowIds then none
      else (m.sweepLoop env nowMs).1.signals.get? id :=
  prune_get? _ id

/-- What the sweep leaves, the loop left; what it left and has not ended stays. -/
theorem sweepExpired_back {env : Surroundings} {m : SignalFsmManager} {nowMs : Option Int}
    {id : SignalId} {sig : SignalInstance} (h : (m.sweepExpired env nowMs).1.signals.get? id = some sig) :
    (m.sweepLoop env nowMs).1.signals.get? id = some sig := by
  rw [sweepExpired_get?] at h
  split at h
  · cases h
  · exact h

theorem sweepExpired_stays {env : Surroundings} {m : SignalFsmManager} {nowMs : Option Int}
    {id : SignalId} {sig : SignalInstance} (h : (m.sweepLoop env nowMs).1.signals.get? id = some sig)
    (hlive : sig.fsmState ∉ terminalStates) :
    (m.sweepExpired env nowMs).1.signals.get? id = some sig := by
  rw [sweepExpired_get?, if_neg fun hid => ?_, h]
  obtain ⟨sig₀, hsig₀, hends⟩ := overflowIds_ended hid
  cases h.symm.trans hsig₀
  exact hlive hends

theorem sweep_orderly (env : Surroundings) (m : SignalFsmManager) (nowMs : Option Int) :
    Orderly env m nowMs := by
  constructor
  · intro id sig hsig
    obtain ⟨sig', hsig', hswept⟩ := sweepLoop_swept env m nowMs hsig
    exact ⟨sig', hsig', hswept.imp And.right fun h => h.2.1⟩
  · intro id sig hsig
    by_cases hends : sig.fsmState ∈ terminalStates
    · exact .inr hends
    · exact .inl (sweepExpired_stays hsig hends)

theorem sweepLoop_back {env : Surroundings} {m : SignalFsmManager} {nowMs : Option Int}
    {id : SignalId} {sig' : SignalInstance}
    (h : (m.sweepLoop env nowMs).1.signals.get? id = some sig') :
    ∃ sig, m.signals.get? id = some sig ∧ SweptTo env (nowMs.getD env.now) sig sig' := by
  cases hsig : m.signals.get? id with
  | none => cases ((sweepLoop_moves env m nowMs).absent id hsig).symm.trans h
  | some sig =>
    obtain ⟨sig'', hsig'', hswept⟩ := sweepLoop_swept env m nowMs hsig
    cases h.symm.trans hsig''
    exact ⟨sig, rfl, hswept⟩

theorem sweep_tidy (env : Surroundings) (m : SignalFsmManager) (nowMs : Option Int) :
    Tidy env m nowMs := by
  refine ⟨sweep_orderly env m nowMs, fun id sig' hsig' => ?_⟩
  obtain ⟨sig, -, ⟨hspared, rfl⟩ | ⟨-, -, hends⟩⟩ := sweepLoop_back (sweepExpired_back hsig')
  · exact .inr hspared
  · exact .inl hends

/-- In every state the manager reaches and at every time a sweep leaves, of the signals that have
not ended, those it spares. -/
theorem reached_tidy (calls : List FsmCall) (env : Surroundings) (nowMs : Option Int) :
    Tidy env (run Book.step { } calls).fsm nowMs :=
  sweep_tidy env _ nowMs

theorem Overdue.not_ended {env : Surroundings} {now : Int} {sig : SignalInstance}
    (h : Overdue env now sig) : sig.fsmState ∉ terminalStates := by
  have hstate : sig.fsmState ∈ preEntryStates ∨ sig.fsmState ∈ [.confirmed, .target1Hit] :=
    h.imp And.left And.left
  revert hstate
  cases sig.fsmState <;> decide

theorem complete_iff (env : Surroundings) (m : SignalFsmManager) (nowMs : Option Int) :
    Complete env m nowMs ↔
      ∀ id sig, m.signals.get? id = some sig → ¬ Missed env (nowMs.getD env.now) sig := by
  constructor
  · intro h id sig hsig hmissed
    obtain ⟨hover, hspared⟩ := (missed_iff env _ sig).mp hmissed
    obtain ⟨sig', hsig', ⟨-, rfl⟩ | ⟨hn, -⟩⟩ := sweepLoop_swept env m nowMs hsig
    · exact h.survivors id sig' (sweepExpired_stays hsig' hover.not_ended) hover
    · exact hn hspared
  · intro h
    refine ⟨sweep_orderly env m nowMs, fun id sig' hsig' hover => ?_⟩
    obtain ⟨sig, hsig, ⟨hspared, rfl⟩ | ⟨-, -, hends⟩⟩ := sweepLoop_back (sweepExpired_back hsig')
    · exact h id sig' hsig ((missed_iff env _ sig').mpr ⟨hover, hspared⟩)
    · exact hover.not_ended hends

def openLegCall : NewSignal :=
  ⟨{ armedCall with
      paperOrder := some { symbol := "NSE:NIFTY-CALL", quantity := 75 }, remainingQty := 75
      stateHistory := [] }, rfl⟩

/-- It is held past its time stop, the session day and the close. -/
theorem openLeg_survives :
    ¬ Complete { now := 172800000, marketClosed := true }
      (run Book.step { } [.register openLegCall,
        .transition { now := 1000 } "s" .triggered none "TRIGGER_LEVEL_HIT" none,
        .transition { now := 2000 } "s" .confirmed none "ENTRY_CONFIRMED" none]).fsm none := by
  intro h
  have hstate : ((sweepExpired { now := 172800000, marketClosed := true }
      (run Book.step { } [.register openLegCall,
        .transition { now := 1000 } "s" .triggered none "TRIGGER_LEVEL_HIT" none,
        .transition { now := 2000 } "s" .confirmed none "ENTRY_CONFIRMED" none]).fsm none).1.signals.get?
          "s").map (·.fsmState) = some .confirmed := by decide +kernel
  obtain ⟨sig, hsig, hheld⟩ := Option.map_eq_some_iff.mp hstate
  exact h.survivors "s" sig hsig (.inr ⟨by rw [hheld]; decide, .inr rfl⟩)

end Droid.Signals
