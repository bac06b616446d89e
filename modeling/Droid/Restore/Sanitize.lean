import Droid.Audit.Restart
import Droid.Signals.OutcomeLabels

/-! What a restart sweeps, repairs and voids among the signals in memory, and the metrics of every
store that the manager's calls and these reach. -/
namespace Droid.Restore
open Lib Signals
open SignalFsmManager (istDay)

/-! ### Stale signals -/

/-- Where the signals of an earlier session, or of one that is over, are sent, and why. -/
def sanitizeTarget (env : Surroundings) (inst : SignalInstance) : Option (SignalFsmState × String) :=
  let isPriorDay : Bool := istDay inst.createdAtUtc < istDay env.now
  let unfilled : Bool := truthy inst.actualFillPrice = none ∧ inst.paperOrder = none
  if isPriorDay then
    if inst.fsmState ∈ [.detected, .validated, .armed, .triggered, .confirmed] ∧ unfilled then
      some (.expired, "PRIOR_DAY_EXPIRED")
    else if inst.fsmState = .target1Hit then some (.runnerTimeStopHit, "PRIOR_DAY_RUNNER_EXPIRED")
    else if inst.fsmState = .confirmed then some (.closed, "PRIOR_DAY_EOD_SQUARE_OFF")
    else none
  else if env.marketClosed then
    if inst.fsmState ∈ [.detected, .validated, .armed, .triggered] ∨
        (inst.fsmState = .confirmed ∧ unfilled) then
      some (.expired, "MARKET_CLOSED_SWEEP")
    else if inst.fsmState = .target1Hit then some (.runnerTimeStopHit, "MARKET_CLOSED_RUNNER")
    else none
  else none

/-- The first loop; an exception ends all of `sanitize_persisted_signals`. -/
def sweepStale (env : Surroundings) (m : SignalFsmManager) : List SignalId → SignalFsmManager × Bool
  | [] => (m, true)
  | sid :: sids =>
    match (m.signals.get? sid).bind (sanitizeTarget env) with
    | none => sweepStale env m sids
    | some (target, reason) =>
      match m.transition env sid target none reason none with
      | (m, .raised) => (m, false)
      | (m, _) => sweepStale env m sids

/-! ### Outcome repair -/

def terminalOutcomeFacts (inst : SignalInstance) : Option (String × String × ℚ) :=
  let reward (rr default : ℚ) : ℚ := (truthy (some rr)).getD default
  match inst.fsmState with
  | .runnerTimeStopHit => some ("RUNNER_TIME_STOP", "PARTIAL_WIN", reward inst.riskRewardT1 (3 / 2))
  | .target2Hit => some ("WIN_T2", "FULL_WIN", reward inst.riskRewardT2 3)
  | .stopLossHit => some ("LOSS_SL", "STOP_LOSS_HIT", -1)
  | .target1Hit => some ("WIN_T1", "PARTIAL_WIN", reward inst.riskRewardT1 (3 / 2))
  | .timeStopHit => some ("TIME_STOP", "TIME_STOP_LOSS", 0)
  | _ => none

/-- A text where its truth is tested: null and the empty one are false. -/
def givenOr (text : Option String) (default : String) : Option String :=
  some ((text.filter (· ≠ "")).getD default)

def repaired (inst : SignalInstance) (facts : String × String × ℚ) : SignalInstance :=
  { inst with
    outcomeStatus := givenOr inst.outcomeStatus facts.1
    terminalOutcome := givenOr inst.terminalOutcome facts.2.1
    realizedRr := some (inst.realizedRr.getD facts.2.2)
    realizedRrGross := some (inst.realizedRrGross.getD facts.2.2)
    realizedRrNet := some (inst.realizedRrNet.getD facts.2.2) }

/-- One turn of the repair loop, noted in the audit log when anything was missing. -/
def repairOne (m : SignalFsmManager) (sid : SignalId) : SignalFsmManager :=
  match m.signals.get? sid with
  | none => m
  | some inst =>
    match terminalOutcomeFacts inst with
    | none => m
    | some facts =>
      if repaired inst facts = inst then m
      else
        m.record sid (repaired inst facts)
          { signalId := sid, fromState := inst.fsmState, toState := inst.fsmState
            marketPrice := inst.exitPrice, reasonCode := "OUTCOME_REPAIR" }

/-! ### Ghosts -/

/-- A demo or test signal, or one created far from the market. -/
def isGhost (sid : SignalId) (inst : SignalInstance) : Bool :=
  Audit.isTestOrGhostId sid ∨ (inst.underlying = "BANKNIFTY" ∧ inst.spotPrice < 40000) ∨
    (inst.underlying = "NIFTY" ∧ inst.spotPrice < 22000)

def voidGhost (env : Surroundings) (m : SignalFsmManager) (sid : SignalId) : SignalFsmManager :=
  if (m.signals.get? sid).any (isGhost sid) then (m.delete env sid).1 else m

def sanitizePersistedSignals (env : Surroundings) (m : SignalFsmManager) : SignalFsmManager :=
  let ids (m : SignalFsmManager) : List SignalId := m.signals.entries.map Prod.fst
  match sweepStale env m (ids m) with
  | (m, false) => m
  | (m, true) =>
    let m := (ids m).foldl repairOne m
    (ids m).foldl (voidGhost env) m

/-! ### Labels after it -/

theorem sweepStale_labelled (env : Surroundings) {m : SignalFsmManager} (h : AllLabelled m)
    (sids : List SignalId) : AllLabelled (sweepStale env m sids).1 := by
  induction sids generalizing m with
  | nil => exact h
  | cons sid sids ih =>
    rw [sweepStale]
    split
    · exact ih h
    · rename_i target reason _
      have hmoved := h.transition env sid target none reason none
      split
      · rename_i m' heq
        rw [heq] at hmoved
        exact hmoved
      · rename_i m' result _ heq
        rw [heq] at hmoved
        exact ih hmoved

theorem terminalOutcomeFacts_labels {inst : SignalInstance} {facts : String × String × ℚ}
    (h : terminalOutcomeFacts inst = some facts) : (facts.1, facts.2.1) ∈ labelsOf inst.fsmState := by
  revert h
  rw [terminalOutcomeFacts]
  cases inst.fsmState <;> rintro h <;> cases h <;> exact List.mem_cons_self

theorem labelsOf_given {state : SignalFsmState} {e : String × String} (h : e ∈ labelsOf state) :
    e.1 ≠ "" ∧ e.2 ≠ "" := by
  revert e
  cases state <;> decide

theorem givenOr_given {text default : String} (h : text ≠ "") : givenOr (some text) default = some text := by
  rw [givenOr, Option.filter_some_pos (by simpa using h), Option.getD_some]

theorem repaired_labelled {inst : SignalInstance} (h : Labelled inst) {facts : String × String × ℚ}
    (hfacts : terminalOutcomeFacts inst = some facts) : Labelled (repaired inst facts) := by
  have hmem := terminalOutcomeFacts_labels hfacts
  rcases h with ⟨hstatus, houtcome⟩ | ⟨state, ⟨⟨e, he, hstatus, houtcome⟩, -⟩, hstate⟩
  · refine .inr ⟨inst.fsmState, ⟨⟨_, hmem, ?_, ?_⟩, fun _ => rfl⟩, .inl rfl⟩
    · rw [repaired, hstatus]
      rfl
    · rw [repaired, houtcome]
      rfl
  · obtain ⟨hgiven₁, hgiven₂⟩ := labelsOf_given he
    refine .inr ⟨state, ⟨⟨e, he, ?_, ?_⟩, fun _ => rfl⟩, hstate⟩
    · rw [repaired, hstatus]
      exact givenOr_given hgiven₁
    · rw [repaired, houtcome]
      exact givenOr_given hgiven₂

theorem repairOne_labelled {m : SignalFsmManager} (h : AllLabelled m) (sid : SignalId) :
    AllLabelled (repairOne m sid) := by
  rw [repairOne]
  split
  · exact h
  · rename_i inst hinst
    split
    · exact h
    · rename_i facts hfacts
      split
      · exact h
      · exact h.insert ((repaired_labelled (h sid inst hinst) hfacts).note _) rfl

theorem voidGhost_labelled (env : Surroundings) {m : SignalFsmManager} (h : AllLabelled m)
    (sid : SignalId) : AllLabelled (voidGhost env m sid) := by
  rw [voidGhost]
  split
  · exact h.delete env sid
  · exact h

theorem sanitize_labelled (env : Surroundings) {m : SignalFsmManager} (h : AllLabelled m) :
    AllLabelled (sanitizePersistedSignals env m) := by
  have hswept := sweepStale_labelled env h (m.signals.entries.map Prod.fst)
  rw [sanitizePersistedSignals]
  split
  · rename_i m' heq
    rw [heq] at hswept
    exact hswept
  · rename_i m' heq
    rw [heq] at hswept
    have hrepaired := run_of_always (always_of_step (P := AllLabelled)
      (fun _ sid h => repairOne_labelled h sid) hswept (m'.signals.entries.map Prod.fst))
    exact run_of_always (always_of_step (P := AllLabelled)
      (fun _ sid h => voidGhost_labelled env h sid) hrepaired _)

/-! ### Every reachable store -/

/-- A signal as its builder hands it over, without an outcome. -/
abbrev FreshSignal :=
  { new : SignalFsmManager.NewSignal // new.val.outcomeStatus = none ∧ new.val.terminalOutcome = none }

inductive StoreCall where
  | register (new : FreshSignal)
  | transition (env : Surroundings) (id : SignalId) (target : SignalFsmState)
      (marketPrice : Option ℚ) (reason : String) (expectedVersion : Option Int)
  | ratchetBreakeven (id : SignalId) (marketPrice : ℚ)
  | sweepExpired (env : Surroundings) (nowMs : Option Int)
  | delete (env : Surroundings) (id : SignalId)
  | sanitize (env : Surroundings)

def StoreCall.step (m : SignalFsmManager) : StoreCall → SignalFsmManager
  | .register new => (m.register new.val).1
  | .transition env id target marketPrice reason expectedVersion =>
    (m.transition env id target marketPrice reason expectedVersion).1
  | .ratchetBreakeven id marketPrice => (m.ratchetBreakeven id marketPrice).1
  | .sweepExpired env nowMs => (m.sweepExpired env nowMs).1
  | .delete env id => (m.delete env id).1
  | .sanitize env => sanitizePersistedSignals env m

theorem StoreCall.step_labelled (call : StoreCall) {m : SignalFsmManager} (h : AllLabelled m) :
    AllLabelled (call.step m) := by
  cases call with
  | register new => exact h.register new.val new.property
  | transition env id target marketPrice reason expectedVersion =>
    exact h.transition env id target marketPrice reason expectedVersion
  | ratchetBreakeven id marketPrice => exact h.ratchetBreakeven id marketPrice
  | sweepExpired env nowMs => exact h.sweepExpired env nowMs
  | delete env id => exact h.delete env id
  | sanitize env => exact sanitize_labelled env h

def storeAfter (calls : List StoreCall) : SignalFsmManager := run StoreCall.step { } calls

theorem storeAfter_labelled (calls : List StoreCall) : AllLabelled (storeAfter calls) := by
  have hempty : AllLabelled ({ } : SignalFsmManager) := fun id sig h => by cases h
  exact run_of_always (always_of_step (P := AllLabelled) (fun _ call h => call.step_labelled h) hempty calls)

theorem attributed_labelled {m : SignalFsmManager} (h : AllLabelled m) :
    ∀ sig ∈ m.attributed, Labelled sig := by
  intro sig hsig
  obtain ⟨⟨id, _⟩, hentry, rfl⟩ := List.mem_map.mp (List.mem_of_mem_filter hsig)
  exact h id _ ((Dict.mem_entries_iff _ _ _).mp hentry)

/-- In every reachable store the metrics count every trade once exactly when no attributed signal
carries a first target and every time stop has an R. -/
theorem metrics_countOnce_iff (calls : List StoreCall) :
    CountsOnce (storeAfter calls).attributed ↔
      (∀ sig ∈ (storeAfter calls).attributed, sig.outcomeStatus ≠ some "WIN_T1") ∧
        ∀ sig ∈ (storeAfter calls).attributed,
          ¬ (sig.fsmState = .timeStopHit ∧ sig.recordedNetR = none) :=
  countsOnce_iff (attributed_labelled (storeAfter_labelled calls))

private def targetCall : SignalInstance where
  signalId := "SIG-A"
  underlying := "NIFTY"
  direction := .longCall
  spotPrice := 100
  entryMin := 99
  entryMax := 101
  trigger := 100
  stopLoss := 95
  target1 := 110
  target2 := 120
  riskRewardT1 := 2
  riskRewardT2 := 4
  createdAtUtc := 0
  expiresAtUtc := 300000
  lastUpdatedUtc := 0

private def targetCalls : List StoreCall :=
  let enter (state : SignalFsmState) (price : ℚ) : StoreCall :=
    .transition { now := 1000 } "SIG-A" state (some price) "" none
  [.register ⟨⟨targetCall, rfl⟩, rfl, rfl⟩, enter .validated 100, enter .armed 100, enter .triggered 100,
    enter .confirmed 100, enter .target1Hit 110]

/-- One signal at its first target is two completed trades and one of its strategy. -/
theorem first_target_counted_twice :
    ¬ ∀ calls : List StoreCall, CountsOnce (storeAfter calls).attributed := by
  intro h
  have hstrategies := (h targetCalls).strategies
  revert hstrategies
  decide +kernel

end Droid.Restore
