import Droid.Signals.OutcomeMetrics
import Droid.Signals.Replay
import Droid.Lib.Decimal

/-! The outcome labels that the calls of the manager leave on its signals, and what the metrics
count by them. -/
namespace Droid.Signals
open Lib

/-- The outcome status and terminal outcome that entering a state writes. -/
def labelsOf : SignalFsmState → List (String × String)
  | .target1Hit => [("WIN_T1", "PARTIAL_WIN")]
  | .target2Hit => [("WIN_T2", "FULL_WIN")]
  | .stopLossHit => [("LOSS_SL", "STOP_LOSS_HIT"), ("LOSS_SL", "BREAKEVEN")]
  | .timeStopHit => [("TIME_STOP", "TIME_STOP_LOSS")]
  | .runnerTimeStopHit => [("RUNNER_TIME_STOP", "PARTIAL_WIN")]
  | .expired => [("EXPIRED", "EXPIRED"), ("EXPIRED_OTM", "EXPIRED"), ("EXPIRED_ITM", "ASSIGNED")]
  | .invalidated => [("INVALIDATED", "INVALIDATED")]
  | _ => []

structure LabelledBy (sig : SignalInstance) (state : SignalFsmState) : Prop where
  labels : ∃ e ∈ labelsOf state, sig.outcomeStatus = some e.1 ∧ sig.terminalOutcome = some e.2
  graded : state ∉ [.expired, .invalidated] → sig.realizedRr.isSome

/-- No labels at all, or those of the state the signal is in or was closed from. -/
def Labelled (sig : SignalInstance) : Prop :=
  (sig.outcomeStatus = none ∧ sig.terminalOutcome = none) ∨
    ∃ state, LabelledBy sig state ∧ (sig.fsmState = state ∨ sig.fsmState = .closed)

/-! ### One signal -/

theorem recordFrictionR_fields (schedule : IndianFnoCostSchedule) (marks : OptionMarks)
    (sig : SignalInstance) (grossR : ℚ) (price : Option ℚ) :
    ∃ net costs, recordFrictionR schedule marks sig grossR price =
      [.realizedRrNet net, .costBreakdownR costs] := by
  rw [recordFrictionR]
  split
  · exact ⟨_, _, rfl⟩
  · exact ⟨_, _, rfl⟩

theorem exitOutcome_labels (schedule : IndianFnoCostSchedule) (marks : OptionMarks)
    (sig : SignalInstance) (marketPrice : Option ℚ) {hit : List OutcomeField}
    (hhit : hit = [] ∨ hit = [.t1Hit] ∨ hit = [.t2Hit]) (status outcome : String) (grossR : ℚ)
    (fallback : Option ℚ) :
    let written := (sig.setattrs
      (exitOutcome schedule marks sig marketPrice hit status outcome grossR fallback)).1
    written.outcomeStatus = some status ∧ written.terminalOutcome = some outcome ∧
      written.realizedRr.isSome := by
  obtain ⟨net, costs, hfriction⟩ := recordFrictionR_fields schedule marks sig grossR (marketPrice.or fallback)
  rw [exitOutcome, hfriction]
  rcases hhit with rfl | rfl | rfl <;> exact ⟨rfl, rfl, rfl⟩

theorem outcome_labels (schedule : IndianFnoCostSchedule) (marks : OptionMarks)
    (sig : SignalInstance) (marketPrice : Option ℚ) {target : SignalFsmState}
    (hout : target ∈ outcomeStates) :
    LabelledBy (sig.setattrs (computeTerminalOutcome schedule marks sig marketPrice target)).1 target := by
  have hexit : ∀ (hit : List OutcomeField) (status outcome : String) (grossR : ℚ) (fallback : Option ℚ),
      (hit = [] ∨ hit = [.t1Hit] ∨ hit = [.t2Hit]) → (status, outcome) ∈ labelsOf target →
      LabelledBy (sig.setattrs
        (exitOutcome schedule marks sig marketPrice hit status outcome grossR fallback)).1 target := by
    intro hit status outcome grossR fallback hhit hmem
    obtain ⟨hstatus, houtcome, hgraded⟩ :=
      exitOutcome_labels schedule marks sig marketPrice hhit status outcome grossR fallback
    exact ⟨⟨_, hmem, hstatus, houtcome⟩, fun _ => hgraded⟩
  cases target with
  | target1Hit => exact hexit _ _ _ _ _ (.inr (.inl rfl)) (by decide)
  | target2Hit => exact hexit _ _ _ _ _ (.inr (.inr rfl)) (by decide)
  | stopLossHit =>
    refine hexit _ _ _ _ _ (.inl rfl) ?_
    split <;> decide
  | timeStopHit => exact hexit _ _ _ _ _ (.inl rfl) (by decide)
  | runnerTimeStopHit => exact hexit _ _ _ _ _ (.inl rfl) (by decide)
  | expired =>
    refine ⟨?_, fun h => absurd (by decide) h⟩
    rw [computeTerminalOutcome, expiryOutcome]
    cases resolveIntrinsicAtExpiry sig marketPrice with
    | none => exact ⟨("EXPIRED", "EXPIRED"), by decide, rfl, rfl⟩
    | some intrinsic =>
      by_cases hworthless : intrinsic ≤ 0
      · simp only [hworthless, if_true]
        exact ⟨("EXPIRED_OTM", "EXPIRED"), by decide, rfl, rfl⟩
      · simp only [hworthless, if_false]
        exact ⟨("EXPIRED_ITM", "ASSIGNED"), by decide, rfl, rfl⟩
  | invalidated => exact ⟨⟨("INVALIDATED", "INVALIDATED"), by decide, rfl, rfl⟩, fun h => absurd (by decide) h⟩
  | detected => exact absurd hout (by decide)
  | preArmed => exact absurd hout (by decide)
  | validated => exact absurd hout (by decide)
  | armed => exact absurd hout (by decide)
  | triggered => exact absurd hout (by decide)
  | confirmed => exact absurd hout (by decide)
  | closed => exact absurd hout (by decide)

theorem LabelledBy.congr {sig sig' : SignalInstance} {state : SignalFsmState} (h : LabelledBy sig state)
    (hlabels : (sig'.outcomeStatus, sig'.terminalOutcome, sig'.realizedRr) =
      (sig.outcomeStatus, sig.terminalOutcome, sig.realizedRr)) : LabelledBy sig' state := by
  simp only [Prod.mk.injEq] at hlabels
  obtain ⟨hstatus, houtcome, hgrade⟩ := hlabels
  refine ⟨?_, ?_⟩
  · rw [hstatus, houtcome]
    exact h.labels
  · rw [hgrade]
    exact h.graded

theorem Labelled.congr {sig sig' : SignalInstance} (h : Labelled sig)
    (hlabels : (sig'.outcomeStatus, sig'.terminalOutcome, sig'.realizedRr) =
      (sig.outcomeStatus, sig.terminalOutcome, sig.realizedRr))
    (hstate : sig'.fsmState = sig.fsmState ∨ sig'.fsmState = .closed) : Labelled sig' := by
  rcases h with ⟨hstatus, houtcome⟩ | ⟨state, hlabelled, hold⟩
  · simp only [Prod.mk.injEq] at hlabels
    exact .inl ⟨hlabels.1.trans hstatus, hlabels.2.1.trans houtcome⟩
  · refine .inr ⟨state, hlabelled.congr hlabels, ?_⟩
    rcases hstate with hsame | hclosed
    · rw [hsame]
      exact hold
    · exact .inr hclosed

/-- A step into a state without an outcome leaves the labels. -/
theorem advance_unlabelled {env : Surroundings} {sig sig' : SignalInstance} {target : SignalFsmState}
    {marketPrice : Option ℚ} (hout : target ∉ outcomeStates)
    (hadv : advance env sig target marketPrice = .moved sig' ∨
      advance env sig target marketPrice = .raised sig') :
    (sig'.outcomeStatus, sig'.terminalOutcome, sig'.realizedRr) =
      (sig.outcomeStatus, sig.terminalOutcome, sig.realizedRr) := by
  unfold advance at hadv
  split at hadv
  · rcases hadv with h | h <;> cases h
    rfl
  · rcases hadv with h | h <;> cases h
    rfl
  · rw [if_neg hout] at hadv
    rcases hadv with h | h <;> cases h
    rfl

theorem advance_labelledBy {env : Surroundings} {sig sig' : SignalInstance} {target : SignalFsmState}
    {marketPrice : Option ℚ} (hout : target ∈ outcomeStates)
    (hadv : advance env sig target marketPrice = .moved sig' ∨
      advance env sig target marketPrice = .raised sig') : LabelledBy sig' target := by
  have hwritten := outcome_labels { } env.marks sig marketPrice hout
  rcases hset : sig.setattrs (computeTerminalOutcome { } env.marks sig marketPrice target) with ⟨sig₁, done⟩
  rw [hset] at hwritten
  rw [advance_outcome env hout hset] at hadv
  cases done with
  | false =>
    rcases hadv with h | h <;> cases h
    exact hwritten
  | true =>
    rcases hadv with h | h <;> cases h
    split
    · obtain ⟨_, _, _, _, hrun⟩ := startRunner_writes sig₁ env.now
      rw [hrun]
      exact hwritten.congr rfl
    · exact hwritten

theorem closed_of_edge {state target : SignalFsmState} (hstate : labelsOf state ≠ [])
    (hedge : target ∈ allowedTransitions state) (hout : target ∉ outcomeStates) : target = .closed := by
  revert hstate hedge hout
  cases state <;> cases target <;> decide

/-- An admitted step leaves its signal labelled, whether it ends or raises. -/
theorem advance_labelled {env : Surroundings} {sig sig' : SignalInstance} {target : SignalFsmState}
    {marketPrice : Option ℚ} (h : Labelled sig) (hedge : target ∈ allowedTransitions sig.fsmState)
    (hadv : advance env (sig.enter env.now target) target marketPrice = .moved sig' ∨
      advance env (sig.enter env.now target) target marketPrice = .raised sig') : Labelled sig' := by
  have hentered : sig'.fsmState = target := by
    rcases hadv with hm | hr
    · exact (advance_enters.1 hm).1
    · exact (advance_enters.2 hr).1
  by_cases hout : target ∈ outcomeStates
  · exact .inr ⟨target, advance_labelledBy hout hadv, .inl hentered⟩
  · have hkept := advance_unlabelled hout hadv
    rcases h with ⟨hstatus, houtcome⟩ | ⟨state, hby, hstate | hclosed⟩
    · simp only [Prod.mk.injEq] at hkept
      exact .inl ⟨hkept.1.trans hstatus, hkept.2.1.trans houtcome⟩
    · obtain ⟨e, he, -⟩ := hby.labels
      rw [hstate] at hedge
      rw [closed_of_edge (List.ne_nil_of_mem he) hedge hout] at hentered
      exact .inr ⟨state, hby.congr hkept, .inr hentered⟩
    · rw [hclosed] at hedge
      cases hedge

/-! ### The calls -/

def AllLabelled (m : SignalFsmManager) : Prop :=
  ∀ id sig, m.signals.get? id = some sig → Labelled sig

theorem AllLabelled.insert {m m' : SignalFsmManager} (h : AllLabelled m) {id : SignalId}
    {sig : SignalInstance} (hsig : Labelled sig) (hins : m'.signals = m.signals.insert id sig) :
    AllLabelled m' := by
  intro x sig' hx
  rw [hins, Dict.get?_insert] at hx
  split at hx
  · cases hx
    exact hsig
  · exact h x sig' hx

theorem Labelled.note {sig : SignalInstance} (h : Labelled sig) (audit : TransitionAudit) :
    Labelled (sig.note audit) :=
  h.congr rfl (.inl rfl)

theorem AllLabelled.transition {m : SignalFsmManager} (h : AllLabelled m) (env : Surroundings)
    (id : SignalId) (target : SignalFsmState) (marketPrice : Option ℚ) (reason : String)
    (expectedVersion : Option Int) :
    AllLabelled (m.transition env id target marketPrice reason expectedVersion).1 := by
  cases hsig : m.signals.get? id with
  | none =>
    rw [transition_absent env m target marketPrice reason expectedVersion hsig]
    exact h
  | some sig =>
    rcases transition_advances env m target marketPrice reason expectedVersion hsig with
      ⟨-, hm⟩ | ⟨ha, moved, ⟨hadv, hres⟩ | ⟨hadv, hres⟩⟩
    · rw [hm]
      exact h
    · have hmoved := advance_labelled (h id sig hsig) ha.edge (.inl hadv)
      rw [hres]
      exact h.insert (hmoved.note _) (enqueueSettlement_frame _ _ _ _).1
    · have hmoved := advance_labelled (h id sig hsig) ha.edge (.inr hadv)
      rw [hres]
      exact h.insert hmoved rfl

theorem AllLabelled.ratchetBreakeven {m : SignalFsmManager} (h : AllLabelled m) (id : SignalId)
    (marketPrice : ℚ) : AllLabelled (m.ratchetBreakeven id marketPrice).1 := by
  rcases ratchetBreakeven_cases m id marketPrice with
    hsame | ⟨sig, newSl, audit, hsig, -, -, -, -, hrecord⟩
  · rw [hsame]
    exact h
  · have hmoved : Labelled { sig with currentStopLoss := some newSl, breakevenActivated := true } :=
      (h id sig hsig).congr rfl (.inl rfl)
    rw [hrecord]
    exact h.insert (hmoved.note audit) rfl

theorem AllLabelled.delete {m : SignalFsmManager} (h : AllLabelled m) (env : Surroundings)
    (id : SignalId) : AllLabelled (m.delete env id).1 := by
  rcases delete_cases env m id with ⟨-, hsame⟩ | ⟨sig, audit, hsig, -, -, -, hrecord⟩
  · rw [hsame]
    exact h
  · rw [hrecord]
    refine h.insert (Labelled.note ?_ audit) rfl
    split
    · exact (h id sig hsig).congr rfl (.inr rfl)
    · exact h id sig hsig

theorem AllLabelled.sweepExpired {m : SignalFsmManager} (h : AllLabelled m) (env : Surroundings)
    (nowMs : Option Int) : AllLabelled (m.sweepExpired env nowMs).1 := by
  have hloop : ∀ (ids : List SignalId) (acc : SignalFsmManager × SignalFsmManager.SweepCounts),
      AllLabelled acc.1 →
      AllLabelled (ids.foldl (SignalFsmManager.sweepOne env (nowMs.getD env.now)) acc).1 := by
    intro ids
    induction ids with
    | nil => exact fun _ hacc => hacc
    | cons id ids ih =>
      intro acc hacc
      refine ih _ ?_
      rcases sweepOne_eq env (nowMs.getD env.now) acc id with ⟨_, target, reason, -, -, heq⟩ | ⟨heq, -⟩
      · rw [heq]
        exact hacc.transition env id target none reason none
      · rw [heq]
        exact hacc
  have hswept := hloop (m.signals.entries.map Prod.fst) (m, { }) h
  intro x sig hx
  rw [SignalFsmManager.sweepExpired, SignalFsmManager.prune, Dict.get?_filterKeys] at hx
  split at hx
  · exact hswept x sig hx
  · cases hx

/-- A new signal carries no outcome yet. -/
theorem AllLabelled.register {m : SignalFsmManager} (h : AllLabelled m)
    (new : SignalFsmManager.NewSignal)
    (hnew : new.val.outcomeStatus = none ∧ new.val.terminalOutcome = none) :
    AllLabelled (m.register new).1 := by
  rcases register_cases m new with ⟨hsame, -⟩ | ⟨-, audit, -, hrecord⟩
  · rw [hsame]
    exact h
  · have hfresh : Labelled (SignalFsmManager.initialLevels new.val) := .inl hnew
    rw [hrecord]
    exact h.insert (hfresh.note audit) rfl

/-! ### What the metrics count -/

namespace OutcomeLabels

/-- How often a signal with these labels counts in the headline. -/
def headline (l : OutcomeLabels) : Nat :=
  l.t1.toNat + l.t2.toNat + l.sl.toNat + (l.pureTimeStop.toNat + l.runnerTimeStop.toNat)

/-- It counts as a trade once, towards one side only; but a first target still booked counts
twice in the headline. -/
structure CountsAs (l : OutcomeLabels) : Prop where
  completed : l.completed = (l.isWin || l.isLoss)
  desk : l.deskLoss = l.isLoss
  sides : ((l.t1 || l.t2 || l.runnerTimeStop) && (l.sl || l.pureTimeStop)) = false
  headline : l.headline = l.completed.toNat + (decide (l.status = some "WIN_T1")).toNat
  timeStop : (l.completed && !l.isWin && !l.sl) =
    (decide (l.state = .timeStopHit) || decide (l.status = some "TIME_STOP"))

/-- The labels that signals can carry: none, or those of their state, kept when it is closed. -/
def carried : List OutcomeLabels :=
  let states : List SignalFsmState :=
    [.detected, .preArmed, .validated, .armed, .triggered, .confirmed, .target1Hit, .target2Hit,
      .stopLossHit, .timeStopHit, .runnerTimeStopHit, .invalidated, .expired, .closed]
  states.flatMap fun state => ⟨state, none, none⟩ ::
    (labelsOf state).flatMap fun e => [⟨state, some e.1, some e.2⟩, ⟨.closed, some e.1, some e.2⟩]

instance (l : OutcomeLabels) : Decidable l.CountsAs :=
  decidable_of_iff (_ ∧ _ ∧ _ ∧ _ ∧ _)
    ⟨fun ⟨h₁, h₂, h₃, h₄, h₅⟩ => ⟨h₁, h₂, h₃, h₄, h₅⟩,
      fun h => ⟨h.completed, h.desk, h.sides, h.headline, h.timeStop⟩⟩

theorem carried_countsAs : ∀ l ∈ carried, l.CountsAs := by decide +kernel

end OutcomeLabels

theorem Labelled.carried {sig : SignalInstance} (h : Labelled sig) : sig.labels ∈ OutcomeLabels.carried := by
  rw [OutcomeLabels.carried, List.mem_flatMap, SignalInstance.labels]
  rcases h with ⟨hs, ho⟩ | ⟨state, ⟨⟨e, he, hs, ho⟩, -⟩, hst⟩
  · rw [hs, ho]
    refine ⟨sig.fsmState, ?_, List.mem_cons_self⟩
    cases sig.fsmState <;> decide
  · rw [hs, ho]
    refine ⟨state, by cases state <;> decide, List.mem_cons_of_mem _ (List.mem_flatMap.mpr ⟨e, he, ?_⟩)⟩
    rcases hst with hst | hst
    · rw [hst]
      exact List.mem_cons_self
    · rw [hst]
      exact List.mem_cons_of_mem _ List.mem_cons_self

theorem Labelled.countsAs {sig : SignalInstance} (h : Labelled sig) : sig.labels.CountsAs :=
  OutcomeLabels.carried_countsAs _ h.carried

/-! ### Sums over the signals -/

/-- What each signal adds to its entry, the entries of a breakdown sum up. -/
theorem breakdownBy_total {w : BreakdownEntry → ℤ} {u : SignalInstance → ℤ} (hempty : w { } = 0)
    (hcount : ∀ entry sig, w (entry.count sig) = w entry + u sig) (key : SignalInstance → String)
    (sigs : List SignalInstance) :
    (breakdownBy key sigs).total (fun _ => w) = (sigs.map u).sum := by
  have hfold : ∀ (sigs : List SignalInstance) (b : Dict String BreakdownEntry),
      (sigs.foldl (fun b sig => b.insert (key sig) (((b.get? (key sig)).getD { }).count sig)) b).total
        (fun _ => w) = b.total (fun _ => w) + (sigs.map u).sum := by
    intro sigs
    induction sigs with
    | nil => intro b; simp
    | cons sig sigs ih =>
      intro b
      rw [List.foldl_cons, ih, Dict.total_insert, hcount, List.map_cons, List.sum_cons]
      cases b.get? (key sig) with
      | none => simp only [Option.getD_none, hempty, Option.map_none]; ring
      | some entry => simp only [Option.getD_some, Option.map_some]; ring
  rw [breakdownBy, hfold]
  simp

/-- Wins and losses of a breakdown. -/
def BreakdownEntry.trades (entry : BreakdownEntry) : ℤ := entry.wins + entry.losses

theorem breakdownBy_trades (key : SignalInstance → String) (sigs : List SignalInstance) :
    (breakdownBy key sigs).total (fun _ => BreakdownEntry.trades) =
      (sigs.map fun sig => ((sig.labels.isWin.toNat + sig.labels.isLoss.toNat : Nat) : ℤ)).sum := by
  refine breakdownBy_total rfl (fun entry sig => ?_) key sigs
  unfold BreakdownEntry.trades BreakdownEntry.count
  cases sig.labels.isWin <;> cases sig.labels.isLoss <;> simp <;> ring

theorem countP_eq_sum {α : Type} (p : α → Bool) (l : List α) :
    l.countP p = (l.map fun a => (p a).toNat).sum := by
  induction l with
  | nil => rfl
  | cons a l ih =>
    rw [List.countP_cons, List.map_cons, List.sum_cons, ih]
    cases p a
    · simp
    · simp
      omega

theorem completedSignals_eq (sigs : List SignalInstance) :
    (performanceMetrics sigs).completedSignals = (sigs.map fun sig => sig.labels.headline).sum := by
  simp only [performanceMetrics, OutcomeLabels.headline, List.sum_map_add, countP_eq_sum]

/-- Of labelled signals, the headline counts the trades, and a first target still booked again. -/
theorem completedSignals_labelled {sigs : List SignalInstance} (h : ∀ sig ∈ sigs, Labelled sig) :
    (performanceMetrics sigs).completedSignals =
      sigs.countP (·.labels.completed) + sigs.countP fun sig => sig.outcomeStatus = some "WIN_T1" := by
  rw [completedSignals_eq, countP_eq_sum, countP_eq_sum, ← List.sum_map_add]
  exact congrArg List.sum (List.map_congr_left fun sig hsig => (h sig hsig).countsAs.headline)

/-- Each metric of a trade counts it once: a signal counts towards one side at most; the headline,
both breakdowns, the two desks and the trades behind expectancy and profit factor are as many;
the win rate is a percentage; and expectancy times the trades is the net R, before rounding. -/
structure CountsOnce (sigs : List SignalInstance) : Prop where
  sides : ∀ sig ∈ sigs,
    ¬ ((sig.labels.t1 || sig.labels.t2 || sig.labels.runnerTimeStop) = true ∧
      (sig.labels.sl || sig.labels.pureTimeStop) = true)
  headline : (performanceMetrics sigs).completedSignals =
    (performanceMetrics sigs).winningSignals + (performanceMetrics sigs).losingSignals
  strategies : ((performanceMetrics sigs).completedSignals : ℤ) =
    (performanceMetrics sigs).strategyBreakdown.total fun _ => BreakdownEntry.trades
  underlyings : ((performanceMetrics sigs).completedSignals : ℤ) =
    (performanceMetrics sigs).underlyingBreakdown.total fun _ => BreakdownEntry.trades
  desks : (performanceMetrics sigs).completedSignals =
    (performanceMetrics sigs).scalpSummary.wins + (performanceMetrics sigs).scalpSummary.losses +
      ((performanceMetrics sigs).intradaySummary.wins + (performanceMetrics sigs).intradaySummary.losses)
  trades : (performanceMetrics sigs).completedSignals = (sigs.filter (·.labels.completed)).length
  rate : 0 ≤ (performanceMetrics sigs).winRatePct ∧ (performanceMetrics sigs).winRatePct ≤ 100
  expectancy :
    mean ((sigs.filter (·.labels.completed)).map (·.expectancyR)) *
        (performanceMetrics sigs).completedSignals =
      ((sigs.filter (·.labels.completed)).map (·.netR)).sum

/-! ### Each part -/

theorem breakdown_labelled {sigs : List SignalInstance} (h : ∀ sig ∈ sigs, Labelled sig)
    (key : SignalInstance → String) :
    (breakdownBy key sigs).total (fun _ => BreakdownEntry.trades) =
      (sigs.countP (·.labels.completed) : ℤ) := by
  induction sigs with
  | nil => rfl
  | cons sig sigs ih =>
    have hcompleted := (h sig List.mem_cons_self).countsAs.completed
    have hrest := ih fun other hother => h other (List.mem_cons_of_mem _ hother)
    rw [breakdownBy_trades] at hrest
    rw [breakdownBy_trades, List.map_cons, List.sum_cons, hrest, List.countP_cons, hcompleted,
      OutcomeLabels.isLoss]
    cases sig.labels.isWin <;> cases sig.labels.losing <;> simp [add_comm]

theorem desk_labelled (sigs : List SignalInstance) (h : ∀ sig ∈ sigs, Labelled sig) :
    (calcDesk sigs).wins + (calcDesk sigs).losses = sigs.countP (·.labels.completed) := by
  simp only [calcDesk, countP_eq_sum]
  rw [← List.sum_map_add]
  refine congrArg List.sum (List.map_congr_left fun sig hsig => ?_)
  have hcounts := (h sig hsig).countsAs
  rw [hcounts.completed, hcounts.desk, OutcomeLabels.isLoss]
  cases sig.labels.isWin <;> cases sig.labels.losing <;> rfl

theorem countP_split {α : Type} (p q : α → Bool) (l : List α) :
    (l.filter q).countP p + (l.filter fun a => ¬ q a).countP p = l.countP p := by
  induction l with
  | nil => rfl
  | cons a l ih =>
    cases hq : q a <;> simp [hq, List.countP_cons] at ih ⊢ <;> omega

theorem mean_mul_length (xs : List ℚ) : mean xs * xs.length = xs.sum := by
  rw [mean]
  split
  · rename_i hnil
    rw [hnil]
    simp
  · rename_i hne
    have hlen : (xs.length : ℚ) ≠ 0 := by simpa using hne
    exact div_mul_cancel₀ _ hlen

theorem percentage_bounds {part whole : Nat} (h : part ≤ whole) :
    0 ≤ percentage part whole ∧ percentage part whole ≤ 100 := by
  rw [percentage]
  split
  · rename_i hpos
    have hwhole : (0 : ℚ) < whole := Nat.cast_pos.mpr hpos
    have hpart : (part : ℚ) ≤ whole := Nat.cast_le.mpr h
    have hle : (part : ℚ) / whole ≤ 1 := (div_le_one hwhole).mpr hpart
    constructor
    · positivity
    · linarith
  · exact ⟨le_rfl, by norm_num⟩

theorem roundTo_percentage {x : ℚ} (h : 0 ≤ x ∧ x ≤ 100) : 0 ≤ roundTo 1 x ∧ roundTo 1 x ≤ 100 := by
  refine ⟨roundTo_nonneg 1 h.1, ?_⟩
  have hround : roundHalfEven (x * 10 ^ 1) ≤ 1000 :=
    Decimal.roundHalfEven_le (by push_cast; linarith [h.2])
  have hcast : (roundHalfEven (x * 10 ^ 1) : ℚ) ≤ 1000 := by exact_mod_cast hround
  rw [roundTo, div_le_iff₀ (by norm_num)]
  linarith

theorem winRate_bounds (sigs : List SignalInstance) :
    0 ≤ (performanceMetrics sigs).winRatePct ∧ (performanceMetrics sigs).winRatePct ≤ 100 := by
  refine roundTo_percentage (percentage_bounds ?_)
  omega

/-- A time stop without any R is a loss of one to the expectancy and nothing to the sum. -/
def SignalInstance.unscored (sig : SignalInstance) : Bool :=
  sig.fsmState = .timeStopHit ∧ sig.recordedNetR = none

theorem Labelled.scored {sig : SignalInstance} (h : Labelled sig)
    (hstatus : sig.outcomeStatus = some "TIME_STOP") : sig.recordedNetR ≠ none := by
  rcases h with ⟨hnone, -⟩ | ⟨state, ⟨⟨e, he, hs, -⟩, hgraded⟩, -⟩
  · rw [hnone] at hstatus
    cases hstatus
  · have hlabel : e.1 = "TIME_STOP" := (Option.some.inj (hstatus.symm.trans hs)).symm
    have hstate : state ∉ [SignalFsmState.expired, .invalidated] := by
      clear hs
      revert hlabel e
      cases state <;> decide
    obtain ⟨r, hr⟩ := Option.isSome_iff_exists.mp (hgraded hstate)
    rw [SignalInstance.recordedNetR, hr]
    cases sig.realizedRrNet <;> cases sig.realizedRrGross <;> simp

/-- Expectancy and sum grade a trade alike, but for an unscored time stop. -/
theorem Labelled.netR_eq {sig : SignalInstance} (h : Labelled sig) (hcompleted : sig.labels.completed = true) :
    sig.netR = sig.expectancyR + (sig.unscored.toNat : ℚ) := by
  have hstop := h.countsAs.timeStop
  have hscored := h.scored
  rw [hcompleted, Bool.true_and] at hstop
  rw [SignalInstance.netR, SignalInstance.expectancyR, SignalInstance.unscored]
  cases hnet : sig.recordedNetR with
  | some r => simp
  | none =>
    have hstatus : sig.outcomeStatus ≠ some "TIME_STOP" := fun hs => hscored hs hnet
    have hlabel : sig.labels.status ≠ some "TIME_STOP" := hstatus
    rw [decide_eq_false hlabel, Bool.or_false] at hstop
    change _ = decide (sig.fsmState = .timeStopHit) at hstop
    simp only [and_true, ← hstop]
    cases sig.labels.isWin <;> cases sig.labels.sl <;> simp

theorem Labelled.completed_of_unscored {sig : SignalInstance} (h : Labelled sig)
    (hunscored : sig.unscored = true) : sig.labels.completed = true := by
  have hstop := h.countsAs.timeStop
  have hstate : sig.labels.state = .timeStopHit := (of_decide_eq_true hunscored).1
  rw [decide_eq_true hstate, Bool.true_or, Bool.and_assoc] at hstop
  exact (Bool.and_eq_true_iff.mp hstop).1

/-- The two sums differ by the unscored time stops. -/
theorem netR_sum {sigs : List SignalInstance} (h : ∀ sig ∈ sigs, Labelled sig) :
    ((sigs.filter (·.labels.completed)).map (·.netR)).sum =
      ((sigs.filter (·.labels.completed)).map (·.expectancyR)).sum +
        (sigs.countP (·.unscored) : ℚ) := by
  induction sigs with
  | nil => simp
  | cons sig sigs ih =>
    have hrest := ih fun other hother => h other (List.mem_cons_of_mem _ hother)
    have hsig := h sig List.mem_cons_self
    rw [List.countP_cons]
    cases hcompleted : sig.labels.completed with
    | true =>
      rw [List.filter_cons_of_pos (by exact hcompleted), List.map_cons, List.map_cons, List.sum_cons,
        List.sum_cons, hrest, hsig.netR_eq hcompleted]
      cases sig.unscored <;> simp <;> ring
    | false =>
      have hscored : sig.unscored = false := by
        rw [Bool.eq_false_iff]
        intro hunscored
        rw [hsig.completed_of_unscored hunscored] at hcompleted
        cases hcompleted
      rw [List.filter_cons_of_neg (by simp [hcompleted]), hrest, hscored]
      simp

/-- The metrics of labelled signals count every trade once exactly when no first target is still
booked and every time stop has an R. -/
theorem countsOnce_iff {sigs : List SignalInstance} (h : ∀ sig ∈ sigs, Labelled sig) :
    CountsOnce sigs ↔ (∀ sig ∈ sigs, sig.outcomeStatus ≠ some "WIN_T1") ∧
      ∀ sig ∈ sigs, ¬ (sig.fsmState = .timeStopHit ∧ sig.recordedNetR = none) := by
  have hheadline := completedSignals_labelled h
  have hsum := netR_sum h
  have hlength : (sigs.filter (·.labels.completed)).length = sigs.countP (·.labels.completed) :=
    List.countP_eq_length_filter.symm
  have hmean := mean_mul_length ((sigs.filter (·.labels.completed)).map (·.expectancyR))
  rw [List.length_map, hlength] at hmean
  constructor
  · intro hcounts
    have htrades := hcounts.trades
    rw [hheadline, hlength] at htrades
    have hfirst : sigs.countP (fun sig => sig.outcomeStatus = some "WIN_T1") = 0 := by omega
    have hexpectancy := hcounts.expectancy
    rw [hheadline, hfirst, add_zero, hmean, hsum] at hexpectancy
    have hunscored : sigs.countP (·.unscored) = 0 := by
      have : (sigs.countP (·.unscored) : ℚ) = 0 := by linarith
      exact_mod_cast this
    refine ⟨fun sig hsig hwin => ?_, fun sig hsig hstop => ?_⟩
    · exact List.countP_eq_zero.mp hfirst sig hsig (decide_eq_true hwin)
    · exact List.countP_eq_zero.mp hunscored sig hsig (decide_eq_true hstop)
  · rintro ⟨hfirst, hstops⟩
    have hfirst₀ : sigs.countP (fun sig => sig.outcomeStatus = some "WIN_T1") = 0 :=
      List.countP_eq_zero.mpr fun sig hsig hwin => hfirst sig hsig (of_decide_eq_true hwin)
    have hunscored₀ : sigs.countP (·.unscored) = 0 :=
      List.countP_eq_zero.mpr fun sig hsig hstop => hstops sig hsig (of_decide_eq_true hstop)
    rw [hfirst₀, add_zero] at hheadline
    refine
      { sides := fun sig hsig => ?_
        headline := ?_
        strategies := ?_
        underlyings := ?_
        desks := ?_
        trades := hheadline.trans hlength.symm
        rate := winRate_bounds sigs
        expectancy := ?_ }
    · have hsides := (h sig hsig).countsAs.sides
      rintro ⟨hwin, hloss⟩
      rw [hwin, hloss] at hsides
      cases hsides
    · simp only [performanceMetrics]
      omega
    · rw [hheadline]
      exact (breakdown_labelled h _).symm
    · rw [hheadline]
      exact (breakdown_labelled h _).symm
    · rw [hheadline, ← countP_split (·.labels.completed) (·.isScalp) sigs]
      have hscalp := desk_labelled (sigs.filter (·.isScalp)) fun sig hsig =>
        h sig (List.mem_of_mem_filter hsig)
      have hintraday := desk_labelled (sigs.filter fun sig => ¬ sig.isScalp) fun sig hsig =>
        h sig (List.mem_of_mem_filter hsig)
      rw [← hscalp, ← hintraday]
      rfl
    · rw [hheadline, hmean, hsum, hunscored₀, Nat.cast_zero, add_zero]

end Droid.Signals
