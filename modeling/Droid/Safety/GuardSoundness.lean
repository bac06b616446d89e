import Droid.Safety.ExecutionGuard

/-! What a passing guard guarantees, and when it detects the second order of an intent. -/
namespace Droid.Safety
open Lib Signals

/-- The decimal of a number in plain form, one that both readings accept. -/
def Numeral.plain : Numeral → Option Decimal
  | .int n => some ⟨n, 0⟩
  | .decimal d | .float d | .text d => some d
  | .otherText _ | .malformed => none

def Numeral.Restates (a b : Numeral) : Prop :=
  ∃ d e, a.plain = some d ∧ b.plain = some e ∧ d.value = e.value

namespace GuardArgs

theorem plain_read {a : Numeral} {d : Decimal} (h : a.plain = some d) :
    a.D = some d ∧ orderDecimal a = some d := by
  cases a with
  | int n => exact ⟨h, h⟩
  | decimal c => exact ⟨h, h⟩
  | float c => exact ⟨h, h⟩
  | text c => exact ⟨h, h⟩
  | otherText c => cases h
  | malformed => cases h

/-- What a passing guard means. -/
structure Sound (env : GuardEnv) (args : GuardArgs) : Prop where
  expiry : args.signal.fsmState = .armed → env.nowMs ≤ args.signal.expiresAtUtc
  actionable : args.signal.fsmState ∈ [.armed, .triggered, .confirmed]
  session : args.allowClosedMarket = true ∨ args.effectiveSession env = "OPEN"
  feed : args.effectiveFeed env ∉ blockingFeeds
  circuit : env.circuit.isDegraded args.signal.underlying = false
  price : ∀ price, args.orderPrice = some price → ∃ spec, args.resolvedSpec = some spec ∧
    ∃ op tick, price.D = some op ∧ (tickSize spec).D = some tick ∧ ∃ k : Int, op.value = k * tick.value
  quantity : ∀ quantity, args.orderQuantity = some quantity → ∃ spec, args.resolvedSpec = some spec ∧
    ∃ q, quantity.D = some q ∧ 0 < q.value ∧ ∀ lots, spec.lotSize = some lots → lots.nonzero = true →
      ∃ lot, lots.D = some lot ∧ ∃ k : Int, q.value = k * lot.value
  slippage : ∀ latest order, args.latestPrice = some latest → args.orderPrice = some order →
    ∃ lp op, latest.D = some lp ∧ order.D = some op ∧
      (0 < op.value → slippagePct lp.value op.value ≤ args.maxSlippagePct)
  drift : |args.effectiveDrift env| ≤ args.maxClockDriftMs
  risk : args.riskApproved = true ∧ args.riskStale = false
  persistence : args.auditAvailable = true ∧ args.dbAvailable = true

variable {env : GuardEnv} {args : GuardArgs}

private theorem priceAligned_ticks {spec : ContractSpec} {price : Numeral}
    (hprice : args.orderPrice = some price) (h : args.priceAligned spec = true) :
    ∃ op tick, price.D = some op ∧ (tickSize spec).D = some tick ∧ ∃ k : Int, op.value = k * tick.value := by
  rw [priceAligned, hprice, Option.all_some] at h
  cases hop : orderDecimal price with
  | none =>
    rw [hop] at h
    cases h
  | some op =>
    rw [hop, Option.bind_some] at h
    cases hq : (tickSize spec).D.bind (normalizePriceToTick op.value) with
    | none =>
      rw [hq] at h
      cases h
    | some quantized =>
      rw [hq, Option.map_some, Option.getD_some, decide_eq_true_iff] at h
      obtain ⟨tick, htick, hnormal⟩ := Option.bind_eq_some_iff.mp hq
      obtain ⟨k, hk⟩ := normalizePriceToTick_multiple hnormal
      refine ⟨op, tick, ?_, htick, k, h.trans hk⟩
      -- what the strict reading accepts, the plain one reads alike
      cases price with
      | int n => exact hop
      | decimal d => exact hop
      | float d => exact hop
      | text d => exact hop
      | otherText d => cases hop
      | malformed => cases hop

private theorem slippageOk_bound {latest order : Numeral} (hlatest : args.latestPrice = some latest)
    (horder : args.orderPrice = some order) (h : args.slippageOk = true) :
    ∃ lp op, latest.D = some lp ∧ order.D = some op ∧
      (0 < op.value → slippagePct lp.value op.value ≤ args.maxSlippagePct) := by
  rw [slippageOk, hlatest, horder] at h
  simp only at h
  split at h
  · rename_i lp op hlp hop
    refine ⟨lp, op, hlp, hop, fun hpos => ?_⟩
    rw [decide_eq_true_iff] at h
    exact h.resolve_left hpos.not_ge
  · cases h

theorem feed_passes_circuit (h : args.effectiveFeed env ∉ blockingFeeds) :
    env.circuit.isDegraded args.signal.underlying = false := by
  by_contra hdegraded
  rw [effectiveFeed, if_pos (Bool.not_eq_false _ ▸ hdegraded)] at h
  exact h (by decide)

theorem sound_of_passes (h : ∀ c, args.passes env c = true) : args.Sound env := by
  have hspec : ∃ spec, args.resolvedSpec = some spec := Option.isSome_iff_exists.mp (h .contractSpec)
  obtain ⟨spec, hspec⟩ := hspec
  have hfeed : args.effectiveFeed env ∉ blockingFeeds := decide_eq_true_iff.mp (h .feedHealth)
  refine ⟨?_, decide_eq_true_iff.mp (h .signalActionable), ?_, hfeed, feed_passes_circuit hfeed, ?_, ?_,
    ?_, decide_eq_true_iff.mp (h .clockDrift), ?_, ?_⟩
  · intro harmed
    have hlive := h .ttlValidity
    rw [passes, GuardedSignal.isExpired, harmed] at hlive
    simpa using hlive
  · have hsession := h .marketSession
    rw [passes, Bool.or_eq_true, decide_eq_true_iff] at hsession
    exact hsession
  · intro price hprice
    have haligned := h .priceTickAlignment
    rw [passes, hspec, Option.all_some] at haligned
    exact ⟨spec, hspec, priceAligned_ticks hprice haligned⟩
  · intro quantity hquantity
    have hvalid := h .quantityStepValidation
    rw [passes, hspec, Option.all_some, quantityValid, hquantity, Option.all_some,
      decide_eq_true_iff] at hvalid
    exact ⟨spec, hspec, validateQuantity_valid hvalid⟩
  · intro latest order hlatest horder
    exact slippageOk_bound hlatest horder (h .slippagePolicy)
  · have hrisk := h .riskApproval
    rw [passes, Bool.and_eq_true, Bool.not_eq_true'] at hrisk
    exact hrisk
  · have hdurable := h .persistenceDurability
    rw [passes, Bool.and_eq_true] at hdurable
    exact hdurable

def withPrices (args : GuardArgs) (order latest : Option Numeral) : GuardArgs :=
  { args with orderPrice := order, latestPrice := latest }

theorem priceAligned_restated {order : Option Numeral} (latest : Option Numeral)
    (horder : Option.Rel Numeral.Restates args.orderPrice order) (spec : ContractSpec) :
    (args.withPrices order latest).priceAligned spec = args.priceAligned spec := by
  rw [priceAligned, priceAligned, withPrices]
  generalize args.orderPrice = price at horder ⊢
  cases horder with
  | none => rfl
  | some hsame =>
    obtain ⟨d, e, hd, he, hvalue⟩ := hsame
    rw [Option.all_some, Option.all_some, (plain_read hd).2, (plain_read he).2, Option.bind_some,
      Option.bind_some, hvalue]

theorem slippageOk_restated {order latest : Option Numeral}
    (horder : Option.Rel Numeral.Restates args.orderPrice order)
    (hlatest : Option.Rel Numeral.Restates args.latestPrice latest) :
    (args.withPrices order latest).slippageOk = args.slippageOk := by
  rw [slippageOk, slippageOk, withPrices]
  simp only
  generalize args.orderPrice = price at horder ⊢
  generalize args.latestPrice = latestPrice at hlatest ⊢
  cases hlatest with
  | none => rfl
  | some hlp =>
    cases horder with
    | none => rfl
    | some hop =>
      obtain ⟨lp, lp', hlp, hlp', hlatest⟩ := hlp
      obtain ⟨op, op', hop, hop', horder⟩ := hop
      simp only [(plain_read hlp).1, (plain_read hlp').1, (plain_read hop).1, (plain_read hop').1, hlatest,
        horder]

theorem passes_restated {order latest : Option Numeral}
    (horder : Option.Rel Numeral.Restates args.orderPrice order)
    (hlatest : Option.Rel Numeral.Restates args.latestPrice latest) (c : GuardCheck) :
    (args.withPrices order latest).passes env c = args.passes env c := by
  cases c with
  | priceTickAlignment =>
    have haligned : (args.withPrices order latest).priceAligned = args.priceAligned :=
      funext (priceAligned_restated latest horder)
    exact congrArg (fun p => args.resolvedSpec.all p) haligned
  | slippagePolicy => exact slippageOk_restated horder hlatest
  | _ => rfl

end GuardArgs

/-- A pass means what the guard is for, and no form of a price changes the verdict. -/
theorem finalExecutionGuard_sound (env : GuardEnv) (args : GuardArgs) :
    ((finalExecutionGuard env args).passed = true → args.Sound env) ∧
      ∀ order latest, Option.Rel Numeral.Restates args.orderPrice order →
        Option.Rel Numeral.Restates args.latestPrice latest →
          finalExecutionGuard env (args.withPrices order latest) = finalExecutionGuard env args := by
  constructor
  · intro hpassed
    exact GuardArgs.sound_of_passes ((guard_passed_iff env args).mp hpassed)
  · intro order latest horder hlatest
    have hpasses : (args.withPrices order latest).passes env = args.passes env :=
      funext (GuardArgs.passes_restated horder hlatest)
    rw [finalExecutionGuard, finalExecutionGuard, hpasses]

def tradingEnv (nowMs : Int) (ledger : ExecutionIntentLedger := { }) : GuardEnv where
  nowMs
  feedMonitor := some ⟨true, some "LIVE"⟩
  circuit := { validators := fun _ => .restored none }
  ledger

/-- Arguments that satisfy the safety flags, for a signal that expires at 1000. -/
def approvedArgs (fsmState : SignalFsmState) : GuardArgs where
  signal := { fsmState, expiresAtUtc := 1000, underlying := "NIFTY" }
  contractSpec := some { lotSize := some (.int 65) }
  riskApproved := true
  auditAvailable := true
  dbAvailable := true

/-- A limit order for two lots, priced as a float, against a last price. -/
def limitOrder : GuardArgs :=
  { approvedArgs .armed with
    orderPrice := some (.float ⟨12005, -2⟩), orderQuantity := some (.int 130)
    latestPrice := some (.int 120) }

theorem limitOrder_sound :
    limitOrder.Sound (tradingEnv 900) ∧
      finalExecutionGuard (tradingEnv 900)
          (limitOrder.withPrices (some (.text ⟨120050, -3⟩)) (some (.decimal ⟨120, 0⟩))) =
        finalExecutionGuard (tradingEnv 900) limitOrder := by
  obtain ⟨hsound, hsame⟩ := finalExecutionGuard_sound (tradingEnv 900) limitOrder
  refine ⟨hsound (by decide +kernel), hsame _ _ ?_ ?_⟩
  · exact .some ⟨⟨12005, -2⟩, ⟨120050, -3⟩, rfl, rfl, by decide +kernel⟩
  · exact .some ⟨⟨120, 0⟩, ⟨120, 0⟩, rfl, rfl, rfl⟩

/-- A triggered signal passes after it has expired. -/
theorem triggered_passes_expired :
    (approvedArgs .triggered).signal.expiresAtUtc < (tradingEnv 2000).nowMs ∧
      (finalExecutionGuard (tradingEnv 2000) (approvedArgs .triggered)).passed = true := by
  decide +kernel

/-! ### Duplicates along a run -/

namespace IntentState

/-- The states of an intent whose order reached the broker and was not refused. -/
def Submitted (s : IntentState) : Prop := s ∈ [.submitted, .partiallyFilled, .filled]

instance : DecidablePred Submitted := fun s =>
  inferInstanceAs (Decidable (s ∈ [IntentState.submitted, .partiallyFilled, .filled]))

end IntentState

/-- What happens to the ledger. -/
inductive IntentEvent where
  | register (intent : ExecutionIntent)
  | transition (id : String) (newState : IntentState) (reason : String)
      (details : List (String × String)) (nowMs : Int)
  | restart

/-- The ledger under a run, with the latest state of every intent, which no restart takes back. -/
structure IntentRun where
  ledger : ExecutionIntentLedger := { }
  latest : String → Option IntentState := fun _ => none

namespace IntentRun

def step (s : IntentRun) : IntentEvent → IntentRun
  | .register intent =>
    let (ledger, registered, duplicate) := s.ledger.register intent
    { ledger
      latest := if duplicate then s.latest
        else Function.update s.latest intent.executionIntentId (some registered.state) }
  | .transition id newState reason details nowMs =>
    let (ledger, ok) := s.ledger.transition id newState reason details nowMs
    { ledger, latest := if ok then Function.update s.latest id (some newState) else s.latest }
  | .restart => { s with ledger := s.ledger.restore }

/-- The guard refuses the second order of an intent: with the ledger as it is, and every other check
satisfied, it fails check 14. -/
def Refuses (s : IntentRun) (id : String) : Prop :=
  ∀ env args, env.ledger = s.ledger → args.executionIntentId = some id →
    (∀ c, c ≠ .duplicateOrderGuard → args.passes env c = true) →
      (finalExecutionGuard env args).failedCheck = some .duplicateOrderGuard

/-- An intent is a duplicate exactly when its latest state says so, and then the guard refuses it. -/
def Detects (s : IntentRun) : Prop :=
  ∀ id, (s.ledger.isDuplicateIntent id = true ↔ ∃ st, s.latest id = some st ∧ st.Submitted) ∧
    ((∃ st, s.latest id = some st ∧ st.Submitted) → s.Refuses id)

def Unsubmitted (s : IntentRun) : IntentEvent → Prop
  | .register intent => s.ledger.get intent.executionIntentId = none → ¬ intent.state.Submitted
  | .transition id newState _ _ _ => ∀ intent, s.ledger.get id = some intent →
      newState ∈ allowedIntentTransitions intent.state → ¬ newState.Submitted
  | .restart => True

/-- No intent's latest state is a submitted one. -/
def Quiet (s : IntentRun) : Prop := ∀ id st, s.latest id = some st → ¬ st.Submitted

/-- No lookup ever finds a duplicate, so it is right only while there is none. -/
theorem detects_iff_quiet (s : IntentRun) : s.Detects ↔ s.Quiet := by
  constructor
  · intro h id st hlatest hsubmitted
    have hfound := (h id).1.mpr ⟨st, hlatest, hsubmitted⟩
    rw [ExecutionIntentLedger.isDuplicateIntent, ExecutionIntentLedger.reportsSubmitted_false] at hfound
    cases hfound
  · intro h id
    have hnone : ¬ ∃ st, s.latest id = some st ∧ st.Submitted := by
      rintro ⟨st, hlatest, hsubmitted⟩
      exact h id st hlatest hsubmitted
    refine ⟨iff_of_false ?_ hnone, fun hsome => absurd hsome hnone⟩
    rw [ExecutionIntentLedger.isDuplicateIntent, ExecutionIntentLedger.reportsSubmitted_false]
    exact Bool.false_ne_true

private theorem quiet_update {latest : String → Option IntentState}
    (h : ∀ id st, latest id = some st → ¬ st.Submitted) (id : String) (new : IntentState) :
    (∀ x st, Function.update latest id (some new) x = some st → ¬ st.Submitted) ↔ ¬ new.Submitted := by
  constructor
  · intro hall
    exact hall id new (Function.update_self _ _ _)
  · intro hnew x st hst
    by_cases hx : x = id
    · rw [hx, Function.update_self, Option.some.injEq] at hst
      exact hst ▸ hnew
    · rw [Function.update_of_ne hx] at hst
      exact h x st hst

theorem step_quiet_iff {s : IntentRun} (h : s.Quiet) (e : IntentEvent) :
    (s.step e).Quiet ↔ s.Unsubmitted e := by
  cases e with
  | restart => exact iff_of_true h trivial
  | register intent =>
    rw [Unsubmitted, ExecutionIntentLedger.get, step, ExecutionIntentLedger.register]
    cases hknown : s.ledger.intents.get? intent.executionIntentId with
    | some existing => exact iff_of_true h nofun
    | none =>
      refine (quiet_update h _ _).trans ?_
      split <;> simp
  | transition id newState reason details nowMs =>
    rw [Unsubmitted, ExecutionIntentLedger.get, step, ExecutionIntentLedger.transition]
    cases hknown : s.ledger.intents.get? id with
    | none => exact iff_of_true h nofun
    | some intent =>
      simp only [ExecutionIntent.transitionTo]
      by_cases hallowed : newState ∈ allowedIntentTransitions intent.state
      · rw [if_neg (not_not.mpr hallowed)]
        refine (quiet_update h _ _).trans ⟨fun hnew _ _ _ => hnew, fun hnew => ?_⟩
        exact hnew intent rfl hallowed
      · rw [if_pos hallowed]
        refine iff_of_true h fun other hother hother' => ?_
        cases hother
        exact absurd hother' hallowed

/-- Duplicates are detected all along a run exactly when no intent is ever brought into a submitted
state. -/
theorem detects_iff (events : List IntentEvent) :
    Always step Detects { } events ↔ Guarded step Unsubmitted { } events := by
  have hstep : ∀ s e, True → Detects s → (Detects (step s e) ↔ Unsubmitted s e) := by
    intro s e _ hs
    rw [detects_iff_quiet]
    exact step_quiet_iff ((detects_iff_quiet s).mp hs) e
  refine always_iff_guarded (I := fun _ => True) (fun _ _ _ => trivial) hstep trivial ?_ events
  exact (detects_iff_quiet _).mpr nofun

/-- A submitted intent is no duplicate to the ledger, and the guard lets its second order pass. -/
theorem submitted_undetected :
    let events : List IntentEvent :=
      [.register { executionIntentId := "a", signalId := "s", updatedAtUtc := 0 },
        .transition "a" .guardPassed "" [] 1, .transition "a" .submitted "" [] 2]
    ¬ Always step Detects { } events ∧
      (finalExecutionGuard (tradingEnv 3 (run step { } events).ledger)
        { approvedArgs .triggered with executionIntentId := some "a" }).passed = true := by
  refine ⟨fun h => ?_, by decide +kernel⟩
  have hquiet := (detects_iff_quiet _).mp (run_of_always h)
  exact hquiet "a" .submitted (by decide) (by decide)

end IntentRun

end Droid.Safety
