import Droid.Signals.Atomicity

/-! The economics of an expiry: as the outcome is computed, and as the signal keeps it. -/
namespace Droid.Signals
open Lib

/-- The R multiples of an outcome and what they cost. -/
structure Economics where
  realized : Option ℚ := none
  gross : Option ℚ := none
  net : Option ℚ := none
  costs : Option CostBreakdown := none

def Economics.put (e : Economics) : OutcomeField → Economics
  | .realizedRr v => { e with realized := v }
  | .realizedRrGross v => { e with gross := v }
  | .realizedRrNet v => { e with net := v }
  | .costBreakdownR v => { e with costs := v }
  | _ => e

def economics (fs : List OutcomeField) : Economics := fs.foldl Economics.put { }

namespace SignalInstance

def economics (sig : SignalInstance) : Economics :=
  { realized := sig.realizedRr, gross := sig.realizedRrGross, net := sig.realizedRrNet
    costs := sig.costBreakdownR }

/-- The units an expiry is settled on. -/
def expiryQuantity (sig : SignalInstance) : ℚ :=
  (max 1 ((truthy sig.lots).getD 1 * resolveContractLotSize sig) : Int)

def premiumRisk (sig : SignalInstance) : ℚ :=
  resolvePremiumRiskPoints sig sig.entryPremium sig.spotRisk

def riskAmount (sig : SignalInstance) : ℚ := max 100 (sig.premiumRisk * sig.expiryQuantity)

/-- The charges of an exercise at this intrinsic value. -/
def assignmentFriction (schedule : IndianFnoCostSchedule) (sig : SignalInstance) (intrinsic : ℚ) : ℚ :=
  (computeExpiryAssignmentFriction schedule intrinsic ((truthy sig.lots).getD 1)
    (resolveContractLotSize sig)).total

/-- The gross R of the fill at this intrinsic value, before it is rounded. -/
def fillR (sig : SignalInstance) (fill intrinsic : ℚ) : ℚ :=
  (intrinsic - fill) * sig.expiryQuantity / sig.riskAmount

end SignalInstance

/-- The economics of an expiry follow the fill: none without one (a price of zero counts as none),
and else that of the intrinsic value against the fill, over the same risk for every value. -/
structure FollowsFill (schedule : IndianFnoCostSchedule) (sig : SignalInstance)
    (marketPrice : Option ℚ) (e : Economics) : Prop where
  unfilled : truthy sig.actualFillPrice = none → e = { }
  filled : ∀ fill intrinsic, truthy sig.actualFillPrice = some fill →
    resolveIntrinsicAtExpiry sig marketPrice = some intrinsic →
    e.gross = some (roundTo 4 (sig.fillR fill intrinsic)) ∧
      e.net = some (roundTo 4 (sig.fillR fill intrinsic -
        sig.assignmentFriction schedule intrinsic / sig.riskAmount))

/-! ### The computed outcome -/

theorem intrinsic_nonneg {sig : SignalInstance} {marketPrice : Option ℚ} {intrinsic : ℚ}
    (h : resolveIntrinsicAtExpiry sig marketPrice = some intrinsic) : 0 ≤ intrinsic := by
  unfold resolveIntrinsicAtExpiry at h
  simp only [Option.bind_eq_bind, Option.bind_eq_some_iff] at h
  obtain ⟨contract, -, -, -, -, -, hvalue⟩ := h
  cases hvalue
  split_ifs
  · exact le_max_left _ _
  · exact le_max_left _ _

theorem resolvePremiumRiskPoints_pos (sig : SignalInstance) (entryPremium spotRisk : ℚ) :
    0 < resolvePremiumRiskPoints sig entryPremium spotRisk := by
  unfold resolvePremiumRiskPoints
  simp only
  split
  · rename_i proj hproj
    simp only [Option.bind_eq_bind, Option.bind_eq_some_iff] at hproj
    obtain ⟨greeks, -, _, -, _, -, _, hpos, hvalue⟩ := hproj
    cases hvalue
    simpa [guard] using hpos
  · by_cases hspot : 0 < spotRisk
    · rwa [if_pos hspot]
    · rw [if_neg hspot]
      exact lt_of_lt_of_le one_pos (le_max_left _ _)

theorem premiumRisk_pos (sig : SignalInstance) : 0 < sig.premiumRisk :=
  resolvePremiumRiskPoints_pos sig _ _

theorem expiryQuantity_pos (sig : SignalInstance) : 0 < sig.expiryQuantity :=
  Int.cast_pos.mpr (lt_of_lt_of_le one_pos (le_max_left _ _))

/-- The expiry settles a fill, and one that ends worthless carries the risk amount: its premium
risk is no less than the minimum, or the difference is lost in rounding. -/
def SignalInstance.FillSettles (sig : SignalInstance) (marketPrice : Option ℚ) : Prop :=
  ∃ fill, truthy sig.actualFillPrice = some fill ∧
    (resolveIntrinsicAtExpiry sig marketPrice = some 0 → 100 ≤ sig.premiumRisk * sig.expiryQuantity ∨
      roundTo 4 (-(fill / sig.premiumRisk)) = roundTo 4 (-(fill * sig.expiryQuantity / 100)))

theorem fillR_zero {sig : SignalInstance} (fill : ℚ)
    (h : 100 ≤ sig.premiumRisk * sig.expiryQuantity) :
    sig.fillR fill 0 = -(fill / sig.premiumRisk) := by
  have hrisk := (premiumRisk_pos sig).ne'
  have hqty := (expiryQuantity_pos sig).ne'
  rw [SignalInstance.fillR, SignalInstance.riskAmount, max_eq_right h]
  field_simp
  ring

theorem fillR_zero_floor {sig : SignalInstance} (fill : ℚ)
    (h : sig.premiumRisk * sig.expiryQuantity ≤ 100) :
    sig.fillR fill 0 = -(fill * sig.expiryQuantity / 100) := by
  rw [SignalInstance.fillR, SignalInstance.riskAmount, max_eq_left h]
  ring

theorem assignmentFriction_zero (schedule : IndianFnoCostSchedule) (sig : SignalInstance) :
    sig.assignmentFriction schedule 0 = 0 := by
  rw [SignalInstance.assignmentFriction, computeExpiryAssignmentFriction]
  simp [roundTo, roundHalfEven]

theorem economics_worthless (schedule : IndianFnoCostSchedule) (marks : OptionMarks)
    {sig : SignalInstance} {marketPrice : Option ℚ}
    (h : resolveIntrinsicAtExpiry sig marketPrice = some 0) :
    (economics (expiryOutcome schedule marks sig marketPrice)).gross =
        some (roundTo 4 (-(sig.entryPremium / sig.premiumRisk))) ∧
      (economics (expiryOutcome schedule marks sig marketPrice)).net =
        some (roundTo 4 (-(sig.entryPremium / sig.premiumRisk))) := by
  have hfriction : (computeExpiryAssignmentFriction schedule 0 ((truthy sig.lots).getD 1)
      (resolveContractLotSize sig)).total = 0 := assignmentFriction_zero schedule sig
  have hrisk : 0 < resolvePremiumRiskPoints sig sig.entryPremium sig.spotRisk := premiumRisk_pos sig
  rw [expiryOutcome]
  simp only [h, le_refl, if_true, hrisk, hfriction, zero_div, sub_zero]
  exact ⟨rfl, rfl⟩

theorem economics_assigned (schedule : IndianFnoCostSchedule) (marks : OptionMarks)
    {sig : SignalInstance} {marketPrice : Option ℚ} {intrinsic : ℚ}
    (h : resolveIntrinsicAtExpiry sig marketPrice = some intrinsic) (hpos : 0 < intrinsic) :
    (economics (expiryOutcome schedule marks sig marketPrice)).gross =
        some (roundTo 4 (sig.fillR sig.entryPremium intrinsic)) ∧
      (economics (expiryOutcome schedule marks sig marketPrice)).net =
        some (roundTo 4 (sig.fillR sig.entryPremium intrinsic -
          sig.assignmentFriction schedule intrinsic / sig.riskAmount)) := by
  rw [expiryOutcome]
  simp only [h, hpos.not_ge, if_false]
  exact ⟨rfl, rfl⟩

/-- The computed economics follow the fill exactly when a settleable contract was filled, and its
worthless expiry carries the risk amount. -/
theorem computed_follows_iff (schedule : IndianFnoCostSchedule) (marks : OptionMarks)
    (sig : SignalInstance) (marketPrice : Option ℚ) :
    FollowsFill schedule sig marketPrice (economics (expiryOutcome schedule marks sig marketPrice)) ↔
      (Settleable sig marketPrice → sig.FillSettles marketPrice) := by
  rw [← intrinsic_isSome]
  cases hvalue : resolveIntrinsicAtExpiry sig marketPrice with
  | none =>
    refine iff_of_true ⟨fun _ => ?_, fun fill intrinsic _ h => ?_⟩ ?_
    · rw [expiryOutcome, hvalue]
      rfl
    · cases hvalue.symm.trans h
    · intro hsome
      cases hsome
  | some intrinsic =>
    rw [Option.isSome_some, eq_self, true_implies, SignalInstance.FillSettles]
    have hgross : (economics (expiryOutcome schedule marks sig marketPrice)).gross ≠ none := by
      rw [expiryOutcome, hvalue]
      intro hnone
      cases hnone
    cases hfill : truthy sig.actualFillPrice with
    | none =>
      refine iff_of_false (fun h => hgross ?_) ?_
      · rw [h.unfilled hfill]
      · rintro ⟨fill, hfill', -⟩
        cases hfill'
    | some fill =>
      have hentry : sig.entryPremium = fill := by
        rw [SignalInstance.entryPremium, hfill, Option.getD_some]
      have hiff : FollowsFill schedule sig marketPrice
          (economics (expiryOutcome schedule marks sig marketPrice)) ↔
            (economics (expiryOutcome schedule marks sig marketPrice)).gross =
              some (roundTo 4 (sig.fillR fill intrinsic)) ∧
            (economics (expiryOutcome schedule marks sig marketPrice)).net =
              some (roundTo 4 (sig.fillR fill intrinsic -
                sig.assignmentFriction schedule intrinsic / sig.riskAmount)) := by
        constructor
        · intro h
          exact h.filled fill intrinsic hfill hvalue
        · intro h
          refine ⟨fun hnone => ?_, fun fill' intrinsic' hfill' hvalue' => ?_⟩
          · cases hnone.symm.trans hfill
          · cases hfill.symm.trans hfill'
            cases hvalue.symm.trans hvalue'
            exact h
      rw [hiff]
      simp only [hvalue, Option.some.injEq, exists_eq_left']
      rcases (intrinsic_nonneg hvalue).eq_or_lt with hzero | hpos
      · subst hzero
        obtain ⟨hg, hn⟩ := economics_worthless schedule marks hvalue
        rw [hg, hn, hentry, assignmentFriction_zero, zero_div, sub_zero, and_self]
        rw [Option.some.injEq, eq_self, true_implies]
        rcases le_total 100 (sig.premiumRisk * sig.expiryQuantity) with hle | hle
        · rw [fillR_zero fill hle]
          exact iff_of_true rfl (.inl hle)
        · rw [fillR_zero_floor fill hle]
          constructor
          · intro h
            exact .inr h
          · rintro (h | h)
            · rw [← fillR_zero fill h, ← fillR_zero_floor fill hle]
            · exact h
      · have hne : intrinsic ≠ 0 := hpos.ne'
        rw [← hentry]
        exact iff_of_true (economics_assigned schedule marks hvalue hpos) fun h => absurd h hne

/-! ### What the signal keeps -/

/-- The entry of the undeclared attribute stops a settleable expiry before its economics. -/
theorem setattrs_expiry (schedule : IndianFnoCostSchedule) (marks : OptionMarks)
    (sig : SignalInstance) (marketPrice : Option ℚ) :
    (sig.setattrs (expiryOutcome schedule marks sig marketPrice)).1.economics =
      if (resolveIntrinsicAtExpiry sig marketPrice).isSome then sig.economics else { } := by
  rw [expiryOutcome]
  cases resolveIntrinsicAtExpiry sig marketPrice with
  | none => rfl
  | some intrinsic => rfl

theorem advance_expired {env : Surroundings} {sig sig' : SignalInstance} {marketPrice : Option ℚ}
    (h : advance env sig .expired marketPrice = .moved sig' ∨
      advance env sig .expired marketPrice = .raised sig') :
    sig'.economics =
      if (resolveIntrinsicAtExpiry sig marketPrice).isSome then sig.economics else { } := by
  have hbooks := setattrs_expiry { } env.marks sig marketPrice
  rcases hset : sig.setattrs (expiryOutcome { } env.marks sig marketPrice) with ⟨sig₁, done⟩
  rw [hset] at hbooks
  have hout : SignalFsmState.expired ∈ outcomeStates := by decide
  rw [advance_outcome env hout hset] at h
  cases done with
  | true =>
    rcases h with h | h
    · cases h
      exact hbooks
    · cases h
  | false =>
    rcases h with h | h
    · cases h
    · cases h
      exact hbooks

/-- An expiry that its guards let through keeps the economics of a settleable contract's signal as
they were, and clears all others. -/
theorem transition_expires (env : Surroundings) {m : SignalFsmManager} {id : SignalId}
    {sig : SignalInstance} (marketPrice : Option ℚ) (reason : String) {expectedVersion : Option Int}
    (hsig : m.signals.get? id = some sig) (hadmits : Admits sig .expired expectedVersion) :
    ∃ sig', (m.transition env id .expired marketPrice reason expectedVersion).1.signals.get? id =
        some sig' ∧ sig'.fsmState = .expired ∧
      sig'.economics =
        if (resolveIntrinsicAtExpiry sig marketPrice).isSome then sig.economics else { } := by
  rcases transition_advances env m .expired marketPrice reason expectedVersion hsig with
    ⟨hn, -⟩ | ⟨-, moved, ⟨hadv, hres⟩ | ⟨hadv, hres⟩⟩
  · exact absurd hadmits hn
  · refine ⟨moved.note (transitionAudit sig id .expired marketPrice reason), ?_, ?_, ?_⟩
    · rw [hres, (enqueueSettlement_frame _ _ _ _).1]
      exact (Dict.get?_insert _ _ _ _).trans (if_pos rfl)
    · exact (advance_enters.1 hadv).1
    · have hbooks := advance_expired (.inl hadv)
      exact hbooks
  · have hbooks := advance_expired (.inr hadv)
    refine ⟨moved, ?_, (advance_enters.2 hadv).1, hbooks⟩
    rw [hres]
    exact (Dict.get?_insert _ _ _ _).trans (if_pos rfl)

/-- An expiry books what follows the fill exactly when the contract cannot be settled or the signal
held just that before; and what it computes follows the fill exactly when a settleable contract
was filled, and its worthless expiry carries the risk amount. -/
theorem expiry_follows_iff (env : Surroundings) {m : SignalFsmManager} {id : SignalId}
    {sig : SignalInstance} (marketPrice : Option ℚ) (reason : String) {expectedVersion : Option Int}
    (hsig : m.signals.get? id = some sig) (hadmits : Admits sig .expired expectedVersion) :
    (∃ sig', (m.transition env id .expired marketPrice reason expectedVersion).1.signals.get? id =
        some sig' ∧ sig'.fsmState = .expired ∧
      (FollowsFill { } sig marketPrice sig'.economics ↔
        (Settleable sig marketPrice → FollowsFill { } sig marketPrice sig.economics))) ∧
    (FollowsFill { } sig marketPrice
        (economics (computeTerminalOutcome { } env.marks sig marketPrice .expired)) ↔
      (Settleable sig marketPrice → sig.FillSettles marketPrice)) := by
  refine ⟨?_, computed_follows_iff { } env.marks sig marketPrice⟩
  obtain ⟨sig', hget, hstate, hbooks⟩ := transition_expires env marketPrice reason hsig hadmits
  refine ⟨sig', hget, hstate, ?_⟩
  rw [hbooks, ← intrinsic_isSome]
  cases hvalue : resolveIntrinsicAtExpiry sig marketPrice with
  | none =>
    refine iff_of_true ⟨fun _ => rfl, fun fill intrinsic _ h => ?_⟩ nofun
    cases hvalue.symm.trans h
  | some intrinsic =>
    rw [Option.isSome_some, if_pos rfl, eq_self, true_implies]

def heldCall : SignalInstance :=
  { signalId := "c", underlying := "NIFTY", direction := .longCall, spotPrice := 25000
    entryMin := 24990, entryMax := 25010, trigger := 25000, stopLoss := 24950
    target1 := 25050, target2 := 25100, riskRewardT1 := 1, riskRewardT2 := 2
    optionContract := some { strike := some 25000, optionType := some "CE", lotSize := some 75 }
    actualFillPrice := some 120, fsmState := .confirmed
    createdAtUtc := 0, expiresAtUtc := 300000, lastUpdatedUtc := 0 }

def heldDesk : SignalFsmManager := { signals := Dict.empty.insert "c" heldCall }

private theorem heldCall_admits : Admits heldCall .expired none :=
  ⟨nofun, by decide, by decide⟩

theorem expiry_heldCall :
    ((∃ sig', (heldDesk.transition { now := 1 } "c" .expired (some 25300) "TTL_EXCEEDED"
          none).1.signals.get? "c" = some sig' ∧ sig'.fsmState = .expired ∧
        (FollowsFill { } heldCall (some 25300) sig'.economics ↔
          (Settleable heldCall (some 25300) → FollowsFill { } heldCall (some 25300) heldCall.economics))) ∧
      (FollowsFill { } heldCall (some 25300)
          (economics (computeTerminalOutcome { } { } heldCall (some 25300) .expired)) ↔
        (Settleable heldCall (some 25300) → heldCall.FillSettles (some 25300)))) ∧
    heldCall.FillSettles (some 25300) :=
  ⟨expiry_follows_iff { now := 1 } (some 25300) "TTL_EXCEEDED" (by decide +kernel) heldCall_admits,
    120, by decide +kernel, fun h => absurd h (by decide +kernel)⟩

/-- At 25300 the held call keeps no R at all; and without its fill, the trigger stands in for it
and an R is computed. -/
theorem expiry_departs_from_fill :
    (¬ ∀ (env : Surroundings) (m : SignalFsmManager) (id : SignalId) (sig : SignalInstance)
        (marketPrice : Option ℚ) (reason : String) (expectedVersion : Option Int),
      m.signals.get? id = some sig → Admits sig .expired expectedVersion → ∀ sig',
      (m.transition env id .expired marketPrice reason expectedVersion).1.signals.get? id = some sig' →
      FollowsFill { } sig marketPrice sig'.economics) ∧
    ¬ ∀ (marks : OptionMarks) (sig : SignalInstance) (marketPrice : Option ℚ),
      FollowsFill { } sig marketPrice
        (economics (computeTerminalOutcome { } marks sig marketPrice .expired)) := by
  constructor
  · intro h
    have hkept : ((heldDesk.transition { now := 1 } "c" .expired (some 25300) "TTL_EXCEEDED"
        none).1.signals.get? "c").map (·.economics.gross) = some none := by decide +kernel
    have hvalue : resolveIntrinsicAtExpiry heldCall (some 25300) = some 300 := by decide +kernel
    obtain ⟨sig', hsig', hnone⟩ := Option.map_eq_some_iff.mp hkept
    have hfollows := h { now := 1 } heldDesk "c" heldCall (some 25300) "TTL_EXCEEDED" none
      (by decide +kernel) heldCall_admits sig' hsig'
    obtain ⟨hgross, -⟩ := hfollows.filled 120 300 (by decide +kernel) hvalue
    cases hnone.symm.trans hgross
  · intro h
    have hfollows := h { } { heldCall with actualFillPrice := none } (some 25300)
    have hgross : (economics (computeTerminalOutcome { } { }
        { heldCall with actualFillPrice := none } (some 25300) .expired)).gross.isSome = true := by
      decide +kernel
    rw [hfollows.unfilled (by decide +kernel)] at hgross
    cases hgross

end Droid.Signals
