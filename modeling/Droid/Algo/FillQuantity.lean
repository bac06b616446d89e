import Droid.Algo.Execution
import Droid.Lib.Run
import Mathlib.Order.Defs.LinearOrder
import Mathlib.Data.Int.Order.Basic

/-! The filled quantity of an order along submits, reconciliations and cancels, one after the other. -/
namespace Droid.Algo
open Lib

def Answer.reportsFill : Answer → Bool
  | .result r =>
    r.status = some .filled ∨ r.status = some .partiallyFilled ∨ (r.fillQuantity.orDefault 0).any (0 < ·)
  | .timeout | .error | .aborted => false

/-- An order, and whether an answer has reported a fill of it. -/
structure TrackedOrder where
  record : OrderRecord
  reported : Bool := false
  deriving DecidableEq, Repr

abbrev AnsweredCall := Awaiting × Answer

def pendingStatuses : List OrderStatus := [.submitted, .timedOut, .unknown, .reconciling, .cancelPending]

def silentStatuses : List OrderStatus := [.cancelled, .submitted, .timedOut, .unknown, .reconciling, .cancelPending]

def settlingStatuses : List OrderStatus := [.filled, .partiallyFilled, .acknowledged, .rejected]

def OrderStatus.Fits (status : OrderStatus) (quantity filled : Int) : Prop :=
  match status with
  | .filled => filled = quantity
  | .partiallyFilled => 0 < filled ∧ filled < quantity
  | .acknowledged | .rejected => filled = 0
  | _ => True

/-- What an answered dictionary has to carry, given the record before the call. A submit takes a missing quantity
for the whole order, the other two for the previous one, and a reconciled partial fill has no quantity read. -/
def Awaiting.Carries (record : OrderRecord) (r : BrokerResult) : Awaiting → Prop
  | .submit =>
    r.fillPrice.decimal ≠ none → ∀ n ∈ r.fillQuantity.orDefault record.quantity,
      (internalStatus r.status).Fits record.quantity n
  | .reconcile =>
    match r.status with
    | some .filled =>
      r.fillPrice.orElse record.fillPrice ≠ none → ∀ n ∈ r.fillQuantity.orDefault record.fillQuantity,
        n = record.quantity
    | some .partiallyFilled => 0 < record.fillQuantity ∧ record.fillQuantity < record.quantity
    | some .rejected => record.fillQuantity = 0
    | _ => True
  | .cancel =>
    match r.status with
    | some .filled =>
      r.fillPrice.orElse record.fillPrice ≠ none → ∀ n ∈ r.fillQuantity.orDefault record.fillQuantity,
        n = record.quantity
    | some .partiallyFilled =>
      r.fillPrice.orElse record.fillPrice ≠ none → ∀ n ∈ r.fillQuantity.orDefault record.fillQuantity,
        (0 < n ∧ n < record.quantity) ∧ record.fillQuantity ≤ n
    | _ => True

theorem fits_bounds {status : OrderStatus} (hsettled : status ∈ settlingStatuses) {quantity filled : Int}
    (hfits : status.Fits quantity filled) (hq : 0 ≤ quantity) : 0 ≤ filled ∧ filled ≤ quantity := by
  have hmem : status = .filled ∨ status = .partiallyFilled ∨ status = .acknowledged ∨ status = .rejected := by
    simpa [settlingStatuses] using hsettled
  rcases hmem with rfl | rfl | rfl | rfl
  · exact ⟨hfits ▸ hq, hfits.le⟩
  · exact ⟨hfits.1.le, hfits.2.le⟩
  · exact ⟨hfits.ge, hfits.trans_le hq⟩
  · exact ⟨hfits.ge, hfits.trans_le hq⟩

namespace TrackedOrder

/-- One call from its begin to its end; a refused one leaves the record as it was. -/
def step (reg : BrokerRegistry) (s : TrackedOrder) (c : AnsweredCall) : TrackedOrder :=
  let t := c.1.begin reg s.record
  if t.calls = [] then { s with record := t.record }
  else { record := (c.1.finish t c.2).record, reported := s.reported || c.2.reportsFill }

/-- The filled quantity is within the order and agrees with the status; an order that is unresolved and of
which no fill was reported has none. -/
structure Consistent (s : TrackedOrder) : Prop where
  nonneg : 0 ≤ s.record.fillQuantity
  le : s.record.fillQuantity ≤ s.record.quantity
  fits : s.record.status.Fits s.record.quantity s.record.fillQuantity
  unresolved : s.record.status ∈ pendingStatuses → s.reported = false → s.record.fillQuantity = 0

/-- The same with nothing filled before the submission, nor before a report. -/
structure Sound (s : TrackedOrder) : Prop extends Consistent s where
  unsubmitted : s.record.status = .created ∨ s.record.status = .riskApproved → s.record.fillQuantity = 0
  unreported : s.reported = false → s.record.fillQuantity = 0

/-- The call is refused, or what comes back is no dictionary, or the dictionary carries a quantity that fits. -/
def Met (reg : BrokerRegistry) (s : TrackedOrder) (c : AnsweredCall) : Prop :=
  (c.1.begin reg s.record).calls ≠ [] → ∀ r, c.2 = .result r → c.1.Carries s.record r

/-! ### What a call leaves -/

/-- The order is the same one with the same filled quantity, and its status is silent on it. -/
structure Quiet (s s' : TrackedOrder) : Prop where
  quantity : s'.record.quantity = s.record.quantity
  filled : s'.record.fillQuantity = s.record.fillQuantity
  status : s'.record.status ∈ silentStatuses
  reported : s'.reported = false → s.reported = false

theorem Quiet.sound {s s' : TrackedOrder} (h : Quiet s s') (hs : s.Sound) : s'.Sound := by
  have hzero : s'.reported = false → s'.record.fillQuantity = 0 := fun hr =>
    h.filled.trans (hs.unreported (h.reported hr))
  refine ⟨⟨?_, ?_, ?_, fun _ => hzero⟩, fun hnew => ?_, hzero⟩
  · rw [h.filled]
    exact hs.nonneg
  · rw [h.filled, h.quantity]
    exact hs.le
  · have hstatus := h.status
    revert hstatus
    cases s'.record.status <;> simp [silentStatuses, OrderStatus.Fits]
  · have hstatus := h.status
    rcases hnew with hnew | hnew <;> (rw [hnew] at hstatus; exact absurd hstatus (by decide))

theorem sound_of_fits {s : TrackedOrder} (hsettled : s.record.status ∈ settlingStatuses)
    (hfits : s.record.status.Fits s.record.quantity s.record.fillQuantity) (hq : 0 ≤ s.record.quantity)
    (hreported : s.record.status = .filled ∨ s.record.status = .partiallyFilled → s.reported = true) : s.Sound := by
  obtain ⟨hnonneg, hle⟩ := fits_bounds hsettled hfits hq
  have hmem : s.record.status = .filled ∨ s.record.status = .partiallyFilled ∨
      s.record.status = .acknowledged ∨ s.record.status = .rejected := by
    simpa [settlingStatuses] using hsettled
  have hpending : s.record.status ∉ pendingStatuses := by
    rcases hmem with h | h | h | h <;> (rw [h]; decide)
  refine ⟨⟨hnonneg, hle, hfits, fun h => absurd h hpending⟩, fun hnew => ?_, fun hnone => ?_⟩
  · rcases hmem with h | h | h | h <;> rcases hnew with hnew | hnew <;> (rw [h] at hnew; cases hnew)
  · rcases hmem with h | h | h | h
    · rw [hreported (Or.inl h)] at hnone
      cases hnone
    · rw [hreported (Or.inr h)] at hnone
      cases hnone
    · rw [h] at hfits
      exact hfits
    · rw [h] at hfits
      exact hfits

theorem refused_quiet {reg : BrokerRegistry} {s : TrackedOrder} {c : AnsweredCall}
    (h : (c.1.begin reg s.record).calls = []) : s.step reg c = s ∨ Quiet s (s.step reg c) := by
  rw [step]
  simp only [if_pos h]
  obtain ⟨a, answer⟩ := c
  cases a with
  | submit =>
    simp only [Awaiting.begin, submitBegin] at h ⊢
    split
    · rename_i t hbegin
      split_ifs at hbegin with hrefused
      · cases hbegin
        rw [if_neg hrefused] at h
        cases h
    · exact Or.inl rfl
  | reconcile =>
    simp only [Awaiting.begin, reconcileBegin] at h ⊢
    split_ifs at h ⊢
    · cases hid : s.record.brokerId with
      | none =>
        refine Or.inr ⟨rfl, rfl, ?_, id⟩
        show OrderStatus.unknown ∈ silentStatuses
        decide
      | some id =>
        rw [hid] at h
        cases h
    · exact Or.inl rfl
  | cancel =>
    simp only [Awaiting.begin, cancelBegin] at h ⊢
    cases hid : s.record.brokerId with
    | none =>
      refine Or.inr ⟨rfl, rfl, ?_, id⟩
      show OrderStatus.cancelled ∈ silentStatuses
      decide
    | some id =>
      rw [hid] at h
      cases h

end TrackedOrder

/-! ### What an answer makes of the quantity -/

/-- An answer that leaves the quantity alone, whatever it carries. -/
structure Passes (a : Awaiting) (record : OrderRecord) (answer : Answer) (record' : OrderRecord) : Prop where
  quantity : record'.quantity = record.quantity
  filled : record'.fillQuantity = record.fillQuantity
  status : record'.status ∈ silentStatuses
  carries : ∀ r, answer = .result r → a.Carries record r

/-- A dictionary that settles the quantity: it fits just when the dictionary carries it. -/
structure Settles (a : Awaiting) (record : OrderRecord) (r : BrokerResult) (record' : OrderRecord) : Prop where
  quantity : record'.quantity = record.quantity
  status : record'.status ∈ settlingStatuses
  reported : record'.status = .filled ∨ record'.status = .partiallyFilled → (Answer.result r).reportsFill = true
  carries : a.Carries record r ↔ record'.status.Fits record.quantity record'.fillQuantity ∧
    record.fillQuantity ≤ record'.fillQuantity

/-- The end of a call passes or settles. -/
def Ends (a : Awaiting) (record : OrderRecord) (answer : Answer) (record' : OrderRecord) : Prop :=
  Passes a record answer record' ∨ ∃ r, answer = .result r ∧ Settles a record r record'

/-- What a call has written before it asked is not read by what the dictionary has to carry. -/
theorem Ends.before {a : Awaiting} {record : OrderRecord} {status : OrderStatus} {attempts : Nat} {answer : Answer}
    {record' : OrderRecord} (h : Ends a { record with status, attemptCount := attempts } answer record') :
    Ends a record answer record' := by
  have hcarries : ∀ r, a.Carries { record with status, attemptCount := attempts } r ↔ a.Carries record r := by
    intro r
    cases a <;> exact Iff.rfl
  rcases h with h | ⟨r, hr, h⟩
  · exact Or.inl ⟨h.quantity, h.filled, h.status, fun r hr => (hcarries r).mp (h.carries r hr)⟩
  · exact Or.inr ⟨r, hr, h.quantity, h.status, h.reported, (hcarries r).symm.trans h.carries⟩

theorem internalStatus_settled (status : Option BrokerStatus) : internalStatus status ∈ settlingStatuses := by
  unfold internalStatus
  split <;> decide

theorem internalStatus_reports {status : Option BrokerStatus}
    (h : internalStatus status = .filled ∨ internalStatus status = .partiallyFilled) :
    status = some .filled ∨ status = some .partiallyFilled := by
  revert h
  unfold internalStatus
  split <;> simp

theorem silent_timedOut : OrderStatus.timedOut ∈ silentStatuses := by decide

theorem silent_unknown : OrderStatus.unknown ∈ silentStatuses := by decide

theorem silent_reconciling : OrderStatus.reconciling ∈ silentStatuses := by decide

theorem silent_cancelled : OrderStatus.cancelled ∈ silentStatuses := by decide

theorem settling_partiallyFilled : OrderStatus.partiallyFilled ∈ settlingStatuses := by decide

theorem settling_rejected : OrderStatus.rejected ∈ settlingStatuses := by decide

theorem setStatus_ends (t : Traced) {a : Awaiting} {r : BrokerResult} {status : OrderStatus}
    (hsilent : status ∈ silentStatuses) (hcarries : a.Carries t.record r) :
    Ends a t.record (.result r) (t.setStatus status).record := by
  refine Or.inl ⟨rfl, rfl, hsilent, fun r' hr => ?_⟩
  cases hr
  exact hcarries

theorem fits_filled_iff {record : OrderRecord} (hle : record.fillQuantity ≤ record.quantity) (n : Int) :
    OrderStatus.filled.Fits record.quantity n ↔
      OrderStatus.filled.Fits record.quantity n ∧ record.fillQuantity ≤ n :=
  ⟨fun hn => ⟨hn, hn ▸ hle⟩, fun hn => hn.1⟩

section Ends
variable {t : Traced}

theorem submitEnd_ends (hsilent : t.record.status ∈ silentStatuses) (hq : 0 ≤ t.record.quantity)
    (hnew : t.record.fillQuantity = 0) (answer : Answer) :
    Ends .submit t.record answer (submitEnd t answer).record := by
  cases answer with
  | timeout => exact Or.inl ⟨rfl, rfl, silent_timedOut, fun _ hr => (nomatch hr)⟩
  | error => exact Or.inl ⟨rfl, rfl, silent_unknown, fun _ hr => (nomatch hr)⟩
  | aborted => exact Or.inl ⟨rfl, rfl, hsilent, fun _ hr => (nomatch hr)⟩
  | result r =>
    simp only [submitEnd]
    cases hprice : r.fillPrice.decimal with
    | none =>
      refine Or.inl ⟨rfl, rfl, silent_unknown, fun r' hr hread => ?_⟩
      cases hr
      exact absurd hprice hread
    | some price =>
      cases hquantity : r.fillQuantity.orDefault t.record.quantity with
      | none =>
        refine Or.inl ⟨rfl, rfl, silent_unknown, fun r' hr _ n hn => ?_⟩
        cases hr
        rw [hquantity] at hn
        cases hn
      | some n =>
        have hsettled := internalStatus_settled r.status
        refine Or.inr ⟨r, rfl, rfl, hsettled, fun hstatus => ?_, fun hcarries => ?_, fun hfits _ n' hn' => ?_⟩
        · rcases internalStatus_reports hstatus with hr | hr <;> simp [Answer.reportsFill, hr]
        · have hread : r.fillPrice.decimal ≠ none := by
            rw [hprice]
            exact Option.some_ne_none price
          have hfits := hcarries hread n hquantity
          exact ⟨hfits, hnew.trans_le (fits_bounds hsettled hfits hq).1⟩
        · rw [hquantity] at hn'
          cases hn'
          exact hfits.1

/-- A fill that wins over the call: its entries are read last, and one that cannot be read leaves a silent status. -/
theorem won_ends (t : Traced) {a : Awaiting} {r : BrokerResult} (status fallback : OrderStatus)
    (hsettled : status ∈ settlingStatuses) (hfallback : fallback ∈ silentStatuses)
    (hreports : (Answer.result r).reportsFill = true)
    (hcarries : a.Carries t.record r ↔ (r.fillPrice.orElse t.record.fillPrice ≠ none →
      ∀ n ∈ r.fillQuantity.orDefault t.record.fillQuantity,
        status.Fits t.record.quantity n ∧ t.record.fillQuantity ≤ n)) :
    Ends a t.record (.result r)
      (match r.fillPrice.orElse t.record.fillPrice with
      | none => (t.setStatus status).setStatus fallback
      | some fillPrice =>
        match r.fillQuantity.orDefault t.record.fillQuantity with
        | none => ({ t.setStatus status with
            record := { (t.setStatus status).record with fillPrice } } : Traced).setStatus fallback
        | some fillQuantity => { t.setStatus status with
            record := { (t.setStatus status).record with fillPrice, fillQuantity } }).record := by
  cases hprice : r.fillPrice.orElse t.record.fillPrice with
  | none =>
    refine Or.inl ⟨rfl, rfl, hfallback, fun r' hr => ?_⟩
    cases hr
    exact hcarries.mpr fun hread => absurd hprice hread
  | some price =>
    have hread : r.fillPrice.orElse t.record.fillPrice ≠ none := by
      rw [hprice]
      exact Option.some_ne_none price
    cases hquantity : r.fillQuantity.orDefault t.record.fillQuantity with
    | none =>
      refine Or.inl ⟨rfl, rfl, hfallback, fun r' hr => ?_⟩
      cases hr
      refine hcarries.mpr fun _ n hn => ?_
      rw [hquantity] at hn
      cases hn
    | some n =>
      refine Or.inr ⟨r, rfl, rfl, hsettled, fun _ => hreports, fun hc => hcarries.mp hc hread n hquantity, fun hfits => ?_⟩
      refine hcarries.mpr fun _ n' hn' => ?_
      rw [hquantity] at hn'
      cases hn'
      exact hfits

theorem reconcileEnd_ends (hsilent : t.record.status ∈ silentStatuses)
    (hle : t.record.fillQuantity ≤ t.record.quantity) (answer : Answer) :
    Ends .reconcile t.record answer (reconcileEnd t answer).record := by
  cases answer with
  | timeout => exact Or.inl ⟨rfl, rfl, silent_unknown, fun _ hr => (nomatch hr)⟩
  | error => exact Or.inl ⟨rfl, rfl, silent_unknown, fun _ hr => (nomatch hr)⟩
  | aborted => exact Or.inl ⟨rfl, rfl, hsilent, fun _ hr => (nomatch hr)⟩
  | result r =>
    cases hstatus : r.status with
    | none =>
      simp only [reconcileEnd, hstatus]
      exact setStatus_ends t silent_unknown (by simp only [Awaiting.Carries, hstatus])
    | some status =>
      cases status with
      | filled =>
        have hcarries : Awaiting.reconcile.Carries t.record r ↔ (r.fillPrice.orElse t.record.fillPrice ≠ none →
            ∀ n ∈ r.fillQuantity.orDefault t.record.fillQuantity,
              OrderStatus.filled.Fits t.record.quantity n ∧ t.record.fillQuantity ≤ n) := by
          simp only [Awaiting.Carries, hstatus]
          exact forall_congr' fun _ => forall₂_congr fun n _ => fits_filled_iff hle n
        have hends := won_ends t .filled .unknown (by decide) silent_unknown
          (by simp [Answer.reportsFill, hstatus]) hcarries
        simp only [reconcileEnd, hstatus]
        exact hends
      | partiallyFilled =>
        simp only [reconcileEnd, hstatus]
        refine Or.inr ⟨r, rfl, rfl, settling_partiallyFilled, fun _ => ?_, ?_⟩
        · simp [Answer.reportsFill, hstatus]
        · simp only [Awaiting.Carries, hstatus]
          exact ⟨fun h => ⟨h, le_rfl⟩, fun h => h.1⟩
      | rejected =>
        simp only [reconcileEnd, hstatus]
        refine Or.inr ⟨r, rfl, rfl, settling_rejected, fun h => ?_, ?_⟩
        · rcases h with h | h <;> cases h
        · simp only [Awaiting.Carries, hstatus]
          exact ⟨fun h => ⟨h, le_rfl⟩, fun h => h.1⟩
      | cancelled =>
        simp only [reconcileEnd, hstatus]
        exact setStatus_ends t silent_cancelled (by simp only [Awaiting.Carries, hstatus])
      | other text =>
        simp only [reconcileEnd, hstatus]
        exact setStatus_ends t silent_unknown (by simp only [Awaiting.Carries, hstatus])

theorem cancelEnd_ends (hsilent : t.record.status ∈ silentStatuses)
    (hle : t.record.fillQuantity ≤ t.record.quantity) (answer : Answer) :
    Ends .cancel t.record answer (cancelEnd t answer).record := by
  cases answer with
  | timeout => exact Or.inl ⟨rfl, rfl, silent_reconciling, fun _ hr => (nomatch hr)⟩
  | error => exact Or.inl ⟨rfl, rfl, silent_reconciling, fun _ hr => (nomatch hr)⟩
  | aborted => exact Or.inl ⟨rfl, rfl, hsilent, fun _ hr => (nomatch hr)⟩
  | result r =>
    cases hstatus : r.status with
    | none =>
      simp only [cancelEnd, hstatus]
      exact setStatus_ends t silent_reconciling (by simp only [Awaiting.Carries, hstatus])
    | some status =>
      cases status with
      | filled =>
        have hcarries : Awaiting.cancel.Carries t.record r ↔ (r.fillPrice.orElse t.record.fillPrice ≠ none →
            ∀ n ∈ r.fillQuantity.orDefault t.record.fillQuantity,
              OrderStatus.filled.Fits t.record.quantity n ∧ t.record.fillQuantity ≤ n) := by
          simp only [Awaiting.Carries, hstatus]
          exact forall_congr' fun _ => forall₂_congr fun n _ => fits_filled_iff hle n
        have hends := won_ends t .filled .reconciling (by decide) silent_reconciling
          (by simp [Answer.reportsFill, hstatus]) hcarries
        simp only [cancelEnd, hstatus]
        exact hends
      | partiallyFilled =>
        have hcarries : Awaiting.cancel.Carries t.record r ↔ (r.fillPrice.orElse t.record.fillPrice ≠ none →
            ∀ n ∈ r.fillQuantity.orDefault t.record.fillQuantity,
              OrderStatus.partiallyFilled.Fits t.record.quantity n ∧ t.record.fillQuantity ≤ n) := by
          simp only [Awaiting.Carries, hstatus]
          exact Iff.rfl
        have hends := won_ends t .partiallyFilled .reconciling (by decide)
          silent_reconciling (by simp [Answer.reportsFill, hstatus]) hcarries
        simp only [cancelEnd, hstatus]
        exact hends
      | cancelled =>
        simp only [cancelEnd, hstatus]
        exact setStatus_ends t silent_cancelled (by simp only [Awaiting.Carries, hstatus])
      | rejected =>
        simp only [cancelEnd, hstatus]
        exact setStatus_ends t silent_reconciling (by simp only [Awaiting.Carries, hstatus])
      | other text =>
        simp only [cancelEnd, hstatus]
        exact setStatus_ends t silent_reconciling (by simp only [Awaiting.Carries, hstatus])

end Ends

/-! ### Runs of calls -/

namespace TrackedOrder

/-- A call that asks its adapter has only set the status before, and to one that is silent. -/
theorem begin_answered {reg : BrokerRegistry} {record : OrderRecord} {a : Awaiting}
    (h : (a.begin reg record).calls ≠ []) :
    ∃ status attempts, (a.begin reg record).record = { record with status, attemptCount := attempts } ∧
      status ∈ silentStatuses ∧ (a = .submit → record.status = .created ∨ record.status = .riskApproved) := by
  cases a with
  | submit =>
    by_cases hrefused : record.status ≠ .created ∧ record.status ≠ .riskApproved
    · simp [Awaiting.begin, submitBegin, hrefused] at h
    · refine ⟨.submitted, record.attemptCount + 1, ?_, by decide, fun _ => ?_⟩
      · simp only [Awaiting.begin, submitBegin, if_neg hrefused]
        rfl
      · by_contra hnot
        exact hrefused (not_or.mp hnot)
  | reconcile =>
    simp only [Awaiting.begin, reconcileBegin] at h ⊢
    split_ifs at h ⊢
    · cases hid : record.brokerId with
      | none =>
        rw [hid] at h
        exact absurd rfl h
      | some id => exact ⟨.reconciling, record.attemptCount, rfl, by decide, fun hsubmit => by cases hsubmit⟩
    · exact absurd rfl h
  | cancel =>
    simp only [Awaiting.begin, cancelBegin] at h ⊢
    cases hid : record.brokerId with
    | none =>
      rw [hid] at h
      exact absurd rfl h
    | some id => exact ⟨.cancelPending, record.attemptCount, rfl, by decide, fun hsubmit => by cases hsubmit⟩

theorem answered_ends {reg : BrokerRegistry} {s : TrackedOrder} (hs : s.Sound) {c : AnsweredCall}
    (h : (c.1.begin reg s.record).calls ≠ []) :
    Ends c.1 s.record c.2 (c.1.finish (c.1.begin reg s.record) c.2).record := by
  obtain ⟨a, answer⟩ := c
  obtain ⟨status, attempts, hbegin, hsilent, hsubmit⟩ := begin_answered h
  have hq : 0 ≤ s.record.quantity := hs.nonneg.trans hs.le
  have hends : Ends a (a.begin reg s.record).record answer (a.finish (a.begin reg s.record) answer).record := by
    cases a with
    | submit =>
      refine submitEnd_ends ?_ ?_ ?_ answer
      · rwa [hbegin]
      · rwa [hbegin]
      · rw [hbegin]
        exact hs.unsubmitted (hsubmit rfl)
    | reconcile =>
      refine reconcileEnd_ends ?_ ?_ answer
      · rwa [hbegin]
      · rw [hbegin]
        exact hs.le
    | cancel =>
      refine cancelEnd_ends ?_ ?_ answer
      · rwa [hbegin]
      · rw [hbegin]
        exact hs.le
  rw [hbegin] at hends
  exact hends.before

theorem sound_consistent {s s' : TrackedOrder} {met : Prop} (hsound : s'.Sound) (hmet : met)
    (hle : s.record.fillQuantity ≤ s'.record.fillQuantity) :
    (s'.Consistent ∧ s.record.fillQuantity ≤ s'.record.fillQuantity ↔ met) ∧ (met → s'.Sound) :=
  ⟨⟨fun _ => hmet, fun _ => ⟨hsound.toConsistent, hle⟩⟩, fun _ => hsound⟩

theorem consistent_step_iff {reg : BrokerRegistry} {s : TrackedOrder} (hs : s.Sound) (c : AnsweredCall) :
    ((s.step reg c).Consistent ∧ s.record.fillQuantity ≤ (s.step reg c).record.fillQuantity ↔ s.Met reg c) ∧
      (s.Met reg c → (s.step reg c).Sound) := by
  by_cases hcalls : (c.1.begin reg s.record).calls = []
  · have hmet : s.Met reg c := fun hasked => absurd hcalls hasked
    rcases refused_quiet hcalls with hsame | hquiet
    · rw [hsame]
      exact sound_consistent hs hmet le_rfl
    · exact sound_consistent (hquiet.sound hs) hmet hquiet.filled.ge
  · have hstep : s.step reg c = { record := (c.1.finish (c.1.begin reg s.record) c.2).record
                                  reported := s.reported || c.2.reportsFill } := if_neg hcalls
    rcases answered_ends hs hcalls with hpasses | ⟨r, hr, hsettles⟩
    · have hquiet : Quiet s (s.step reg c) := by
        rw [hstep]
        exact ⟨hpasses.quantity, hpasses.filled, hpasses.status, fun h => (Bool.or_eq_false_iff.mp h).1⟩
      exact sound_consistent (hquiet.sound hs) (fun _ => hpasses.carries) hquiet.filled.ge
    · have hmet : s.Met reg c ↔ c.1.Carries s.record r := by
        constructor
        · exact fun h => h hcalls r hr
        · intro h _ r' hr'
          cases hr.symm.trans hr'
          exact h
      rw [hmet, hstep]
      constructor
      · rw [hsettles.carries, ← hsettles.quantity]
        refine and_congr_left fun hle => ⟨fun h => h.fits, fun hfits => ?_⟩
        refine (sound_of_fits hsettles.status hfits ?_ ?_).toConsistent
        · rw [hsettles.quantity]
          exact hs.nonneg.trans hs.le
        · intro hstatus
          rw [hr, hsettles.reported hstatus, Bool.or_true]
      · intro hcarries
        obtain ⟨hfits, -⟩ := hsettles.carries.mp hcarries
        rw [← hsettles.quantity] at hfits
        refine sound_of_fits hsettles.status hfits ?_ ?_
        · rw [hsettles.quantity]
          exact hs.nonneg.trans hs.le
        · intro hstatus
          rw [hr, hsettles.reported hstatus, Bool.or_true]

/-- The filled quantity is consistent in every state of a run, and never decreases along it, exactly when every
call of the run meets the guard. -/
theorem fillQuantity_consistent_iff (reg : BrokerRegistry) (s : TrackedOrder) (hs : s.Sound)
    (calls : List AnsweredCall) :
    (Always (step reg) Consistent s calls ∧ ∀ pre mid, pre ++ mid <+: calls →
      (run (step reg) s pre).record.fillQuantity ≤ (run (step reg) s (pre ++ mid)).record.fillQuantity) ↔
      Guarded (step reg) (Met reg) s calls := by
  have hmono : (∀ pre mid, pre ++ mid <+: calls →
      (run (step reg) s pre).record.fillQuantity ≤ (run (step reg) s (pre ++ mid)).record.fillQuantity) ↔
        Guarded (step reg) (fun s c => s.record.fillQuantity ≤ (s.step reg c).record.fillQuantity) s calls :=
    related_iff_guarded (R := fun a b => a.record.fillQuantity ≤ b.record.fillQuantity) (fun _ => le_rfl)
      (fun _ _ _ => le_trans) s calls
  rw [hmono, always_iff_after, and_iff_right hs.toConsistent, ← guarded_and]
  refine (guarded_congr (I := Sound) (fun s c hI hG => (consistent_step_iff hI c).2 ?_)
    (fun s c hI => (consistent_step_iff hI c).1) hs calls)
  exact (consistent_step_iff hI c).1.mp hG

def newOrder : TrackedOrder where
  record := { accountId := "A1", clientOrderId := 1, symbol := "NIFTY", side := "BUY", quantity := 10
              price := some 100, orderType := "LIMIT" }

theorem newOrder_sound : newOrder.Sound :=
  ⟨⟨by decide, by decide, trivial, fun _ _ => rfl⟩, fun _ => rfl, fun _ => rfl⟩

/-- Acknowledged with nothing filled, then a cancel that four of ten have overtaken. -/
theorem fillQuantity_consistent_iff_race :
    Always (step { }) Consistent newOrder
        [(.submit, .result { brokerOrderId := some "B1", status := some (.other "OPEN"), fillQuantity := .value 0 }),
          (.cancel, .result { brokerOrderId := none, status := some .partiallyFilled, fillQuantity := .value 4 })] ∧
      ∀ pre mid, pre ++ mid <+:
        [(.submit, .result { brokerOrderId := some "B1", status := some (.other "OPEN"), fillQuantity := .value 0 }),
          (.cancel, .result { brokerOrderId := none, status := some .partiallyFilled, fillQuantity := .value 4 })] →
        (run (step { }) newOrder pre).record.fillQuantity ≤
          (run (step { }) newOrder (pre ++ mid)).record.fillQuantity := by
  refine (fillQuantity_consistent_iff { } newOrder newOrder_sound _).mpr ⟨?_, ?_, trivial⟩
  · rintro - r hr
    cases hr
    rintro - n hn
    cases hn
    rfl
  · rintro - r hr
    cases hr
    rintro - n hn
    cases hn
    decide +kernel

/-- An acknowledgement without a quantity counts as a fill of the whole order. -/
theorem acknowledgement_filled :
    ¬ ∀ (reg : BrokerRegistry) (s : TrackedOrder), s.Sound → ∀ calls : List AnsweredCall,
      (∀ c ∈ calls, ∀ r, c.2 = .result r → ∀ n, r.fillQuantity = .value n → 0 ≤ n ∧ n ≤ s.record.quantity) →
      Always (step reg) Consistent s calls ∧ ∀ pre mid, pre ++ mid <+: calls →
        (run (step reg) s pre).record.fillQuantity ≤ (run (step reg) s (pre ++ mid)).record.fillQuantity := by
  intro hall
  have hrun := hall { } newOrder newOrder_sound
    [(.submit, .result { brokerOrderId := some "B1", status := some (.other "ACKNOWLEDGED") })] (by
      intro c hc r hr n hn
      cases List.mem_singleton.mp hc
      cases hr
      cases hn)
  have hfits : (10 : Int) = 0 := hrun.1.2.head.fits
  exact absurd hfits (by decide)

end TrackedOrder

end Droid.Algo
