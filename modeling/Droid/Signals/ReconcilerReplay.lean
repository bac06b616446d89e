import Droid.Signals.Reconciliation

/-! Repeated and late calls of the reconciler: when booked exits, a staged first target and a
closed record stand. -/
namespace Droid.Signals
open Lib FillReconciliationRecord

namespace Reconciliation

def fills (s : Reconciliation) : List OptionStageFill := (s.record.map (·.fills)).getD []

def closed (s : Reconciliation) : Bool := s.record.any (·.isFullyClosed)

/-- The first targets booked since the entry. -/
def firstTargets (s : Reconciliation) : Nat := s.fills.countP (·.stage = .target1)

/-- Quantities, costs and result of the record and the quantities of the signal. -/
def books (s : Reconciliation) : Option (Int × Int × Int × ℚ × ℚ × ℚ) × ℚ × ℚ × Option ℚ :=
  (s.record.map fun record => (record.intendedQty, record.remainingQty, record.t1Qty,
      record.totalStatutoryCosts, record.grossRealizedPnl, record.netRealizedPnlInr),
    s.sig.intendedQty, s.sig.remainingQty, s.sig.t1RealizedQty)

/-- Booked exits stay, and a closed record stays closed with the same books. -/
structure Keeps (s s' : Reconciliation) : Prop where
  exits : (∃ f ∈ s.fills, f.stage ≠ .entry) → s.fills <+: s'.fills
  final : s.closed = true → s'.closed = true ∧ s'.books = s.books

/-- Between any two points of a run the reconciler keeps what it booked, and it books at most one
first target for an entry. -/
def Safe (s : Reconciliation) (calls : List ReconcilerCall) : Prop :=
  (∀ pre mid, pre ++ mid <+: calls → Keeps (run step s pre) (run step s (pre ++ mid))) ∧
    Always step (fun s => s.firstTargets ≤ 1) s calls

/-- No entry after an exit; no first target after another or after the close, but one that is
taken for a repetition or withheld; no final exit that is booked as a second first target. -/
def Meets (s : Reconciliation) : ReconcilerCall → Prop
  | .entry .. => (∀ f ∈ s.fills, f.stage = .entry) ∧ s.closed = false
  | .target1 now price => s.firstTargets = 0 ∧ s.closed = false ∨
      (∃ record ∈ s.record, record.t1Replayed price now = true) ∨
      s.sig.isOption = true ∧ spotThreshold < price
  | .final now price reason => reason = "TARGET_1" → s.firstTargets = 0 ∨
      ∀ record ∈ s.record, record.booked .target1 price now = true ∨ record.remainingQty ≤ 0 ∨
        record.domainMismatch s.sig price = true

/-! ### Facts of every run -/

/-- A closed record has nothing remaining, nor has its signal; costs are in cents. -/
structure Filed (sig : SignalInstance) (record : FillReconciliationRecord) : Prop where
  remaining : record.isFullyClosed = true → record.remainingQty = 0
  signal : record.isFullyClosed = true → sig.remainingQty = 0
  costCents : IsDecimal 2 record.totalStatutoryCosts

theorem Filed.of_unbooked {record : FillReconciliationRecord} (h : record.Unbooked) (sig : SignalInstance) :
    Filed sig record := by
  refine ⟨fun hc => ?_, fun hc => ?_, ?_⟩
  · rw [h.opened] at hc
    cases hc
  · rw [h.opened] at hc
    cases hc
  · rw [h.free]
    exact isDecimal_zero 2

theorem stageExit_filed (now : Int) {sig : SignalInstance} {record : FillReconciliationRecord}
    (h : Filed sig record) (price : ℚ) :
    Filed (stageExit now sig record price).1 (stageExit now sig record price).2 := by
  have hnone : record.isFullyClosed = true → (stageExit now sig record price).2.remainingQty = 0 := by
    intro hc
    have hzero := h.remaining hc
    obtain ⟨hclose0, hclose⟩ := t1CloseQty_le hzero.ge
    rw [stageExit_remaining]
    omega
  have hsig : (stageExit now sig record price).1.remainingQty =
      (stageExit now sig record price).2.remainingQty := rfl
  refine ⟨hnone, fun hc => ?_, isDecimal_roundTo 2 _⟩
  rw [hsig, hnone hc, Int.cast_zero]

/-- A first target of a closed record sells nothing, and pays for two orders. -/
theorem stageExit_late (now : Int) {sig : SignalInstance} {record : FillReconciliationRecord}
    (h : Filed sig record) (hc : record.isFullyClosed = true) (price : ℚ) :
    (stageExit now sig record price).2.totalStatutoryCosts = record.totalStatutoryCosts + 4720 / 100 := by
  have hzero := h.remaining hc
  obtain ⟨hclose0, hclose⟩ := t1CloseQty_le hzero.ge
  have hnone : record.t1CloseQty = 0 := by omega
  have hcosts : (stageExit now sig record price).2.totalStatutoryCosts =
      roundTo 2 (record.totalStatutoryCosts + Paper.calculateOptionCosts
        (roundTo 2 (record.entryFillPrice * record.t1CloseQty)) (roundTo 2 (price * record.t1CloseQty)) 2) := rfl
  have hidle : Paper.calculateOptionCosts 0 0 2 = 4720 / 100 := by decide +kernel
  have hcents : IsDecimal 2 (4720 / 100 : ℚ) := ⟨4720, by norm_num⟩
  rw [hcosts, hnone, Int.cast_zero, mul_zero, mul_zero, roundTo_zero, hidle]
  exact (h.costCents.add hcents).roundTo_eq

theorem reconcileFinalExit_filed (now : Int) {sig : SignalInstance} {record : FillReconciliationRecord}
    (h : Filed sig record) (price : ℚ) (reason : String) :
    Filed (reconcileFinalExit now sig (some record) price reason).1
      (reconcileFinalExit now sig (some record) price reason).2 := by
  by_cases hbooked : record.booked (.ofReason reason) price now = true
  · rw [reconcileFinalExit_some, if_pos hbooked]
    exact h
  · obtain ⟨hsig, hremaining, -, -, hledger⟩ := reconcileFinalExit_closes now sig hbooked
    refine ⟨fun _ => hremaining, fun _ => ?_, ?_⟩
    · rw [hsig]
    · split at hledger
      · rw [show (reconcileFinalExit now sig (some record) price reason).2.totalStatutoryCosts = _ from
          congrArg (·.2.2.2.1) hledger]
        exact isDecimal_roundTo 2 _
      · rw [show (reconcileFinalExit now sig (some record) price reason).2.totalStatutoryCosts = _ from
          congrArg (·.2.2.2.1) hledger]
        exact h.costCents

theorem step_filed (s : Reconciliation) (h : ∀ record ∈ s.record, Filed s.sig record) (call : ReconcilerCall) :
    ∀ record ∈ (s.step call).record, Filed (s.step call).sig record := by
  intro record hrecord
  obtain ⟨sig, existing⟩ := s
  cases call with
  | entry now fillPrice quantity lotSize =>
    cases hrecord
    exact Filed.of_unbooked (reconcileEntry_unbooked now sig fillPrice quantity lotSize) _
  | target1 now price =>
    cases hrecord
    show Filed (reconcileT1Exit now sig existing price).1 (reconcileT1Exit now sig existing price).2
    cases existing with
    | none =>
      rw [reconcileT1Exit_none]
      have hfresh := rebuildEntry_unbooked now sig
      split
      · exact ⟨fun hc => (nomatch hc), fun hc => (nomatch hc), isDecimal_zero 2⟩
      · split
        · exact stageExit_filed now (Filed.of_unbooked hfresh _) price
        · exact Filed.of_unbooked hfresh _
    | some record =>
      have hfiled := h record rfl
      rw [reconcileT1Exit_some]
      split
      · exact hfiled
      · split
        · exact ⟨hfiled.remaining, hfiled.signal, hfiled.costCents⟩
        · exact stageExit_filed now hfiled price
  | final now price reason =>
    cases hrecord
    show Filed (reconcileFinalExit now sig existing price reason).1
      (reconcileFinalExit now sig existing price reason).2
    cases existing with
    | none =>
      rw [reconcileFinalExit_none]
      have hfresh := rebuildEntry_unbooked now sig
      split
      · exact reconcileFinalExit_filed now (Filed.of_unbooked hfresh _) price reason
      · exact Filed.of_unbooked hfresh _
    | some record => exact reconcileFinalExit_filed now (h record rfl) price reason

/-! ### What one call keeps -/

theorem Keeps.refl (s : Reconciliation) : Keeps s s := ⟨fun _ => List.prefix_refl _, fun h => ⟨h, rfl⟩⟩

theorem Keeps.trans {a b c : Reconciliation} (hab : Keeps a b) (hbc : Keeps b c) : Keeps a c := by
  constructor
  · rintro ⟨f, hf, hstage⟩
    have hkept := hab.exits ⟨f, hf, hstage⟩
    exact hkept.trans (hbc.exits ⟨f, hkept.subset hf, hstage⟩)
  · intro hc
    obtain ⟨hb, hbooks⟩ := hab.final hc
    obtain ⟨hlast, hbooks'⟩ := hbc.final hb
    exact ⟨hlast, hbooks'.trans hbooks⟩

theorem countP_concat_le (l : List OptionStageFill) (f : OptionStageFill) :
    (l ++ [f]).countP (·.stage = .target1) ≤ l.countP (·.stage = .target1) + 1 := by
  rw [List.countP_append]
  exact Nat.add_le_add_left (List.countP_le_length) _

/-- An entry starts the record again, so it keeps what there was when there was no exit. -/
theorem entry_exact (s : Reconciliation) (now : Int) (fillPrice : ℚ) (quantity : Int) (lotSize : Option Int) :
    Keeps s (s.step (.entry now fillPrice quantity lotSize)) ∧
        (s.step (.entry now fillPrice quantity lotSize)).firstTargets ≤ 1 ↔
      s.Meets (.entry now fillPrice quantity lotSize) := by
  have hfresh := reconcileEntry_unbooked now s.sig fillPrice quantity lotSize
  have hfills : (s.step (.entry now fillPrice quantity lotSize)).fills =
      (reconcileEntry now s.sig fillPrice quantity lotSize).2.1.fills := rfl
  have hopen : (s.step (.entry now fillPrice quantity lotSize)).closed = false := hfresh.opened
  constructor
  · rintro ⟨hkeeps, -⟩
    constructor
    · intro f hf
      by_contra hstage
      have hkept := hkeeps.exits ⟨f, hf, hstage⟩
      rw [hfills] at hkept
      exact hstage (hfresh.entries f (hkept.subset hf))
    · by_contra hclosed
      have hstays := (hkeeps.final (Bool.of_not_eq_false hclosed)).1
      rw [hopen] at hstays
      cases hstays
  · rintro ⟨hentries, hclosed⟩
    refine ⟨⟨?_, fun hc => ?_⟩, ?_⟩
    · rintro ⟨f, hf, hstage⟩
      exact absurd (hentries f hf) hstage
    · rw [hclosed] at hc
      cases hc
    · rw [firstTargets, hfills, hfresh.noTarget]
      exact Nat.zero_le 1

theorem step_target1 (s : Reconciliation) (now : Int) (price : ℚ) : s.step (.target1 now price) =
    { sig := (reconcileT1Exit now s.sig s.record price).1
      record := (reconcileT1Exit now s.sig s.record price).2 } := rfl

theorem step_final (s : Reconciliation) (now : Int) (price : ℚ) (reason : String) :
    s.step (.final now price reason) =
      { sig := (reconcileFinalExit now s.sig s.record price reason).1
        record := (reconcileFinalExit now s.sig s.record price reason).2 } := rfl

/-- Where nothing is on record there is nothing to lose. -/
theorem Keeps.of_none (sig : SignalInstance) (s : Reconciliation) : Keeps { sig } s := by
  refine ⟨?_, fun hc => nomatch hc⟩
  rintro ⟨f, hf, -⟩
  cases hf

/-- A first target that is booked comes before any other and before the close. -/
theorem stageExit_exact (now : Int) {sig : SignalInstance} {record : FillReconciliationRecord}
    (h : Filed sig record) (price : ℚ) :
    Keeps ⟨sig, some record⟩ ⟨(stageExit now sig record price).1, some (stageExit now sig record price).2⟩ ∧
        firstTargets ⟨(stageExit now sig record price).1, some (stageExit now sig record price).2⟩ ≤ 1 ↔
      firstTargets ⟨sig, some record⟩ = 0 ∧ closed ⟨sig, some record⟩ = false := by
  have hcount : firstTargets ⟨(stageExit now sig record price).1, some (stageExit now sig record price).2⟩ =
      firstTargets ⟨sig, some record⟩ + 1 := List.countP_append
  rw [hcount]
  constructor
  · rintro ⟨hkeeps, hle⟩
    refine ⟨by omega, ?_⟩
    by_contra hclosed
    have hc := Bool.of_not_eq_false hclosed
    obtain ⟨-, hbooks⟩ := hkeeps.final hc
    have hcosts : (stageExit now sig record price).2.totalStatutoryCosts = record.totalStatutoryCosts :=
      congrArg (fun books => (books.1.map (·.2.2.2.1)).getD 0) hbooks
    rw [stageExit_late now h hc price] at hcosts
    linarith
  · rintro ⟨hnone, hclosed⟩
    refine ⟨⟨fun _ => List.prefix_append _ _, fun hc => ?_⟩, by omega⟩
    rw [hclosed] at hc
    cases hc

theorem target1_exact (s : Reconciliation) (hfiled : ∀ record ∈ s.record, Filed s.sig record)
    (honce : s.firstTargets ≤ 1) (now : Int) (price : ℚ) :
    Keeps s (s.step (.target1 now price)) ∧ (s.step (.target1 now price)).firstTargets ≤ 1 ↔
      s.Meets (.target1 now price) := by
  obtain ⟨sig, existing⟩ := s
  cases existing with
  | none =>
    refine iff_of_true ⟨Keeps.of_none sig _, ?_⟩ (.inl ⟨rfl, rfl⟩)
    have hfresh := rebuildEntry_unbooked now sig
    rw [step_target1, reconcileT1Exit_none]
    split
    · exact Nat.zero_le 1
    · split
      · exact (countP_concat_le _ _).trans (Nat.succ_le_succ hfresh.noTarget.le)
      · exact hfresh.noTarget.trans_le (Nat.zero_le 1)
  | some record =>
    rw [step_target1, reconcileT1Exit_some]
    by_cases hreplayed : record.t1Replayed price now = true
    · rw [if_pos hreplayed]
      exact iff_of_true ⟨Keeps.refl _, honce⟩ (.inr (.inl ⟨record, rfl, hreplayed⟩))
    · rw [if_neg hreplayed]
      by_cases hindex : sig.isOption = true ∧ spotThreshold < price
      · rw [if_pos hindex]
        exact iff_of_true ⟨⟨fun _ => List.prefix_refl _, fun hc => ⟨hc, rfl⟩⟩, honce⟩ (.inr (.inr hindex))
      · rw [if_neg hindex, stageExit_exact now (hfiled record rfl) price]
        refine ⟨.inl, ?_⟩
        rintro (hfirst | ⟨r, hr, hrep⟩ | hwithheld)
        · exact hfirst
        · cases hr
          exact absurd hrep hreplayed
        · exact absurd hwithheld hindex

theorem Keeps.of_closesOut {now : Int} {sig sig' : SignalInstance} {record record' : FillReconciliationRecord}
    {price : ℚ} {stage : Stage} (h : ClosesOut now sig record price stage sig' record')
    (hfiled : Filed sig record) (hledger : record'.ledger = record.ledger) :
    Keeps ⟨sig, some record⟩ ⟨sig', some record'⟩ := by
  obtain ⟨hintended, hstaged⟩ := h.planned
  have hremaining := h.remaining
  simp only [ledger, Prod.mk.injEq] at hledger
  obtain ⟨-, hfills, hgross, hcosts, hnet⟩ := hledger
  constructor
  · intro _
    show record.fills <+: record'.fills
    rw [hfills]
  · intro hc
    have hzero := hfiled.remaining hc
    have hsigzero := hfiled.signal hc
    refine ⟨h.closed, ?_⟩
    simp only [books, Option.map_some, h.signal, hintended, hstaged, hremaining, hgross, hcosts, hnet, hzero,
      hsigzero]

theorem finalBooking_exact {now : Int} {sig sig' : SignalInstance} {record record' : FillReconciliationRecord}
    {price : ℚ} {stage : Stage} (hfiled : Filed sig record) (hopen : 0 < record.remainingQty)
    (honce : firstTargets ⟨sig, some record⟩ ≤ 1)
    (hledger : record'.ledger = (record.book stage record.remainingQty price now).1.ledger) :
    Keeps ⟨sig, some record⟩ ⟨sig', some record'⟩ ∧ firstTargets ⟨sig', some record'⟩ ≤ 1 ↔
      (stage = .target1 → firstTargets ⟨sig, some record⟩ = 0) := by
  have hfills : record'.fills = (record.book stage record.remainingQty price now).1.fills :=
    congrArg (·.2.1) hledger
  have hkeeps : Keeps ⟨sig, some record⟩ ⟨sig', some record'⟩ := by
    refine ⟨fun _ => ?_, fun hc => ?_⟩
    · show record.fills <+: record'.fills
      rw [hfills]
      exact List.prefix_append _ _
    · have hzero := hfiled.remaining hc
      omega
  have hcount : firstTargets ⟨sig', some record'⟩ =
      firstTargets ⟨sig, some record⟩ + if stage = .target1 then 1 else 0 := by
    show record'.fills.countP (·.stage = .target1) = record.fills.countP (·.stage = .target1) + _
    rw [hfills]
    refine List.countP_append.trans (congrArg _ ?_)
    rw [List.countP_singleton]
    simp only [decide_eq_true_eq]
  rw [hcount]
  by_cases hstage : stage = .target1
  · rw [if_pos hstage]
    constructor
    · rintro ⟨-, hle⟩ -
      omega
    · intro hnone
      exact ⟨hkeeps, (hnone hstage).symm ▸ le_rfl⟩
  · rw [if_neg hstage]
    exact iff_of_true ⟨hkeeps, honce⟩ fun h => absurd h hstage

theorem final_exact (s : Reconciliation) (hfiled : ∀ record ∈ s.record, Filed s.sig record)
    (honce : s.firstTargets ≤ 1) (now : Int) (price : ℚ) (reason : String) :
    Keeps s (s.step (.final now price reason)) ∧ (s.step (.final now price reason)).firstTargets ≤ 1 ↔
      s.Meets (.final now price reason) := by
  obtain ⟨sig, existing⟩ := s
  cases existing with
  | none =>
    refine iff_of_true ⟨Keeps.of_none sig _, ?_⟩ fun _ => .inl rfl
    have hfresh := rebuildEntry_unbooked now sig
    rw [step_final, reconcileFinalExit_none]
    generalize rebuildEntry now sig = rebuilt at hfresh ⊢
    split
    · by_cases hbooked : rebuilt.2.1.booked (.ofReason reason) price now = true
      · rw [reconcileFinalExit_some, if_pos hbooked]
        exact hfresh.noTarget.trans_le (Nat.zero_le 1)
      · have hledger := (reconcileFinalExit_closes now rebuilt.1 hbooked).ledger
        have hfills := congrArg (·.2.1) hledger
        show (reconcileFinalExit now rebuilt.1 (some rebuilt.2.1) price reason).2.fills.countP
          (·.stage = .target1) ≤ 1
        rw [show (reconcileFinalExit now rebuilt.1 (some rebuilt.2.1) price reason).2.fills = _ from hfills]
        split
        · exact (countP_concat_le _ _).trans (Nat.succ_le_succ hfresh.noTarget.le)
        · exact hfresh.noTarget.trans_le (Nat.zero_le 1)
    · exact hfresh.noTarget.trans_le (Nat.zero_le 1)
  | some record =>
    have hrecord := hfiled record rfl
    rw [step_final]
    by_cases hbooked : record.booked (.ofReason reason) price now = true
    · rw [reconcileFinalExit_some, if_pos hbooked]
      refine iff_of_true ⟨Keeps.refl _, honce⟩ fun hreason => .inr fun r hr => .inl ?_
      cases hr
      rw [(Stage.ofReason_target1 reason).mpr hreason] at hbooked
      exact hbooked
    · have hcloses := reconcileFinalExit_closes now sig hbooked
      have hledger := hcloses.ledger
      by_cases hsells : 0 < record.remainingQty ∧ record.domainMismatch sig price = false
      · rw [if_pos hsells] at hledger
        rw [finalBooking_exact hrecord hsells.1 honce hledger, Stage.ofReason_target1]
        constructor
        · exact fun h hreason => .inl (h hreason)
        · intro h hreason
          rcases h hreason with hnone | hheld
          · exact hnone
          · rcases hheld record rfl with hrep | hempty | hmismatch
            · rw [(Stage.ofReason_target1 reason).mpr hreason] at hbooked
              exact absurd hrep hbooked
            · exact absurd hsells.1 (not_lt.mpr hempty)
            · rw [hsells.2] at hmismatch
              cases hmismatch
      · rw [if_neg hsells] at hledger
        have hfills : (reconcileFinalExit now sig (some record) price reason).2.fills = record.fills :=
          congrArg (·.2.1) hledger
        refine iff_of_true ⟨Keeps.of_closesOut hcloses hrecord hledger, ?_⟩ fun _ => .inr fun r hr => .inr ?_
        · show (reconcileFinalExit now sig (some record) price reason).2.fills.countP
            (·.stage = .target1) ≤ 1
          rw [hfills]
          exact honce
        · cases hr
          by_cases hopen : 0 < record.remainingQty
          · exact .inr (Bool.of_not_eq_false fun hm => hsells ⟨hopen, hm⟩)
          · exact .inl (not_lt.mp hopen)

theorem step_exact (s : Reconciliation) (hfiled : ∀ record ∈ s.record, Filed s.sig record)
    (honce : s.firstTargets ≤ 1) (call : ReconcilerCall) :
    Keeps s (s.step call) ∧ (s.step call).firstTargets ≤ 1 ↔ s.Meets call := by
  cases call with
  | entry now fillPrice quantity lotSize => exact entry_exact s now fillPrice quantity lotSize
  | target1 now price => exact target1_exact s hfiled honce now price
  | final now price reason => exact final_exact s hfiled honce now price reason

/-- Whatever is called, the reconciler keeps what it booked and books one first target an entry if
and only if every call meets its condition. -/
theorem safe_iff (sig : SignalInstance) (calls : List ReconcilerCall) :
    Safe { sig } calls ↔ Guarded step Meets { sig } calls := by
  have hstart : firstTargets { sig } ≤ 1 := Nat.zero_le 1
  have hempty : ∀ record ∈ ({ sig } : Reconciliation).record, Filed sig record := by
    intro record hrecord
    cases hrecord
  have hrelated : (∀ pre mid, pre ++ mid <+: calls →
      Keeps (run step { sig } pre) (run step { sig } (pre ++ mid))) ↔
        Guarded step (fun s call => Keeps s (s.step call)) { sig } calls :=
    related_iff_guarded Keeps.refl (fun _ _ _ => Keeps.trans) { sig } calls
  have honce := always_iff_after step (fun s => s.firstTargets ≤ 1) { sig } calls
  calc Safe { sig } calls
      ↔ Guarded step (fun s call => Keeps s (s.step call)) { sig } calls ∧
          Guarded step (fun s call => (s.step call).firstTargets ≤ 1) { sig } calls := by
        rw [Safe, hrelated, honce, and_iff_right hstart]
    _ ↔ Guarded step (fun s call => Keeps s (s.step call) ∧ (s.step call).firstTargets ≤ 1) { sig } calls :=
        (guarded_and step _ _ { sig } calls).symm
    _ ↔ Guarded step Meets { sig } calls := by
        refine guarded_congr (I := fun s => (∀ record ∈ s.record, Filed s.sig record) ∧ s.firstTargets ≤ 1)
          (fun s call hI hg => ⟨step_filed s hI.1 call, hg.2⟩)
          (fun s call hI => step_exact s hI.1 hI.2 call) ⟨hempty, hstart⟩ calls

def enter : ReconcilerCall := .entry 1000 100 150 (some 75)

/-- A repeated entry erases the first target, a first target at another price is booked again, and
one after the close costs two orders. -/
theorem replays_unsafe :
    ¬ Safe { sig := twoLots } [enter, .target1 60000 120, enter] ∧
      ¬ Safe { sig := twoLots } [enter, .target1 60000 120, .target1 60000 (1201 / 10)] ∧
      ¬ Safe { sig := twoLots } [enter, .final 60000 120 "TARGET_2_HIT", .target1 90000 120] := by
  refine ⟨fun h => ?_, fun h => ?_, fun h => ?_⟩
  · have hkeeps := h.1 [enter, .target1 60000 120] [enter] (List.prefix_refl _)
    have herased : ¬ (run step { sig := twoLots } [enter, .target1 60000 120]).fills <+:
        (run step { sig := twoLots } [enter, .target1 60000 120, enter]).fills := by decide +kernel
    have hexit : ∃ f ∈ (run step { sig := twoLots } [enter, .target1 60000 120]).fills, f.stage ≠ .entry := by
      decide +kernel
    exact herased (hkeeps.exits hexit)
  · have honce := run_of_always h.2
    have htwice : ¬ (run step { sig := twoLots }
        [enter, .target1 60000 120, .target1 60000 (1201 / 10)]).firstTargets ≤ 1 := by decide +kernel
    exact htwice honce
  · have hkeeps := h.1 [enter, .final 60000 120 "TARGET_2_HIT"] [.target1 90000 120] (List.prefix_refl _)
    have hclosed : (run step { sig := twoLots } [enter, .final 60000 120 "TARGET_2_HIT"]).closed = true := by
      decide +kernel
    have hcharged : ((run step { sig := twoLots }
        [enter, .final 60000 120 "TARGET_2_HIT", .target1 90000 120]).books.1.map (·.2.2.2.1)).getD 0 ≠
          ((run step { sig := twoLots } [enter, .final 60000 120 "TARGET_2_HIT"]).books.1.map (·.2.2.2.1)).getD 0 := by
      decide +kernel
    exact hcharged (congrArg (fun books => (books.1.map (·.2.2.2.1)).getD 0) (hkeeps.final hclosed).2)

end Reconciliation

end Droid.Signals
