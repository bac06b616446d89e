import Droid.Signals.Stops

/-! The move of the stop to cost, and whether a tick at the price of the move hits it. -/
namespace Droid.Signals
open Lib

/-- A stop there is strictly on the protective side of the price: below it for calls, above it
for all others. -/
def Direction.Clear (d : Direction) (stop price : ℚ) : Prop :=
  if d = .longCall then stop < price else price < stop

instance (d : Direction) (stop price : ℚ) : Decidable (d.Clear stop price) :=
  inferInstanceAs (Decidable (if d = .longCall then stop < price else price < stop))

def SignalInstance.stopLevel (sig : SignalInstance) : ℚ :=
  (truthy sig.currentStopLoss).getD sig.stopLoss

theorem evaluateTick_stop_iff {sig : SignalInstance} {price : ℚ} {ts : Int} :
    evaluateTick sig price ts = some (.enter .stopLossHit) ↔ 0 < price ∧ sig.stopped price = true := by
  unfold evaluateTick
  by_cases hprice : price ≤ 0
  · simp [hprice, hprice.not_gt]
  · cases hstop : sig.stopped price with
    | true => simp [hprice, not_le.mp hprice]
    | false =>
      simp only [hprice, if_false, Bool.false_eq_true, and_false, iff_false]
      split_ifs <;> simp

theorem not_stopped_of_clear {sig : SignalInstance} {price : ℚ}
    (h : sig.direction.Clear sig.stopLevel price) : sig.stopped price = false := by
  rw [Direction.Clear, SignalInstance.stopLevel] at h
  rw [SignalInstance.stopped, decide_eq_false_iff_not]
  rintro (⟨hd, hle⟩ | ⟨hd, hle⟩)
  · rw [if_pos hd] at h
    exact h.not_ge hle
  · rw [if_neg (by rw [hd]; nofun)] at h
    exact h.not_ge hle

theorem stopped_congr {sig sig' : SignalInstance} (hd : sig'.direction = sig.direction)
    (hlevel : sig'.stopLevel = sig.stopLevel) (price : ℚ) : sig'.stopped price = sig.stopped price := by
  rw [SignalInstance.stopLevel, SignalInstance.stopLevel] at hlevel
  rw [SignalInstance.stopped, SignalInstance.stopped]
  rw [hd, hlevel]

/-- No tick at this price stops the signal out, and where the stop was moved to cost it lies
strictly on the protective side. -/
structure StaysIn (sig sig' : SignalInstance) (price : ℚ) : Prop where
  quiet : ∀ ts, evaluateTick sig' price ts ≠ some (.enter .stopLossHit)
  clear : sig.breakevenActivated = false → sig'.breakevenActivated = true →
    ∀ stop, sig'.currentStopLoss = some stop → sig.direction.Clear stop price

theorem quiet_iff {sig : SignalInstance} {price : ℚ} :
    (∀ ts, evaluateTick sig price ts ≠ some (.enter .stopLossHit)) ↔
      (0 < price → sig.stopped price = false) := by
  simp only [ne_eq, evaluateTick_stop_iff, not_and, Bool.not_eq_true, forall_const]

theorem staysIn_unmoved_iff {sig sig' : SignalInstance} {price : ℚ}
    (hd : sig'.direction = sig.direction) (hlevel : sig'.stopLevel = sig.stopLevel)
    (hact : sig'.breakevenActivated = sig.breakevenActivated) :
    StaysIn sig sig' price ↔ (0 < price → sig.stopped price = false) := by
  rw [← stopped_congr hd hlevel price, ← quiet_iff]
  refine ⟨StaysIn.quiet, fun h => ⟨h, fun hfalse htrue => ?_⟩⟩
  cases hfalse.symm.trans (hact.symm.trans htrue)

/-! ### The first target -/

/-- The breakeven reference of the first target; with none it is the initial stop. -/
def SignalInstance.costRef (sig : SignalInstance) : ℚ :=
  (spotBeReference sig).getD sig.stopLoss

/-- The first target leaves no stop that this price hits: neither the stop in force nor, when it
moves to cost, the reference is at the price or beyond it. -/
def SignalInstance.FirstTargetClear (sig : SignalInstance) (price : ℚ) : Prop :=
  if sig.breakevenActivated then 0 < price → sig.stopped price = false
  else sig.direction.Clear sig.stopLevel price ∧ sig.direction.Clear sig.costRef price

theorem costStop_clear_iff (sig : SignalInstance) (price : ℚ) :
    sig.direction.Clear sig.costStop price ↔
      sig.direction.Clear sig.stopLevel price ∧ sig.direction.Clear sig.costRef price := by
  unfold Direction.Clear SignalInstance.costStop
  by_cases hd : sig.direction = .longCall
  · simp only [if_pos hd]
    exact max_lt_iff
  · simp only [if_neg hd]
    exact lt_min_iff

/-- A cost stop of zero falls back to the initial stop, which then is zero as well. -/
theorem costStop_truthy (sig : SignalInstance) :
    (truthy (some sig.costStop)).getD sig.stopLoss = sig.costStop := by
  by_cases hzero : sig.costStop = 0
  · have hchoice : sig.costStop = sig.stopLevel ∨ sig.costStop = sig.costRef := by
      rw [SignalInstance.costStop]
      split
      · exact max_choice _ _
      · exact min_choice _ _
    have hlevel : sig.stopLevel = 0 → sig.stopLoss = 0 := by
      intro h
      rw [SignalInstance.stopLevel] at h
      cases hcur : truthy sig.currentStopLoss with
      | none => simpa [hcur] using h
      | some stop =>
        rw [hcur, Option.getD_some] at h
        have hne : stop ≠ 0 := by simpa using (Option.filter_eq_some_iff.mp hcur).2
        exact absurd h hne
    have href : sig.costRef = 0 → sig.stopLoss = 0 := by
      intro h
      rw [SignalInstance.costRef] at h
      cases hbe : spotBeReference sig with
      | none => simpa [hbe] using h
      | some v =>
        rw [hbe, Option.getD_some] at h
        exact absurd h (spotBeReference_pos hbe).ne'
    have hstop : sig.stopLoss = 0 := by
      rcases hchoice with h | h
      · exact hlevel (h.symm.trans hzero)
      · exact href (h.symm.trans hzero)
    rw [hzero, hstop]
    decide
  · have hsome : truthy (some sig.costStop) = some sig.costStop :=
      Option.filter_eq_some_iff.mpr ⟨rfl, by simpa using hzero⟩
    rw [hsome, Option.getD_some]

theorem staysIn_runner_iff {sig sig' : SignalInstance} {price : ℚ}
    (h : sig'.levels = if sig.breakevenActivated then sig.levels else
      (sig.direction, sig.stopLoss, spotBeReference sig, some sig.costStop, true)) :
    StaysIn sig sig' price ↔ sig.FirstTargetClear price := by
  rw [SignalInstance.FirstTargetClear]
  cases hact : sig.breakevenActivated with
  | true =>
    simp only [hact, if_true, SignalInstance.levels, Prod.mk.injEq] at h ⊢
    obtain ⟨hd, hsl, -, hcur, hact'⟩ := h
    refine staysIn_unmoved_iff hd ?_ (hact'.trans hact.symm)
    rw [SignalInstance.stopLevel, SignalInstance.stopLevel, hcur, hsl]
  | false =>
    simp only [hact, Bool.false_eq_true, if_false, SignalInstance.levels, Prod.mk.injEq] at h ⊢
    obtain ⟨hd, hsl, -, hcur, hact'⟩ := h
    rw [← costStop_clear_iff]
    constructor
    · intro hin
      exact hin.clear hact hact' sig.costStop hcur
    · intro hclear
      refine ⟨quiet_iff.mpr fun _ => not_stopped_of_clear ?_, fun _ _ stop hstop => ?_⟩
      · rw [SignalInstance.stopLevel, hcur, hsl, costStop_truthy, hd]
        exact hclear
      · cases hcur.symm.trans hstop
        exact hclear

/-- What a first target that went through leaves of a confirmed signal's levels. -/
theorem transition_runner (env : Surroundings) {m : SignalFsmManager} {id : SignalId}
    {sig sig' : SignalInstance} (marketPrice : Option ℚ) (reason : String)
    (expectedVersion : Option Int) (hsig : m.signals.get? id = some sig)
    (hconfirmed : sig.fsmState = .confirmed)
    (hok : (m.transition env id .target1Hit marketPrice reason expectedVersion).2 = .ok)
    (hsig' : (m.transition env id .target1Hit marketPrice reason expectedVersion).1.signals.get? id =
      some sig') :
    sig'.levels = if sig.breakevenActivated then sig.levels else
      (sig.direction, sig.stopLoss, spotBeReference sig, some sig.costStop, true) := by
  have hne : sig.fsmState ≠ .target1Hit := by
    rw [hconfirmed]
    nofun
  rcases transition_advances env m .target1Hit marketPrice reason expectedVersion hsig with
    ⟨hn, -⟩ | ⟨-, moved, ⟨hadv, hres⟩ | ⟨-, hres⟩⟩
  · rcases pure_admits env sig .target1Hit marketPrice expectedVersion hne with ⟨ha, -⟩ | ⟨-, e, he⟩
    · exact absurd ha hn
    · rw [SignalFsmManager.transition] at hok
      simp only [hsig, if_neg hne, he] at hok
      cases hok
  · rw [hres, (enqueueSettlement_frame _ _ _ _).1] at hsig'
    cases ((Dict.get?_insert _ _ _ _).trans (if_pos rfl)).symm.trans hsig'
    rcases advance_forms (.inl hadv) with
      ⟨-, ht⟩ | ⟨-, ht⟩ | ⟨-, ht⟩ | ⟨fs, ⟨-, ht⟩ | ⟨rfl, -⟩⟩
    · exact absurd rfl ht
    · exact absurd rfl ht
    · exact absurd rfl ht
    · exact absurd rfl ht
    · have hset : ((sig.enter env.now .target1Hit).setattrs fs).1.levels = sig.levels :=
        setattrs_levels (sig.enter env.now .target1Hit) fs
      refine (startRunner_levels ((sig.enter env.now .target1Hit).setattrs fs).1 env.now).trans ?_
      simp only [SignalInstance.levels, Prod.mk.injEq] at hset
      obtain ⟨hd, hsl, href, hcur, hact⟩ := hset
      unfold SignalInstance.levels SignalInstance.costStop
      rw [hd, hsl, href, hcur, hact]
  · rw [hres] at hok
    cases hok

/-! ### The ratchet -/

/-- The ratchet has a stop to set: a reference that is better than the current stop, or whose
place five hundredths before the price is. -/
def SignalInstance.RatchetMoves (sig : SignalInstance) (price : ℚ) : Prop :=
  sig.breakevenActivated = false ∧ ∃ costRef, spotBeReference sig = some costRef ∧
    ∀ stop, sig.currentStopLoss = some stop →
      if sig.direction = .longCall then
        if price ≤ costRef then stop + 5 / 100 < price else stop < costRef
      else if costRef ≤ price then price + 5 / 100 < stop else costRef < stop

/-- The ratchet leaves no stop that this price hits: where it sets none, the stop in force is not
hit; and where it sets a call's stop to zero, which counts as none, the initial stop is not. -/
def SignalInstance.RatchetClear (sig : SignalInstance) (price : ℚ) : Prop :=
  0 < price →
    (¬ sig.RatchetMoves price → sig.stopped price = false) ∧
    (sig.RatchetMoves price → sig.direction = .longCall → price = 5 / 100 → price ≤ sig.costRef →
      sig.stopLoss < price)

/-- The reference kept off the market. -/
def SignalInstance.clampedStop (sig : SignalInstance) (price costRef : ℚ) : ℚ :=
  if sig.direction = .longCall then if price ≤ costRef then price - 5 / 100 else costRef
  else if costRef ≤ price then price + 5 / 100 else costRef

theorem clampedStop_clear (sig : SignalInstance) (price costRef : ℚ) :
    sig.direction.Clear (sig.clampedStop price costRef) price := by
  unfold Direction.Clear SignalInstance.clampedStop
  split_ifs <;> linarith

theorem ratchetStop_some_iff {sig : SignalInstance} {price newSl : ℚ}
    (hfresh : sig.breakevenActivated = false) :
    SignalFsmManager.ratchetStop sig price = some newSl ↔ sig.RatchetMoves price ∧
      ∃ costRef, spotBeReference sig = some costRef ∧ sig.clampedStop price costRef = newSl := by
  have hguard : ∀ (better : ℚ → Prop) [DecidablePred better] (level : ℚ),
      ((guard (sig.currentStopLoss.all fun stop => decide (better stop)) : Option Unit).bind
        fun _ => some level) = some newSl ↔
      (∀ stop, sig.currentStopLoss = some stop → better stop) ∧ level = newSl := by
    intro better _ level
    rw [Option.bind_eq_some_iff]
    simp [guard, Option.all_eq_true]
  unfold SignalFsmManager.ratchetStop SignalInstance.RatchetMoves SignalInstance.clampedStop
  cases href : spotBeReference sig with
  | none => simp
  | some costRef =>
    by_cases hd : sig.direction = .longCall
    · simp only [hd, hfresh, Option.bind_eq_bind, Option.bind_some, if_true, true_and,
        Option.some.injEq, exists_eq_left']
      refine (hguard (fun stop => stop < if costRef ≥ price then price - 5 / 100 else costRef) _).trans ?_
      refine and_congr (forall₂_congr fun stop _ => ?_) Iff.rfl
      by_cases hbeyond : price ≤ costRef
      · rw [if_pos hbeyond, if_pos hbeyond, lt_sub_iff_add_lt]
      · rw [if_neg hbeyond, if_neg hbeyond]
    · simp only [hd, hfresh, Option.bind_eq_bind, Option.bind_some, if_false, true_and,
        Option.some.injEq, exists_eq_left']
      refine (hguard (fun stop => (if costRef ≤ price then price + 5 / 100 else costRef) < stop) _).trans ?_
      refine and_congr (forall₂_congr fun stop _ => ?_) Iff.rfl
      by_cases hbeyond : costRef ≤ price
      · rw [if_pos hbeyond, if_pos hbeyond]
      · rw [if_neg hbeyond, if_neg hbeyond]

theorem ratchetBreakeven_stop (m : SignalFsmManager) {id : SignalId} {sig : SignalInstance}
    (hsig : m.signals.get? id = some sig) (hconfirmed : sig.fsmState = .confirmed) (price : ℚ) :
    (¬ sig.RatchetMoves price ∧ (m.ratchetBreakeven id price).1 = m) ∨
      (sig.RatchetMoves price ∧ ∃ costRef audit, spotBeReference sig = some costRef ∧
        (m.ratchetBreakeven id price).1.signals.get? id = some
          ({ sig with
            currentStopLoss := some (sig.clampedStop price costRef)
            breakevenActivated := true }.note audit)) := by
  rw [SignalFsmManager.ratchetBreakeven]
  simp only [hsig, hconfirmed, List.mem_cons, true_or, not_true_eq_false, or_false]
  cases hact : sig.breakevenActivated with
  | true => exact .inl ⟨fun h => Bool.noConfusion (hact.symm.trans h.1), rfl⟩
  | false =>
    rw [if_neg Bool.false_ne_true]
    cases hnew : SignalFsmManager.ratchetStop sig price with
    | none =>
      refine .inl ⟨fun h => ?_, rfl⟩
      obtain ⟨costRef, href, -⟩ := h.2
      cases hnew.symm.trans ((ratchetStop_some_iff hact).mpr ⟨h, costRef, href, rfl⟩)
    | some newSl =>
      obtain ⟨hmoves, costRef, href, rfl⟩ := (ratchetStop_some_iff hact).mp hnew
      exact .inr ⟨hmoves, costRef, _, href, (Dict.get?_insert _ _ _ _).trans (if_pos rfl)⟩

theorem clampedStop_zero_iff {sig : SignalInstance} {price costRef : ℚ}
    (href : spotBeReference sig = some costRef) (hprice : 0 < price) :
    sig.clampedStop price costRef = 0 ↔
      sig.direction = .longCall ∧ price = 5 / 100 ∧ price ≤ costRef := by
  have hpos := spotBeReference_pos href
  unfold SignalInstance.clampedStop
  by_cases hd : sig.direction = .longCall
  · simp only [hd, if_true, true_and]
    by_cases hbeyond : price ≤ costRef
    · simp only [hbeyond, if_true, and_true]
      exact sub_eq_zero
    · simp only [hbeyond, if_false, and_false, iff_false]
      exact hpos.ne'
  · simp only [hd, if_false, false_and, iff_false]
    split_ifs <;> linarith

theorem staysIn_ratcheted_iff {sig sig' : SignalInstance} {price costRef : ℚ}
    (hmoves : sig.RatchetMoves price) (href : spotBeReference sig = some costRef)
    (h : sig'.levels = (sig.direction, sig.stopLoss, spotBeReference sig,
      some (sig.clampedStop price costRef), true)) :
    StaysIn sig sig' price ↔ sig.RatchetClear price := by
  simp only [SignalInstance.levels, Prod.mk.injEq] at h
  obtain ⟨hd, hsl, -, hcur, hact⟩ := h
  have hclear := clampedStop_clear sig price costRef
  have hin : StaysIn sig sig' price ↔ (0 < price → sig'.stopped price = false) := by
    rw [← quiet_iff]
    refine ⟨StaysIn.quiet, fun h => ⟨h, fun _ _ stop hstop => ?_⟩⟩
    cases hcur.symm.trans hstop
    exact hclear
  rw [hin, SignalInstance.RatchetClear]
  refine forall_congr' fun hprice => ?_
  rw [SignalInstance.costRef, href, Option.getD_some]
  have hzero := clampedStop_zero_iff href hprice
  by_cases hclamp : sig.clampedStop price costRef = 0
  · obtain ⟨hcall, hfive, hbeyond⟩ := hzero.mp hclamp
    have hstopped : sig'.stopped price = false ↔ sig.stopLoss < price := by
      have hnone : truthy (some (0 : ℚ)) = none := by decide
      rw [SignalInstance.stopped, hcur, hclamp, hnone, hd, hcall, hsl]
      simp
    rw [hstopped]
    exact ⟨fun h => ⟨fun hstays => absurd hmoves hstays, fun _ _ _ _ => h⟩,
      fun h => h.2 hmoves hcall hfive hbeyond⟩
  · have hsome : truthy sig'.currentStopLoss = some (sig.clampedStop price costRef) :=
      Option.filter_eq_some_iff.mpr ⟨hcur, by simpa using hclamp⟩
    have hstopped : sig'.stopped price = false := by
      refine not_stopped_of_clear ?_
      rw [SignalInstance.stopLevel, hsome, hd]
      exact hclear
    refine iff_of_true hstopped ⟨fun hstays => absurd hmoves hstays, fun _ hcall hfive hbeyond => ?_⟩
    exact absurd (hzero.mpr ⟨hcall, hfive, hbeyond⟩) hclamp

/-! ### Both moves -/

/-- At any price a confirmed signal stays in after its first target exactly when neither its stop
nor the reference is beyond the price, and after the ratchet exactly when a stop it keeps is not. -/
theorem staysIn_moved_iff {m : SignalFsmManager} {id : SignalId} {sig : SignalInstance}
    (hsig : m.signals.get? id = some sig) (hconfirmed : sig.fsmState = .confirmed) (price : ℚ) :
    (∀ env reason expectedVersion sig',
      (m.transition env id .target1Hit (some price) reason expectedVersion).2 = .ok →
      (m.transition env id .target1Hit (some price) reason expectedVersion).1.signals.get? id =
        some sig' →
      (StaysIn sig sig' price ↔ sig.FirstTargetClear price)) ∧
    (∀ sig', (m.ratchetBreakeven id price).1.signals.get? id = some sig' →
      (StaysIn sig sig' price ↔ sig.RatchetClear price)) := by
  constructor
  · intro env reason expectedVersion sig' hok hsig'
    exact staysIn_runner_iff
      (transition_runner env (some price) reason expectedVersion hsig hconfirmed hok hsig')
  · intro sig' hsig'
    rcases ratchetBreakeven_stop m hsig hconfirmed price with
      ⟨hstays, hsame⟩ | ⟨hmoves, costRef, audit, href, hget⟩
    · rw [hsame] at hsig'
      cases hsig.symm.trans hsig'
      rw [staysIn_unmoved_iff rfl rfl rfl, SignalInstance.RatchetClear]
      exact forall_congr' fun _ => ⟨fun h => ⟨fun _ => h, fun hmoves => absurd hmoves hstays⟩,
        fun h => h.1 hstays⟩
    · cases hget.symm.trans hsig'
      exact staysIn_ratcheted_iff hmoves href rfl

def lateFilledCall : SignalInstance :=
  { signalId := "c", underlying := "NIFTY", direction := .longCall, spotPrice := 25000
    entryMin := 24990, entryMax := 25010, trigger := 25000, stopLoss := 24950
    target1 := 25050, target2 := 25100, riskRewardT1 := 1, riskRewardT2 := 2
    currentStopLoss := some 24950, actualFillPrice := some 25060, fsmState := .confirmed
    createdAtUtc := 0, expiresAtUtc := 300000, lastUpdatedUtc := 0 }

def lateFilledDesk : SignalFsmManager := { signals := Dict.empty.insert "c" lateFilledCall }

/-- Its first target at 25055 moves the stop to 25060, where the same price hits it. -/
theorem late_fill_stopped_out :
    ¬ ∀ (m : SignalFsmManager) (id : SignalId) (sig : SignalInstance) (price : ℚ),
      m.signals.get? id = some sig → sig.fsmState = .confirmed →
      (∀ env reason expectedVersion sig',
        (m.transition env id .target1Hit (some price) reason expectedVersion).2 = .ok →
        (m.transition env id .target1Hit (some price) reason expectedVersion).1.signals.get? id =
          some sig' → StaysIn sig sig' price) ∧
      (∀ sig', (m.ratchetBreakeven id price).1.signals.get? id = some sig' →
        StaysIn sig sig' price) := by
  intro h
  have hin := (h lateFilledDesk "c" lateFilledCall 25055 (by decide +kernel) rfl).1
    { now := 1 } "TARGET_1_ACHIEVED" none
  have hok : (lateFilledDesk.transition { now := 1 } "c" .target1Hit (some 25055) "TARGET_1_ACHIEVED"
      none).2 = .ok := by decide +kernel
  have hhit : ((lateFilledDesk.transition { now := 1 } "c" .target1Hit (some 25055)
      "TARGET_1_ACHIEVED" none).1.signals.get? "c").map (fun sig => evaluateTick sig 25055 2) =
        some (some (.enter .stopLossHit)) := by decide +kernel
  obtain ⟨sig', hsig', heq⟩ := Option.map_eq_some_iff.mp hhit
  exact (hin sig' hok hsig').quiet 2 heq

def filledCall : SignalInstance := { lateFilledCall with actualFillPrice := some 25000 }

def filledDesk : SignalFsmManager := { signals := Dict.empty.insert "c" filledCall }

theorem staysIn_filledCall :
    ((∀ env reason expectedVersion sig',
      (filledDesk.transition env "c" .target1Hit (some 25055) reason expectedVersion).2 = .ok →
      (filledDesk.transition env "c" .target1Hit (some 25055) reason expectedVersion).1.signals.get?
        "c" = some sig' → (StaysIn filledCall sig' 25055 ↔ filledCall.FirstTargetClear 25055)) ∧
    (∀ sig', (filledDesk.ratchetBreakeven "c" 25055).1.signals.get? "c" = some sig' →
      (StaysIn filledCall sig' 25055 ↔ filledCall.RatchetClear 25055))) ∧
    filledCall.FirstTargetClear 25055 := by
  refine ⟨staysIn_moved_iff (by decide +kernel) rfl 25055, ?_⟩
  rw [SignalInstance.FirstTargetClear, if_neg (by decide)]
  exact ⟨by decide +kernel, by decide +kernel⟩

end Droid.Signals
