import Droid.Research.Accounting
import Droid.Research.Drawdown

/-! The drawdowns that a simulation records on its curve, against the largest drawdown of the curve. -/
namespace Droid.Research
open Lib

section
variable (cfg : Settings) (bars : List Bar)

def marks : List ℚ := bars.mapIdx fun i bar => equityNow bar (before cfg bars (i + 1))

/-- The same with the forced close of the last bar, whose equity is reported. -/
def curveMarks : List ℚ :=
  match dueAtEnd cfg bars with
  | some (p, price) => (marks cfg bars).dropLast ++ [roundTo 4 (closing cfg p price).equityAfter]
  | none => marks cfg bars

/-- The simulator's peak after a bar: the capital and every mark, the one that a forced close replaces included. -/
def simulatedPeak (k : Nat) : ℚ := peakOf cfg.execution.initialCapital ((marks cfg bars).take (k + 1))

def recordedFrom (peak value : ℚ) : ℚ := roundTo 6 (if peak ≤ 0 then 0 else 100 * (peak - value) / peak)

structure DrawdownConsistent : Prop where
  supremum : let equities := (simulate cfg bars).equityCurve.map EquityPoint.equity
    Supremum equities (maxDrawdown equities)
  rounded : (simulate cfg bars).equityCurve.map EquityPoint.equity = (curveMarks cfg bars).map (roundTo 4)
  /-- The roundings of the equities do not matter. -/
  close : ∀ least most, halfUnit < least → 0 ≤ most → (∀ x ∈ (curveMarks cfg bars).head?, least ≤ x) →
    (∀ x ∈ curveMarks cfg bars, |x| ≤ most) →
      |(maxDrawdown ((simulate cfg bars).equityCurve.map EquityPoint.equity)).pct -
        (maxDrawdown (curveMarks cfg bars)).pct| ≤ halfUnit * (1 + most / least) / (least - halfUnit)
  below : ∀ point ∈ (simulate cfg bars).equityCurve,
    point.drawdownPct ≤ roundTo 6 (100 * (maxDrawdown (curveMarks cfg bars)).pct)
  reached : (simulate cfg bars).equityCurve ≠ [] → ∃ point ∈ (simulate cfg bars).equityCurve,
    point.drawdownPct = roundTo 6 (100 * (maxDrawdown (curveMarks cfg bars)).pct)

/-- Where the simulator's peak is not the running peak of the curve, the drawdown from either is matched by one
from the other. -/
def PeaksMatched : Prop :=
  ∀ k x, (curveMarks cfg bars)[k]? = some x → simulatedPeak cfg bars k ≠ peakAt (curveMarks cfg bars) k →
    (∃ m y, (curveMarks cfg bars)[m]? = some y ∧
      recordedFrom (simulatedPeak cfg bars k) x ≤ recordedFrom (peakAt (curveMarks cfg bars) m) y) ∧
    ∃ m y, (curveMarks cfg bars)[m]? = some y ∧
      recordedFrom (peakAt (curveMarks cfg bars) k) x ≤ recordedFrom (simulatedPeak cfg bars m) y

end

/-! The loop. -/

structure CurveKept (s s' : State) : Prop where
  peak : s'.peak = s.peak
  curve : s'.equityCurve = s.equityCurve

theorem CurveKept.refl (s : State) : CurveKept s s := ⟨rfl, rfl⟩

theorem CurveKept.trans {s s' s'' : State} (h : CurveKept s s') (h' : CurveKept s' s'') : CurveKept s s'' :=
  ⟨h'.peak.trans h.peak, h'.curve.trans h.curve⟩

section
variable {cfg : Settings} (bars : List Bar) (bar : Bar) (i : Nat)

theorem fillPendingExit_curve (s : State) : CurveKept s (fillPendingExit cfg bar i s).1 := by
  unfold fillPendingExit
  split
  · split
    · split <;> exact ⟨rfl, rfl⟩
    · exact .refl s
  · exact .refl s

theorem fillPendingEntry_curve (t : State × Bool) : CurveKept t.1 (fillPendingEntry cfg bars bar i t).1 := by
  unfold fillPendingEntry
  split <;> exact ⟨rfl, rfl⟩

theorem takePriceExit_curve (t : State × Bool) : CurveKept t.1 (takePriceExit cfg bar i t).1 := by
  unfold takePriceExit
  split
  · split <;> exact ⟨rfl, rfl⟩
  · exact .refl t.1

theorem readSignals_curve (t : State × Bool) : CurveKept t.1 (readSignals cfg bars bar i t).1 := by
  unfold readSignals
  split
  · split
    · split <;> exact ⟨rfl, rfl⟩
    · exact ⟨rfl, rfl⟩
  · exact .refl t.1

theorem queueOppositeExit_curve (t : State × Bool) : CurveKept t.1 (queueOppositeExit cfg bar i t).1 := by
  unfold queueOppositeExit
  split
  · rename_i p _
    cases p.side <;> dsimp only <;> split <;> exact ⟨rfl, rfl⟩
  · exact .refl t.1

theorem trackExcursions_curve (t : State × Bool) : CurveKept t.1 (trackExcursions bar i t).1 := by
  unfold trackExcursions
  split
  · dsimp only
    split <;> exact ⟨rfl, rfl⟩
  · exact .refl t.1

theorem barTurn_curve (cfg : Settings) (bars : List Bar) (bar : Bar) (i : Nat) (s : State) :
    let s' := barTurn cfg bars bar i s
    s'.peak = max s.peak (equityNow bar s') ∧
      ∃ point, s'.equityCurve = s.equityCurve ++ [point] ∧ point.equity = roundTo 4 (equityNow bar s') ∧
        point.drawdownPct = recordedFrom s'.peak (equityNow bar s') := by
  have hkept : CurveKept s (trackExcursions bar i (queueOppositeExit cfg bar i (readSignals cfg bars bar i
      (takePriceExit cfg bar i (fillPendingEntry cfg bars bar i (fillPendingExit cfg bar i s)))))).1 :=
    ((((fillPendingExit_curve bar i s).trans (fillPendingEntry_curve bars bar i _)).trans
      (takePriceExit_curve bar i _)).trans (readSignals_curve bars bar i _)).trans
      (queueOppositeExit_curve bar i _) |>.trans (trackExcursions_curve bar i _)
  exact ⟨congrArg (max · _) hkept.peak, _, congrArg (· ++ _) hkept.curve, rfl, rfl⟩

theorem length_marks (cfg : Settings) : (marks cfg bars).length = bars.length := by
  rw [marks, List.length_mapIdx]

def EquityPoint.figures (point : EquityPoint) : ℚ × ℚ := (point.equity, point.drawdownPct)

theorem before_curve (cfg : Settings) (i : Nat) (hi : i ≤ bars.length) :
    (before cfg bars i).peak = peakOf cfg.execution.initialCapital ((marks cfg bars).take i) ∧
      (before cfg bars i).equityCurve.map EquityPoint.figures =
        ((marks cfg bars).take i).mapIdx fun k x => (roundTo 4 x, recordedFrom (simulatedPeak cfg bars k) x) := by
  induction i with
  | zero => exact ⟨rfl, rfl⟩
  | succ i ih =>
    obtain ⟨hpeak, hcurve⟩ := ih (Nat.le_of_succ_le hi)
    have hbar := List.getElem?_eq_getElem hi
    have hstep : before cfg bars (i + 1) = barTurn cfg bars bars[i] i (before cfg bars i) := by
      rw [before_succ, step, hbar]
    obtain ⟨hrise, point, hpoint, hequity, hdrawdown⟩ := barTurn_curve cfg bars bars[i] i (before cfg bars i)
    rw [← hstep] at hrise hpoint hequity hdrawdown
    have htake : (marks cfg bars).take (i + 1) =
        (marks cfg bars).take i ++ [equityNow bars[i] (before cfg bars (i + 1))] := by
      rw [List.take_add_one, marks, List.getElem?_mapIdx, hbar]
      rfl
    have hnow : (before cfg bars (i + 1)).peak = simulatedPeak cfg bars i := by
      rw [simulatedPeak, htake, peakOf_concat, hrise, hpeak]
    refine ⟨hnow, ?_⟩
    have hlen : ((marks cfg bars).take i).length = i := by
      rw [List.length_take, length_marks, Nat.min_eq_left (Nat.le_of_succ_le hi)]
    rw [hpoint, List.map_append, List.map_singleton, hcurve, htake, List.mapIdx_concat, hlen,
      EquityPoint.figures, hequity, hdrawdown, hnow]

/-! The end of the run. -/

theorem closeCurve_figures {peak : ℚ} (hpeak : 0 < peak) (trade : Trade) {curve : List EquityPoint} (h : curve ≠ [])
    (hequity : roundTo 4 trade.equityAfter = trade.equityAfter) :
    (closeCurve peak trade curve).map EquityPoint.figures =
      (curve.map EquityPoint.figures).dropLast ++ [(trade.equityAfter, recordedFrom peak trade.equityAfter)] := by
  rw [closeCurve]
  obtain ⟨final, hfinal⟩ := List.getLast?_isSome.mpr h |> Option.isSome_iff_exists.mp
  rw [hfinal]
  dsimp only
  rw [List.map_append, List.map_dropLast, List.map_singleton, EquityPoint.figures]
  dsimp only
  rw [hequity, if_pos hpeak, recordedFrom, if_neg (not_le.mpr hpeak)]

theorem simulate_curve (hcapital : 0 < cfg.execution.initialCapital) :
    (simulate cfg bars).equityCurve.map EquityPoint.figures =
      (curveMarks cfg bars).mapIdx fun k x => (roundTo 4 x, recordedFrom (simulatedPeak cfg bars k) x) := by
  obtain ⟨hpeak, hcurve⟩ := before_curve bars cfg bars.length le_rfl
  rw [List.take_of_length_le (length_marks bars cfg).le] at hpeak hcurve
  rw [simulate, closeAtEnd, curveMarks, dueAtEnd]
  cases hp : (before cfg bars bars.length).position with
  | none => exact hcurve
  | some p =>
    cases hlast : bars.getLast? with
    | none => exact hcurve
    | some last =>
      dsimp only
      cases last.close? with
      | none => exact hcurve
      | some c =>
        dsimp only [Option.map_some]
        have hbars : bars ≠ [] := by
          rintro rfl
          cases hlast
        have hmarks : marks cfg bars ≠ [] := by
          rw [ne_eq, ← List.length_eq_zero_iff, length_marks, List.length_eq_zero_iff]
          exact hbars
        have hne : (before cfg bars bars.length).equityCurve ≠ [] := by
          intro hnil
          rw [hnil] at hcurve
          have hlen := congrArg List.length hcurve
          rw [List.map_nil, List.length_nil, List.length_mapIdx, eq_comm, List.length_eq_zero_iff] at hlen
          exact hmarks hlen
        have hpos : 0 < (before cfg bars bars.length).peak := by
          rw [hpeak]
          exact hcapital.trans_le (start_le_peakOf _ _)
        have hafter : (closePosition cfg p (bars.length - 1) last.time c .endOfData).equityAfter =
            roundTo 4 (closing cfg p c).equityAfter := rfl
        rw [closeCurve_figures hpos _ hne (by rw [hafter, roundTo_roundTo]), hcurve, hafter]
        obtain ⟨init, final, hsplit⟩ := List.eq_nil_or_concat (marks cfg bars) |>.resolve_left hmarks
        rw [List.concat_eq_append] at hsplit
        have hlen : bars.length = init.length + 1 := by
          rw [← length_marks bars cfg, hsplit, List.length_append]
          rfl
        have hat : simulatedPeak cfg bars init.length = (before cfg bars bars.length).peak := by
          rw [simulatedPeak, hpeak, ← hlen, List.take_of_length_le (length_marks bars cfg).le]
        rw [hsplit, List.mapIdx_concat, List.dropLast_concat, List.dropLast_concat, List.mapIdx_concat, hat,
          roundTo_roundTo]

/-! Agreement. -/

theorem recordedFrom_eq {peak value : ℚ} (h : 0 < peak) :
    recordedFrom peak value = roundTo 6 (100 * ((peak - value) / peak)) := by
  rw [recordedFrom, if_neg (not_le.mpr h), mul_div_assoc]

theorem recordedFrom_nonpos {peak value : ℚ} (h : peak ≤ 0) : recordedFrom peak value = 0 := by
  rw [recordedFrom, if_pos h, roundTo_zero]

/-- What would be recorded from a curve's own running peak is at most its largest drawdown, and reaches it. -/
theorem recordedFrom_peakAt {equity : List ℚ} {d : Drawdown} (h : Supremum equity d) :
    (∀ k x, equity[k]? = some x → recordedFrom (peakAt equity k) x ≤ roundTo 6 (100 * d.pct)) ∧
      (equity ≠ [] → ∃ k x, equity[k]? = some x ∧ recordedFrom (peakAt equity k) x = roundTo 6 (100 * d.pct)) := by
  constructor
  · intro k x hx
    rcases lt_or_ge 0 (peakAt equity k) with hpos | hneg
    · rw [recordedFrom_eq hpos]
      exact roundTo_mono 6 (mul_le_mul_of_nonneg_left (h.le hx hpos) (by norm_num))
    · rw [recordedFrom_nonpos hneg]
      exact roundTo_nonneg 6 (mul_nonneg (by norm_num) h.nonneg)
  · intro hne
    rcases h.attained with hzero | ⟨-, ⟨-, -, hpos, x, hx, hpct⟩, -⟩
    · obtain ⟨first, rest, rfl⟩ := List.exists_cons_of_ne_nil hne
      refine ⟨0, first, rfl, ?_⟩
      have hpeak : peakAt (first :: rest) 0 = first := max_self first
      rw [hpeak, recordedFrom, sub_self, mul_zero, zero_div, ite_self, hzero, mul_zero]
    · exact ⟨d.troughIndex, x, hx, by rw [recordedFrom_eq hpos, hpct]⟩

end

/-- A simulation reports its drawdowns consistently exactly if the peaks its curve does not show are matched. -/
theorem drawdownConsistent_iff (cfg : Settings) (bars : List Bar) (hcapital : 0 < cfg.execution.initialCapital) :
    DrawdownConsistent cfg bars ↔ PeaksMatched cfg bars := by
  obtain ⟨hbelow, hreached⟩ := recordedFrom_peakAt (maxDrawdown_supremum (curveMarks cfg bars))
  have hat : ∀ k, ((simulate cfg bars).equityCurve[k]?).map EquityPoint.figures =
      ((curveMarks cfg bars)[k]?).map fun x => (roundTo 4 x, recordedFrom (simulatedPeak cfg bars k) x) := by
    intro k
    rw [← List.getElem?_map, simulate_curve bars hcapital, List.getElem?_mapIdx]
  have hequity : (simulate cfg bars).equityCurve.map EquityPoint.equity = (curveMarks cfg bars).map (roundTo 4) := by
    apply List.ext_getElem?
    intro k
    have hfst := congrArg (Option.map Prod.fst) (hat k)
    rw [Option.map_map, Option.map_map] at hfst
    rw [List.getElem?_map, List.getElem?_map]
    exact hfst
  have hpoint : ∀ k x, (curveMarks cfg bars)[k]? = some x → ∃ point ∈ (simulate cfg bars).equityCurve,
      point.drawdownPct = recordedFrom (simulatedPeak cfg bars k) x := by
    intro k x hx
    have hk := hat k
    rw [hx, Option.map_some, Option.map_eq_some_iff] at hk
    obtain ⟨point, hpoint, hfigures⟩ := hk
    exact ⟨point, List.mem_of_getElem? hpoint, congrArg Prod.snd hfigures⟩
  have hmark : ∀ point ∈ (simulate cfg bars).equityCurve, ∃ k x, (curveMarks cfg bars)[k]? = some x ∧
      point.drawdownPct = recordedFrom (simulatedPeak cfg bars k) x := by
    intro point hmem
    obtain ⟨k, hk⟩ := List.mem_iff_getElem?.mp hmem
    have hfigures := hat k
    rw [hk, Option.map_some, eq_comm, Option.map_eq_some_iff] at hfigures
    obtain ⟨x, hx, hfigures⟩ := hfigures
    exact ⟨k, x, hx, (congrArg Prod.snd hfigures).symm⟩
  have hnil : (simulate cfg bars).equityCurve = [] ↔ curveMarks cfg bars = [] := by
    rw [← List.map_eq_nil_iff (f := EquityPoint.equity), hequity, List.map_eq_nil_iff]
  constructor
  · intro h k x hx _
    constructor
    · obtain ⟨point, hpoint, hpct⟩ := hpoint k x hx
      obtain ⟨m, y, hy, heq⟩ := hreached (by rintro hnil; rw [hnil] at hx; cases hx)
      exact ⟨m, y, hy, by rw [heq, ← hpct]; exact h.below point hpoint⟩
    · have hne : curveMarks cfg bars ≠ [] := by
        intro hnil
        rw [hnil] at hx
        cases hx
      obtain ⟨point, hmem, hpct⟩ := h.reached fun hempty => hne (hnil.mp hempty)
      obtain ⟨m, y, hy, heq⟩ := hmark point hmem
      exact ⟨m, y, hy, by rw [← heq, hpct]; exact hbelow k x hx⟩
  · intro h
    have hall : ∀ point ∈ (simulate cfg bars).equityCurve,
        point.drawdownPct ≤ roundTo 6 (100 * (maxDrawdown (curveMarks cfg bars)).pct) := by
      intro point hmem
      obtain ⟨k, x, hx, hpct⟩ := hmark point hmem
      rw [hpct]
      by_cases hpeak : simulatedPeak cfg bars k = peakAt (curveMarks cfg bars) k
      · rw [hpeak]
        exact hbelow k x hx
      · obtain ⟨m, y, hy, hle⟩ := (h k x hx hpeak).1
        exact hle.trans (hbelow m y hy)
    refine ⟨maxDrawdown_supremum _, hequity, ?_, hall, ?_⟩
    · intro least most hleast hmost hfirst hbound
      rw [hequity]
      exact maxDrawdown_rounded hleast hmost hfirst hbound
    · intro hne
      obtain ⟨k, x, hx, hpct⟩ := hreached fun hempty => hne (hnil.mpr hempty)
      by_cases hpeak : simulatedPeak cfg bars k = peakAt (curveMarks cfg bars) k
      · obtain ⟨point, hmem, hpoint⟩ := hpoint k x hx
        exact ⟨point, hmem, by rw [hpoint, hpeak, hpct]⟩
      · obtain ⟨m, y, hy, hle⟩ := (h k x hx hpeak).2
        obtain ⟨point, hmem, hpoint⟩ := hpoint m y hy
        exact ⟨point, hmem, le_antisymm (hall point hmem) (by rw [hpoint, ← hpct]; exact hle)⟩

/-- Without a loss on the first bar and without a forced close the curve shows every peak. -/
theorem peaksMatched_of_shown {cfg : Settings} {bars : List Bar} (hend : dueAtEnd cfg bars = none)
    (hfirst : ∀ x ∈ (marks cfg bars).head?, cfg.execution.initialCapital ≤ x) : PeaksMatched cfg bars := by
  intro k x hx hpeak
  refine absurd ?_ hpeak
  have hcurve : curveMarks cfg bars = marks cfg bars := by rw [curveMarks, hend]
  rw [hcurve] at hx ⊢
  rw [simulatedPeak, peakAt]
  cases hmarks : marks cfg bars with
  | nil =>
    rw [hmarks] at hx
    cases hx
  | cons first rest =>
    rw [hmarks] at hfirst
    rw [List.take_succ_cons, peakOf, peakOf, List.foldl_cons, List.foldl_cons, List.headD_cons,
      max_eq_right (hfirst first rfl), max_self]

def flatAt (price : ℚ) (signal : Bool) : Bar :=
  { open? := some price, high? := some price, low? := some price, close? := some price, longSignal := signal }

def oneBar (entryFill : EntryFill) : Settings where
  execution := { entryFill }
  exits := { maxBarsHeld := some 2 }

/-- A long position through a rise and a fall, closed after two bars. -/
theorem fall_drawdownConsistent : DrawdownConsistent (oneBar .nextOpen)
    [flatAt 100 true, flatAt 100 false, flatAt 110 false, flatAt 99 false, flatAt 99 false] :=
  (drawdownConsistent_iff _ _ (by decide +kernel)).mpr
    (peaksMatched_of_shown (by decide +kernel) (by decide +kernel))

/-- An entry at the first close pays its slippage on the first bar; and the last bar's new high is closed out. -/
theorem drawdown_not_consistent :
    ¬ DrawdownConsistent (oneBar .signalClose) [flatAt 100 true, flatAt 100 false, flatAt 100 false, flatAt 100 false] ∧
      ¬ DrawdownConsistent (oneBar .nextOpen) [flatAt 100 true, flatAt 100 false, flatAt 110 false] := by
  constructor
  · intro h
    have hbelow := h.below
    revert hbelow
    decide +kernel
  · intro h
    have hbelow := h.below
    revert hbelow
    decide +kernel

end Droid.Research
