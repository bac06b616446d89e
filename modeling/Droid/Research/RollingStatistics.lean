import Droid.Lib.LeastSquares
import Droid.Research.IndicatorHelpers
import Mathlib.Order.Bounds.Defs
import Mathlib.Tactic.FieldSimp

/-! The statistics that the rolling helpers compute. -/
namespace Droid.Research.IndicatorHelpers
open Lib

def mean (w : List ℚ) : ℚ := w.sum / w.length

def populationVariance (w : List ℚ) : ℚ := (w.map fun x => (x - mean w) ^ 2).sum / w.length

/-- The values of a window against their positions in it. -/
def timePoints (w : List ℚ) : List (ℚ × ℚ) := w.zipIdx.map fun p => ((p.2 : ℚ), p.1)

/-- At every index the recursion over the values since the last gap, from the mean of the first `n` of them. -/
def Smoothed (n : Nat) (update : ℚ → ℚ → ℚ) (values out : List (Option ℚ)) : Prop :=
  out.length = values.length ∧ ∀ i < values.length,
    let w := sinceGap [] (values.take (i + 1))
    out[i]? = some (if w.length < n then none else some ((w.drop n).foldl update (mean (w.take n))))

/-- The helpers are the statistics of the last `n` values, or the recursions, and look at no later input. -/
structure HelpersLaw {ρ : Type} (sqrt : ℚ → ρ) (values : List (Option ℚ)) (n : Int) : Prop where
  average : 1 ≤ n → Windowed n.toNat (fun w b => b = mean w) values (sma values n)
  maximum : 1 ≤ n → Windowed n.toNat (fun w b => IsGreatest {x | x ∈ w} b) values (highest values n)
  minimum : 1 ≤ n → Windowed n.toNat (fun w b => IsLeast {x | x ∈ w} b) values (lowest values n)
  deviation : 2 ≤ n → Windowed n.toNat (fun w b => b = sqrt (populationVariance w)) values (stdev sqrt values n)
  slope : 2 ≤ n →
    Windowed n.toNat (fun w b => ∃ intercept, IsLeastSquares (timePoints w) intercept b) values (linregSlope values n)
  endpoint : 2 ≤ n →
    Windowed n.toNat (fun w b => ∃ intercept slope, IsLeastSquares (timePoints w) intercept slope ∧
      b = intercept + slope * (w.length - 1)) values (linregValue values n)
  exponential : 1 ≤ n → Smoothed n.toNat (fun prev v => v * (2 / (n + 1)) + prev * (1 - 2 / (n + 1))) values (ema values n)
  wilders : 1 ≤ n → Smoothed n.toNat (fun prev v => (prev * (n - 1) + v) / n) values (wilder values n)
  short : (n ≤ 0 → ∀ f ∈ [sma, ema, wilder, highest, lowest], f values n = List.replicate values.length none) ∧
    (n ≤ 1 → stdev sqrt values n = List.replicate values.length none ∧
      ∀ f ∈ [linregSlope, linregValue], f values n = List.replicate values.length none)
  causal : ∀ k, stdev sqrt (values.take k) n = (stdev sqrt values n).take k ∧
    ∀ f ∈ [sma, ema, wilder, highest, lowest, linregSlope, linregValue], f (values.take k) n = (f values n).take k

/-! ### The loops -/

theorem length_slide {n : Nat} (hn : 0 < n) (w : List ℚ) (v : ℚ) :
    (slide n (w.rtake n) v).length = n ↔ n ≤ (w ++ [v]).length := by
  rw [slide_rtake hn, length_rtake_eq]
  exact min_eq_left_iff

theorem sum_slide (f : ℚ → ℚ) (n : Nat) (window : List ℚ) (v : ℚ) :
    ((slide n window v).map f).sum =
      if n < (window ++ [v]).length then (window.map f).sum + f v - f ((window ++ [v]).headD 0)
      else (window.map f).sum + f v := by
  have hgrown : ((window ++ [v]).map f).sum = (window.map f).sum + f v := by simp
  unfold slide
  split_ifs with hfull
  · rw [← hgrown]
    cases hsplit : window ++ [v] with
    | nil => simp at hsplit
    | cons old rest => simp
  · exact hgrown

theorem yields_window {n : Nat} (hn : 0 < n) {β : Type} {R : List ℚ → β → Prop} {w : List ℚ} {v : ℚ} {b : β}
    (hR : n ≤ (w ++ [v]).length → R ((w ++ [v]).rtake n) b) :
    Yields n R (w ++ [v]) (if (slide n (w.rtake n) v).length = n then some b else none) := by
  unfold Yields
  by_cases hfull : n ≤ (w ++ [v]).length
  · rw [if_pos hfull, if_pos ((length_slide hn w v).mpr hfull)]
    exact ⟨b, rfl, hR hfull⟩
  · rw [if_neg hfull, if_neg (mt (length_slide hn w v).mp hfull)]

theorem windowed_sma {n : Nat} (hn : 0 < n) (values : List (Option ℚ)) :
    Windowed n (fun w b => b = mean w) values (gapScan ([], 0) (smaPush n) ([], 0) values) := by
  apply windowed_gapScan hn (I := fun w s => s = (w.rtake n, (w.rtake n).sum))
  · simp [List.rtake]
  · rintro w _ v rfl
    have hsum := sum_slide id n (w.rtake n) v
    simp only [List.map_id, id] at hsum
    constructor
    · rw [smaPush, ← slide_rtake hn, hsum]
    · have hout : (smaPush n (w.rtake n, (w.rtake n).sum) v).2 =
          if (slide n (w.rtake n) v).length = n then some ((slide n (w.rtake n) v).sum / n) else none := by
        rw [smaPush, hsum]
      rw [hout]
      apply yields_window hn
      intro hfull
      rw [slide_rtake hn, mean, length_rtake_eq, min_eq_left hfull]

theorem windowed_windowPush {n : Nat} (hn : 0 < n) {f : List ℚ → Option ℚ} {R : List ℚ → ℚ → Prop}
    (hf : ∀ w, w.length = n → ∃ b, f w = some b ∧ R w b) (values : List (Option ℚ)) :
    Windowed n R values (gapScan [] (windowPush n f) [] values) := by
  apply windowed_gapScan hn (I := fun w s => s = w.rtake n)
  · simp [List.rtake]
  · rintro w _ v rfl
    refine ⟨slide_rtake hn w v, ?_⟩
    rw [windowPush]
    by_cases hfull : n ≤ (w ++ [v]).length
    · have hlength := (length_slide hn w v).mpr hfull
      obtain ⟨b, hb, hR⟩ := hf _ hlength
      rw [hb]
      apply yields_window hn
      intro _
      rwa [← slide_rtake hn]
    · rw [if_neg (mt (length_slide hn w v).mp hfull), Yields, if_neg hfull]

theorem sum_sq_sub (w : List ℚ) (m : ℚ) :
    (w.map fun x => (x - m) ^ 2).sum = (w.map fun x => x * x).sum - 2 * m * w.sum + w.length * m ^ 2 := by
  induction w with
  | nil => simp
  | cons x w ih =>
    simp only [List.map_cons, List.sum_cons, List.length_cons, Nat.cast_succ]
    rw [ih]
    ring

theorem populationVariance_eq {w : List ℚ} (hw : w ≠ []) :
    (w.map fun x => x * x).sum / w.length - w.sum / w.length * (w.sum / w.length) = populationVariance w := by
  have hn : (w.length : ℚ) ≠ 0 := by exact_mod_cast (List.length_pos_of_ne_nil hw).ne'
  rw [populationVariance, sum_sq_sub, mean]
  field_simp
  ring

theorem populationVariance_nonneg (w : List ℚ) : 0 ≤ populationVariance w := by
  apply div_nonneg _ (Nat.cast_nonneg _)
  apply List.sum_nonneg
  intro x hx
  obtain ⟨y, -, rfl⟩ := List.mem_map.mp hx
  exact sq_nonneg _

theorem windowed_stdev {ρ : Type} (sqrt : ℚ → ρ) {n : Nat} (hn : 0 < n) (values : List (Option ℚ)) :
    Windowed n (fun w b => b = sqrt (populationVariance w)) values
      (gapScan ([], 0, 0) (stdevPush sqrt n) ([], 0, 0) values) := by
  apply windowed_gapScan hn
    (I := fun w s => s = (w.rtake n, (w.rtake n).sum, ((w.rtake n).map fun x => x * x).sum))
  · simp [List.rtake]
  · rintro w _ v rfl
    have hsum := sum_slide id n (w.rtake n) v
    have hsumSq := sum_slide (fun x => x * x) n (w.rtake n) v
    simp only [List.map_id, id] at hsum
    obtain ⟨window, hwindow⟩ : ∃ window, slide n (w.rtake n) v = window := ⟨_, rfl⟩
    have hpush : stdevPush sqrt n (w.rtake n, (w.rtake n).sum, ((w.rtake n).map fun x => x * x).sum) v =
        ((window, window.sum, (window.map fun x => x * x).sum),
          if window.length = n then
            some (sqrt (if (window.map fun x => x * x).sum / n - window.sum / n * (window.sum / n) < 0 then 0
              else (window.map fun x => x * x).sum / n - window.sum / n * (window.sum / n)))
          else none) := by
      rw [← hwindow, hsum, hsumSq]
      rfl
    rw [hpush]
    constructor
    · rw [← slide_rtake hn, hwindow]
    · rw [← hwindow]
      apply yields_window hn
      intro hfull
      have hlength := (length_slide hn w v).mpr hfull
      have hne : slide n (w.rtake n) v ≠ [] := List.ne_nil_of_length_pos (by rw [hlength]; exact hn)
      have hvariance := populationVariance_eq hne
      rw [hlength] at hvariance
      rw [hvariance, if_neg (not_lt.mpr (populationVariance_nonneg _)), slide_rtake hn]

/-- The recursion over the values since the last gap. -/
def seeded (n : Nat) (update : ℚ → ℚ → ℚ) (w : List ℚ) : ℚ := (w.drop n).foldl update (mean (w.take n))

def seededOutput (n : Nat) (update : ℚ → ℚ → ℚ) (w : List ℚ) : Option ℚ :=
  if w.length < n then none else some (seeded n update w)

/-- The values fill the seed, and then the last value is that of the recursion. -/
def Seeding (n : Nat) (update : ℚ → ℚ → ℚ) (w : List ℚ) (s : List ℚ × Option ℚ) : Prop :=
  if w.length < n then s = (w, none) else s.2 = some (seeded n update w)

theorem seeding_nil {n : Nat} (hn : 0 < n) (update : ℚ → ℚ → ℚ) : Seeding n update [] ([], none) := by
  rw [Seeding, List.length_nil, if_pos hn]

theorem Seeding.push {n : Nat} {update : ℚ → ℚ → ℚ} {w : List ℚ} {s : List ℚ × Option ℚ} (h : Seeding n update w s)
    (v : ℚ) : Seeding n update (w ++ [v]) (seededPush n update s v).1 ∧
      (seededPush n update s v).2 = seededOutput n update (w ++ [v]) := by
  rw [Seeding] at h
  rw [Seeding, seededOutput]
  by_cases hshort : w.length < n
  · rw [if_pos hshort] at h
    rw [h, seededPush]
    by_cases hstill : (w ++ [v]).length < n
    · simp only [if_pos hstill, and_self]
    · -- the window is full: its mean is the seed
      have hlength : (w ++ [v]).length = n := by
        rw [List.length_append, List.length_singleton] at hstill ⊢
        omega
      have hslide : slide n w v = w ++ [v] := by
        rw [slide, if_neg (by omega)]
      have hseed : seeded n update (w ++ [v]) = (w ++ [v]).sum / n := by
        rw [seeded, List.drop_of_length_le hlength.le, List.take_of_length_le hlength.le, List.foldl_nil, mean, hlength]
      simp only [if_neg hstill, hslide, hseed, and_self]
  · rw [if_neg hshort] at h
    have hlong : ¬(w ++ [v]).length < n := by
      rw [List.length_append, List.length_singleton]
      omega
    have hnext : seeded n update (w ++ [v]) = update (seeded n update w) v := by
      rw [seeded, List.drop_append_of_le_length (by omega), List.take_append_of_le_length (by omega), List.foldl_append]
      rfl
    obtain ⟨seed, prev⟩ := s
    subst h
    simp only [seededPush, if_neg hlong, hnext, and_self]

theorem smoothed_seeded {n : Nat} (hn : 0 < n) (update : ℚ → ℚ → ℚ) (values : List (Option ℚ)) :
    Smoothed n update values (gapScan ([], none) (seededPush n update) ([], none) values) := by
  refine ⟨gapScan_length _ _ _ values, fun i hi => ?_⟩
  have hempty : none = seededOutput n update [] := by
    rw [seededOutput, List.length_nil, if_pos hn]
  obtain ⟨o, ho, hout⟩ : ∃ o, (gapScan ([], none) (seededPush n update) ([], none) values)[i]? = some o ∧ _ :=
    gapScan_spec (I := Seeding n update) (O := fun w o => o = seededOutput n update w) (seeding_nil hn update)
      hempty (fun _ _ v h => h.push v) (seeding_nil hn update) values hi
  rw [ho, hout]
  rfl

theorem max_isGreatest {w : List ℚ} (hw : w ≠ []) : ∃ b, w.max? = some b ∧ IsGreatest {x | x ∈ w} b := by
  obtain ⟨b, hb⟩ := Option.isSome_iff_exists.mp (List.isSome_max?_of_ne_nil hw)
  obtain ⟨hmem, hle⟩ := List.max?_eq_some_iff.mp hb
  exact ⟨b, hb, hmem, hle⟩

theorem min_isLeast {w : List ℚ} (hw : w ≠ []) : ∃ b, w.min? = some b ∧ IsLeast {x | x ∈ w} b := by
  obtain ⟨b, hb⟩ := Option.isSome_iff_exists.mp (List.isSome_min?_of_ne_nil hw)
  obtain ⟨hmem, hle⟩ := List.min?_eq_some_iff.mp hb
  exact ⟨b, hb, hmem, hle⟩

/-! ### The regressions: the closed forms are the sums over the positions of the window -/

theorem xSum_eq (n : Nat) : ((List.range n).map fun x : Nat => (x : ℚ)).sum = xSum n := by
  induction n with
  | zero => simp [xSum]
  | succ n ih =>
    rw [List.range_succ, List.map_append, List.sum_append, ih]
    simp only [xSum, List.map_cons, List.map_nil, List.sum_singleton]
    push_cast
    ring

theorem x2Sum_eq (n : Nat) : ((List.range n).map fun x : Nat => (x : ℚ) * x).sum = x2Sum n := by
  induction n with
  | zero => simp [x2Sum]
  | succ n ih =>
    rw [List.range_succ, List.map_append, List.sum_append, ih]
    simp only [x2Sum, List.map_cons, List.map_nil, List.sum_singleton]
    push_cast
    ring

theorem denom_pos {n : Nat} (hn : 2 ≤ n) : 0 < denom n := by
  have hcast : (2 : ℚ) ≤ n := by exact_mod_cast hn
  have hclosed : denom n = n * n * ((n - 1) * (n + 1)) / 12 := by
    rw [denom, xSum, x2Sum]
    ring
  have hless : (0 : ℚ) < n - 1 := by linarith
  rw [hclosed]
  positivity

theorem sumX_timePoints (w : List ℚ) : sumX (timePoints w) = xSum w.length := by
  rw [← xSum_eq, sumX, timePoints, List.map_map, List.range_eq_range', ← List.zipIdx_map_snd 0 w, List.map_map]
  rfl

theorem sumXX_timePoints (w : List ℚ) : sumXX (timePoints w) = x2Sum w.length := by
  rw [← x2Sum_eq, sumXX, timePoints, List.map_map, List.range_eq_range', ← List.zipIdx_map_snd 0 w, List.map_map]
  rfl

theorem sumY_timePoints (w : List ℚ) : sumY (timePoints w) = w.sum := by
  rw [sumY, timePoints, List.map_map]
  exact congrArg List.sum (List.zipIdx_map_fst 0 w)

theorem sumXY_timePoints (w : List ℚ) : sumXY (timePoints w) = (w.zipIdx.map fun p => (p.2 : ℚ) * p.1).sum := by
  rw [sumXY, timePoints, List.map_map]
  rfl

theorem length_timePoints (w : List ℚ) : (timePoints w).length = w.length := by
  rw [timePoints, List.length_map, List.length_zipIdx]

theorem leastSquares_slopeOf {w : List ℚ} (hw : 2 ≤ w.length) :
    IsLeastSquares (timePoints w) ((w.sum - slopeOf w.length w * xSum w.length) / w.length) (slopeOf w.length w) := by
  have hdenom : ((timePoints w).length : ℚ) * sumXX (timePoints w) - sumX (timePoints w) * sumX (timePoints w) =
      denom w.length := by
    rw [length_timePoints, sumXX_timePoints, sumX_timePoints, denom]
  have hne : timePoints w ≠ [] := List.ne_nil_of_length_pos (by rw [length_timePoints]; omega)
  refine isLeastSquares (by rw [hdenom]; exact denom_pos hw) hne ?_ ?_
  · rw [hdenom, length_timePoints, sumXY_timePoints, sumX_timePoints, sumY_timePoints]
    rfl
  · rw [length_timePoints, sumX_timePoints, sumY_timePoints]

theorem windowed_linreg {f : Nat → List ℚ → ℚ} {R : List ℚ → ℚ → Prop} {n : Int} (hn : 2 ≤ n)
    (hf : ∀ w : List ℚ, 2 ≤ w.length → R w (f w.length w)) (values : List (Option ℚ)) :
    Windowed n.toNat R values (linreg f values n) := by
  have htwo : 2 ≤ n.toNat := by omega
  rw [linreg, if_neg (by omega), if_neg (denom_pos htwo).ne']
  apply windowed_windowPush (by omega)
  intro w hw
  refine ⟨_, rfl, ?_⟩
  rw [← hw]
  exact hf w (by omega)

theorem causal_of_gapScan {β σ : Type} {fresh : σ} {push : σ → ℚ → σ × Option β} {c : Prop} [Decidable c]
    (values : List (Option ℚ)) (k : Nat) :
    (if c then List.replicate (values.take k).length none else gapScan fresh push fresh (values.take k)) =
      (if c then List.replicate values.length none else gapScan fresh push fresh values).take k := by
  split_ifs
  · rw [List.take_replicate, List.length_take]
  · rw [gapScan_take]

theorem helpersLaw {ρ : Type} (sqrt : ℚ → ρ) (values : List (Option ℚ)) (n : Int) : HelpersLaw sqrt values n where
  average hn := by
    rw [sma, if_neg (by omega)]
    exact windowed_sma (by omega) values
  maximum hn := by
    rw [highest, extreme, if_neg (by omega)]
    exact windowed_windowPush (by omega)
      (fun w hw => max_isGreatest (List.ne_nil_of_length_pos (by omega))) values
  minimum hn := by
    rw [lowest, extreme, if_neg (by omega)]
    exact windowed_windowPush (by omega)
      (fun w hw => min_isLeast (List.ne_nil_of_length_pos (by omega))) values
  deviation hn := by
    rw [stdev, if_neg (by omega)]
    exact windowed_stdev sqrt (by omega) values
  slope hn := windowed_linreg hn (fun w hw => ⟨_, leastSquares_slopeOf hw⟩) values
  endpoint hn := windowed_linreg hn (fun w hw => ⟨_, _, leastSquares_slopeOf hw, rfl⟩) values
  exponential hn := by
    have hcast : ((n.toNat : ℕ) : ℚ) = n := by exact_mod_cast Int.toNat_of_nonneg (by omega)
    rw [ema, if_neg (by omega)]
    have hsmoothed := smoothed_seeded (by omega : 0 < n.toNat) (emaUpdate n.toNat) values
    have hupdate : emaUpdate n.toNat = fun prev v : ℚ => v * (2 / (n + 1)) + prev * (1 - 2 / (n + 1)) := by
      funext prev v
      rw [emaUpdate, hcast]
    rwa [hupdate] at hsmoothed ⊢
  wilders hn := by
    have hcast : ((n.toNat : ℕ) : ℚ) = n := by exact_mod_cast Int.toNat_of_nonneg (by omega)
    rw [wilder, if_neg (by omega)]
    have hsmoothed := smoothed_seeded (by omega : 0 < n.toNat) (wilderUpdate n.toNat) values
    have hupdate : wilderUpdate n.toNat = fun prev v : ℚ => (prev * (n - 1) + v) / n := by
      funext prev v
      rw [wilderUpdate, hcast]
    rwa [hupdate] at hsmoothed ⊢
  short := by
    constructor
    · intro hn
      simp [sma, ema, wilder, highest, lowest, extreme, hn]
    · intro hn
      simp [stdev, linregSlope, linregValue, linreg, hn]
  causal k := by
    refine ⟨causal_of_gapScan values k, ?_⟩
    have hlinreg : ∀ f, linreg f (values.take k) n = (linreg f values n).take k := by
      intro f
      rw [linreg, linreg, ← ite_or, ← ite_or]
      exact causal_of_gapScan values k
    intro f hf
    simp only [List.mem_cons, List.not_mem_nil, or_false] at hf
    rcases hf with rfl | rfl | rfl | rfl | rfl | rfl | rfl
    · exact causal_of_gapScan values k
    · exact causal_of_gapScan values k
    · exact causal_of_gapScan values k
    · exact causal_of_gapScan values k
    · exact causal_of_gapScan values k
    · exact hlinreg slopeOf
    · exact hlinreg endpointOf

/-- One value has a variance, and `stdev` has none for it. -/
theorem stdev_single : ¬Windowed 1 (fun w b => b = id (populationVariance w)) [some 5] (stdev id [some 5] 1) := by
  rintro ⟨-, h⟩
  obtain ⟨o, ho, hmatch⟩ := h 0 (by decide)
  obtain ⟨b, hb, -⟩ := hmatch
  rw [hb] at ho
  cases ho

end Droid.Research.IndicatorHelpers
