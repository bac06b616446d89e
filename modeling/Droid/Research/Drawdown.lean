import Droid.Lib.Rounding
import Droid.Lib.RunningPeak
import Mathlib.Tactic.FieldSimp
import Mathlib.Tactic.GCongr

/-! The largest drawdown of an equity curve, from the running peak. -/
namespace Droid.Research
open Lib

structure Drawdown where
  pct : ℚ := 0
  abs : ℚ := 0
  peakIndex : Nat := 0
  troughIndex : Nat := 0
  deriving DecidableEq, Repr

structure Scan where
  peak : ℚ
  peakIndex : Nat := 0
  best : Drawdown := {}

def Scan.rise (s : Scan) (value : ℚ) (i : Nat) : Scan :=
  if value > s.peak then { s with peak := value, peakIndex := i } else s

def Scan.fall (s : Scan) (value : ℚ) (i : Nat) : Scan :=
  if s.peak > 0 ∧ (s.peak - value) / s.peak > s.best.pct then
    { s with best :=
        { pct := (s.peak - value) / s.peak, abs := s.peak - value, peakIndex := s.peakIndex, troughIndex := i } }
  else s

def maxDrawdown (equity : List ℚ) : Drawdown :=
  (equity.zipIdx.foldl (fun s p => (s.rise p.1 p.2).fall p.1 p.2) { peak := equity.headD 0 : Scan }).best

def peakAt (equity : List ℚ) (j : Nat) : ℚ := peakOf (equity.headD 0) (equity.take (j + 1))

/-- The drawdown at the second index, from the positive running peak that stands at the first one. -/
def Drawn (equity : List ℚ) (i j : Nat) (pct : ℚ) : Prop :=
  i ≤ j ∧ equity[i]? = some (peakAt equity j) ∧ 0 < peakAt equity j ∧
    ∃ value, equity[j]? = some value ∧ pct = (peakAt equity j - value) / peakAt equity j

/-- No drawdown is larger, and one at these indices is as large; without any, all figures are zero. -/
structure Supremum (equity : List ℚ) (d : Drawdown) : Prop where
  bound : ∀ i j pct, Drawn equity i j pct → pct ≤ d.pct
  attained : d = {} ∨ 0 < d.pct ∧ Drawn equity d.peakIndex d.troughIndex d.pct ∧
    d.abs = d.pct * peakAt equity d.troughIndex

/-! The loop. -/

theorem peakAt_of_lt {pre : List ℚ} (value : ℚ) {j : Nat} (h : j < pre.length) :
    peakAt (pre ++ [value]) j = peakAt pre j := by
  rw [peakAt, peakAt, List.take_append_of_le_length h]
  cases pre with
  | nil => exact absurd h (Nat.not_lt_zero j)
  | cons first rest => rfl

/-- The state of the loop after the first equities, all of a curve that starts as they do. -/
structure Scanned (first : ℚ) (pre : List ℚ) (s : Scan) : Prop where
  peak : s.peak = peakOf first pre
  index : pre = [] ∧ s.peakIndex = 0 ∨ pre[s.peakIndex]? = some s.peak
  bound : ∀ j value, pre[j]? = some value → 0 < peakAt pre j → (peakAt pre j - value) / peakAt pre j ≤ s.best.pct
  attained : s.best = {} ∨ 0 < s.best.pct ∧ Drawn pre s.best.peakIndex s.best.troughIndex s.best.pct ∧
    s.best.abs = s.best.pct * peakAt pre s.best.troughIndex

theorem Drawn.lt {equity : List ℚ} {i j : Nat} {pct : ℚ} (h : Drawn equity i j pct) : j < equity.length := by
  obtain ⟨-, -, -, value, hvalue, -⟩ := h
  exact (List.getElem?_eq_some_iff.mp hvalue).1

theorem Drawn.concat {pre : List ℚ} {i j : Nat} {pct : ℚ} (h : Drawn pre i j pct) (value : ℚ) :
    Drawn (pre ++ [value]) i j pct := by
  obtain ⟨hij, hi, hpos, x, hx, heq⟩ := h
  have hj : j < pre.length := (List.getElem?_eq_some_iff.mp hx).1
  refine ⟨hij, ?_, ?_, x, ?_, ?_⟩
  · rw [peakAt_of_lt value hj, List.getElem?_append_left (hij.trans_lt hj), hi]
  · rw [peakAt_of_lt value hj]
    exact hpos
  · rw [List.getElem?_append_left hj, hx]
  · rw [peakAt_of_lt value hj]
    exact heq

theorem Scan.peak_rise (s : Scan) (value : ℚ) (i : Nat) : (s.rise value i).peak = max s.peak value := by
  rw [Scan.rise]
  split
  · rename_i h
    exact (max_eq_right h.le).symm
  · rename_i h
    exact (max_eq_left (not_lt.mp h)).symm

theorem Scan.best_rise (s : Scan) (value : ℚ) (i : Nat) : (s.rise value i).best = s.best := by
  rw [Scan.rise]
  split <;> rfl

theorem Scanned.index_rise {first : ℚ} {pre : List ℚ} {s : Scan} (h : Scanned first pre s) {value : ℚ}
    (hfirst : pre = [] → value = first) :
    (pre ++ [value])[(s.rise value pre.length).peakIndex]? = some (s.rise value pre.length).peak := by
  rw [Scan.rise]
  split
  · exact List.getElem?_concat_length
  · rcases h.index with ⟨hnil, hzero⟩ | hindex
    · rw [hzero, h.peak, hnil, hfirst hnil]
      rfl
    · rw [List.getElem?_append_left (List.getElem?_eq_some_iff.mp hindex).1, hindex]

theorem Scanned.turn {first : ℚ} {pre : List ℚ} {s : Scan} (h : Scanned first pre s) {value : ℚ}
    (hhead : (pre ++ [value]).headD 0 = first) :
    Scanned first (pre ++ [value]) ((s.rise value pre.length).fall value pre.length) := by
  have hfirst : pre = [] → value = first := by
    rintro rfl
    exact hhead
  have hindex := h.index_rise hfirst
  have hpeak := s.peak_rise value pre.length
  have hbest := s.best_rise value pre.length
  generalize s.rise value pre.length = r at hindex hpeak hbest
  have hat : peakAt (pre ++ [value]) pre.length = r.peak := by
    rw [peakAt, hhead, List.take_of_length_le (by rw [List.length_append]; exact le_rfl), peakOf_concat, hpeak, h.peak]
  have hfall : (r.fall value pre.length).peak = r.peak ∧ (r.fall value pre.length).peakIndex = r.peakIndex := by
    rw [Scan.fall]
    split <;> exact ⟨rfl, rfl⟩
  have hmore : r.best.pct ≤ (r.fall value pre.length).best.pct ∧
      (0 < r.peak → (r.peak - value) / r.peak ≤ (r.fall value pre.length).best.pct) := by
    rw [Scan.fall]
    split
    · rename_i hlt
      exact ⟨hlt.2.le, fun _ => le_rfl⟩
    · rename_i hnot
      exact ⟨le_rfl, fun hpos => not_lt.mp fun hlt => hnot ⟨hpos, hlt⟩⟩
  refine ⟨?_, ?_, ?_, ?_⟩
  · rw [hfall.1, hpeak, peakOf_concat, h.peak]
  · rw [hfall.1, hfall.2]
    exact Or.inr hindex
  · intro j x hx hpos
    rcases Nat.lt_or_ge j pre.length with hj | hj
    · rw [peakAt_of_lt value hj] at hpos ⊢
      rw [List.getElem?_append_left hj] at hx
      exact (h.bound j x hx hpos).trans (hbest ▸ hmore.1)
    · rw [List.getElem?_append_right hj] at hx
      have hzero : j - pre.length = 0 := by
        have := (List.getElem?_eq_some_iff.mp hx).1
        rw [List.length_singleton] at this
        omega
      rw [hzero] at hx
      obtain rfl := Option.some.inj hx
      obtain rfl : j = pre.length := by omega
      rw [hat] at hpos ⊢
      exact hmore.2 hpos
  · rw [Scan.fall]
    split
    · rename_i hlt
      have hnonneg : 0 ≤ r.best.pct := by
        rw [hbest]
        rcases h.attained with hzero | hpos
        · rw [hzero]
        · exact hpos.1.le
      refine Or.inr ⟨hnonneg.trans_lt hlt.2, ⟨?_, ?_, ?_, value, List.getElem?_concat_length, ?_⟩, ?_⟩
      · have := (List.getElem?_eq_some_iff.mp hindex).1
        rw [List.length_append, List.length_singleton] at this
        exact Nat.lt_succ_iff.mp this
      · rw [hat]
        exact hindex
      · rw [hat]
        exact hlt.1
      · rw [hat]
      · rw [hat]
        exact (div_mul_cancel₀ _ hlt.1.ne').symm
    · rw [hbest]
      rcases h.attained with hzero | ⟨hpos, hdrawn, habs⟩
      · exact Or.inl hzero
      · exact Or.inr ⟨hpos, hdrawn.concat value, by rw [peakAt_of_lt value hdrawn.lt]; exact habs⟩

theorem scanned_foldl (first : ℚ) (pre : List ℚ) (hhead : pre = [] ∨ pre.headD 0 = first) :
    Scanned first pre (pre.zipIdx.foldl (fun s p => (s.rise p.1 p.2).fall p.1 p.2) { peak := first : Scan }) := by
  induction pre using List.reverseRecOn with
  | nil =>
    refine ⟨rfl, Or.inl ⟨rfl, rfl⟩, ?_, Or.inl rfl⟩
    intro j value hvalue
    cases hvalue
  | append_singleton pre value ih =>
    have hall : (pre ++ [value]).headD 0 = first := by
      rcases hhead with hnil | hhead
      · exact absurd hnil (List.append_ne_nil_of_right_ne_nil pre (List.cons_ne_nil value []))
      · exact hhead
    have hpre : pre = [] ∨ pre.headD 0 = first := by
      cases pre with
      | nil => exact Or.inl rfl
      | cons a rest => exact Or.inr hall
    rw [List.zipIdx_append, List.foldl_append, Nat.zero_add]
    exact (ih hpre).turn hall

/-- The loop finds the largest drawdown, and where it is. -/
theorem maxDrawdown_supremum (equity : List ℚ) : Supremum equity (maxDrawdown equity) := by
  have h := scanned_foldl (equity.headD 0) equity (Or.inr rfl)
  refine ⟨?_, h.attained⟩
  rintro i j pct ⟨-, -, hpos, value, hvalue, rfl⟩
  exact h.bound j value hvalue hpos

namespace Supremum
variable {equity : List ℚ} {d : Drawdown}

theorem nonneg (h : Supremum equity d) : 0 ≤ d.pct := by
  rcases h.attained with hzero | hpos
  · rw [hzero]
  · exact hpos.1.le

/-- A running peak stands somewhere before. -/
theorem exists_drawn {j : Nat} {value : ℚ} (hvalue : equity[j]? = some value) (hpos : 0 < peakAt equity j) :
    ∃ i, Drawn equity i j ((peakAt equity j - value) / peakAt equity j) := by
  have hmem : peakAt equity j ∈ equity.take (j + 1) := by
    rcases peakOf_eq_or_mem (equity.headD 0) (equity.take (j + 1)) with hhead | hmem
    · rw [peakAt, hhead]
      cases equity with
      | nil => cases hvalue
      | cons first rest => exact List.mem_cons_self
    · exact hmem
  obtain ⟨i, hi⟩ := List.mem_iff_getElem?.mp hmem
  rw [List.getElem?_take] at hi
  split at hi
  · rename_i hij
    exact ⟨i, Nat.lt_succ_iff.mp hij, hi, hpos, value, hvalue, rfl⟩
  · cases hi

theorem le (h : Supremum equity d) {j : Nat} {value : ℚ} (hvalue : equity[j]? = some value)
    (hpos : 0 < peakAt equity j) : (peakAt equity j - value) / peakAt equity j ≤ d.pct := by
  obtain ⟨i, hi⟩ := exists_drawn hvalue hpos
  exact h.bound i j _ hi

end Supremum

/-! A curve and its rounded figures. -/

def halfUnit : ℚ := 1 / 2 / 10 ^ 4

theorem peakAt_map {f : ℚ → ℚ} (hf : Monotone f) {equity : List ℚ} {j : Nat} (h : equity ≠ []) :
    peakAt (equity.map f) j = f (peakAt equity j) := by
  cases equity with
  | nil => exact absurd rfl h
  | cons first rest => rw [peakAt, peakAt, ← List.map_take, ← peakOf_map hf]; rfl

/-- What rounding the peak and the value does to a drawdown. -/
theorem abs_rounded_drawn_le {peak value least most : ℚ} (hleast : halfUnit < least) (hpeak : least ≤ peak)
    (hvalue : |value| ≤ most) :
    |(roundTo 4 peak - roundTo 4 value) / roundTo 4 peak - (peak - value) / peak| ≤
      halfUnit * (1 + most / least) / (least - halfUnit) := by
  have hhalf : (0 : ℚ) < halfUnit := by rw [halfUnit]; norm_num
  have hp := abs_le.mp (abs_roundTo_sub_le 4 peak)
  have hv := abs_roundTo_sub_le 4 value
  have hpeak0 : 0 < peak := (hhalf.trans hleast).trans_le hpeak
  have hround : least - halfUnit ≤ roundTo 4 peak := by
    have := hp.1
    rw [halfUnit]
    linarith
  have hround0 : 0 < roundTo 4 peak := (sub_pos.mpr hleast).trans_le hround
  have hsplit : (roundTo 4 peak - roundTo 4 value) / roundTo 4 peak - (peak - value) / peak =
      (value / peak * (roundTo 4 peak - peak) - (roundTo 4 value - value)) / roundTo 4 peak := by
    field_simp
    ring
  have hratio : |value / peak| ≤ most / least := by
    rw [abs_div, abs_of_pos hpeak0]
    exact div_le_div₀ ((abs_nonneg value).trans hvalue) hvalue (hhalf.trans hleast) hpeak
  have hnum : |value / peak * (roundTo 4 peak - peak) - (roundTo 4 value - value)| ≤
      halfUnit * (1 + most / least) := by
    calc |value / peak * (roundTo 4 peak - peak) - (roundTo 4 value - value)|
        ≤ |value / peak * (roundTo 4 peak - peak)| + |roundTo 4 value - value| := abs_sub _ _
      _ = |value / peak| * |roundTo 4 peak - peak| + |roundTo 4 value - value| := by rw [abs_mul]
      _ ≤ most / least * halfUnit + halfUnit := by
        gcongr
        · exact (abs_nonneg _).trans hratio
        · exact abs_roundTo_sub_le 4 peak
        · exact hv
      _ = halfUnit * (1 + most / least) := by ring
  rw [hsplit, abs_div, abs_of_pos hround0]
  exact div_le_div₀ ((abs_nonneg _).trans hnum) hnum (sub_pos.mpr hleast) hround

theorem maxDrawdown_rounded {equity : List ℚ} {least most : ℚ} (hleast : halfUnit < least) (hnonneg : 0 ≤ most)
    (hfirst : ∀ x ∈ equity.head?, least ≤ x) (hmost : ∀ x ∈ equity, |x| ≤ most) :
    |(maxDrawdown (equity.map (roundTo 4))).pct - (maxDrawdown equity).pct| ≤
      halfUnit * (1 + most / least) / (least - halfUnit) := by
  have hhalf : (0 : ℚ) < halfUnit := by rw [halfUnit]; norm_num
  have hexact := maxDrawdown_supremum equity
  have hround := maxDrawdown_supremum (equity.map (roundTo 4))
  have hbound : 0 ≤ halfUnit * (1 + most / least) / (least - halfUnit) := by
    have hleast0 := hhalf.trans hleast
    have hgap := sub_pos.mpr hleast
    positivity
  have hpoint : ∀ (j : Nat) (x : ℚ), equity[j]? = some x → least ≤ peakAt equity j ∧
      peakAt (equity.map (roundTo 4)) j = roundTo 4 (peakAt equity j) ∧
      |(roundTo 4 (peakAt equity j) - roundTo 4 x) / roundTo 4 (peakAt equity j) -
        (peakAt equity j - x) / peakAt equity j| ≤ halfUnit * (1 + most / least) / (least - halfUnit) := by
    intro j x hx
    have hne : equity ≠ [] := by
      rintro rfl
      cases hx
    have hpeak : least ≤ peakAt equity j := by
      refine le_trans ?_ (start_le_peakOf _ _)
      cases equity with
      | nil => exact absurd rfl hne
      | cons first rest => exact hfirst first rfl
    exact ⟨hpeak, peakAt_map (fun _ _ => roundTo_mono 4) hne,
      abs_rounded_drawn_le hleast hpeak (hmost x (List.mem_of_getElem? hx))⟩
  rw [abs_sub_le_iff]
  constructor
  · rcases hround.attained with hzero | ⟨-, ⟨-, -, -, y, hy, hpct⟩, -⟩
    · rw [hzero]
      linarith [hexact.nonneg]
    · rw [List.getElem?_map, Option.map_eq_some_iff] at hy
      obtain ⟨x, hx, rfl⟩ := hy
      obtain ⟨hpeak, hmap, hclose⟩ := hpoint _ x hx
      rw [hmap] at hpct
      rw [hpct]
      linarith [(abs_le.mp hclose).2, hexact.le hx ((hhalf.trans hleast).trans_le hpeak)]
  · rcases hexact.attained with hzero | ⟨-, ⟨-, -, -, x, hx, hpct⟩, -⟩
    · rw [hzero]
      linarith [hround.nonneg]
    · obtain ⟨hpeak, hmap, hclose⟩ := hpoint _ x hx
      have hy : (equity.map (roundTo 4))[(maxDrawdown equity).troughIndex]? = some (roundTo 4 x) := by
        rw [List.getElem?_map, hx]
        rfl
      have hpos : 0 < peakAt (equity.map (roundTo 4)) (maxDrawdown equity).troughIndex := by
        rw [hmap]
        have hdist := (abs_le.mp (abs_roundTo_sub_le 4 (peakAt equity (maxDrawdown equity).troughIndex))).1
        rw [halfUnit] at hleast
        linarith
      have hle := hround.le hy hpos
      rw [hmap] at hle
      rw [hpct]
      linarith [(abs_le.mp hclose).1]

end Droid.Research
