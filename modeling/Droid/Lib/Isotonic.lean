import Mathlib.Algebra.BigOperators.Group.List.Basic
import Mathlib.Algebra.Order.Field.Basic
import Mathlib.Tactic.FieldSimp
import Mathlib.Tactic.Linarith
import Mathlib.Tactic.Positivity
import Mathlib.Tactic.Ring

/-! Isotonic regression: the non-decreasing values nearest to weighted data, certified by the running residual. -/
namespace Droid.Lib
variable {K : Type} [Field K]

/-- A datum is a weight and a value. -/
def squaredDistance : List (K × K) → List K → K
  | (w, y) :: data, u :: us => w * (y - u) ^ 2 + squaredDistance data us
  | _, _ => 0

/-- The weighted sum of what the data exceed the fitted values by. -/
def excess : List (K × K) → List K → K
  | (w, y) :: data, u :: us => w * (y - u) + excess data us
  | _, _ => 0

/-- The weighted squared distance of two fits. -/
def separation : List (K × K) → List K → List K → K
  | (w, _) :: data, v :: vs, u :: us => w * (v - u) ^ 2 + separation data vs us
  | _, _, _ => 0

theorem excess_append {data data' : List (K × K)} {v v' : List K} (h : v.length = data.length) :
    excess (data ++ data') (v ++ v') = excess data v + excess data' v' := by
  induction data generalizing v with
  | nil =>
    obtain rfl := List.length_eq_zero_iff.mp h
    simp [excess]
  | cons p data ih =>
    cases v with
    | nil => cases h
    | cons a v =>
      simp only [List.cons_append, excess]
      rw [ih (Nat.succ.inj h), add_assoc]

theorem squaredDistance_shift {data : List (K × K)} {v : List K} (h : v.length = data.length) (t : K) :
    squaredDistance data (v.map (· + t)) =
      squaredDistance data v - 2 * t * excess data v + t ^ 2 * (data.map Prod.fst).sum := by
  induction data generalizing v with
  | nil =>
    obtain rfl := List.length_eq_zero_iff.mp h
    simp [squaredDistance, excess]
  | cons p data ih =>
    cases v with
    | nil => cases h
    | cons a v =>
      simp only [List.map_cons, squaredDistance, excess, List.sum_cons]
      rw [ih (Nat.succ.inj h)]
      ring

variable [LinearOrder K]

/-- The one non-decreasing sequence nearest to the data. -/
structure IsIsotonic (data : List (K × K)) (v : List K) : Prop where
  length_eq : v.length = data.length
  ordered : v.Pairwise (· ≤ ·)
  nearest : ∀ u : List K, u.length = data.length → u.Pairwise (· ≤ ·) → u ≠ v →
    squaredDistance data v < squaredDistance data u

theorem IsIsotonic.unique {data : List (K × K)} {u v : List K} (hu : IsIsotonic data u) (hv : IsIsotonic data v) :
    u = v := by
  by_contra hne
  have huv := hu.nearest v hv.length_eq hv.ordered (Ne.symm hne)
  have hvu := hv.nearest u hu.length_eq hu.ordered hne
  exact lt_asymm huv hvu

theorem IsIsotonic.nearest_le {data : List (K × K)} {u v : List K} (hv : IsIsotonic data v)
    (hlength : u.length = data.length) (hu : u.Pairwise (· ≤ ·)) : squaredDistance data v ≤ squaredDistance data u := by
  by_cases heq : u = v
  · rw [heq]
  · exact (hv.nearest u hlength hu heq).le

/-- After a fitted value `c`, with a running residual of `s`: the residual stays non-negative, is zero where the
fit goes up, and zero at the end. -/
inductive Balanced : K → K → List (K × K) → List K → Prop
  | nil (c : K) : Balanced c 0 [] []
  | cons {c s w y a : K} {data : List (K × K)} {v : List K} : 0 ≤ s → c ≤ a → (c < a → s = 0) →
    Balanced a (s + w * (y - a)) data v → Balanced c s ((w, y) :: data) (a :: v)

namespace Balanced
variable {c s : K} {data data' : List (K × K)} {v v' : List K}

theorem length_eq (h : Balanced c s data v) : v.length = data.length := by
  induction h with
  | nil => rfl
  | cons _ _ _ _ ih => simp [ih]

theorem residual_nonneg (h : Balanced c s data v) : 0 ≤ s := by
  cases h with
  | nil => exact le_rfl
  | cons hs _ _ _ => exact hs

theorem pairwise (h : Balanced c s data v) : (c :: v).Pairwise (· ≤ ·) := by
  induction h with
  | nil c => simp
  | cons _ hca _ _ ih =>
    refine List.pairwise_cons.mpr ⟨?_, ih⟩
    intro b hb
    rcases List.mem_cons.mp hb with rfl | hbv
    · exact hca
    · exact hca.trans ((List.pairwise_cons.mp ih).1 b hbv)

theorem total (h : Balanced c s data v) : s + excess data v = 0 := by
  induction h with
  | nil c => simp [excess]
  | cons _ _ _ _ ih =>
    rw [excess, ← add_assoc]
    exact ih

theorem append (h : Balanced c s (data ++ data') (v ++ v')) (hlength : v.length = data.length) :
    Balanced (v.getLastD c) (s + excess data v) data' v' := by
  induction data generalizing c s v with
  | nil =>
    obtain rfl := List.length_eq_zero_iff.mp hlength
    simpa [excess] using h
  | cons p data ih =>
    cases v with
    | nil => cases hlength
    | cons a v =>
      cases h with
      | cons _ _ _ hrest =>
        have hnext := ih hrest (Nat.succ.inj hlength)
        rw [List.getLastD_cons, excess, ← add_assoc]
        exact hnext

theorem tail {w y a : K} (h : Balanced c s ((w, y) :: data) (a :: v)) : Balanced a (s + w * (y - a)) data v := by
  cases h with
  | cons _ _ _ hrest => exact hrest

/-- What a fit was before does not matter past its next value. -/
theorem start_iff {a : K} : Balanced c s data (a :: v) ↔ c ≤ a ∧ (c < a → s = 0) ∧ Balanced a s data (a :: v) := by
  constructor
  · intro h
    cases h with
    | cons hs hca hup hrest =>
      exact ⟨hca, hup, .cons hs le_rfl (fun hlt => absurd hlt (lt_irrefl _)) hrest⟩
  · rintro ⟨hca, hup, h⟩
    cases h with
    | cons hs _ _ hrest => exact .cons hs hca hup hrest

/-- Going back from a value, over those equal to it, to where the residual is zero. -/
theorem flat_before {a : K} (h : Balanced c 0 (data ++ data') (v ++ a :: v')) (hlength : v.length = data.length) :
    ∃ before run : List (K × K), data = before ++ run ∧ ∃ u : List K, v = u ++ List.replicate run.length a ∧
      u.length = before.length ∧ excess before u = 0 := by
  induction data using List.reverseRecOn generalizing v data' v' with
  | nil =>
    obtain rfl := List.length_eq_zero_iff.mp hlength
    exact ⟨[], [], rfl, [], rfl, rfl, rfl⟩
  | append_singleton data p ih =>
    rcases List.eq_nil_or_concat v with rfl | ⟨v, b, rfl⟩
    · simp at hlength
    · rw [List.concat_eq_append, List.length_append, List.length_append] at hlength
      have hlen : v.length = data.length := Nat.add_right_cancel hlength
      rw [List.concat_eq_append] at h ⊢
      obtain ⟨hba, hup, -⟩ := start_iff.mp (h.append (by simp [hlen]))
      rw [List.getLastD_concat] at hba hup
      rcases hba.lt_or_eq with hlt | rfl
      · have hzero := hup hlt
        rw [zero_add] at hzero
        exact ⟨data ++ [p], [], by simp, v ++ [b], by simp, by simp [hlen], hzero⟩
      · rw [List.append_assoc, List.append_assoc] at h
        obtain ⟨before, run, rfl, u, rfl, hu, hzero⟩ := ih h hlen
        exact ⟨before, run ++ [p], by simp, u, by simp [List.replicate_succ'], hu, hzero⟩

theorem flat_after (h : Balanced c s data v) :
    ∃ run after : List (K × K), data = run ++ after ∧ ∃ u : List K, v = List.replicate run.length c ++ u ∧
      s + excess run (List.replicate run.length c) = 0 := by
  induction h with
  | nil c => exact ⟨[], [], rfl, [], rfl, by simp [excess]⟩
  | @cons c s w y a data v _ hca hup _ ih =>
    rcases hca.lt_or_eq with hlt | rfl
    · exact ⟨[], (w, y) :: data, rfl, a :: v, rfl, by simp [excess, hup hlt]⟩
    · obtain ⟨run, after, rfl, u, rfl, hzero⟩ := ih
      refine ⟨(w, y) :: run, after, rfl, u, rfl, ?_⟩
      rw [List.length_cons, List.replicate_succ, excess, ← add_assoc]
      exact hzero

end Balanced

variable [IsStrictOrderedRing K]

theorem separation_nonneg {data : List (K × K)} (hw : ∀ p ∈ data, 0 < p.1) (v u : List K) :
    0 ≤ separation data v u := by
  induction data generalizing v u with
  | nil => simp [separation]
  | cons p data ih =>
    obtain ⟨hp, hdata⟩ := List.forall_mem_cons.mp hw
    cases v with
    | nil => simp [separation]
    | cons a v =>
      cases u with
      | nil => simp [separation]
      | cons b u => exact add_nonneg (mul_nonneg hp.le (sq_nonneg _)) (ih hdata v u)

theorem separation_pos {data : List (K × K)} (hw : ∀ p ∈ data, 0 < p.1) {v u : List K}
    (hv : v.length = data.length) (hu : u.length = data.length) (hne : u ≠ v) : 0 < separation data v u := by
  induction data generalizing v u with
  | nil =>
    rw [List.length_nil, List.length_eq_zero_iff] at hv hu
    exact absurd (hu.trans hv.symm) hne
  | cons p data ih =>
    obtain ⟨hp, hdata⟩ := List.forall_mem_cons.mp hw
    cases v with
    | nil => cases hv
    | cons a v =>
      cases u with
      | nil => cases hu
      | cons b u =>
        by_cases hab : b = a
        · subst hab
          have hrest : u ≠ v := fun h => hne (by rw [h])
          have hpos := ih hdata (Nat.succ.inj hv) (Nat.succ.inj hu) hrest
          simpa [separation] using hpos
        · have hsub : a - b ≠ 0 := sub_ne_zero.mpr (Ne.symm hab)
          have hfirst : 0 < p.1 * (a - b) ^ 2 := mul_pos hp (by positivity)
          exact add_pos_of_pos_of_nonneg hfirst (separation_nonneg hdata v u)

/-- Shifted as a whole the fit would be nearer, had it not the total of the data. -/
theorem IsIsotonic.excess_eq_zero {data : List (K × K)} {v : List K} (h : IsIsotonic data v)
    (hw : ∀ p ∈ data, 0 < p.1) : excess data v = 0 := by
  by_contra hne
  have hdata : data ≠ [] := by
    rintro rfl
    exact hne (by simp [excess])
  have hweight : 0 < (data.map Prod.fst).sum := by
    apply List.sum_pos
    · intro w hwmem
      obtain ⟨p, hp, rfl⟩ := List.mem_map.mp hwmem
      exact hw p hp
    · simpa using hdata
  set t := excess data v / (data.map Prod.fst).sum with ht
  have hordered : (v.map (· + t)).Pairwise (· ≤ ·) := h.ordered.map _ fun a b hab => add_le_add_left hab t
  have hle := h.nearest_le (by simpa using h.length_eq) hordered
  have hgain : 0 < excess data v ^ 2 / (data.map Prod.fst).sum := by positivity
  have hsquare : 2 * t * excess data v - t ^ 2 * (data.map Prod.fst).sum = excess data v ^ 2 / (data.map Prod.fst).sum := by
    rw [ht]
    field_simp
    ring
  rw [squaredDistance_shift h.length_eq] at hle
  linarith

namespace Balanced
variable {c s : K} {data : List (K × K)} {v : List K}

/-- Abel summation: where the fit goes up the residual is zero, and elsewhere a rise of `u` only costs. -/
theorem distance_le (h : Balanced c s data v) {e : K} {u : List K} (hu : (e :: u).Pairwise (· ≤ ·))
    (hlength : u.length = data.length) :
    squaredDistance data v + separation data v u ≤ squaredDistance data u + 2 * (s * (c - e)) := by
  induction h generalizing e u with
  | nil c => simp [squaredDistance, separation]
  | @cons c s w y a data v hs hca hup _ ih =>
    cases u with
    | nil => cases hlength
    | cons b u =>
      obtain ⟨hhead, hrest⟩ := List.pairwise_cons.mp hu
      have heb : e ≤ b := hhead b List.mem_cons_self
      have hrec := ih hrest (Nat.succ.inj hlength)
      have hflat : s * (a - c) = 0 := by
        rcases hca.lt_or_eq with hlt | rfl
        · rw [hup hlt, zero_mul]
        · rw [sub_self, mul_zero]
      have hrise : 0 ≤ s * (b - e) := mul_nonneg hs (sub_nonneg.mpr heb)
      simp only [squaredDistance, separation]
      nlinarith

theorem isIsotonic (h : Balanced c 0 data v) (hw : ∀ p ∈ data, 0 < p.1) : IsIsotonic data v where
  length_eq := h.length_eq
  ordered := h.pairwise.of_cons
  nearest u hlength hu hne := by
    have hpos := separation_pos hw h.length_eq hlength hne
    cases u with
    | nil =>
      rw [List.length_nil, ← h.length_eq] at hlength
      exact absurd (List.length_eq_zero_iff.mp hlength.symm).symm hne
    | cons b u =>
      have hle := h.distance_le (List.pairwise_cons.mpr ⟨fun x hx => ?_, hu⟩ : (b :: b :: u).Pairwise (· ≤ ·)) hlength
      · linarith
      · rcases List.mem_cons.mp hx with rfl | hxu
        · exact le_rfl
        · exact (List.pairwise_cons.mp hu).1 x hxu

end Balanced

end Droid.Lib
