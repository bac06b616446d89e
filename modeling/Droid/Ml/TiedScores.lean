import Droid.Ml.Calibrators
import Mathlib.Data.Finset.Sort
import Mathlib.Data.List.SplitLengths

/-! The map of a class by its distinct scores: what becomes of rows that share a score. -/
namespace Droid.Ml.Calibrators
open Lib
variable {rows rows' : List (ℚ × ℚ)} {xs : List ℚ}

def labelsAt (rows : List (ℚ × ℚ)) (x : ℚ) : List ℚ := (bucket Prod.fst rows x).map Prod.snd

/-- The distinct scores, in increasing order. -/
structure Scores (rows : List (ℚ × ℚ)) (xs : List ℚ) : Prop where
  increasing : xs.Pairwise (· < ·)
  mem_iff : ∀ x, x ∈ xs ↔ x ∈ rows.map Prod.fst

theorem exists_scores (rows : List (ℚ × ℚ)) : ∃ xs, Scores rows xs := by
  refine ⟨(rows.map Prod.fst).toFinset.sort, Finset.sortedLT_sort _ |>.pairwise, ?_⟩
  intro x
  rw [Finset.mem_sort, List.mem_toFinset]

theorem Scores.perm (h : Scores rows xs) (hperm : rows'.Perm rows) : Scores rows' xs where
  increasing := h.increasing
  mem_iff x := (h.mem_iff x).trans (hperm.map Prod.fst).mem_iff.symm

theorem labelsAt_perm (hperm : rows'.Perm rows) (x : ℚ) : (labelsAt rows' x).Perm (labelsAt rows x) :=
  (hperm.filter _).map _

theorem Scores.labelsAt_ne_nil (h : Scores rows xs) {x : ℚ} (hx : x ∈ xs) : labelsAt rows x ≠ [] := by
  obtain ⟨row, hrow, rfl⟩ := List.mem_map.mp ((h.mem_iff x).mp hx)
  exact List.ne_nil_of_mem (List.mem_map_of_mem ((mem_bucket Prod.fst).mpr ⟨hrow, rfl⟩))

theorem Scores.sorted_eq (h : Scores rows xs) :
    rows.insertionSort (fun a b => a.1 ≤ b.1) = xs.flatMap (bucket Prod.fst rows) := by
  apply insertionSort_eq_flatMap_bucket h.increasing
  intro a ha
  exact (h.mem_iff a.1).mpr (List.mem_map_of_mem ha)

theorem Scores.sorted_labels (h : Scores rows xs) :
    (rows.insertionSort fun a b => a.1 ≤ b.1).map Prod.snd = (xs.map (labelsAt rows)).flatten := by
  rw [h.sorted_eq, List.map_flatMap, List.flatMap_def]
  rfl

theorem Scores.sorted_scores (h : Scores rows xs) :
    (rows.insertionSort fun a b => a.1 ≤ b.1).map Prod.fst =
      xs.flatMap fun x => List.replicate (labelsAt rows x).length x := by
  rw [h.sorted_eq, List.map_flatMap]
  congr 1
  funext x
  rw [labelsAt, List.length_map, List.eq_replicate_iff, List.length_map]
  refine ⟨rfl, ?_⟩
  intro y hy
  obtain ⟨row, hrow, rfl⟩ := List.mem_map.mp hy
  exact ((mem_bucket Prod.fst).mp hrow).2

/-! ### The knots of the map -/

/-- The largest fitted value of a score. -/
def top (chunk : List ℚ) : ℚ := chunk.max?.getD 0

theorem foldl_collapseStep_same (x f : ℚ) (fs : List ℚ) (knots : List (ℚ × ℚ)) :
    (fs.map fun g => (x, g)).foldl collapseStep ((x, f) :: knots) = (x, fs.foldl max f) :: knots := by
  induction fs generalizing f with
  | nil => rfl
  | cons g fs ih =>
    rw [List.map_cons, List.foldl_cons, List.foldl_cons]
    have hstep : collapseStep ((x, f) :: knots) (x, g) = (x, max f g) :: knots := if_pos rfl
    rw [hstep, ih]

theorem foldl_collapseStep_chunk {x : ℚ} {chunk : List ℚ} (hchunk : chunk ≠ []) {knots : List (ℚ × ℚ)}
    (hnew : ∀ k ∈ knots, k.1 < x) :
    (chunk.map fun g => (x, g)).foldl collapseStep knots = (x, top chunk) :: knots := by
  cases chunk with
  | nil => exact absurd rfl hchunk
  | cons f fs =>
    have hstep : collapseStep knots (x, f) = (x, f) :: knots := by
      cases knots with
      | nil => rfl
      | cons k knots => exact if_neg (hnew k List.mem_cons_self).ne'
    rw [List.map_cons, List.foldl_cons, hstep, foldl_collapseStep_same, top, List.max?_cons']
    rfl

theorem foldl_collapseStep_zip {xs : List ℚ} {chunks : List (List ℚ)} (hlength : chunks.length = xs.length)
    (hxs : xs.Pairwise (· < ·)) (hne : ∀ chunk ∈ chunks, chunk ≠ []) {knots : List (ℚ × ℚ)}
    (hnew : ∀ k ∈ knots, ∀ x ∈ xs, k.1 < x) :
    ((xs.zip chunks).flatMap fun p => p.2.map fun g => (p.1, g)).foldl collapseStep knots =
      (xs.zip (chunks.map top)).reverse ++ knots := by
  induction xs generalizing chunks knots with
  | nil => rfl
  | cons x xs ih =>
    cases chunks with
    | nil => cases hlength
    | cons chunk chunks =>
      obtain ⟨hx, hrest⟩ := List.pairwise_cons.mp hxs
      obtain ⟨hchunk, hchunks⟩ := List.forall_mem_cons.mp hne
      rw [List.zip_cons_cons, List.flatMap_cons, List.foldl_append,
        foldl_collapseStep_chunk hchunk fun k hk => hnew k hk x List.mem_cons_self,
        ih (Nat.succ.inj hlength) hrest hchunks ?_]
      · simp
      · intro k hk y hy
        rcases List.mem_cons.mp hk with rfl | hmem
        · exact hx y hy
        · exact hnew k hmem y (List.mem_cons_of_mem x hy)

theorem zip_replicate_chunks {xs : List ℚ} {chunks : List (List ℚ)} {count : ℚ → ℕ}
    (hlengths : chunks.map List.length = xs.map count) :
    (xs.flatMap fun x => List.replicate (count x) x).zip chunks.flatten =
      (xs.zip chunks).flatMap fun p => p.2.map fun g => (p.1, g) := by
  induction xs generalizing chunks with
  | nil => rfl
  | cons x xs ih =>
    cases chunks with
    | nil => cases hlengths
    | cons chunk chunks =>
      rw [List.map_cons, List.map_cons, List.cons.injEq] at hlengths
      obtain ⟨hfirst, hrest⟩ := hlengths
      rw [List.flatMap_cons, List.flatten_cons, List.zip_append (by rw [List.length_replicate, hfirst]), ih hrest,
        List.zip_cons_cons, List.flatMap_cons, ← hfirst]
      congr 1
      clear hfirst ih
      induction chunk with
      | nil => rfl
      | cons g chunk ih => rw [List.length_cons, List.replicate_succ, List.zip_cons_cons, ih, List.map_cons]

theorem Scores.chunks_ne_nil (h : Scores rows xs) {chunks : List (List ℚ)}
    (hlengths : chunks.map List.length = (xs.map (labelsAt rows)).map List.length) : ∀ chunk ∈ chunks, chunk ≠ [] := by
  intro chunk hchunk hnil
  have hsize : chunk.length ∈ (xs.map (labelsAt rows)).map List.length := hlengths ▸ List.mem_map_of_mem hchunk
  obtain ⟨g, hg, hlen⟩ := List.mem_map.mp hsize
  obtain ⟨x, hx, rfl⟩ := List.mem_map.mp hg
  rw [hnil, List.length_nil, List.length_eq_zero_iff] at hlen
  exact h.labelsAt_ne_nil hx hlen

/-- The map of a class has its distinct scores as knots, and at each the largest of the fitted values there. -/
theorem Scores.fitClass_eq (h : Scores rows xs) {chunks : List (List ℚ)}
    (hlengths : chunks.map List.length = (xs.map (labelsAt rows)).map List.length)
    (hpava : pava1d (xs.map (labelsAt rows)).flatten = chunks.flatten) :
    fitClass rows = { xs, ys := chunks.map top } := by
  have hlength : chunks.length = xs.length := by
    have hcount := congrArg List.length hlengths
    simpa using hcount
  have hne := h.chunks_ne_nil hlengths
  have hnew : ∀ k ∈ ([] : List (ℚ × ℚ)), ∀ x ∈ xs, k.1 < x := by simp
  have hknots := foldl_collapseStep_zip hlength h.increasing hne hnew
  rw [List.map_map] at hlengths
  rw [← zip_replicate_chunks hlengths] at hknots
  rw [fitClass, h.sorted_scores, h.sorted_labels, hpava, collapse]
  have hfst : (xs.zip (chunks.map top)).map Prod.fst = xs := List.map_fst_zip (by simp [hlength])
  have hsnd : (xs.zip (chunks.map top)).map Prod.snd = chunks.map top := List.map_snd_zip (by simp [hlength])
  have hrun : ((xs.flatMap fun x => List.replicate (labelsAt rows x).length x).zip chunks.flatten).foldl collapseStep [] =
      (xs.zip (chunks.map top)).reverse ++ [] := hknots
  simp only [hrun, List.append_nil, List.reverse_reverse, hfst, hsnd]

theorem exists_chunks (groups : List (List ℚ)) :
    ∃ chunks : List (List ℚ), chunks.map List.length = groups.map List.length ∧
      pava1d groups.flatten = chunks.flatten := by
  have hsize : (groups.map List.length).sum = (pava1d groups.flatten).length := by
    rw [(pava1d_isIsotonic groups.flatten).length_eq, length_plain, List.length_flatten]
  refine ⟨(groups.map List.length).splitLengths (pava1d groups.flatten), ?_, ?_⟩
  · exact List.map_splitLengths_length _ _ hsize.le
  · exact (List.flatten_splitLengths _ _ hsize.ge).symm

theorem le_top {chunk : List ℚ} {b : ℚ} (hb : b ∈ chunk) : b ≤ top chunk := by
  cases hmax : chunk.max? with
  | none =>
    rw [List.max?_eq_none_iff] at hmax
    exact absurd hb (hmax ▸ List.not_mem_nil)
  | some m =>
    rw [top, hmax]
    exact (List.max?_eq_some_iff.mp hmax).2 b hb

theorem top_mem {chunk : List ℚ} (h : chunk ≠ []) : top chunk ∈ chunk := by
  cases hmax : chunk.max? with
  | none => exact absurd (List.max?_eq_none_iff.mp hmax) h
  | some m =>
    rw [top, hmax]
    exact (List.max?_eq_some_iff.mp hmax).1

theorem top_replicate {n : ℕ} (hn : n ≠ 0) (a : ℚ) : top (List.replicate n a) = a := by
  have hne : List.replicate n a ≠ [] := fun h => hn (by simpa using h)
  exact List.eq_of_mem_replicate (top_mem hne)

/-- Whatever the labels, the knots and the values go up. -/
theorem Scores.fitClass_ordered (h : Scores rows xs) :
    (fitClass rows).xs = xs ∧ (fitClass rows).ys.length = xs.length ∧ (fitClass rows).ys.Pairwise (· ≤ ·) := by
  obtain ⟨chunks, hlengths, hpava⟩ := exists_chunks (xs.map (labelsAt rows))
  have hordered := (pava1d_isIsotonic (xs.map (labelsAt rows)).flatten).ordered
  rw [hpava, List.pairwise_flatten] at hordered
  have hne := h.chunks_ne_nil hlengths
  rw [h.fitClass_eq hlengths hpava]
  refine ⟨rfl, ?_, ?_⟩
  · have hcount := congrArg List.length hlengths
    simpa using hcount
  · rw [List.pairwise_map]
    refine hordered.2.imp_of_mem ?_
    intro c d hc hd hcd
    exact hcd _ (top_mem (hne c hc)) _ (top_mem (hne d hd))

theorem Scores.fitClass_of_balanced (h : Scores rows xs) {c : ℚ} {as : List ℚ} (hlength : as.length = xs.length)
    (hbalanced : Balanced c 0 (plain (xs.map (labelsAt rows)).flatten) (stepwise (xs.map (labelsAt rows)) as)) :
    fitClass rows = { xs, ys := as } := by
  have hchunks : ∀ {xs : List ℚ} {as : List ℚ}, as.length = xs.length → (∀ x ∈ xs, labelsAt rows x ≠ []) →
      ∃ chunks : List (List ℚ), chunks.map List.length = (xs.map (labelsAt rows)).map List.length ∧
        stepwise (xs.map (labelsAt rows)) as = chunks.flatten ∧ chunks.map top = as := by
    intro xs
    induction xs with
    | nil =>
      intro as hlen _
      rw [List.length_nil, List.length_eq_zero_iff] at hlen
      exact ⟨[], rfl, rfl, hlen.symm⟩
    | cons x xs ih =>
      intro as hlen hne
      obtain ⟨hx, hxs⟩ := List.forall_mem_cons.mp hne
      cases as with
      | nil => cases hlen
      | cons a as =>
        obtain ⟨chunks, hlengths, hflatten, htop⟩ := ih (Nat.succ.inj hlen) hxs
        refine ⟨List.replicate (labelsAt rows x).length a :: chunks, by simp [hlengths], by simp [stepwise, hflatten], ?_⟩
        rw [List.map_cons, htop, top_replicate (List.length_pos_of_ne_nil hx).ne']
  obtain ⟨chunks, hlengths, hflatten, htop⟩ := hchunks hlength fun x hx => h.labelsAt_ne_nil hx
  rw [h.fitClass_eq hlengths ((pava1d_eq hbalanced).trans hflatten), htop]

end Droid.Ml.Calibrators
