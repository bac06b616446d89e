import Droid.Ml.TiedScores
import Mathlib.Data.List.Perm.Basic
import Mathlib.Tactic.IntervalCases
import Mathlib.Tactic.NormNum

/-! When the map of a class is the weighted isotonic regression of the frequencies, whatever the order of the rows. -/
namespace Droid.Ml.Calibrators
open Lib
variable {rows rows' : List (ℚ × ℚ)} {xs xa xb : List ℚ} {s : ℚ}

/-- Each distinct score as how often it occurs and the share of the class at it. -/
def frequencies (rows : List (ℚ × ℚ)) (scores : List ℚ) : List (ℚ × ℚ) :=
  scores.map fun x => (((bucket Prod.fst rows x).length : ℚ), mean ((bucket Prod.fst rows x).map Prod.snd))

theorem Scores.groups_ne_nil (h : Scores rows xs) : ∀ g ∈ xs.map (labelsAt rows), g ≠ [] := by
  intro g hg
  obtain ⟨x, hx, rfl⟩ := List.mem_map.mp hg
  exact h.labelsAt_ne_nil hx

theorem frequencies_eq (rows : List (ℚ × ℚ)) (xs : List ℚ) : frequencies rows xs = pooled (xs.map (labelsAt rows)) := by
  simp [frequencies, pooled, labelsAt, Function.comp_def]

theorem frequencies_perm (hperm : rows'.Perm rows) (xs : List ℚ) : frequencies rows' xs = frequencies rows xs := by
  rw [frequencies_eq, frequencies_eq, pooled, pooled, List.map_map, List.map_map]
  apply List.map_congr_left
  intro x _
  have hlabels := labelsAt_perm hperm x
  simp only [Function.comp_apply, mean, hlabels.length_eq, hlabels.sum_eq]

/-- From labelled rows: the map has the distinct scores as knots and the weighted regression of the frequencies as its
values, and no other order of the rows makes another map. -/
structure Calibrates {α : Type} (pair : α → ℚ × ℚ) (l : List α) : Prop where
  scores : Scores (l.map pair) (fitClass (l.map pair)).xs
  ordered : (fitClass (l.map pair)).ys.Pairwise (· ≤ ·)
  regression : IsIsotonic (frequencies (l.map pair) (fitClass (l.map pair)).xs) (fitClass (l.map pair)).ys
  orderFree : ∀ l' : List α, l'.Perm l → fitClass (l'.map pair) = fitClass (l.map pair)

/-- From a score `a` up to `s`, without the ones at `s`. -/
def below (rows : List (ℚ × ℚ)) (a s : ℚ) : List (ℚ × ℚ) :=
  rows.filter fun r => decide (a ≤ r.1 ∧ (r.1 < s ∨ r.1 = s ∧ r.2 = 0))

/-- From `s` up to a score `b`, without the zeros at `s`. -/
def above (rows : List (ℚ × ℚ)) (s b : ℚ) : List (ℚ × ℚ) :=
  rows.filter fun r => decide (r.1 ≤ b ∧ (s < r.1 ∨ r.1 = s ∧ r.2 = 1))

/-- Pooling has to join the zeros and the ones at a score: on average the rows from below are no less than those
from above. -/
def Joined (rows : List (ℚ × ℚ)) (s : ℚ) : Prop :=
  ∃ a b, a ≤ s ∧ s ≤ b ∧ mean ((above rows s b).map Prod.snd) ≤ mean ((below rows a s).map Prod.snd)

def Binary (rows : List (ℚ × ℚ)) : Prop := ∀ r ∈ rows, r.2 = 0 ∨ r.2 = 1

/-! ### The rows with the zeros first -/

def zerosFirst (rows : List (ℚ × ℚ)) : List (ℚ × ℚ) :=
  (rows.filter fun r => decide (r.2 = 0)) ++ rows.filter fun r => !decide (r.2 = 0)

theorem zerosFirst_perm (rows : List (ℚ × ℚ)) : (zerosFirst rows).Perm rows :=
  List.filter_append_perm _ rows

theorem Binary.of_labelsAt (h : Binary rows) (x : ℚ) : ∀ b ∈ labelsAt rows x, b = 0 ∨ b = 1 := by
  intro b hb
  obtain ⟨r, hr, rfl⟩ := List.mem_map.mp hb
  exact h r ((mem_bucket Prod.fst).mp hr).1

theorem Binary.labelsAt_zerosFirst (h : Binary rows) (x : ℚ) :
    labelsAt (zerosFirst rows) x =
      List.replicate ((labelsAt rows x).count 0) 0 ++
        List.replicate ((labelsAt rows x).count 1) 1 := by
  have hzero : (bucket Prod.fst (rows.filter fun r => decide (r.2 = 0)) x).map Prod.snd =
      List.replicate ((labelsAt rows x).count 0) 0 := by
    rw [labelsAt, ← List.filter_eq, List.filter_map, bucket, bucket, List.filter_filter, List.filter_filter]
    congr 1
    refine List.filter_congr fun r _ => ?_
    simp [Bool.and_comm]
  have hone : (bucket Prod.fst (rows.filter fun r => !decide (r.2 = 0)) x).map Prod.snd =
      List.replicate ((labelsAt rows x).count 1) 1 := by
    rw [labelsAt, ← List.filter_eq, List.filter_map, bucket, bucket, List.filter_filter, List.filter_filter]
    congr 1
    refine List.filter_congr fun r hr => ?_
    rcases h r hr with hr0 | hr1
    · simp [hr0]
    · simp [hr1]
  rw [← hzero, ← hone, labelsAt, zerosFirst, bucket, List.filter_append, List.map_append]
  rfl

theorem Binary.ahead (h : Binary rows) (hperm : rows'.Perm rows) (xs : List ℚ) :
    List.Forall₂ Ahead (xs.map (labelsAt (zerosFirst rows))) (xs.map (labelsAt rows')) := by
  have hbinary : Binary rows' := fun r hr => h r (hperm.mem_iff.mp hr)
  induction xs with
  | nil => exact .nil
  | cons x xs ih =>
    refine .cons ?_ ih
    have hlabels := labelsAt_perm hperm x
    rw [h.labelsAt_zerosFirst, ← hlabels.count_eq, ← hlabels.count_eq]
    exact ahead_zeros_ones (hbinary.of_labelsAt x)

theorem count_pos {l : ℚ} (hs : (s, l) ∈ rows) : 0 < (labelsAt rows s).count l :=
  List.count_pos_iff.mpr (List.mem_map.mpr ⟨(s, l), (mem_bucket Prod.fst).mpr ⟨hs, rfl⟩, rfl⟩)

/-! ### The rows on either side of a score -/

theorem labels_filter {P : ℚ × ℚ → Bool} {p : ℚ → Bool} {keys : List ℚ} (h : ∀ r : ℚ × ℚ, r.1 ∈ keys → P r = p r.1) :
    ((keys.flatMap (bucket Prod.fst rows)).filter P).map Prod.snd = ((keys.filter p).map (labelsAt rows)).flatten := by
  induction keys with
  | nil => rfl
  | cons k keys ih =>
    have hrest := ih fun r hr => h r (List.mem_cons_of_mem k hr)
    have hbucket : (bucket Prod.fst rows k).filter P = if p k then bucket Prod.fst rows k else [] := by
      have hall : ∀ r ∈ bucket Prod.fst rows k, P r = p k := by
        intro r hr
        have hkey := ((mem_bucket Prod.fst).mp hr).2
        rw [h r (hkey ▸ List.mem_cons_self), hkey]
      cases hp : p k with
      | true =>
        rw [if_pos rfl, List.filter_eq_self]
        exact fun r hr => (hall r hr).trans hp
      | false =>
        rw [if_neg Bool.false_ne_true, List.filter_eq_nil_iff]
        exact fun r hr => by simp [hall r hr, hp]
    rw [List.flatMap_cons, List.filter_append, List.map_append, hrest, hbucket, List.filter_cons]
    cases hp : p k with
    | true => rfl
    | false => rfl

theorem Scores.labels_perm (h : Scores rows (xa ++ s :: xb)) {P : ℚ × ℚ → Bool} {u v w : ℚ → Bool}
    (ha : ∀ r : ℚ × ℚ, r.1 ∈ xa → P r = u r.1) (hs : ∀ l, P (s, l) = w l)
    (hb : ∀ r : ℚ × ℚ, r.1 ∈ xb → P r = v r.1) :
    ((rows.filter P).map Prod.snd).Perm (((xa.filter u).map (labelsAt rows)).flatten ++
      ((labelsAt rows s).filter w ++ ((xb.filter v).map (labelsAt rows)).flatten)) := by
  have hsorted : (rows.filter P).Perm (((xa ++ s :: xb).flatMap (bucket Prod.fst rows)).filter P) := by
    rw [← h.sorted_eq]
    exact ((List.perm_insertionSort _ rows).filter P).symm
  have hself : ((bucket Prod.fst rows s).filter P).map Prod.snd = (labelsAt rows s).filter w := by
    rw [labelsAt, List.filter_map]
    congr 1
    refine List.filter_congr fun r hr => ?_
    have hkey := ((mem_bucket Prod.fst).mp hr).2
    rw [Function.comp_apply, ← hs, ← hkey]
  have hmapped := hsorted.map Prod.snd
  rw [List.flatMap_append, List.flatMap_cons, List.filter_append, List.filter_append, List.map_append, List.map_append,
    labels_filter ha, labels_filter hb, hself] at hmapped
  exact hmapped

theorem Scores.lt_of_before (h : Scores rows (xa ++ s :: xb)) {x : ℚ} (hx : x ∈ xa) : x < s :=
  (List.pairwise_append.mp h.increasing).2.2 x hx s List.mem_cons_self

theorem Scores.lt_of_after (h : Scores rows (xa ++ s :: xb)) {x : ℚ} (hx : x ∈ xb) : s < x :=
  (List.pairwise_cons.mp (List.pairwise_append.mp h.increasing).2.1).1 x hx

theorem Scores.below_perm (h : Scores rows (xa ++ s :: xb)) {a : ℚ} (has : a ≤ s) :
    ((below rows a s).map Prod.snd).Perm (((xa.filter fun x => decide (a ≤ x)).map (labelsAt rows)).flatten ++
      List.replicate ((labelsAt rows s).count 0) 0) := by
  have hparts := h.labels_perm (P := fun r => decide (a ≤ r.1 ∧ (r.1 < s ∨ r.1 = s ∧ r.2 = 0)))
    (u := fun x => decide (a ≤ x)) (w := fun l => decide (l = 0)) (v := fun _ => false)
    (fun r hr => by simp [h.lt_of_before hr]) (fun l => by simp [has])
    (fun r hr => by simp [(h.lt_of_after hr).not_gt, (h.lt_of_after hr).ne'])
  rw [List.filter_false, List.map_nil, List.flatten_nil, List.append_nil, List.filter_eq] at hparts
  exact hparts

theorem Scores.above_perm (h : Scores rows (xa ++ s :: xb)) {b : ℚ} (hsb : s ≤ b) :
    ((above rows s b).map Prod.snd).Perm (List.replicate ((labelsAt rows s).count 1) 1 ++
      ((xb.filter fun x => decide (x ≤ b)).map (labelsAt rows)).flatten) := by
  have hparts := h.labels_perm (P := fun r => decide (r.1 ≤ b ∧ (s < r.1 ∨ r.1 = s ∧ r.2 = 1)))
    (u := fun _ => false) (w := fun l => decide (l = 1)) (v := fun x => decide (x ≤ b))
    (fun r hr => by simp [(h.lt_of_before hr).not_gt, (h.lt_of_before hr).ne]) (fun l => by simp [hsb])
    (fun r hr => by simp [h.lt_of_after hr])
  rw [List.filter_false, List.map_nil, List.flatten_nil, List.nil_append, List.filter_eq] at hparts
  exact hparts

theorem mean_perm {l l' : List ℚ} (h : l.Perm l') : mean l = mean l' := by
  rw [mean, mean, h.sum_eq, h.length_eq]

theorem filter_lt_append_filter_le {l : List ℚ} (h : l.Pairwise (· < ·)) (a : ℚ) :
    (l.filter fun x => decide (x < a)) ++ (l.filter fun x => decide (a ≤ x)) = l := by
  have hsplit := filter_append_filter_not (p := fun x => decide (x < a)) (h.imp fun hxy hy => by
    rw [decide_eq_true_eq] at hy ⊢
    exact hxy.trans hy)
  simpa [← decide_not] using hsplit

theorem filter_le_append_filter_lt {l : List ℚ} (h : l.Pairwise (· < ·)) (b : ℚ) :
    (l.filter fun x => decide (x ≤ b)) ++ (l.filter fun x => decide (b < x)) = l := by
  have hsplit := filter_append_filter_not (p := fun x => decide (x ≤ b)) (h.imp fun hxy hy => by
    rw [decide_eq_true_eq] at hy ⊢
    exact hxy.le.trans hy)
  simpa [← decide_not] using hsplit

theorem split_chunks {ys zs : List ℚ} {chunks : List (List ℚ)} {f : ℚ → List ℚ}
    (h : chunks.map List.length = ((ys ++ zs).map f).map List.length) :
    ∃ c d, chunks = c ++ d ∧ c.map List.length = (ys.map f).map List.length ∧
      d.map List.length = (zs.map f).map List.length := by
  rw [List.map_append, List.map_append, List.map_eq_append_iff] at h
  obtain ⟨c, d, rfl, hc, hd⟩ := h
  exact ⟨c, d, rfl, hc, hd⟩

theorem length_flatten_eq {groups chunks : List (List ℚ)} (h : chunks.map List.length = groups.map List.length) :
    chunks.flatten.length = groups.flatten.length := by
  rw [List.length_flatten, List.length_flatten, h]

theorem Joined.perm {t : ℚ} (h : Joined rows t) (hperm : rows'.Perm rows) : Joined rows' t := by
  obtain ⟨a, b, ha, hb, hmean⟩ := h
  refine ⟨a, b, ha, hb, ?_⟩
  have habove : (above rows' t b).Perm (above rows t b) := hperm.filter _
  have hbelow : (below rows' a t).Perm (below rows a t) := hperm.filter _
  rw [mean_perm (habove.map _), mean_perm (hbelow.map _)]
  exact hmean

/-! ### One value for each score -/

theorem Binary.chunk_level (hbinary : Binary rows) (h : Scores (zerosFirst rows) (xa ++ s :: xb)) {c : ℚ}
    {chunk : List ℚ} {ca cb : List (List ℚ)}
    (hbalanced : Balanced c 0 (plain ((xa ++ s :: xb).map (labelsAt (zerosFirst rows))).flatten)
      (ca ++ chunk :: cb).flatten)
    (hca : ca.map List.length = (xa.map (labelsAt (zerosFirst rows))).map List.length)
    (hchunk : chunk.length = (labelsAt (zerosFirst rows) s).length)
    (hcb : cb.map List.length = (xb.map (labelsAt (zerosFirst rows))).map List.length)
    (hjoined : (s, 0) ∈ rows → (s, 1) ∈ rows → Joined (zerosFirst rows) s) :
    ∃ a, chunk = List.replicate chunk.length a := by
  have hcount : ∀ l, (labelsAt (zerosFirst rows) s).count l = (labelsAt rows s).count l :=
    fun l => (labelsAt_perm (zerosFirst_perm rows) s).count_eq l
  have hlabels := hbinary.labelsAt_zerosFirst s
  set m := (labelsAt rows s).count 0 with hm
  set n := (labelsAt rows s).count 1 with hn
  rw [hlabels, List.length_append, List.length_replicate, List.length_replicate] at hchunk
  obtain ⟨u, w, rfl, hu, hw⟩ : ∃ u w, chunk = u ++ w ∧ u.length = m ∧ w.length = n := by
    refine ⟨chunk.take m, chunk.drop m, (List.take_append_drop m chunk).symm, ?_, ?_⟩
    · rw [List.length_take, hchunk]
      omega
    · rw [List.length_drop, hchunk]
      omega
  have hflat : Balanced c 0 (plain ((xa.map (labelsAt (zerosFirst rows))).flatten ++
      (List.replicate m 0 ++ (List.replicate n 1 ++ (xb.map (labelsAt (zerosFirst rows))).flatten))))
      (ca.flatten ++ (u ++ (w ++ cb.flatten))) := by
    simpa [hlabels] using hbalanced
  obtain ⟨a, rfl⟩ := hflat.replicate_level (length_flatten_eq hca) hu
  have hnext : Balanced c 0 (plain (((xa.map (labelsAt (zerosFirst rows))).flatten ++ List.replicate m 0) ++
      (List.replicate n 1 ++ (xb.map (labelsAt (zerosFirst rows))).flatten)))
      ((ca.flatten ++ List.replicate m a) ++ (w ++ cb.flatten)) := by
    simpa using hflat
  obtain ⟨b, rfl⟩ := hnext.replicate_level (by simp [length_flatten_eq hca]) hw
  rcases Nat.eq_zero_or_eq_succ_pred m with hm0 | hm1
  · exact ⟨b, by simp [hm0]⟩
  rcases Nat.eq_zero_or_eq_succ_pred n with hn0 | hn1
  · exact ⟨a, by simp [hn0]⟩
  have hmem : ∀ l, (labelsAt rows s).count l ≠ 0 → (s, l) ∈ rows := by
    intro l hl
    have hin := List.count_pos_iff.mp (Nat.pos_of_ne_zero hl)
    obtain ⟨r, hr, rfl⟩ := List.mem_map.mp hin
    obtain ⟨hrow, rfl⟩ := (mem_bucket Prod.fst).mp hr
    exact hrow
  obtain ⟨lo, hi, hlo, hhi, hmean⟩ := hjoined (hmem 0 (by omega)) (hmem 1 (by omega))
  rw [mean_perm (h.above_perm hhi), mean_perm (h.below_perm hlo), hcount, hcount, ← hm, ← hn] at hmean
  obtain ⟨hincA, hincB, -⟩ := List.pairwise_append.mp h.increasing
  have hxa := filter_lt_append_filter_le hincA lo
  have hxb := filter_le_append_filter_lt (List.pairwise_cons.mp hincB).2 hi
  rw [← hxa] at hca
  rw [← hxb] at hcb
  obtain ⟨ca₁, ca₂, rfl, hca₁, hca₂⟩ := split_chunks hca
  obtain ⟨cb₁, cb₂, rfl, hcb₁, hcb₂⟩ := split_chunks hcb
  -- the rows from `lo` on, up to the zeros, against the ones and what follows up to `hi`
  have hsides : Balanced c 0 (plain (((xa.filter fun x => decide (x < lo)).map (labelsAt (zerosFirst rows))).flatten ++
      ((((xa.filter fun x => decide (lo ≤ x)).map (labelsAt (zerosFirst rows))).flatten ++ List.replicate m 0) ++
        ((List.replicate n 1 ++ ((xb.filter fun x => decide (x ≤ hi)).map (labelsAt (zerosFirst rows))).flatten) ++
          ((xb.filter fun x => decide (hi < x)).map (labelsAt (zerosFirst rows))).flatten))))
      (ca₁.flatten ++ ((ca₂.flatten ++ List.replicate (m - 1) a ++ [a]) ++
        (b :: (List.replicate (n - 1) b ++ cb₁.flatten) ++ cb₂.flatten))) := by
    have hza : List.replicate m a = List.replicate (m - 1) a ++ [a] := by
      rw [← List.replicate_succ', Nat.sub_add_cancel (by omega)]
    have hob : List.replicate n b = b :: List.replicate (n - 1) b := by
      rw [← List.replicate_succ, Nat.sub_add_cancel (by omega)]
    rw [← hxa, ← hxb, hza, hob] at hflat
    simpa using hflat
  have hsame := hsides.flat (length_flatten_eq hca₁)
    (by simp [length_flatten_eq hca₂, Nat.sub_add_cancel (by omega : 1 ≤ m)]) ?_ hmean
  · exact ⟨a, by rw [hsame, List.length_append, List.length_replicate, List.length_replicate, List.replicate_add]⟩
  · simp only [List.length_cons, List.length_append, List.length_replicate, length_flatten_eq hcb₁]
    omega

theorem stepwise_top {groups chunks : List (List ℚ)} (hlengths : chunks.map List.length = groups.map List.length)
    (hlevel : ∀ chunk ∈ chunks, chunk = List.replicate chunk.length (top chunk)) :
    stepwise groups (chunks.map top) = chunks.flatten := by
  induction chunks generalizing groups with
  | nil =>
    cases groups with
    | nil => rfl
    | cons g groups => cases hlengths
  | cons chunk chunks ih =>
    cases groups with
    | nil => cases hlengths
    | cons g groups =>
      obtain ⟨hchunk, hchunks⟩ := List.forall_mem_cons.mp hlevel
      rw [List.map_cons, List.map_cons, List.cons.injEq] at hlengths
      rw [List.map_cons, stepwise, ih hlengths.2 hchunks, ← hlengths.1, ← hchunk, List.flatten_cons]

theorem Binary.level_of_joined (hbinary : Binary rows) (h : Scores rows xs)
    (hjoined : ∀ s, (s, 0) ∈ rows → (s, 1) ∈ rows → Joined rows s) :
    ∃ c as, as.length = xs.length ∧ Balanced c 0 (plain (xs.map (labelsAt (zerosFirst rows))).flatten)
      (stepwise (xs.map (labelsAt (zerosFirst rows))) as) := by
  obtain ⟨chunks, hlengths, hpava⟩ := exists_chunks (xs.map (labelsAt (zerosFirst rows)))
  obtain ⟨c, hbalanced⟩ := pava1d_balanced (xs.map (labelsAt (zerosFirst rows))).flatten
  rw [hpava] at hbalanced
  have hscores := h.perm (zerosFirst_perm rows)
  refine ⟨c, chunks.map top, ?_, ?_⟩
  · have hcount := congrArg List.length hlengths
    simpa using hcount
  · rw [stepwise_top hlengths]
    · exact hbalanced
    · intro chunk hchunk
      obtain ⟨ca, cb, rfl⟩ := List.append_of_mem hchunk
      rw [List.map_append, List.map_cons, List.map_map] at hlengths
      obtain ⟨xa, xrest, rfl, hca, hrest⟩ := List.map_eq_append_iff.mp hlengths.symm
      obtain ⟨s, xb, rfl, hself, hcb⟩ := List.map_eq_cons_iff.mp hrest
      obtain ⟨a, ha⟩ := hbinary.chunk_level hscores hbalanced (by rw [← hca, List.map_map]) hself.symm
        (by rw [← hcb, List.map_map]) fun hzero hone => (hjoined s hzero hone).perm (zerosFirst_perm rows)
      have hne := hscores.chunks_ne_nil (by rw [List.map_append, List.map_cons, List.map_map, hlengths]) chunk hchunk
      have htop : top chunk = a := by
        rw [ha]
        exact top_replicate (List.length_pos_of_ne_nil hne).ne' a
      rw [htop]
      exact ha

theorem exists_low {l l' : List ℚ} (h : (l ++ l').Pairwise (· < ·)) (hs : ∀ x ∈ l ++ l', x < s) :
    ∃ a ≤ s, ((l ++ l').filter fun x => decide (a ≤ x)) = l' := by
  obtain ⟨-, hl', hcross⟩ := List.pairwise_append.mp h
  cases l' with
  | nil =>
    refine ⟨s, le_rfl, List.filter_eq_nil_iff.mpr fun x hx => ?_⟩
    simpa using hs x hx
  | cons a l' =>
    refine ⟨a, (hs a (by simp)).le, ?_⟩
    have hnone : (l.filter fun x => decide (a ≤ x)) = [] := by
      refine List.filter_eq_nil_iff.mpr fun x hx => ?_
      simpa using hcross x hx a List.mem_cons_self
    have hall : ((a :: l').filter fun x => decide (a ≤ x)) = a :: l' := by
      refine List.filter_eq_self.mpr fun x hx => ?_
      rcases List.mem_cons.mp hx with rfl | hmem
      · simp
      · simpa using ((List.pairwise_cons.mp hl').1 x hmem).le
    rw [List.filter_append, hnone, hall, List.nil_append]

theorem exists_high {l l' : List ℚ} (h : (l ++ l').Pairwise (· < ·)) (hs : ∀ x ∈ l ++ l', s < x) :
    ∃ b, s ≤ b ∧ ((l ++ l').filter fun x => decide (x ≤ b)) = l := by
  obtain ⟨hl, -, hcross⟩ := List.pairwise_append.mp h
  rcases List.eq_nil_or_concat l with rfl | ⟨l, b, rfl⟩
  · refine ⟨s, le_rfl, List.filter_eq_nil_iff.mpr fun x hx => ?_⟩
    simpa using hs x hx
  · rw [List.concat_eq_append] at *
    refine ⟨b, (hs b (by simp)).le, ?_⟩
    have hnone : (l'.filter fun x => decide (x ≤ b)) = [] := by
      refine List.filter_eq_nil_iff.mpr fun x hx => ?_
      simpa using hcross b (by simp) x hx
    have hall : ((l ++ [b]).filter fun x => decide (x ≤ b)) = l ++ [b] := by
      refine List.filter_eq_self.mpr fun x hx => ?_
      rcases List.mem_append.mp hx with hmem | hmem
      · simpa using ((List.pairwise_append.mp hl).2.2 x hmem b List.mem_cons_self).le
      · simp [List.mem_singleton.mp hmem]
    rw [List.filter_append, hnone, hall, List.append_nil]

/-- Where the fit has one value for each score, zeros and ones at a score are joined: by the scores around it that
have the same value. -/
theorem Binary.joined_of_level (hbinary : Binary rows) (h : Scores rows (xa ++ s :: xb)) (hzero : (s, 0) ∈ rows)
    (hone : (s, 1) ∈ rows) {c a : ℚ} {as bs : List ℚ} (has : as.length = xa.length) (hbs : bs.length = xb.length)
    (hlevel : Balanced c 0 (plain ((xa ++ s :: xb).map (labelsAt (zerosFirst rows))).flatten)
      (stepwise ((xa ++ s :: xb).map (labelsAt (zerosFirst rows))) (as ++ a :: bs))) : Joined rows s := by
  have hscores := h.perm (zerosFirst_perm rows)
  have hne := hscores.groups_ne_nil
  have hlabels := hbinary.labelsAt_zerosFirst s
  have hcount : ∀ l, (labelsAt (zerosFirst rows) s).count l = (labelsAt rows s).count l :=
    fun l => (labelsAt_perm (zerosFirst_perm rows) s).count_eq l
  have hm := count_pos hzero
  have hn := count_pos hone
  set m := (labelsAt rows s).count 0
  set n := (labelsAt rows s).count 1
  rw [List.map_append, List.map_cons, hlabels] at hlevel
  obtain ⟨g₁, g₂, g₃, g₄, hbefore, hafter, hmean⟩ := hlevel.mean_sides (by simpa [hlabels] using hne) (by simpa using has)
    (by simpa using hbs) (by simpa using hm.ne') (by simpa using hn.ne')
  obtain ⟨xa₁, xa₂, rfl, rfl, rfl⟩ := List.map_eq_append_iff.mp hbefore
  obtain ⟨xb₁, xb₂, rfl, rfl, rfl⟩ := List.map_eq_append_iff.mp hafter
  obtain ⟨hincA, hincB, -⟩ := List.pairwise_append.mp h.increasing
  obtain ⟨lo, hlo, hlow⟩ := exists_low hincA fun x => h.lt_of_before
  obtain ⟨hi, hhi, hhigh⟩ := exists_high (List.pairwise_cons.mp hincB).2 fun x => h.lt_of_after
  refine Joined.perm ⟨lo, hi, hlo, hhi, ?_⟩ (zerosFirst_perm rows).symm
  rw [mean_perm (hscores.above_perm hhi), mean_perm (hscores.below_perm hlo), hcount, hcount, hlow, hhigh]
  exact hmean

/-! ### The law -/

theorem Binary.calibrates_iff {α : Type} {pair : α → ℚ × ℚ} {l : List α} (hbinary : Binary (l.map pair)) :
    Calibrates pair l ↔ ∀ s, (s, 0) ∈ l.map pair → (s, 1) ∈ l.map pair → Joined (l.map pair) s := by
  obtain ⟨xs, h⟩ := exists_scores (l.map pair)
  obtain ⟨hxs, hlength, hordered⟩ := h.fitClass_ordered
  constructor
  · intro hlaw s hzero hone
    have hlift : zerosFirst (l.map pair) = (l.filter (fun a => decide ((pair a).2 = 0)) ++
        l.filter (fun a => !decide ((pair a).2 = 0))).map pair := by
      rw [zerosFirst, List.filter_map, List.filter_map, List.map_append]
      rfl
    have hsame := hlaw.orderFree _ (List.filter_append_perm (fun a => decide ((pair a).2 = 0)) l)
    rw [← hlift] at hsame
    have hregression := hlaw.regression
    rw [hxs, ← frequencies_perm (zerosFirst_perm _), frequencies_eq] at hregression
    -- the values of the map are the fit of the rows with the zeros first
    have hscores := h.perm (zerosFirst_perm (l.map pair))
    obtain ⟨chunks, hlengths, hpava⟩ := exists_chunks (xs.map (labelsAt (zerosFirst (l.map pair))))
    obtain ⟨c, hbalanced⟩ := pava1d_balanced (xs.map (labelsAt (zerosFirst (l.map pair)))).flatten
    have hys : (fitClass (l.map pair)).ys = chunks.map top := by
      rw [← hsame, hscores.fitClass_eq hlengths hpava]
    have htotal := hbalanced.total
    rw [hpava] at hbalanced htotal
    rw [zero_add, excess_plain (length_flatten_eq hlengths), sub_eq_zero] at htotal
    have htops : List.Forall₂ (fun chunk a => ∀ b ∈ chunk, b ≤ a) chunks (chunks.map top) := by
      rw [List.forall₂_map_right_iff, List.forall₂_same]
      exact fun chunk _ b hb => le_top hb
    have hne := hscores.groups_ne_nil
    rw [hys] at hregression hlength
    rw [eq_stepwise hne hlengths htotal.symm htops hregression] at hbalanced
    obtain ⟨xa, xb, rfl⟩ := List.append_of_mem ((h.mem_iff s).mpr (List.mem_map_of_mem hzero))
    obtain ⟨as, rest, hsplit, has, hrest⟩ : ∃ as rest, chunks.map top = as ++ rest ∧ as.length = xa.length ∧
        rest.length = (s :: xb).length := by
      refine ⟨_, _, (List.take_append_drop xa.length _).symm, ?_, ?_⟩
      · rw [List.length_take, hlength, List.length_append]
        omega
      · rw [List.length_drop, hlength, List.length_append]
        omega
    cases rest with
    | nil => cases hrest
    | cons a bs =>
      rw [hsplit] at hbalanced
      exact hbinary.joined_of_level h hzero hone has (Nat.succ.inj hrest) hbalanced
  · intro hjoined
    obtain ⟨c, as, has, hlevel⟩ := hbinary.level_of_joined h hjoined
    have hne := (h.perm (zerosFirst_perm _)).groups_ne_nil
    have hany : ∀ rows', rows'.Perm (l.map pair) → Balanced c 0 (plain (xs.map (labelsAt rows')).flatten)
        (stepwise (xs.map (labelsAt rows')) as) := by
      intro rows' hperm
      exact hlevel.reorder (hbinary.ahead hperm xs) hne (by simpa using has)
    have hfit : ∀ rows', rows'.Perm (l.map pair) → fitClass rows' = { xs, ys := as } :=
      fun rows' hperm => (h.perm hperm).fitClass_of_balanced has (hany rows' hperm)
    have hself := hfit _ (List.Perm.refl _)
    refine ⟨hxs ▸ h, hordered, ?_, fun l' hperm => (hfit _ (hperm.map pair)).trans hself.symm⟩
    rw [hself, frequencies_eq]
    exact ((hany _ (List.Perm.refl _)).pooled h.groups_ne_nil (by simpa using has)).isIsotonic
      (pooled_pos h.groups_ne_nil)

theorem classRow_binary (k : ℕ) (l : List (ℤ × List ℚ)) : Binary (l.map (classRow k)) := by
  intro r hr
  obtain ⟨p, -, rfl⟩ := List.mem_map.mp hr
  rw [classRow]
  dsimp only
  split
  · exact Or.inr rfl
  · exact Or.inl rfl

theorem applyIsotonicRow_isSome {params : List ClassMap} (h : ∀ k p, (isotonicLookup p (params.getD k {}).xs
    (params.getD k {}).ys).isSome) (row : List ℚ) : (applyIsotonicRow row params).isSome := by
  obtain ⟨a, ha⟩ := Option.isSome_iff_exists.mp (h 0 (row.getD 0 0))
  obtain ⟨b, hb⟩ := Option.isSome_iff_exists.mp (h 1 (row.getD 1 0))
  obtain ⟨c, hc⟩ := Option.isSome_iff_exists.mp (h 2 (row.getD 2 0))
  simp only [applyIsotonicRow, List.mapM_cons, List.mapM_nil, ha, hb, hc, Option.bind_eq_bind, Option.bind_some,
    Option.pure_def]
  split <;> rfl

theorem mapM_isSome {α β : Type} {f : α → Option β} {l : List α} (h : ∀ a ∈ l, (f a).isSome) : (l.mapM f).isSome := by
  induction l with
  | nil => rfl
  | cons a l ih =>
    obtain ⟨ha, hl⟩ := List.forall_mem_cons.mp h
    obtain ⟨b, hb⟩ := Option.isSome_iff_exists.mp ha
    obtain ⟨bs, hbs⟩ := Option.isSome_iff_exists.mp (ih hl)
    rw [List.mapM_cons, hb, hbs]
    rfl

theorem fitIsotonicOvr_params {oosP : List (List ℚ)} {y : List ℤ} {oos : Bool} {outcome : Option IsotonicFit}
    (h : fitIsotonicOvr oosP y oos = .ok outcome) :
    ∃ fit, outcome = some fit ∧ fit.params = [0, 1, 2].map fun k => fitClass ((y.zip oosP).map (classRow k)) := by
  have hlookup : ∀ k p, (isotonicLookup p
      (([0, 1, 2].map fun k => fitClass ((y.zip oosP).map (classRow k))).getD k {}).xs
      (([0, 1, 2].map fun k => fitClass ((y.zip oosP).map (classRow k))).getD k {}).ys).isSome := by
    intro k p
    have hmap : ∀ rows, (isotonicLookup p (fitClass rows).xs (fitClass rows).ys).isSome := by
      intro rows
      obtain ⟨xs, hscores⟩ := exists_scores rows
      obtain ⟨hxs, hlength, -⟩ := hscores.fitClass_ordered
      rw [hxs]
      exact (looksUp hscores.increasing hlength).total
    rcases k with _ | _ | _ | k
    · exact hmap _
    · exact hmap _
    · exact hmap _
    · rfl
  obtain ⟨cal, hcal⟩ := Option.isSome_iff_exists.mp
    (mapM_isSome (l := oosP) fun row _ => applyIsotonicRow_isSome hlookup row)
  have hlabels : ∀ {yy}, validateLabels y = .ok yy → yy = y := by
    intro yy hyy
    rw [validateLabels] at hyy
    split at hyy
    · cases hyy
    · exact (Except.ok.inj hyy).symm
  have hrows : ∀ {PP}, validatePRows oosP = .ok PP → PP = oosP := by
    intro PP hPP
    rw [validatePRows] at hPP
    split at hPP
    · cases hPP
    · exact (Except.ok.inj hPP).symm
  rw [fitIsotonicOvr] at h
  cases hoos : checkOos oos with
  | error e =>
    rw [hoos] at h
    cases h
  | ok _ =>
    cases hy : validateLabels y with
    | error e =>
      rw [hoos, hy] at h
      cases h
    | ok yy =>
      cases hp : validatePRows oosP with
      | error e =>
        rw [hoos, hy, hp] at h
        cases h
      | ok PP =>
        rw [hoos, hy, hp] at h
        obtain rfl := hlabels hy
        obtain rfl := hrows hp
        simp only [bind, Except.bind] at h
        split at h
        · cases h
        · split at h
          · cases h
          · rw [hcal] at h
            cases h
            exact ⟨_, rfl, rfl⟩

/-- Pooling is isotonic regression, and a lookup finds the greatest knot that is not above. The map of a class is the
weighted regression, in whatever order the rows are, exactly where pooling joins what shares a score. -/
theorem isotonicLaw (values : List ℚ) (oosP : List (List ℚ)) (y : List ℤ) (oos : Bool) (p : ℚ) (xs ys : List ℚ)
    (hxs : xs.Pairwise (· < ·)) (hys : ys.length = xs.length) :
    IsIsotonic (plain values) (pava1d values) ∧
      (∀ outcome, fitIsotonicOvr oosP y oos = .ok outcome →
        ∃ fit, outcome = some fit ∧
          (fit.params = [0, 1, 2].map fun k => fitClass ((y.zip oosP).map (classRow k))) ∧
          ((∀ k < 3, Calibrates (classRow k) (y.zip oosP)) ↔
            ∀ k < 3, ∀ s, (s, 0) ∈ (y.zip oosP).map (classRow k) → (s, 1) ∈ (y.zip oosP).map (classRow k) →
              Joined ((y.zip oosP).map (classRow k)) s)) ∧
      LooksUp p xs ys := by
  refine ⟨pava1d_isIsotonic values, ?_, looksUp hxs hys⟩
  intro outcome h
  obtain ⟨fit, hsome, hparams⟩ := fitIsotonicOvr_params h
  exact ⟨fit, hsome, hparams, forall₂_congr fun k _ => (classRow_binary k _).calibrates_iff⟩

/-! ### Two rows -/

def distinctRows : List (List ℚ) := [[1 / 4, 1 / 4, 1 / 2], [1 / 2, 1 / 4, 1 / 4]]

def tiedRows : List (List ℚ) := [[1 / 2, 1 / 4, 1 / 4], [1 / 2, 1 / 4, 1 / 4]]

theorem exists_ok {oosP : List (List ℚ)} {y : List ℤ} (h : (fitIsotonicOvr oosP y).isOk = true) :
    ∃ outcome, fitIsotonicOvr oosP y = .ok outcome := by
  cases hfit : fitIsotonicOvr oosP y with
  | error e =>
    rw [hfit] at h
    cases h
  | ok outcome => exact ⟨outcome, rfl⟩

theorem isotonicLaw_distinctRows :
    (∀ k < 3, Calibrates (classRow k) (([2, 0] : List ℤ).zip distinctRows)) ∧ LooksUp (1 / 3) [1 / 4, 1 / 2] [0, 1] := by
  have hok : (fitIsotonicOvr distinctRows [2, 0]).isOk = true := by decide +kernel
  obtain ⟨outcome, h⟩ := exists_ok hok
  have hlaw := isotonicLaw [] distinctRows [2, 0] true (1 / 3) [1 / 4, 1 / 2] [0, 1] (by simp; norm_num) rfl
  obtain ⟨fit, -, -, hiff⟩ := hlaw.2.1 outcome h
  refine ⟨hiff.mpr ?_, hlaw.2.2⟩
  intro k hk s hzero hone
  interval_cases k
  all_goals simp [distinctRows, classRow] at hzero hone
  all_goals linarith

/-- The one of class 0 behind the zero gets 1, and before it a half, which is the share of the class. -/
theorem tiedRows_reordered :
    (fitIsotonicOvr tiedRows [2, 0]).isOk = true ∧
      fitClass ((([2, 0] : List ℤ).zip tiedRows).map (classRow 0)) = { xs := [1 / 2], ys := [1] } ∧
      fitClass ((([0, 2] : List ℤ).zip tiedRows).map (classRow 0)) = { xs := [1 / 2], ys := [1 / 2] } ∧
      ¬ Calibrates (classRow 0) (([2, 0] : List ℤ).zip tiedRows) := by
  have hlast : fitClass ((([2, 0] : List ℤ).zip tiedRows).map (classRow 0)) = { xs := [1 / 2], ys := [1] } := by
    decide +kernel
  have hfirst : fitClass ((([0, 2] : List ℤ).zip tiedRows).map (classRow 0)) = { xs := [1 / 2], ys := [1 / 2] } := by
    decide +kernel
  refine ⟨by decide +kernel, hlast, hfirst, fun h => ?_⟩
  have hswap := h.orderFree (([0, 2] : List ℤ).zip tiedRows) (List.Perm.swap _ _ _)
  rw [hfirst, hlast] at hswap
  exact absurd hswap (by decide +kernel)

end Droid.Ml.Calibrators
