import Droid.Lib.Isotonic

/-! Isotonic regression of plain values: pools of adjacent values, and groups that are given one value each. -/
namespace Droid.Lib
variable {K : Type}

/-- One value for each group, repeated over it. -/
def stepwise : List (List K) → List K → List K
  | g :: groups, a :: as => List.replicate g.length a ++ stepwise groups as
  | _, _ => []

theorem length_stepwise {groups : List (List K)} {as : List K} (h : as.length = groups.length) :
    (stepwise groups as).length = groups.flatten.length := by
  induction groups generalizing as with
  | nil => simp [stepwise]
  | cons g groups ih =>
    cases as with
    | nil => cases h
    | cons a as => simp [stepwise, ih (Nat.succ.inj h)]

theorem stepwise_append {groups groups' : List (List K)} {as as' : List K} (h : as.length = groups.length) :
    stepwise (groups ++ groups') (as ++ as') = stepwise groups as ++ stepwise groups' as' := by
  induction groups generalizing as with
  | nil =>
    obtain rfl := List.length_eq_zero_iff.mp h
    rfl
  | cons g groups ih =>
    cases as with
    | nil => cases h
    | cons a as =>
      simp only [List.cons_append, stepwise]
      rw [ih (Nat.succ.inj h), List.append_assoc]

theorem stepwise_replicate (groups : List (List K)) (a : K) :
    stepwise groups (List.replicate groups.length a) = List.replicate groups.flatten.length a := by
  induction groups with
  | nil => rfl
  | cons g groups ih =>
    rw [List.length_cons, List.replicate_succ, stepwise, ih, List.flatten_cons, List.length_append, List.replicate_add]

theorem stepwise_map (groups : List (List K)) (f : List K → K) :
    stepwise groups (groups.map f) = groups.flatMap fun g => List.replicate g.length (f g) := by
  induction groups with
  | nil => rfl
  | cons g groups ih => rw [List.map_cons, stepwise, ih, List.flatMap_cons]

theorem forall₂_replicate {R : K → K → Prop} {l : List K} {a : K} (h : ∀ b ∈ l, R b a) :
    List.Forall₂ R l (List.replicate l.length a) := by
  induction l with
  | nil => exact .nil
  | cons b l ih =>
    obtain ⟨hb, hl⟩ := List.forall_mem_cons.mp h
    exact .cons hb (ih hl)

variable [Field K]

def plain (ys : List K) : List (K × K) := ys.map fun y => (1, y)

def mean (g : List K) : K := g.sum / g.length

/-- Each group as its size and its mean. -/
def pooled (groups : List (List K)) : List (K × K) := groups.map fun g => ((g.length : K), mean g)

@[simp] theorem length_plain (ys : List K) : (plain ys).length = ys.length := List.length_map _

@[simp] theorem plain_append (ys zs : List K) : plain (ys ++ zs) = plain ys ++ plain zs := List.map_append

theorem excess_plain {ys v : List K} (h : v.length = ys.length) : excess (plain ys) v = ys.sum - v.sum := by
  induction ys generalizing v with
  | nil =>
    obtain rfl := List.length_eq_zero_iff.mp h
    simp [plain, excess]
  | cons y ys ih =>
    cases v with
    | nil => cases h
    | cons a v =>
      have hrest := ih (Nat.succ.inj h)
      simp only [plain, List.map_cons, excess, List.sum_cons] at hrest ⊢
      rw [hrest]
      ring

variable [LinearOrder K]

namespace Balanced
variable {c s : K} {ys v : List K}

/-- Over a group with one value the residual follows the sums of the group. -/
theorem replicate_iff {a : K} (g : List K) :
    Balanced a s (plain (g ++ ys)) (List.replicate g.length a ++ v) ↔
      (∀ n ≤ g.length, 0 ≤ s + ((g.take n).sum - n * a)) ∧
        Balanced a (s + (g.sum - g.length * a)) (plain ys) v := by
  induction g generalizing s with
  | nil =>
    constructor
    · intro h
      refine ⟨?_, by simpa using h⟩
      intro n hn
      obtain rfl := Nat.le_zero.mp hn
      simpa using h.residual_nonneg
    · intro h
      simpa using h.2
  | cons y g ih =>
    have hresidual : s + 1 * (y - a) + (g.sum - g.length * a) =
        s + ((y :: g).sum - (y :: g).length * a) := by
      rw [List.sum_cons, List.length_cons, Nat.cast_succ]
      ring
    have htake : ∀ n : ℕ, s + 1 * (y - a) + ((g.take n).sum - n * a) =
        s + (((y :: g).take (n + 1)).sum - (n + 1 : ℕ) * a) := by
      intro n
      rw [List.take_succ_cons, List.sum_cons, Nat.cast_succ]
      ring
    constructor
    · intro h
      have hs := h.residual_nonneg
      cases h with
      | cons _ _ _ hrest =>
        obtain ⟨hinner, hafter⟩ := ih.mp hrest
        refine ⟨?_, hresidual ▸ hafter⟩
        intro n hn
        cases n with
        | zero => simpa using hs
        | succ n =>
          rw [← htake]
          exact hinner n (Nat.le_of_succ_le_succ hn)
    · rintro ⟨hinner, hafter⟩
      have hs : 0 ≤ s := by simpa using hinner 0 (Nat.zero_le _)
      refine .cons hs le_rfl (fun hlt => absurd hlt (lt_irrefl _)) (ih.mpr ⟨?_, hresidual ▸ hafter⟩)
      intro n hn
      rw [htake]
      exact hinner (n + 1) (Nat.succ_le_succ hn)

theorem group_iff {a : K} {g : List K} (hg : g ≠ []) :
    Balanced c s (plain (g ++ ys)) (List.replicate g.length a ++ v) ↔
      c ≤ a ∧ (c < a → s = 0) ∧ (∀ n ≤ g.length, 0 ≤ s + ((g.take n).sum - n * a)) ∧
        Balanced a (s + (g.sum - g.length * a)) (plain ys) v := by
  obtain ⟨n, hn⟩ := Nat.exists_eq_succ_of_ne_zero (List.length_pos_of_ne_nil hg).ne'
  have hcons : List.replicate g.length a ++ v = a :: (List.replicate n a ++ v) := by
    rw [hn, List.replicate_succ, List.cons_append]
  rw [hcons, start_iff, ← hcons, replicate_iff]

end Balanced

/-- As long, with the same sum, and never behind on the way. -/
structure Ahead (g g' : List K) : Prop where
  length_eq : g'.length = g.length
  sum_eq : g'.sum = g.sum
  sum_le : ∀ n, (g.take n).sum ≤ (g'.take n).sum

/-- Values whose mean no first part falls below. -/
structure Pool (g : List K) : Prop where
  ne_nil : g ≠ []
  mean_le : ∀ n ≤ g.length, n * mean g ≤ (g.take n).sum

theorem Pool.singleton (y : K) : Pool [y] where
  ne_nil := List.cons_ne_nil y []
  mean_le n hn := by
    rcases Nat.le_one_iff_eq_zero_or_eq_one.mp hn with rfl | rfl
    · simp
    · simp [mean]

variable [IsStrictOrderedRing K]

theorem plain_pos (ys : List K) : ∀ p ∈ plain ys, 0 < p.1 := by
  intro p hp
  obtain ⟨y, -, rfl⟩ := List.mem_map.mp hp
  exact zero_lt_one

theorem pooled_pos {groups : List (List K)} (hne : ∀ g ∈ groups, g ≠ []) : ∀ p ∈ pooled groups, 0 < p.1 := by
  intro p hp
  obtain ⟨g, hg, rfl⟩ := List.mem_map.mp hp
  have hpos : (0 : K) < g.length := by exact_mod_cast List.length_pos_of_ne_nil (hne g hg)
  exact hpos

theorem eq_of_forall₂_le {l l' : List K} (h : List.Forall₂ (· ≤ ·) l l') (hsum : l.sum = l'.sum) : l = l' := by
  induction h with
  | nil => rfl
  | @cons a b l l' hab hrest ih =>
    have hle : l.sum ≤ l'.sum := List.Forall₂.sum_le_sum hrest
    rw [List.sum_cons, List.sum_cons] at hsum
    have hhead : a = b := by linarith
    have htail : l.sum = l'.sum := by linarith
    rw [hhead, ih htail]

/-- The same values fit groups that are never behind. -/
theorem Balanced.reorder {c s : K} {groups groups' : List (List K)} {as : List K} (h : List.Forall₂ Ahead groups groups')
    (hne : ∀ g ∈ groups, g ≠ []) (hlength : as.length = groups.length)
    (hbalanced : Balanced c s (plain groups.flatten) (stepwise groups as)) :
    Balanced c s (plain groups'.flatten) (stepwise groups' as) := by
  induction h generalizing c s as with
  | nil => exact hbalanced
  | @cons g g' groups groups' hahead _ ih =>
    obtain ⟨hg, hgroups⟩ := List.forall_mem_cons.mp hne
    have hg' : g' ≠ [] := by
      rw [← List.length_pos_iff, hahead.length_eq]
      exact List.length_pos_of_ne_nil hg
    cases as with
    | nil => cases hlength
    | cons a as =>
      obtain ⟨hca, hup, hinner, hrest⟩ := (group_iff hg).mp hbalanced
      refine (group_iff hg').mpr ⟨hca, hup, ?_, ?_⟩
      · intro n hn
        have hle := hinner n (hahead.length_eq ▸ hn)
        have hmore := hahead.sum_le n
        exact hle.trans (add_le_add_right (sub_le_sub_right hmore _) s)
      · rw [hahead.sum_eq, hahead.length_eq]
        exact ih hgroups (Nat.succ.inj hlength) hrest

theorem length_mul_mean {g : List K} (h : g ≠ []) : g.length * mean g = g.sum := by
  have hlength : (g.length : K) ≠ 0 := by
    rw [Nat.cast_ne_zero]
    exact (List.length_pos_of_ne_nil h).ne'
  exact mul_div_cancel₀ g.sum hlength

theorem excess_pooled {groups : List (List K)} {as : List K} (hne : ∀ g ∈ groups, g ≠ [])
    (h : as.length = groups.length) : excess (pooled groups) as = groups.flatten.sum - (stepwise groups as).sum := by
  induction groups generalizing as with
  | nil => simp [pooled, excess, stepwise]
  | cons g groups ih =>
    obtain ⟨hg, hgroups⟩ := List.forall_mem_cons.mp hne
    cases as with
    | nil => cases h
    | cons a as =>
      have hrest := ih hgroups (Nat.succ.inj h)
      simp only [pooled, List.map_cons, excess, stepwise, List.flatten_cons, List.sum_append, List.sum_replicate,
        nsmul_eq_mul] at hrest ⊢
      rw [hrest, mul_sub, length_mul_mean hg]
      ring

/-- Where each group has one value, these values fit the means. -/
theorem Balanced.pooled {c s : K} {groups : List (List K)} {as : List K} (hne : ∀ g ∈ groups, g ≠ [])
    (hlength : as.length = groups.length) (h : Balanced c s (plain groups.flatten) (stepwise groups as)) :
    Balanced c s (pooled groups) as := by
  induction groups generalizing c s as with
  | nil =>
    obtain rfl := List.length_eq_zero_iff.mp hlength
    simpa [plain, stepwise, Lib.pooled] using h
  | cons g groups ih =>
    obtain ⟨hg, hgroups⟩ := List.forall_mem_cons.mp hne
    cases as with
    | nil => cases hlength
    | cons a as =>
      have hs := h.residual_nonneg
      obtain ⟨hca, hup, -, hrest⟩ := (group_iff hg).mp h
      refine .cons hs hca hup ?_
      rw [mul_sub, length_mul_mean hg]
      exact ih hgroups (Nat.succ.inj hlength) hrest

namespace Pool
variable {g h : List K}

/-- Two pools that are out of order make one. -/
theorem append (hg : Pool g) (hh : Pool h) (horder : mean h ≤ mean g) : Pool (g ++ h) where
  ne_nil := List.append_ne_nil_of_left_ne_nil hg.ne_nil h
  mean_le n hn := by
    have hp : (0 : K) < g.length := by exact_mod_cast List.length_pos_of_ne_nil hg.ne_nil
    have hq : (0 : K) < h.length := by exact_mod_cast List.length_pos_of_ne_nil hh.ne_nil
    have hmeanG := length_mul_mean hg.ne_nil
    have hmeanH := length_mul_mean hh.ne_nil
    have hmean := length_mul_mean (List.append_ne_nil_of_left_ne_nil hg.ne_nil h)
    rw [List.length_append, List.sum_append, Nat.cast_add, ← hmeanG, ← hmeanH] at hmean
    have hle : mean (g ++ h) ≤ mean g := by
      by_contra hlt
      nlinarith
    have hge : mean h ≤ mean (g ++ h) := by
      by_contra hlt
      nlinarith
    rcases Nat.le_total n g.length with hnp | hnp
    · rw [List.take_append_of_le_length hnp]
      have hscaled : (n : K) * mean (g ++ h) ≤ n * mean g := mul_le_mul_of_nonneg_left hle (Nat.cast_nonneg n)
      exact hscaled.trans (hg.mean_le n hnp)
    · obtain ⟨m, rfl⟩ := Nat.exists_eq_add_of_le hnp
      have hm : m ≤ h.length := by
        rw [List.length_append] at hn
        omega
      have hmq : (m : K) ≤ h.length := by exact_mod_cast hm
      have hrest := hh.mean_le m hm
      rw [List.take_length_add_append, List.sum_append, ← hmeanG, Nat.cast_add]
      nlinarith

end Pool

/-- Pools with non-decreasing means are the fit. -/
theorem balanced_of_pools {c : K} {groups : List (List K)} (hpools : ∀ g ∈ groups, Pool g)
    (horder : (c :: groups.map mean).Pairwise (· ≤ ·)) :
    Balanced c 0 (plain groups.flatten) (stepwise groups (groups.map mean)) := by
  induction groups generalizing c with
  | nil => exact .nil c
  | cons g groups ih =>
    obtain ⟨hg, hgroups⟩ := List.forall_mem_cons.mp hpools
    obtain ⟨hfirst, hrest⟩ := List.pairwise_cons.mp horder
    refine (Balanced.group_iff hg.ne_nil).mpr ⟨hfirst _ List.mem_cons_self, fun _ => rfl, ?_, ?_⟩
    · intro n hn
      have hle := hg.mean_le n hn
      linarith
    · rw [length_mul_mean hg.ne_nil, sub_self, add_zero]
      exact ih hgroups hrest


theorem exists_balanced_of_pools {groups : List (List K)} (hpools : ∀ g ∈ groups, Pool g)
    (horder : (groups.map mean).Pairwise (· ≤ ·)) :
    ∃ c, Balanced c 0 (plain groups.flatten) (stepwise groups (groups.map mean)) := by
  cases groups with
  | nil => exact ⟨0, .nil 0⟩
  | cons g groups =>
    refine ⟨mean g, balanced_of_pools hpools (List.pairwise_cons.mpr ⟨?_, horder⟩)⟩
    intro a ha
    rcases List.mem_cons.mp ha with rfl | hmem
    · exact le_rfl
    · exact (List.pairwise_cons.mp horder).1 a hmem

theorem excess_pooled_replicate {groups : List (List K)} (hne : ∀ g ∈ groups, g ≠ []) (a : K) :
    excess (pooled groups) (List.replicate (pooled groups).length a) =
      groups.flatten.sum - groups.flatten.length * a := by
  have hlength : (pooled groups).length = groups.length := List.length_map _
  rw [hlength, excess_pooled hne (by simp), stepwise_replicate, List.sum_replicate, nsmul_eq_mul]

/-- Values that no fitted value of their group exceeds, and that add up to as much, are the fitted values. -/
theorem eq_stepwise {groups chunks : List (List K)} {as : List K} (hne : ∀ g ∈ groups, g ≠ [])
    (hlengths : chunks.map List.length = groups.map List.length) (hsum : chunks.flatten.sum = groups.flatten.sum)
    (hle : List.Forall₂ (fun chunk a => ∀ b ∈ chunk, b ≤ a) chunks as) (has : IsIsotonic (pooled groups) as) :
    chunks.flatten = stepwise groups as := by
  have hweights := pooled_pos hne
  have hlength : as.length = groups.length := by
    rw [has.length_eq]
    exact List.length_map _
  have hsteps : groups.flatten.sum = (stepwise groups as).sum := by
    rw [← sub_eq_zero, ← excess_pooled hne hlength]
    exact has.excess_eq_zero hweights
  refine eq_of_forall₂_le ?_ (hsum.trans hsteps)
  clear hsteps hsum has hweights hne
  induction hle generalizing groups with
  | nil =>
    cases groups with
    | nil => exact .nil
    | cons g groups => cases hlength
  | @cons chunk a chunks as hchunk _ ih =>
    cases groups with
    | nil => cases hlength
    | cons g groups =>
      rw [List.map_cons, List.map_cons, List.cons.injEq] at hlengths
      obtain ⟨hfirst, hrest⟩ := hlengths
      rw [List.flatten_cons, stepwise, ← hfirst]
      refine List.rel_append (forall₂_replicate hchunk) (ih hrest (Nat.succ.inj hlength))

/-- Where the values before a point are on average no less than those after it, the fit does not go up there. -/
theorem Balanced.flat {c s : K} {p A B q vp va vb vq : List K} {a b : K}
    (h : Balanced c s (plain (p ++ (A ++ (B ++ q)))) (vp ++ (va ++ [a] ++ (b :: vb ++ vq)))) (hp : vp.length = p.length)
    (hA : (va ++ [a]).length = A.length) (hB : (b :: vb).length = B.length) (hmean : mean B ≤ mean A) : b = a := by
  have hAne : A ≠ [] := by
    rw [← List.length_pos_iff, ← hA]
    simp
  have hBne : B ≠ [] := by
    rw [← List.length_pos_iff, ← hB]
    simp
  rw [plain_append] at h
  have hfrom := h.append (by simpa using hp)
  have hstart := hfrom.residual_nonneg
  rw [plain_append] at hfrom
  have hmid := hfrom.append (by simpa using hA)
  obtain ⟨hup, hflat, -⟩ := start_iff.mp hmid
  rw [List.getLastD_concat] at hup hflat
  rcases hup.lt_or_eq with hlt | heq
  · have hzero := hflat hlt
    rw [plain_append] at hmid
    have hend := (hmid.append (by simpa using hB)).residual_nonneg
    rw [hzero, zero_add, excess_plain hB] at hend
    rw [excess_plain hA] at hzero
    have hpairs := (hfrom.pairwise).of_cons
    have hlow : ∀ x ∈ va ++ [a], x ≤ a := by
      intro x hx
      rcases List.mem_append.mp hx with hva | ha
      · exact (List.pairwise_append.mp (List.pairwise_append.mp hpairs).1).2.2 x hva a List.mem_cons_self
      · rw [List.mem_singleton.mp ha]
    have hhigh : ∀ x ∈ b :: vb, b ≤ x := by
      intro x hx
      have hright := (List.pairwise_append.mp (List.pairwise_append.mp hpairs).2.1).1
      rcases List.mem_cons.mp hx with rfl | hvb
      · exact le_rfl
      · exact (List.pairwise_cons.mp hright).1 x hvb
    have hsumA := List.sum_le_card_nsmul _ _ hlow
    have hsumB := List.card_nsmul_le_sum _ _ hhigh
    rw [hA, nsmul_eq_mul] at hsumA
    rw [hB, nsmul_eq_mul] at hsumB
    have hmA : mean A ≤ a := by
      have hpos : (0 : K) < A.length := by exact_mod_cast List.length_pos_of_ne_nil hAne
      rw [mean, div_le_iff₀ hpos]
      linarith
    have hmB : b ≤ mean B := by
      have hpos : (0 : K) < B.length := by exact_mod_cast List.length_pos_of_ne_nil hBne
      rw [mean, le_div_iff₀ hpos]
      linarith
    exact absurd (hmB.trans (hmean.trans hmA)) (not_le.mpr hlt)
  · exact heq.symm

/-- Equal values next to each other have one fitted value. -/
theorem Balanced.replicate_level {c s y : K} {m : ℕ} {p q vp u vq : List K}
    (h : Balanced c s (plain (p ++ (List.replicate m y ++ q))) (vp ++ (u ++ vq))) (hp : vp.length = p.length)
    (hu : u.length = m) : ∃ a, u = List.replicate m a := by
  induction m generalizing p vp u with
  | zero => exact ⟨0, List.length_eq_zero_iff.mp hu⟩
  | succ m ih =>
    cases u with
    | nil => cases hu
    | cons a u =>
      have hrest : Balanced c s (plain ((p ++ [y]) ++ (List.replicate m y ++ q))) ((vp ++ [a]) ++ (u ++ vq)) := by
        simpa [List.replicate_succ] using h
      obtain ⟨a', rfl⟩ := ih hrest (by simp [hp]) (Nat.succ.inj hu)
      cases m with
      | zero => exact ⟨a, rfl⟩
      | succ m =>
        have hpair : Balanced c s (plain (p ++ ([y] ++ ([y] ++ (List.replicate m y ++ q)))))
            (vp ++ (([] ++ [a]) ++ ((a' :: []) ++ (List.replicate m a' ++ vq)))) := by
          simpa [List.replicate_succ] using h
        have hflat := hpair.flat hp rfl rfl le_rfl
        exact ⟨a, by rw [hflat, ← List.replicate_succ]⟩

/-- A group that is given one value: what comes before and after at the same value joins its two parts. -/
theorem Balanced.mean_sides {c a : K} {groups groups' : List (List K)} {z o as bs : List K}
    (h : Balanced c 0 (plain (groups ++ (z ++ o) :: groups').flatten)
      (stepwise (groups ++ (z ++ o) :: groups') (as ++ a :: bs)))
    (hne : ∀ g ∈ groups ++ (z ++ o) :: groups', g ≠ []) (has : as.length = groups.length)
    (hbs : bs.length = groups'.length) (hz : z ≠ []) (ho : o ≠ []) :
    ∃ g₁ g₂ g₃ g₄, groups = g₁ ++ g₂ ∧ groups' = g₃ ++ g₄ ∧ mean (o ++ g₃.flatten) ≤ mean (g₂.flatten ++ z) := by
  have hpooled := h.pooled hne (by simp [has, hbs])
  obtain ⟨hgroups, hrest⟩ := List.forall_mem_append.mp hne
  obtain ⟨hzo, hgroups'⟩ := List.forall_mem_cons.mp hrest
  have hdata : Lib.pooled (groups ++ (z ++ o) :: groups') =
      Lib.pooled groups ++ (((z ++ o).length : K), mean (z ++ o)) :: Lib.pooled groups' := by
    rw [Lib.pooled, List.map_append, List.map_cons]
    rfl
  rw [hdata] at hpooled
  have hlength : as.length = (Lib.pooled groups).length := by simpa [Lib.pooled] using has
  have hlater := (hpooled.append hlength).tail
  -- the residual at the group, by the groups of the same value before it
  obtain ⟨before, run, hsplit, u, rfl, hu, hzero⟩ := hpooled.flat_before hlength
  have hresidual : excess (Lib.pooled groups) (u ++ List.replicate run.length a) = excess run (List.replicate run.length a) := by
    rw [hsplit, excess_append hu, hzero, zero_add]
  obtain ⟨g₁, g₂, rfl, -, hrun⟩ := List.map_eq_append_iff.mp hsplit
  obtain ⟨runAfter, after, hsplit', -, -, hend⟩ := hlater.flat_after
  obtain ⟨g₃, g₄, rfl, hrun', -⟩ := List.map_eq_append_iff.mp hsplit'
  rw [← hrun', ← Lib.pooled, excess_pooled_replicate fun g hg => hgroups' g (List.mem_append_left g₄ hg)] at hend
  replace hresidual := hresidual.trans (by
    rw [← hrun, ← Lib.pooled, excess_pooled_replicate fun g hg => hgroups g (List.mem_append_right g₁ hg)])
  -- within the group the residual follows its first part
  rw [stepwise_append has, List.flatten_append, plain_append] at h
  have hunit := h.append (by rw [length_stepwise has, length_plain])
  rw [zero_add, excess_plain (length_stepwise has), ← excess_pooled hgroups has, List.flatten_cons, stepwise] at hunit
  have hinner := ((group_iff hzo).mp hunit).2.2.1 z.length (by simp)
  rw [List.take_left] at hinner
  refine ⟨g₁, g₂, g₃, g₄, rfl, rfl, ?_⟩
  have hzpos : (0 : K) < z.length := by exact_mod_cast List.length_pos_of_ne_nil hz
  have hopos : (0 : K) < o.length := by exact_mod_cast List.length_pos_of_ne_nil ho
  have hlow : a ≤ mean (g₂.flatten ++ z) := by
    rw [mean, List.length_append, List.sum_append, Nat.cast_add, le_div_iff₀ (by positivity)]
    rw [hresidual] at hinner
    linarith
  have hhigh : mean (o ++ g₃.flatten) ≤ a := by
    rw [mean, List.length_append, List.sum_append, Nat.cast_add, div_le_iff₀ (by positivity)]
    rw [mul_sub, length_mul_mean hzo, List.sum_append, List.length_append, Nat.cast_add, hresidual] at hend
    rw [hresidual] at hinner
    linarith
  exact hhigh.trans hlow

/-! ### Zeros and ones -/

theorem sum_zeros_ones {g : List K} (h : ∀ b ∈ g, b = 0 ∨ b = 1) :
    g.sum = (g.count 1 : ℕ) ∧ g.length = g.count 0 + g.count 1 := by
  induction g with
  | nil => simp
  | cons b g ih =>
    obtain ⟨hb, hg⟩ := List.forall_mem_cons.mp h
    obtain ⟨hsum, hlength⟩ := ih hg
    rcases hb with rfl | rfl
    · rw [List.sum_cons, zero_add, hsum, List.count_cons_of_ne zero_ne_one, List.count_cons_self, List.length_cons, hlength]
      exact ⟨rfl, by omega⟩
    · rw [List.sum_cons, hsum, List.count_cons_of_ne one_ne_zero, List.count_cons_self, List.length_cons, hlength]
      exact ⟨by push_cast; ring, by omega⟩

theorem ahead_zeros_ones {g : List K} (h : ∀ b ∈ g, b = 0 ∨ b = 1) :
    Ahead (List.replicate (g.count 0) 0 ++ List.replicate (g.count 1) 1) g := by
  obtain ⟨hsum, hlength⟩ := sum_zeros_ones h
  refine ⟨by simp [hlength], by simp [hsum], ?_⟩
  intro n
  obtain ⟨htake, hcount⟩ := sum_zeros_ones fun b hb => h b (List.mem_of_mem_take (i := n) hb)
  have hzeros : (g.take n).count 0 ≤ g.count 0 := (List.take_sublist n g).count_le 0
  rw [htake, List.take_append, List.take_replicate, List.take_replicate, List.length_replicate, List.sum_append,
    List.sum_replicate, List.sum_replicate, nsmul_eq_mul, nsmul_eq_mul, mul_zero, zero_add, mul_one, Nat.cast_le]
  rw [List.length_take] at hcount
  omega

end Droid.Lib
