import Droid.Lib.Buckets
import Mathlib.Data.List.Sort

/-! Insertion sort by a total preorder: equal elements keep their order, so what is filtered out
before the sort might as well be filtered out after it. -/
namespace Droid.Lib
variable {α : Type} (r : α → α → Prop) [DecidableRel r] [IsTrans α r]

theorem filter_orderedInsert (p : α → Bool) (a : α) {l : List α} (h : l.Pairwise r) :
    (l.orderedInsert r a).filter p =
      if p a then (l.filter p).orderedInsert r a else l.filter p := by
  induction l with
  | nil => cases hp : p a <;> simp [hp]
  | cons b l ih =>
    obtain ⟨hb, hl⟩ := List.pairwise_cons.mp h
    by_cases hab : r a b
    · rw [List.orderedInsert_cons_of_le r l hab]
      cases hp : p a with
      | false => rw [List.filter_cons_of_neg (by simp [hp]), if_neg Bool.false_ne_true]
      | true =>
        have hfirst : ∀ x ∈ (b :: l).filter p, r a x := by
          intro x hx
          rcases List.mem_cons.mp (List.mem_of_mem_filter hx) with rfl | hxl
          · exact hab
          · exact IsTrans.trans a b x hab (hb x hxl)
        rw [List.filter_cons_of_pos hp, if_pos rfl]
        cases hrest : (b :: l).filter p with
        | nil => rfl
        | cons x xs =>
          rw [hrest] at hfirst
          rw [List.orderedInsert_cons_of_le r xs (hfirst x List.mem_cons_self)]
    · rw [List.orderedInsert_of_not_le r l hab]
      cases hpb : p b with
      | false => rw [List.filter_cons_of_neg (by simp [hpb]), List.filter_cons_of_neg (by simp [hpb]), ih hl]
      | true =>
        rw [List.filter_cons_of_pos hpb, List.filter_cons_of_pos hpb, ih hl]
        split
        · rw [List.orderedInsert_of_not_le r _ hab]
        · rfl

theorem filter_insertionSort [Std.Total r] (p : α → Bool) (l : List α) :
    (l.insertionSort r).filter p = (l.filter p).insertionSort r := by
  induction l with
  | nil => rfl
  | cons a l ih =>
    rw [List.insertionSort_cons, filter_orderedInsert r p a (List.pairwise_insertionSort r l), ih]
    cases hp : p a with
    | false => rw [List.filter_cons_of_neg (by simp [hp]), if_neg Bool.false_ne_true]
    | true => rw [List.filter_cons_of_pos hp, if_pos rfl, List.insertionSort_cons]

/-- A test that holds at the front alone splits the list. -/
theorem filter_append_filter_not {p : α → Bool} {l : List α} (h : l.Pairwise fun a b => p b = true → p a = true) :
    l.filter p ++ l.filter (fun a => !p a) = l := by
  induction l with
  | nil => rfl
  | cons a l ih =>
    obtain ⟨ha, hl⟩ := List.pairwise_cons.mp h
    have hrest := ih hl
    cases hp : p a with
    | true => rw [List.filter_cons_of_pos hp, List.filter_cons_of_neg (by simp [hp]), List.cons_append, hrest]
    | false =>
      have hnone : l.filter p = [] := by
        rw [List.filter_eq_nil_iff]
        intro b hb hpb
        exact Bool.false_ne_true (hp.symm.trans (ha b hb hpb))
      rw [hnone, List.nil_append] at hrest
      rw [List.filter_cons_of_neg (by simp [hp]), List.filter_cons_of_pos (by simp [hp]), hnone, hrest, List.nil_append]

section Buckets
variable {κ : Type} [LinearOrder κ] {key : α → κ}

theorem filter_append_filter_of_le {k : κ} {l : List α} (h : l.Pairwise fun a b => key a ≤ key b) (hk : ∀ a ∈ l, k ≤ key a) :
    (l.filter fun a => decide (key a = k)) ++ (l.filter fun a => !decide (key a = k)) = l := by
  apply filter_append_filter_not
  refine h.imp_of_mem ?_
  intro a b ha _ hab hb
  rw [decide_eq_true_eq] at hb ⊢
  exact le_antisymm (hb ▸ hab) (hk a ha)

theorem flatMap_bucket_of_pairwise {keys : List κ} (hkeys : keys.Pairwise (· < ·)) {l : List α}
    (h : l.Pairwise fun a b => key a ≤ key b) (hcover : ∀ a ∈ l, key a ∈ keys) : keys.flatMap (bucket key l) = l := by
  induction keys generalizing l with
  | nil =>
    rw [List.eq_nil_iff_forall_not_mem.mpr fun a ha => List.not_mem_nil (hcover a ha)]
    rfl
  | cons k keys ih =>
    obtain ⟨hk, hrest⟩ := List.pairwise_cons.mp hkeys
    have hleast : ∀ a ∈ l, k ≤ key a := by
      intro a ha
      rcases List.mem_cons.mp (hcover a ha) with heq | hmem
      · exact heq.ge
      · exact (hk _ hmem).le
    have hlater : ∀ a ∈ l.filter fun a => !decide (key a = k), key a ∈ keys := by
      intro a ha
      rw [List.mem_filter, Bool.not_eq_true', decide_eq_false_iff_not] at ha
      exact (List.mem_cons.mp (hcover a ha.1)).resolve_left ha.2
    have hbuckets : ∀ j ∈ keys, bucket key (l.filter fun a => !decide (key a = k)) j = bucket key l j := by
      intro j hj
      rw [bucket, bucket, List.filter_filter]
      refine List.filter_congr fun a _ => ?_
      by_cases haj : key a = j
      · have hak : key a ≠ k := haj ▸ (hk j hj).ne'
        simp [haj, haj ▸ hak]
      · simp [haj]
    have htail := ih hrest (h.filter _) hlater
    rw [List.flatMap_congr hbuckets] at htail
    rw [List.flatMap_cons, htail]
    exact filter_append_filter_of_le h hleast

theorem insertionSort_eq_flatMap_bucket {keys : List κ} (hkeys : keys.Pairwise (· < ·)) {l : List α}
    (hcover : ∀ a ∈ l, key a ∈ keys) : l.insertionSort (fun a b => key a ≤ key b) = keys.flatMap (bucket key l) := by
  have : Std.Total fun a b : α => key a ≤ key b := ⟨fun a b => le_total _ _⟩
  have : IsTrans α fun a b => key a ≤ key b := ⟨fun _ _ _ => le_trans⟩
  have hsorted := List.pairwise_insertionSort (fun a b : α => key a ≤ key b) l
  have hcovered : ∀ a ∈ l.insertionSort fun a b => key a ≤ key b, key a ∈ keys := by
    intro a ha
    exact hcover a ((List.mem_insertionSort _).mp ha)
  have hsame : ∀ k ∈ keys, bucket key (l.insertionSort fun a b => key a ≤ key b) k = bucket key l k := by
    intro k _
    rw [bucket, filter_insertionSort]
    apply List.Pairwise.insertionSort_eq
    refine List.pairwise_of_forall_mem_list ?_
    intro a ha b hb
    rw [List.mem_filter, decide_eq_true_eq] at ha hb
    rw [ha.2, hb.2]
  rw [← flatMap_bucket_of_pairwise hkeys hsorted hcovered, List.flatMap_congr hsame]

end Buckets

end Droid.Lib
