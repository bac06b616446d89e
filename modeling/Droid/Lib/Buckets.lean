import Mathlib.Algebra.BigOperators.Group.List.Basic
import Mathlib.Data.List.Dedup

/-! Rows parted by a key. -/
namespace Droid.Lib
variable {α κ : Type} [DecidableEq κ] (key : α → κ)

/-- The rows of one key, in their order. -/
def bucket (rows : List α) (k : κ) : List α := rows.filter fun row => decide (key row = k)

theorem mem_bucket {rows : List α} {k : κ} {row : α} : row ∈ bucket key rows k ↔ row ∈ rows ∧ key row = k := by
  rw [bucket, List.mem_filter, decide_eq_true_eq]

theorem bucket_cons_of_eq {row : α} {rest : List α} {k : κ} (h : key row = k) :
    bucket key (row :: rest) k = row :: bucket key rest k := by
  unfold bucket
  exact List.filter_cons_of_pos (by simpa using h)

theorem bucket_cons_of_ne {row : α} {rest : List α} {k : κ} (h : key row ≠ k) :
    bucket key (row :: rest) k = bucket key rest k := by
  unfold bucket
  exact List.filter_cons_of_neg (by simpa using h)

theorem bucket_of_nodup {rows : List α} (h : (rows.map key).Nodup) {row : α} (hrow : row ∈ rows) :
    bucket key rows (key row) = [row] := by
  induction rows with
  | nil => exact absurd hrow List.not_mem_nil
  | cons a rest ih =>
    rw [List.map_cons, List.nodup_cons] at h
    rcases List.mem_cons.mp hrow with rfl | hrest
    · have hnone : bucket key rest (key row) = [] := by
        rw [bucket, List.filter_eq_nil_iff]
        intro b hb heq
        rw [decide_eq_true_eq] at heq
        exact h.1 (heq ▸ List.mem_map_of_mem hb)
      rw [bucket_cons_of_eq key rfl, hnone]
    · have hne : key a ≠ key row := fun heq => h.1 (heq ▸ List.mem_map_of_mem hrest)
      rw [bucket_cons_of_ne key hne]
      exact ih h.2 hrest

theorem sum_buckets {M : Type} [AddCommMonoid M] (v : α → M) {keys : List κ} (hkeys : keys.Nodup)
    {rows : List α} (hcover : ∀ row ∈ rows, key row ∈ keys) :
    (keys.map fun k => ((bucket key rows k).map v).sum).sum = (rows.map v).sum := by
  induction rows with
  | nil => simp [bucket]
  | cons a rest ih =>
    obtain ⟨ha, hrest⟩ := List.forall_mem_cons.mp hcover
    have hsplit : ∀ k, ((bucket key (a :: rest) k).map v).sum =
        (if key a = k then v a else 0) + ((bucket key rest k).map v).sum := by
      intro k
      by_cases hk : key a = k
      · rw [bucket_cons_of_eq key hk, List.map_cons, List.sum_cons, if_pos hk]
      · rw [bucket_cons_of_ne key hk, if_neg hk, zero_add]
    have hone : (keys.map fun k => if key a = k then v a else 0).sum = v a := by
      clear hsplit hcover ih hrest
      induction keys with
      | nil => exact absurd ha List.not_mem_nil
      | cons k ks ihk =>
        rw [List.nodup_cons] at hkeys
        rw [List.map_cons, List.sum_cons]
        by_cases hk : key a = k
        · have hrest : ∀ x ∈ ks.map (fun k => if key a = k then v a else 0), x = 0 := by
            intro x hx
            obtain ⟨k', hk', rfl⟩ := List.mem_map.mp hx
            exact if_neg fun heq => hkeys.1 (by rw [← hk, heq]; exact hk')
          rw [if_pos hk, List.sum_eq_zero hrest, add_zero]
        · rw [if_neg hk, zero_add]
          exact ihk hkeys.2 ((List.mem_cons.mp ha).resolve_left hk)
    simp only [hsplit]
    rw [List.sum_map_add, hone, ih hrest, List.map_cons, List.sum_cons]

end Droid.Lib
