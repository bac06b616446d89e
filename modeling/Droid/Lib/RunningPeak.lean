import Mathlib.Order.MinMax
import Mathlib.Data.List.Induction

/-! The running peak of a list: the greatest of its first elements. -/
namespace Droid.Lib
variable {α β : Type} [LinearOrder α] [LinearOrder β]

/-- The greatest of the elements and the start. -/
def peakOf (start : α) (l : List α) : α := l.foldl max start

theorem peakOf_concat (start : α) (l : List α) (a : α) : peakOf start (l ++ [a]) = max (peakOf start l) a := by
  rw [peakOf, List.foldl_append]
  rfl

theorem start_le_peakOf (start : α) (l : List α) : start ≤ peakOf start l := by
  induction l using List.reverseRecOn with
  | nil => exact le_rfl
  | append_singleton l a ih =>
    rw [peakOf_concat]
    exact ih.trans (le_max_left _ _)

theorem peakOf_eq_or_mem (start : α) (l : List α) : peakOf start l = start ∨ peakOf start l ∈ l := by
  induction l using List.reverseRecOn with
  | nil => exact Or.inl rfl
  | append_singleton l a ih =>
    rw [peakOf_concat]
    rcases max_choice (peakOf start l) a with h | h <;> rw [h]
    · exact ih.imp_right fun hmem => List.mem_append_left _ hmem
    · exact Or.inr (List.mem_append_right _ (List.mem_singleton_self a))

theorem peakOf_map {f : α → β} (hf : Monotone f) (start : α) (l : List α) :
    peakOf (f start) (l.map f) = f (peakOf start l) := by
  induction l using List.reverseRecOn with
  | nil => rfl
  | append_singleton l a ih =>
    rw [List.map_append, List.map_singleton, peakOf_concat, peakOf_concat, ih, hf.map_max]

end Droid.Lib
