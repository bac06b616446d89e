import Mathlib.Data.List.TakeDrop

/-! A list with one element replaced by another. -/
namespace Droid.Lib
variable {α β : Type}

def Replaced (l l' : List α) (a a' : α) : Prop := ∃ pre post, l = pre ++ a :: post ∧ l' = pre ++ a' :: post

theorem replaced_set {l : List α} {i : Nat} {a : α} (h : l[i]? = some a) (a' : α) : Replaced l (l.set i a') a a' := by
  obtain ⟨hi, hget⟩ := List.getElem?_eq_some_iff.mp h
  refine ⟨l.take i, l.drop (i + 1), ?_, List.set_eq_take_append_cons_drop.trans (if_pos hi)⟩
  rw [← hget, List.getElem_cons_drop, List.take_append_drop]

namespace Replaced
variable {l l' : List α} {a a' : α}

theorem mem (h : Replaced l l' a a') : a ∈ l := by
  obtain ⟨pre, post, rfl, -⟩ := h
  simp

theorem all (h : Replaced l l' a a') {P : α → Prop} (hl : ∀ x ∈ l, P x) (ha : P a') : ∀ x ∈ l', P x := by
  obtain ⟨pre, post, rfl, rfl⟩ := h
  intro x hx
  rcases List.mem_append.mp hx with hpre | hpost
  · exact hl x (List.mem_append_left _ hpre)
  · rcases List.mem_cons.mp hpost with rfl | hpost
    · exact ha
    · exact hl x (List.mem_append_right _ (List.mem_cons_of_mem _ hpost))

theorem pairwise (h : Replaced l l' a a') {R : α → α → Prop} (hl : l.Pairwise R) (hleft : ∀ x, R x a → R x a')
    (hright : ∀ x, R a x → R a' x) : l'.Pairwise R := by
  obtain ⟨pre, post, rfl, rfl⟩ := h
  obtain ⟨hpre, hpost, hacross⟩ := List.pairwise_append.mp hl
  obtain ⟨ha, htail⟩ := List.pairwise_cons.mp hpost
  refine List.pairwise_append.mpr ⟨hpre, List.pairwise_cons.mpr ⟨fun x hx => hright x (ha x hx), htail⟩, ?_⟩
  intro x hx y hy
  rcases List.mem_cons.mp hy with rfl | hy
  · exact hleft x (hacross x hx a List.mem_cons_self)
  · exact hacross x hx y (List.mem_cons_of_mem _ hy)

end Replaced
end Droid.Lib
