import Mathlib.Algebra.BigOperators.Group.List.Basic
import Mathlib.Algebra.Order.Group.Int
import Mathlib.Data.List.Chain

/-! Sums over the neighbours in a list. -/
namespace Droid.Lib
variable {α : Type} (f g : α → α → Int)

/-- The sum of f over each element and the next one. -/
def sumAdjacent : List α → Int
  | a :: b :: l => f a b + sumAdjacent (b :: l)
  | _ => 0

theorem sumAdjacent_snoc (l : List α) (a b : α) :
    sumAdjacent f (l ++ [a] ++ [b]) = sumAdjacent f (l ++ [a]) + f a b := by
  induction l with
  | nil => simp [sumAdjacent]
  | cons c l ih =>
    cases l with
    | nil => simp [sumAdjacent]
    | cons d l =>
      rw [List.cons_append, List.cons_append, List.cons_append, List.cons_append, sumAdjacent, sumAdjacent,
        add_assoc]
      exact congrArg _ ih

theorem sumAdjacent_add (l : List α) :
    sumAdjacent (fun a b => f a b + g a b) l = sumAdjacent f l + sumAdjacent g l := by
  induction l with
  | nil => rfl
  | cons a l ih =>
    cases l with
    | nil => rfl
    | cons b l =>
      rw [sumAdjacent, sumAdjacent, sumAdjacent, ih]
      exact add_add_add_comm _ _ _ _

variable {f}

theorem sumAdjacent_nonneg {l : List α} (h : l.IsChain fun a b => 0 ≤ f a b) : 0 ≤ sumAdjacent f l := by
  induction l with
  | nil => exact le_rfl
  | cons a l ih =>
    cases l with
    | nil => exact le_rfl
    | cons b l =>
      obtain ⟨hab, htail⟩ := List.isChain_cons_cons.mp h
      exact add_nonneg hab (ih htail)

theorem sumAdjacent_eq_zero_iff {l : List α} (h : l.IsChain fun a b => 0 ≤ f a b) :
    sumAdjacent f l = 0 ↔ l.IsChain fun a b => f a b = 0 := by
  induction l with
  | nil => simp [sumAdjacent]
  | cons a l ih =>
    cases l with
    | nil => simp [sumAdjacent]
    | cons b l =>
      obtain ⟨hab, htail⟩ := List.isChain_cons_cons.mp h
      rw [sumAdjacent, List.isChain_cons_cons, ← ih htail]
      have hsum := sumAdjacent_nonneg htail
      constructor
      · intro hzero
        exact ⟨by omega, by omega⟩
      · rintro ⟨ha, hl⟩
        omega

end Droid.Lib
