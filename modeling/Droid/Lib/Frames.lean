import Mathlib.Data.List.Basic
import Mathlib.Data.List.Nodup

/-! Rows with missing values: truth values that may be unknown, filters by them, and the first row of
each key. -/
namespace Droid.Lib

section Truth

/-- Conjunction in Kleene's logic: one false makes it false, else one unknown makes it unknown. -/
def both : Option Bool → Option Bool → Option Bool
  | some false, _ => some false
  | _, some false => some false
  | some true, some true => some true
  | _, _ => none

def allOf (truths : List (Option Bool)) : Option Bool := truths.foldr both (some true)

def negation (truth : Option Bool) : Option Bool := truth.map (!·)

theorem both_eq_true {a b : Option Bool} : both a b = some true ↔ a = some true ∧ b = some true := by
  rcases a with _ | _ | _ <;> rcases b with _ | _ | _ <;> decide

theorem both_eq_false {a b : Option Bool} :
    both a b = some false ↔ a = some false ∨ b = some false := by
  rcases a with _ | _ | _ <;> rcases b with _ | _ | _ <;> decide

theorem allOf_eq_true {truths : List (Option Bool)} :
    allOf truths = some true ↔ ∀ a ∈ truths, a = some true := by
  induction truths with
  | nil => exact iff_of_true rfl fun a ha => absurd ha List.not_mem_nil
  | cons a rest ih => rw [allOf, List.foldr_cons, both_eq_true, List.forall_mem_cons, ← ih, allOf]

theorem allOf_eq_false {truths : List (Option Bool)} :
    allOf truths = some false ↔ some false ∈ truths := by
  induction truths with
  | nil => exact iff_of_false (by decide) List.not_mem_nil
  | cons a rest ih => rw [allOf, List.foldr_cons, both_eq_false, List.mem_cons, ← ih, allOf, eq_comm]

end Truth

section Filter
variable {α : Type} (mask : α → Option Bool)

/-- A filter keeps the rows for which the mask is known to be true. -/
def keepTrue (rows : List α) : List α := rows.filter fun row => mask row = some true

theorem mem_keepTrue {rows : List α} {row : α} :
    row ∈ keepTrue mask rows ↔ row ∈ rows ∧ mask row = some true := by
  rw [keepTrue, List.mem_filter, decide_eq_true_eq]

theorem keepTrue_eq_self {rows : List α} : keepTrue mask rows = rows ↔ ∀ row ∈ rows, mask row = some true := by
  simp only [keepTrue, List.filter_eq_self, decide_eq_true_eq]

theorem length_keepTrue (rows : List α) :
    (keepTrue mask rows).length + (keepTrue (fun row => negation (mask row)) rows).length +
      (rows.filter fun row => mask row = none).length = rows.length := by
  induction rows with
  | nil => rfl
  | cons row rest ih =>
    unfold keepTrue at ih ⊢
    rw [List.length_cons]
    rcases h : mask row with _ | _ | _
    · rw [List.filter_cons_of_neg (by simp [h]), List.filter_cons_of_neg (by simp [h, negation]),
        List.filter_cons_of_pos (by simp [h]), List.length_cons]
      omega
    · rw [List.filter_cons_of_neg (by simp [h]), List.filter_cons_of_pos (by simp [h, negation]),
        List.filter_cons_of_neg (by simp [h]), List.length_cons]
      omega
    · rw [List.filter_cons_of_pos (by simp [h]), List.filter_cons_of_neg (by simp [h, negation]),
        List.filter_cons_of_neg (by simp [h]), List.length_cons]
      omega

end Filter

section KeepFirst
variable {α κ : Type} [DecidableEq κ] (key : α → κ)

def keepFirst : List α → List α
  | [] => []
  | row :: rest => row :: (keepFirst rest).filter fun other => key other ≠ key row

theorem keepFirst_sublist (rows : List α) : (keepFirst key rows).Sublist rows := by
  induction rows with
  | nil => exact .slnil
  | cons row rest ih => exact (List.filter_sublist.trans ih).cons_cons row

theorem nodup_keepFirst (rows : List α) : ((keepFirst key rows).map key).Nodup := by
  induction rows with
  | nil => exact List.nodup_nil
  | cons row rest ih =>
    rw [keepFirst, List.map_cons, List.nodup_cons]
    constructor
    · intro hmem
      obtain ⟨other, ho, hkey⟩ := List.mem_map.mp hmem
      exact (of_decide_eq_true (List.mem_filter.mp ho).2) hkey
    · exact ih.sublist (List.filter_sublist.map key)

theorem keepFirst_eq_self {rows : List α} (h : (rows.map key).Nodup) : keepFirst key rows = rows := by
  induction rows with
  | nil => rfl
  | cons row rest ih =>
    rw [List.map_cons, List.nodup_cons] at h
    rw [keepFirst, ih h.2, List.filter_eq_self.mpr]
    intro other ho
    exact decide_eq_true fun hkey => h.1 (hkey ▸ List.mem_map_of_mem ho)

end KeepFirst

end Droid.Lib
