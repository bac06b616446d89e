import Mathlib.Order.MinMax

/-! When caps and clamps hide a difference. -/
namespace Droid.Lib
variable {α : Type} [LinearOrder α]

theorem min_eq_min_iff {x y cap : α} : min x cap = min y cap ↔ x = y ∨ (cap ≤ x ∧ cap ≤ y) := by
  constructor
  · intro h
    rcases le_total cap x with hx | hx
    · rcases le_total cap y with hy | hy
      · exact Or.inr ⟨hx, hy⟩
      · rw [min_eq_right hx, min_eq_left hy] at h
        exact Or.inr ⟨hx, h.le⟩
    · rcases le_total cap y with hy | hy
      · rw [min_eq_left hx, min_eq_right hy] at h
        exact Or.inr ⟨h.ge, hy⟩
      · rw [min_eq_left hx, min_eq_left hy] at h
        exact Or.inl h
  · rintro (rfl | ⟨hx, hy⟩)
    · rfl
    · rw [min_eq_right hx, min_eq_right hy]

theorem max_eq_max_iff {x y low : α} : max low x = max low y ↔ x = y ∨ (x ≤ low ∧ y ≤ low) := by
  constructor
  · intro h
    rcases le_total x low with hx | hx
    · rcases le_total y low with hy | hy
      · exact Or.inr ⟨hx, hy⟩
      · rw [max_eq_left hx, max_eq_right hy] at h
        exact Or.inr ⟨hx, h.ge⟩
    · rcases le_total y low with hy | hy
      · rw [max_eq_right hx, max_eq_left hy] at h
        exact Or.inr ⟨h.le, hy⟩
      · rw [max_eq_right hx, max_eq_right hy] at h
        exact Or.inl h
  · rintro (rfl | ⟨hx, hy⟩)
    · rfl
    · rw [max_eq_left hx, max_eq_left hy]

/-- Two numbers are clamped to one exactly where they are equal or beyond the same bound, or the bounds are one. -/
theorem clamp_eq_clamp_iff {low high x y : α} (h : low ≤ high) :
    max low (min x high) = max low (min y high) ↔
      x = y ∨ (x ≤ low ∧ y ≤ low) ∨ (high ≤ x ∧ high ≤ y) ∨ low = high := by
  rw [max_eq_max_iff, min_eq_min_iff]
  constructor
  · rintro ((hsame | hhigh) | ⟨hx, hy⟩)
    · exact Or.inl hsame
    · exact Or.inr (Or.inr (Or.inl hhigh))
    · by_cases hbounds : high ≤ low
      · exact Or.inr (Or.inr (Or.inr (le_antisymm h hbounds)))
      · have hx := (min_le_iff.mp hx).resolve_right hbounds
        have hy := (min_le_iff.mp hy).resolve_right hbounds
        exact Or.inr (Or.inl ⟨hx, hy⟩)
  · rintro (hsame | ⟨hx, hy⟩ | hhigh | hbounds)
    · exact Or.inl (Or.inl hsame)
    · exact Or.inr ⟨(min_le_left _ _).trans hx, (min_le_left _ _).trans hy⟩
    · exact Or.inl (Or.inr hhigh)
    · rw [hbounds]
      exact Or.inr ⟨min_le_right _ _, min_le_right _ _⟩

end Droid.Lib
