import Mathlib

/-! A register whose value is replaced unless the new one has a lesser key. -/
namespace Droid.Lib
variable {α β : Type} [LinearOrder β] {key : α → β}

def upgrade (key : α → β) (held : Option α) (a : α) : Option α :=
  match held with
  | none => some a
  | some b => if key a < key b then some b else some a

/-- What the register holds after the values of a list. -/
def upgraded (key : α → β) (l : List α) : Option α := l.foldl (upgrade key) none

@[simp] theorem upgraded_nil : upgraded key [] = none := rfl

theorem upgraded_concat (l : List α) (a : α) : upgraded key (l ++ [a]) = upgrade key (upgraded key l) a := by
  rw [upgraded, List.foldl_append]
  rfl

theorem upgrade_cases (key : α → β) (held : Option α) (a : α) :
    upgrade key held a = some a ∨ ∃ b, held = some b ∧ key a < key b ∧ upgrade key held a = some b := by
  cases held with
  | none => exact Or.inl rfl
  | some b =>
    by_cases hlt : key a < key b
    · exact Or.inr ⟨b, rfl, hlt, if_pos hlt⟩
    · exact Or.inl (if_neg hlt)

/-- The register holds one of the values, with the greatest key. -/
theorem upgraded_spec (key : α → β) (l : List α) :
    (l = [] ∧ upgraded key l = none) ∨ ∃ a ∈ l, upgraded key l = some a ∧ ∀ b ∈ l, key b ≤ key a := by
  induction l using List.reverseRecOn with
  | nil => exact Or.inl ⟨rfl, rfl⟩
  | append_singleton l a ih =>
    right
    rw [upgraded_concat]
    have hlast : a ∈ l ++ [a] := List.mem_append_right l (List.mem_singleton.mpr rfl)
    rcases upgrade_cases key (upgraded key l) a with hnew | ⟨b, hheld, hlt, hkept⟩
    · refine ⟨a, hlast, hnew, fun c hc => ?_⟩
      rcases List.mem_append.mp hc with hold | hsame
      · rcases ih with ⟨hnil, -⟩ | ⟨b, -, hheld, hbound⟩
        · rw [hnil] at hold
          cases hold
        · rw [hheld, upgrade] at hnew
          split at hnew
          · rename_i hlt
            cases hnew
            exact absurd hlt (lt_irrefl _)
          · rename_i hle
            exact le_trans (hbound c hold) (not_lt.mp hle)
      · rw [List.mem_singleton.mp hsame]
    · rcases ih with ⟨-, hnone⟩ | ⟨b', hmem, hheld', hbound⟩
      · rw [hnone] at hheld
        cases hheld
      · rw [hheld'] at hheld
        cases hheld
        refine ⟨b, List.mem_append_left _ hmem, hkept, fun c hc => ?_⟩
        rcases List.mem_append.mp hc with hold | hsame
        · exact hbound c hold
        · rw [List.mem_singleton.mp hsame]
          exact le_of_lt hlt

theorem upgraded_mem {l : List α} {a : α} (h : upgraded key l = some a) : a ∈ l := by
  rcases upgraded_spec key l with ⟨-, hnone⟩ | ⟨b, hb, hsome, -⟩
  · rw [hnone] at h
    cases h
  · rw [hsome] at h
    cases h
    exact hb

theorem key_le_upgraded {l : List α} {a : α} (h : upgraded key l = some a) : ∀ b ∈ l, key b ≤ key a := by
  rcases upgraded_spec key l with ⟨-, hnone⟩ | ⟨b, -, hsome, hbound⟩
  · rw [hnone] at h
    cases h
  · rw [hsome] at h
    cases h
    exact hbound

theorem exists_upgraded (key : α → β) {l : List α} {a : α} (h : a ∈ l) : ∃ b, upgraded key l = some b := by
  rcases upgraded_spec key l with ⟨hnil, -⟩ | ⟨b, -, hsome, -⟩
  · rw [hnil] at h
    cases h
  · exact ⟨b, hsome⟩

/-- In another order, the register holds a value with the same key. -/
theorem upgraded_perm {l l' : List α} (hp : l.Perm l') {a : α} (h : upgraded key l = some a) :
    ∃ b, upgraded key l' = some b ∧ key b = key a := by
  obtain ⟨b, hb⟩ := exists_upgraded key (hp.mem_iff.mp (upgraded_mem h))
  refine ⟨b, hb, le_antisymm ?_ ?_⟩
  · exact key_le_upgraded h b (hp.mem_iff.mpr (upgraded_mem hb))
  · exact key_le_upgraded hb a (hp.mem_iff.mp (upgraded_mem h))

end Droid.Lib
