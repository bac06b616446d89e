import Droid.Lib.Dict

/-! A pooled quantity and the owners' shares in it. -/
namespace Droid.Lib
variable {ω α : Type} [DecidableEq ω] [DecidableEq α]

abbrev Shares (ω α : Type) := Dict (ω × α) ℤ

namespace Shares

def of (s : Shares ω α) (o : ω) (a : α) : ℤ := (s.get? (o, a)).getD 0

def pool (s : Shares ω α) (a : α) : ℤ := s.total fun k n => if k.2 = a then n else 0

/-- Add to one owner's share. -/
def move (s : Shares ω α) (o : ω) (a : α) (n : ℤ) : Shares ω α := s.insert (o, a) (s.of o a + n)

@[simp] theorem of_empty (o : ω) (a : α) : of (Dict.empty : Shares ω α) o a = 0 := rfl

omit [DecidableEq ω] in
@[simp] theorem pool_empty (a : α) : pool (Dict.empty : Shares ω α) a = 0 := rfl

theorem of_move (s : Shares ω α) (o : ω) (a : α) (n : ℤ) (p : ω) (b : α) :
    (s.move o a n).of p b = s.of p b + if p = o ∧ b = a then n else 0 := by
  rw [move]
  rw [of, Dict.get?_insert]
  by_cases h : p = o ∧ b = a
  · obtain ⟨rfl, rfl⟩ := h
    simp
  · have hne : (p, b) ≠ (o, a) := fun he => h ⟨congrArg Prod.fst he, congrArg Prod.snd he⟩
    rw [if_neg hne, if_neg h, add_zero, of]

theorem pool_move (s : Shares ω α) (o : ω) (a : α) (n : ℤ) (b : α) :
    (s.move o a n).pool b = s.pool b + if b = a then n else 0 := by
  unfold move pool
  rw [Dict.total_insert, of]
  by_cases h : b = a
  · subst h
    cases hget : s.get? (o, b) with
    | none => simp
    | some m =>
      simp only [Option.getD_some, if_true, Option.map_some]
      ring
  · have hab : ¬ a = b := fun he => h he.symm
    cases hget : s.get? (o, a) <;> simp [h, hab]

/-- Where nobody owes, one owner's share is at most the pool. -/
theorem of_le_pool {s : Shares ω α} (h : ∀ o a, 0 ≤ s.of o a) (o : ω) (a : α) : s.of o a ≤ s.pool a := by
  have hw : ∀ k n, s.get? k = some n → 0 ≤ if k.2 = a then n else 0 := by
    intro k n hk
    have hown : s.of k.1 k.2 = n := by rw [of, hk, Option.getD_some]
    split
    · exact hown ▸ h k.1 k.2
    · exact le_rfl
  cases hget : s.get? (o, a) with
  | none =>
    rw [of, hget]
    exact Dict.total_nonneg _ s hw
  | some n =>
    have hle := Dict.weight_le_total _ s hw hget
    rw [if_pos rfl] at hle
    rw [of, hget]
    exact hle

end Shares
end Droid.Lib
