import Mathlib.Data.List.Sort
import Mathlib.Order.Defs.LinearOrder
import Mathlib.Order.MinMax
import Mathlib.Tactic.Tauto

/-! The first of the elements with the least key: what a stable sort leaves in front. -/
namespace Droid.Lib
variable {α β : Type} [LinearOrder β] {key : α → β}

/-- The head of the list sorted by the key. -/
def firstLeast (key : α → β) (l : List α) : Option α :=
  (l.insertionSort fun a b => key a ≤ key b).head?

@[simp] theorem firstLeast_nil : firstLeast key [] = none := rfl

theorem firstLeast_cons (a : α) (l : List α) :
    firstLeast key (a :: l) = match firstLeast key l with
      | none => some a
      | some b => if key a ≤ key b then some a else some b := by
  rw [firstLeast, firstLeast, List.insertionSort_cons]
  cases l.insertionSort fun a b => key a ≤ key b with
  | nil => rfl
  | cons b sorted =>
    rw [List.orderedInsert]
    split <;> simp_all

theorem firstLeast_mem {l : List α} {a : α} (h : firstLeast key l = some a) : a ∈ l := by
  rw [← (List.perm_insertionSort (fun a b => key a ≤ key b) l).mem_iff]
  exact List.mem_of_head? h

theorem firstLeast_eq_none {l : List α} : firstLeast key l = none ↔ l = [] := by
  rw [firstLeast, List.head?_eq_none_iff, ← List.length_eq_zero_iff, List.length_insertionSort,
    List.length_eq_zero_iff]

theorem exists_firstLeast (key : α → β) {l : List α} {a : α} (h : a ∈ l) : ∃ b, firstLeast key l = some b := by
  apply Option.ne_none_iff_exists'.mp
  intro hnone
  rw [firstLeast_eq_none.mp hnone] at h
  cases h

theorem firstLeast_le {l : List α} {a : α} (h : firstLeast key l = some a) :
    ∀ b ∈ l, key a ≤ key b := by
  induction l generalizing a with
  | nil => nofun
  | cons x l ih =>
    rw [firstLeast_cons] at h
    cases hl : firstLeast key l with
    | none =>
      rw [hl] at h
      cases h
      rw [firstLeast_eq_none.mp hl]
      simp
    | some c =>
      rw [hl] at h
      dsimp only at h
      split at h
      · rename_i hle
        cases h
        exact List.forall_mem_cons.mpr ⟨le_rfl, fun b hb => hle.trans (ih hl b hb)⟩
      · rename_i hlt
        cases h
        exact List.forall_mem_cons.mpr ⟨(not_le.mp hlt).le, ih hl⟩

/-- In front, an element needs only not to be greater. -/
theorem firstLeast_cons_of_le {a : α} {l : List α} (h : ∀ b ∈ l, key a ≤ key b) :
    firstLeast key (a :: l) = some a := by
  rw [firstLeast_cons]
  split
  · rfl
  · rename_i b hb
    rw [if_pos (h b (firstLeast_mem hb))]

/-- One more element is the first least, or changes nothing. -/
theorem firstLeast_insert (e : α) (pre post : List α) :
    firstLeast key (pre ++ e :: post) = some e ∨
      firstLeast key (pre ++ e :: post) = firstLeast key (pre ++ post) := by
  induction pre with
  | nil =>
    rw [List.nil_append, List.nil_append, firstLeast_cons]
    split
    · exact Or.inl rfl
    · rename_i b hb
      split
      · exact Or.inl rfl
      · exact Or.inr hb.symm
  | cons x pre ih =>
    rw [List.cons_append, List.cons_append, firstLeast_cons, firstLeast_cons]
    rcases ih with he | hsame
    · rw [he]
      dsimp only
      split
      · rename_i hle
        refine Or.inr ?_
        cases hrest : firstLeast key (pre ++ post) with
        | none => rfl
        | some b =>
          have hmem : b ∈ pre ++ e :: post := by
            rcases List.mem_append.mp (firstLeast_mem hrest) with hb | hb
            · exact List.mem_append_left _ hb
            · exact List.mem_append_right _ (List.mem_cons_of_mem _ hb)
          dsimp only
          rw [if_pos (hle.trans (firstLeast_le he b hmem))]
      · exact Or.inl rfl
    · rw [hsame]
      exact Or.inr rfl

theorem firstLeast_perm {l l' : List α} (hp : l.Perm l') (hkey : (l.map key).Nodup) :
    firstLeast key l = firstLeast key l' := by
  cases hl : firstLeast key l with
  | none =>
    rw [firstLeast_eq_none] at hl
    subst hl
    rw [List.nil_perm.mp hp, firstLeast_nil]
  | some a =>
    cases hl' : firstLeast key l' with
    | none =>
      rw [firstLeast_eq_none] at hl'
      subst hl'
      rw [List.perm_nil.mp hp] at hl
      cases hl
    | some b =>
      have ha := firstLeast_mem hl
      have hb := hp.mem_iff.mpr (firstLeast_mem hl')
      have hle := firstLeast_le hl b hb
      have hge := firstLeast_le hl' a (hp.mem_iff.mp ha)
      rw [List.inj_on_of_nodup_map hkey ha hb (le_antisymm hle hge)]

theorem firstLeast_map {γ : Type} (f : γ → α) (l : List γ) :
    firstLeast key (l.map f) = (firstLeast (fun c => key (f c)) l).map f := by
  induction l with
  | nil => rfl
  | cons c l ih =>
    rw [List.map_cons, firstLeast_cons, firstLeast_cons, ih]
    cases firstLeast (fun c => key (f c)) l with
    | none => rfl
    | some d =>
      dsimp only [Option.map_some]
      split <;> rfl

theorem firstLeast_congr {γ : Type} [LinearOrder γ] {key' : α → γ} (h : ∀ a b, key a ≤ key b ↔ key' a ≤ key' b)
    (l : List α) : firstLeast key l = firstLeast key' l := by
  induction l with
  | nil => rfl
  | cons a l ih =>
    rw [firstLeast_cons, firstLeast_cons, ih]
    cases firstLeast key' l with
    | none => rfl
    | some b => simp only [h a b]

/-- The turn of a loop that keeps the least so far, the first among equals. -/
def keepLess (key : α → β) (best : Option α) (a : α) : Option α :=
  match best with
  | none => some a
  | some b => if key a < key b then some a else some b

theorem firstLeast_cons_cons (a b : α) (l : List α) :
    firstLeast key (b :: a :: l) = firstLeast key ((if key a < key b then a else b) :: l) := by
  rw [firstLeast_cons b, firstLeast_cons a]
  by_cases hlt : key a < key b
  · rw [if_pos hlt, firstLeast_cons a]
    cases firstLeast key l with
    | none => exact if_neg (not_le.mpr hlt)
    | some c =>
      dsimp only
      by_cases hac : key a ≤ key c
      · rw [if_pos hac]
        exact if_neg (not_le.mpr hlt)
      · rw [if_neg hac]
        exact if_neg (not_le.mpr ((not_le.mp hac).trans hlt))
  · have hle := not_lt.mp hlt
    rw [if_neg hlt, firstLeast_cons b]
    cases firstLeast key l with
    | none => exact if_pos hle
    | some c =>
      dsimp only
      by_cases hac : key a ≤ key c
      · rw [if_pos hac, if_pos (hle.trans hac)]
        exact if_pos hle
      · rw [if_neg hac]

/-- The loop finds what the sort leaves in front. -/
theorem foldl_keepLess (l : List α) : l.foldl (keepLess key) none = firstLeast key l := by
  have hsome : ∀ (l : List α) (b : α), l.foldl (keepLess key) (some b) = firstLeast key (b :: l) := by
    intro l
    induction l with
    | nil => exact fun b => rfl
    | cons a l ih =>
      intro b
      rw [List.foldl_cons, firstLeast_cons_cons, keepLess]
      split <;> exact ih _
  cases l with
  | nil => rfl
  | cons a l => exact hsome l a

theorem firstLeast_of_const {l : List α} (h : ∀ a ∈ l, ∀ b ∈ l, key a ≤ key b) : firstLeast key l = l.head? := by
  cases l with
  | nil => rfl
  | cons a l => exact firstLeast_cons_of_le fun b hb => h a List.mem_cons_self b (List.mem_cons_of_mem a hb)

/-! ### The least key of a list and a top -/

variable {top : β}

def leastOf (key : α → β) (top : β) (l : List α) : β := l.foldr (fun a least => min (key a) least) top

theorem le_leastOf_iff {l : List α} {x : β} : x ≤ leastOf key top l ↔ x ≤ top ∧ ∀ a ∈ l, x ≤ key a := by
  induction l with
  | nil => simp [leastOf]
  | cons a l ih =>
    rw [leastOf, List.foldr_cons, le_min_iff, ← leastOf, ih, List.forall_mem_cons]
    tauto

theorem leastOf_le_top (l : List α) : leastOf key top l ≤ top := (le_leastOf_iff.mp le_rfl).1

theorem leastOf_le {l : List α} {a : α} (h : a ∈ l) : leastOf key top l ≤ key a := (le_leastOf_iff.mp le_rfl).2 a h

/-- More elements leave less. -/
theorem leastOf_subset {l l' : List α} (h : l ⊆ l') : leastOf key top l' ≤ leastOf key top l :=
  le_leastOf_iff.mpr ⟨leastOf_le_top l', fun _ ha => leastOf_le (h ha)⟩

end Droid.Lib
