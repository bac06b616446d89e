import Mathlib.Data.List.DropRight

/-! Loops over a sequence with missing values that start afresh at a gap, and windows over the values since the last
gap. -/
namespace Droid.Lib
variable {α β σ : Type}

/-- The outputs of a loop that starts afresh at a gap, and has none there. -/
def gapScan (fresh : σ) (push : σ → α → σ × Option β) : σ → List (Option α) → List (Option β)
  | _, [] => []
  | _, none :: values => none :: gapScan fresh push fresh values
  | s, some v :: values => (push s v).2 :: gapScan fresh push (push s v).1 values

def sinceGap (w : List α) : List (Option α) → List α
  | [] => w
  | none :: values => sinceGap [] values
  | some v :: values => sinceGap (w ++ [v]) values

theorem gapScan_length (fresh : σ) (push : σ → α → σ × Option β) (s : σ) (values : List (Option α)) :
    (gapScan fresh push s values).length = values.length := by
  induction values generalizing s with
  | nil => rfl
  | cons value values ih =>
    cases value with
    | none => exact congrArg (· + 1) (ih fresh)
    | some v => exact congrArg (· + 1) (ih (push s v).1)

theorem gapScan_take (fresh : σ) (push : σ → α → σ × Option β) (s : σ) (values : List (Option α)) (k : Nat) :
    (gapScan fresh push s values).take k = gapScan fresh push s (values.take k) := by
  induction values generalizing s k with
  | nil => simp [gapScan]
  | cons value values ih =>
    cases k with
    | zero => simp [gapScan]
    | succ k => cases value <;> simp [gapScan, ih]

/-- Rule for such a loop: `I` relates the values since the last gap to the state, `O` to the output. -/
theorem gapScan_spec {fresh : σ} {push : σ → α → σ × Option β} {I : List α → σ → Prop} {O : List α → Option β → Prop}
    (hfresh : I [] fresh) (hgap : O [] none)
    (hpush : ∀ w s v, I w s → I (w ++ [v]) (push s v).1 ∧ O (w ++ [v]) (push s v).2) {w : List α} {s : σ} (hs : I w s)
    (values : List (Option α)) {i : Nat} (hi : i < values.length) :
    ∃ o, (gapScan fresh push s values)[i]? = some o ∧ O (sinceGap w (values.take (i + 1))) o := by
  induction values generalizing w s i with
  | nil => cases hi
  | cons value values ih =>
    cases value with
    | none =>
      cases i with
      | zero => exact ⟨none, rfl, hgap⟩
      | succ i =>
        obtain ⟨o, ho, hout⟩ := ih hfresh (Nat.lt_of_succ_lt_succ hi)
        exact ⟨o, ho, hout⟩
    | some v =>
      obtain ⟨hnext, hnow⟩ := hpush w s v hs
      cases i with
      | zero => exact ⟨_, rfl, hnow⟩
      | succ i =>
        obtain ⟨o, ho, hout⟩ := ih hnext (Nat.lt_of_succ_lt_succ hi)
        exact ⟨o, ho, hout⟩

/-! ### The last values -/

def allSome : List (Option α) → Option (List α)
  | [] => some []
  | none :: _ => none
  | some v :: values => (allSome values).map (v :: ·)

/-- The last `n` values, if there are as many and none of them is missing. -/
def lastN (n : Nat) (values : List (Option α)) : Option (List α) :=
  if values.length < n then none else allSome (values.rtake n)

theorem allSome_map_some (l : List α) : allSome (l.map some) = some l := by
  induction l with
  | nil => rfl
  | cons v l ih => rw [List.map_cons, allSome, ih, Option.map_some]

theorem allSome_of_none_mem {values : List (Option α)} (h : none ∈ values) : allSome values = none := by
  induction values with
  | nil => cases h
  | cons value values ih =>
    cases value with
    | none => rfl
    | some v =>
      have hmem : none ∈ values := by simpa using h
      rw [allSome, ih hmem, Option.map_none]

theorem split_sinceGap (w : List α) (values : List (Option α)) :
    ∃ gap, w.map some ++ values = gap ++ (sinceGap w values).map some ∧ (gap = [] ∨ ∃ older, gap = older ++ [none]) := by
  induction values generalizing w with
  | nil => exact ⟨[], by simp [sinceGap], Or.inl rfl⟩
  | cons value values ih =>
    cases value with
    | none =>
      obtain ⟨gap, hsplit, hgap⟩ := ih []
      rw [List.map_nil, List.nil_append] at hsplit
      refine ⟨w.map some ++ none :: gap, ?_, Or.inr ?_⟩
      · rw [sinceGap, List.append_assoc, List.cons_append, ← hsplit]
      · rcases hgap with rfl | ⟨older, rfl⟩
        · exact ⟨w.map some, rfl⟩
        · exact ⟨w.map some ++ none :: older, by simp⟩
    | some v =>
      obtain ⟨gap, hsplit, hgap⟩ := ih (w ++ [v])
      refine ⟨gap, ?_, hgap⟩
      rw [sinceGap, ← hsplit]
      simp

theorem lastN_eq (n : Nat) (values : List (Option α)) :
    lastN n values =
      if n ≤ (sinceGap [] values).length then some ((sinceGap [] values).rtake n) else none := by
  obtain ⟨gap, hsplit, hgap⟩ := split_sinceGap [] values
  rw [List.map_nil, List.nil_append] at hsplit
  obtain ⟨t, ht⟩ : ∃ t, sinceGap [] values = t := ⟨_, rfl⟩
  rw [ht] at hsplit ⊢
  rw [lastN, hsplit, List.length_append, List.length_map]
  by_cases hn : n ≤ t.length
  · rw [if_pos hn, if_neg (by omega)]
    have hdrop : (gap ++ t.map some).rtake n = (t.rtake n).map some := by
      rw [List.rtake, List.rtake, List.length_append, List.length_map, List.map_drop, List.drop_append,
        List.drop_eq_nil_of_le (by omega), List.nil_append]
      congr 1
      omega
    rw [hdrop, allSome_map_some]
  · rw [if_neg hn]
    rcases hgap with rfl | ⟨older, rfl⟩
    · rw [if_pos (by simpa using hn)]
    · split_ifs with hshort
      · rfl
      · -- the gap lies in the last n values
        apply allSome_of_none_mem
        rw [List.length_append, List.length_singleton] at hshort
        have hdrop : (older ++ [none] ++ t.map some).rtake n =
            older.drop (older.length + 1 + t.length - n) ++ none :: t.map some := by
          rw [List.rtake, List.append_assoc, List.length_append, List.length_append, List.length_singleton,
            List.length_map, List.drop_append_of_le_length (by omega), List.singleton_append, Nat.add_assoc]
        rw [hdrop]
        simp

/-! ### Windows -/

/-- An output over the values since the last gap: of the last `n` of them, by `R`, as soon as there are as many. -/
def Yields (n : Nat) (R : List α → β → Prop) (w : List α) (o : Option β) : Prop :=
  if n ≤ w.length then ∃ b, o = some b ∧ R (w.rtake n) b else o = none

/-- At every index the output is nothing unless the last `n` inputs are there, and otherwise what `R` says of them. -/
def Windowed (n : Nat) (R : List α → β → Prop) (values : List (Option α)) (out : List (Option β)) : Prop :=
  out.length = values.length ∧ ∀ i < values.length, ∃ o, out[i]? = some o ∧
    match lastN n (values.take (i + 1)) with
    | none => o = none
    | some w => ∃ b, o = some b ∧ R w b

theorem windowed_gapScan {n : Nat} (hn : 0 < n) {R : List α → β → Prop} {fresh : σ} {push : σ → α → σ × Option β}
    {I : List α → σ → Prop} (hfresh : I [] fresh)
    (hpush : ∀ w s v, I w s → I (w ++ [v]) (push s v).1 ∧ Yields n R (w ++ [v]) (push s v).2)
    (values : List (Option α)) : Windowed n R values (gapScan fresh push fresh values) := by
  have hgap : Yields n R ([] : List α) none := by
    rw [Yields, List.length_nil, if_neg (Nat.not_le_of_lt hn)]
  refine ⟨gapScan_length fresh push fresh values, fun i hi => ?_⟩
  obtain ⟨o, ho, hout⟩ := gapScan_spec hfresh hgap hpush hfresh values hi
  refine ⟨o, ho, ?_⟩
  rw [lastN_eq]
  unfold Yields at hout
  split_ifs at hout ⊢ <;> exact hout

/-- A window of `n` values, one more in and the oldest out. -/
def slide (n : Nat) (window : List α) (v : α) : List α :=
  if n < (window ++ [v]).length then (window ++ [v]).tail else window ++ [v]

theorem length_rtake_eq (n : Nat) (l : List α) : (l.rtake n).length = min n l.length := by
  rw [List.rtake, List.length_drop]
  omega

theorem slide_rtake {n : Nat} (hn : 0 < n) (w : List α) (v : α) : slide n (w.rtake n) v = (w ++ [v]).rtake n := by
  have hlength := length_rtake_eq n w
  rw [slide, List.length_append, List.length_singleton, hlength]
  by_cases hfull : n ≤ w.length
  · rw [if_pos (by omega), List.rtake, List.rtake, ← List.drop_append_of_le_length (by omega), List.tail_drop,
      List.length_append, List.length_singleton]
    congr 1
    omega
  · rw [if_neg (by omega), List.rtake, List.rtake, List.length_append, List.length_singleton,
      Nat.sub_eq_zero_of_le (by omega), Nat.sub_eq_zero_of_le (by omega)]
    rfl

end Droid.Lib
