import Droid.Lib.Run

/-! Step functions with an output: the outputs along a run, and what is left of them when labels are dropped. -/
namespace Droid.Lib
variable {σ ι ο : Type} (step : σ → ι → σ × ο)

/-- The labels of a run with their outputs. -/
def outputs : σ → List ι → List (ι × ο)
  | _, [] => []
  | s, i :: is => (i, (step s i).2) :: outputs (step s i).1 is

def final (s : σ) (is : List ι) : σ := run (fun s i => (step s i).1) s is

@[simp] theorem outputs_nil (s : σ) : outputs step s [] = [] := rfl

@[simp] theorem outputs_cons (s : σ) (i : ι) (is : List ι) :
    outputs step s (i :: is) = (i, (step s i).2) :: outputs step (step s i).1 is := rfl

@[simp] theorem final_nil (s : σ) : final step s [] = s := rfl

@[simp] theorem final_cons (s : σ) (i : ι) (is : List ι) :
    final step s (i :: is) = final step (step s i).1 is := rfl

theorem outputs_append (s : σ) (is js : List ι) :
    outputs step s (is ++ js) = outputs step s is ++ outputs step (final step s is) js := by
  induction is generalizing s with
  | nil => rfl
  | cons i is ih => rw [List.cons_append, outputs_cons, ih, outputs_cons, final_cons, List.cons_append]

theorem final_append (s : σ) (is js : List ι) :
    final step s (is ++ js) = final step (final step s is) js := run_append _ s is js

theorem map_fst_outputs (s : σ) (is : List ι) : (outputs step s is).map Prod.fst = is := by
  induction is generalizing s with
  | nil => rfl
  | cons i is ih => rw [outputs_cons, List.map_cons, ih]

/-- What is left of the run: the labels whose outputs q keeps. -/
def keptLabels (q : ι × ο → Bool) (s : σ) (is : List ι) : List ι := ((outputs step s is).filter q).map Prod.fst

theorem keptLabels_append (q : ι × ο → Bool) (s : σ) (is js : List ι) :
    keptLabels step q s (is ++ js) = keptLabels step q s is ++ keptLabels step q (final step s is) js := by
  rw [keptLabels, outputs_append, List.filter_append, List.map_append]
  rfl

/-- What is kept for its label alone. -/
theorem keptLabels_label (p : ι → Bool) (s : σ) (is : List ι) :
    keptLabels step (fun out => p out.1) s is = is.filter p := by
  conv_rhs => rw [← map_fst_outputs step s is]
  rw [keptLabels, List.filter_map]
  rfl

section Drop
variable {step} (same : σ → σ → Prop) {q : ι × ο → Bool}

/-- Where dropped labels leave the state the same, and kept ones see no difference, dropping changes no output that is
left, and leads to the same state. -/
theorem outputs_keptLabels (htrans : ∀ s s' s'', same s s' → same s' s'' → same s s'')
    (hkept : ∀ s s' i, same s s' → q (i, (step s i).2) = true →
      (step s i).2 = (step s' i).2 ∧ same (step s i).1 (step s' i).1)
    {s s' : σ} (hsame : same s s') {is : List ι}
    (hdropped : Guarded (fun s i => (step s i).1)
      (fun s i => q (i, (step s i).2) = false → same (step s i).1 s) s is) :
    outputs step s' (keptLabels step q s is) = (outputs step s is).filter q ∧
      same (final step s is) (final step s' (keptLabels step q s is)) := by
  induction is generalizing s s' with
  | nil => exact ⟨rfl, hsame⟩
  | cons i is ih =>
    obtain ⟨hi, his⟩ := hdropped
    rw [keptLabels, outputs_cons, List.filter_cons]
    cases hq : q (i, (step s i).2) with
    | true =>
      obtain ⟨hout, hnext⟩ := hkept s s' i hsame hq
      obtain ⟨houtputs, hfinal⟩ := ih hnext his
      rw [if_pos rfl, List.map_cons, outputs_cons, ← hout, final_cons, final_cons]
      exact ⟨congrArg _ houtputs, hfinal⟩
    | false =>
      rw [if_neg Bool.false_ne_true, final_cons]
      exact ih (htrans _ _ _ (hi hq) hsame) his

end Drop
end Droid.Lib
