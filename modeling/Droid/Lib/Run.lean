import Mathlib.Data.List.Infix

/-! Runs of a deterministic labelled step function, the states they pass through,
the rules that carry an invariant, or an exact guard, along a run, and loops over distinct keys. -/
namespace Droid.Lib
variable {σ ι : Type}

/-- The state after a list of labels. -/
def run (step : σ → ι → σ) (s : σ) (labels : List ι) : σ := labels.foldl step s

/-- P holds in every state the run passes through, first and last included. -/
def Always (step : σ → ι → σ) (P : σ → Prop) : σ → List ι → Prop
  | s, [] => P s
  | s, i :: is => P s ∧ Always step P (step s i) is

/-- Every step of the run is taken in a state, and with a label, that G allows. -/
def Guarded (step : σ → ι → σ) (G : σ → ι → Prop) : σ → List ι → Prop
  | _, [] => True
  | s, i :: is => G s i ∧ Guarded step G (step s i) is

instance (step : σ → ι → σ) (G : σ → ι → Prop) [∀ s i, Decidable (G s i)] :
    (s : σ) → (is : List ι) → Decidable (Guarded step G s is)
  | _, [] => inferInstanceAs (Decidable True)
  | s, i :: is =>
    have := instDecidableGuarded step G (step s i) is
    inferInstanceAs (Decidable (G s i ∧ Guarded step G (step s i) is))

@[simp] theorem run_nil (step : σ → ι → σ) (s : σ) : run step s [] = s := rfl

@[simp] theorem run_cons (step : σ → ι → σ) (s : σ) (i : ι) (is : List ι) :
    run step s (i :: is) = run step (step s i) is := rfl

theorem run_append (step : σ → ι → σ) (s : σ) (a b : List ι) :
    run step s (a ++ b) = run step (run step s a) b := by
  simp [run]

theorem Always.head {step : σ → ι → σ} {P : σ → Prop} {s : σ} {is : List ι}
    (h : Always step P s is) : P s := by
  cases is with
  | nil => exact h
  | cons i is => exact h.1

/-- Always is truth after every prefix. -/
theorem always_iff_prefixes (step : σ → ι → σ) (P : σ → Prop) (s : σ) (is : List ι) :
    Always step P s is ↔ ∀ pre, pre <+: is → P (run step s pre) := by
  induction is generalizing s with
  | nil =>
    constructor
    · intro h pre hp
      rw [List.prefix_nil.mp hp]
      exact h
    · intro h
      exact h [] (List.prefix_refl _)
  | cons i is ih =>
    rw [Always, ih]
    constructor
    · rintro ⟨h0, ht⟩ pre hp
      cases pre with
      | nil => exact h0
      | cons j pre =>
        obtain ⟨rfl, htail⟩ := List.cons_prefix_cons.mp hp
        exact ht pre htail
    · intro h
      exact ⟨h [] List.nil_prefix, fun pre hp => h (i :: pre) (List.cons_prefix_cons.mpr ⟨rfl, hp⟩)⟩

/-- Invariant rule: what guarded steps preserve holds all along a guarded run. -/
theorem always_of_guarded {step : σ → ι → σ} {G : σ → ι → Prop} {P : σ → Prop}
    (hstep : ∀ s i, P s → G s i → P (step s i)) {s : σ} {is : List ι} (h0 : P s)
    (hg : Guarded step G s is) : Always step P s is := by
  induction is generalizing s with
  | nil => exact h0
  | cons i is ih => exact ⟨h0, ih (hstep s i h0 hg.1) hg.2⟩

theorem always_of_step {step : σ → ι → σ} {P : σ → Prop}
    (hstep : ∀ s i, P s → P (step s i)) {s : σ} (h0 : P s) (is : List ι) :
    Always step P s is := by
  induction is generalizing s with
  | nil => exact h0
  | cons i is ih => exact ⟨h0, ih (hstep s i h0)⟩

theorem Always.mono {step : σ → ι → σ} {P Q : σ → Prop} (hpq : ∀ s, P s → Q s) {s : σ}
    {is : List ι} (h : Always step P s is) : Always step Q s is := by
  induction is generalizing s with
  | nil => exact hpq s h
  | cons i is ih => exact ⟨hpq s h.1, ih h.2⟩

theorem guarded_of_mem {step : σ → ι → σ} {G : σ → ι → Prop} {is : List ι} (h : ∀ i ∈ is, ∀ s, G s i)
    (s : σ) : Guarded step G s is := by
  induction is generalizing s with
  | nil => trivial
  | cons i is ih => exact ⟨h i List.mem_cons_self s, ih (fun j hj => h j (List.mem_cons_of_mem i hj)) _⟩

theorem guarded_and (step : σ → ι → σ) (G H : σ → ι → Prop) (s : σ) (is : List ι) :
    Guarded step (fun s i => G s i ∧ H s i) s is ↔ Guarded step G s is ∧ Guarded step H s is := by
  induction is generalizing s with
  | nil => exact ⟨fun h => ⟨h, h⟩, And.left⟩
  | cons i is ih =>
    rw [Guarded, Guarded, Guarded, ih]
    exact and_and_and_comm

theorem guarded_append (step : σ → ι → σ) (G : σ → ι → Prop) (s : σ) (a b : List ι) :
    Guarded step G s (a ++ b) ↔ Guarded step G s a ∧ Guarded step G (run step s a) b := by
  induction a generalizing s with
  | nil => exact ⟨fun h => ⟨trivial, h⟩, And.right⟩
  | cons i a ih =>
    rw [List.cons_append, Guarded, Guarded, ih, run_cons]
    exact and_assoc.symm

theorem Guarded.imp {step : σ → ι → σ} {G H : σ → ι → Prop} (h : ∀ s i, G s i → H s i) {s : σ} {is : List ι}
    (hg : Guarded step G s is) : Guarded step H s is := by
  induction is generalizing s with
  | nil => trivial
  | cons i is ih => exact ⟨h s i hg.1, ih hg.2⟩

theorem Guarded.mono {step : σ → ι → σ} {G H : σ → ι → Prop} {P : σ → Prop} {s : σ} {is : List ι}
    (hg : Guarded step G s is) (hP : Always step P s is) (h : ∀ s i, P s → G s i → H s i) :
    Guarded step H s is := by
  induction is generalizing s with
  | nil => trivial
  | cons i is ih => exact ⟨h s i hP.1 hg.1, ih hg.2 hP.2⟩

theorem always_iff_after (step : σ → ι → σ) (P : σ → Prop) (s : σ) (is : List ι) :
    Always step P s is ↔ P s ∧ Guarded step (fun s i => P (step s i)) s is := by
  induction is generalizing s with
  | nil => exact ⟨fun h => ⟨h, trivial⟩, And.left⟩
  | cons i is ih => rw [Always, Guarded, ih]

theorem guarded_congr {step : σ → ι → σ} {G H : σ → ι → Prop} {I : σ → Prop}
    (hinv : ∀ s i, I s → G s i → I (step s i)) (h : ∀ s i, I s → (G s i ↔ H s i)) {s : σ}
    (hI : I s) (is : List ι) : Guarded step G s is ↔ Guarded step H s is := by
  induction is generalizing s with
  | nil => rfl
  | cons i is ih =>
    rw [Guarded, Guarded, ← h s i hI]
    constructor
    · rintro ⟨hg, ht⟩
      exact ⟨hg, (ih (hinv s i hI hg)).mp ht⟩
    · rintro ⟨hg, ht⟩
      exact ⟨hg, (ih (hinv s i hI hg)).mpr ht⟩

theorem run_of_always {step : σ → ι → σ} {P : σ → Prop} {s : σ} {is : List ι}
    (h : Always step P s is) : P (run step s is) :=
  (always_iff_prefixes step P s is).mp h is (List.prefix_refl _)

/-- Exactness rule: if, under an invariant I of all steps, a step keeps P just
when G allows it, then P holds along a run just when every step is allowed. -/
theorem always_iff_guarded {step : σ → ι → σ} {G : σ → ι → Prop} {I P : σ → Prop}
    (hinv : ∀ s i, I s → I (step s i)) (hexact : ∀ s i, I s → P s → (P (step s i) ↔ G s i))
    {s : σ} (hI : I s) (hP : P s) (is : List ι) :
    Always step P s is ↔ Guarded step G s is := by
  induction is generalizing s with
  | nil => exact ⟨fun _ => trivial, fun _ => hP⟩
  | cons i is ih =>
    constructor
    · rintro ⟨_, ht⟩
      have hn := Always.head ht
      exact ⟨(hexact s i hI hP).mp hn, (ih (hinv s i hI) hn).mp ht⟩
    · rintro ⟨hg, ht⟩
      have hn := (hexact s i hI hP).mpr hg
      exact ⟨hP, (ih (hinv s i hI) hn).mpr ht⟩

/-- A preorder relates the states of a run, earlier to later, exactly when every step does. -/
theorem related_iff_guarded {step : σ → ι → σ} {R : σ → σ → Prop} (hrefl : ∀ s, R s s)
    (htrans : ∀ a b c, R a b → R b c → R a c) (s : σ) (is : List ι) :
    (∀ pre mid, pre ++ mid <+: is → R (run step s pre) (run step s (pre ++ mid))) ↔
      Guarded step (fun s i => R s (step s i)) s is := by
  induction is generalizing s with
  | nil =>
    refine ⟨fun _ => trivial, fun _ pre mid hp => ?_⟩
    rw [List.append_eq_nil_iff.mp (List.prefix_nil.mp hp) |>.2, List.append_nil]
    exact hrefl _
  | cons i is ih =>
    rw [Guarded, ← ih]
    constructor
    · intro h
      exact ⟨h [] [i] (List.cons_prefix_cons.mpr ⟨rfl, List.nil_prefix⟩),
        fun pre mid hp => h (i :: pre) mid (List.cons_prefix_cons.mpr ⟨rfl, hp⟩)⟩
    · rintro ⟨hi, h⟩ pre mid hp
      cases pre with
      | nil =>
        cases mid with
        | nil => exact hrefl s
        | cons j mid =>
          obtain ⟨rfl, hmid⟩ := List.cons_prefix_cons.mp hp
          exact htrans _ _ _ hi (h [] mid hmid)
      | cons j pre =>
        obtain ⟨rfl, hpre⟩ := List.cons_prefix_cons.mp hp
        exact h pre mid hpre

section Cell
variable {ν : Type} {f : Option ν → ι → Option ν} {writes : ι → Option (Option ν)} {keeps : ι → ν → Bool}

/-- A cell that labels write, clear or sweep holds what a label wrote and no later one touched or swept away. -/
theorem foldl_eq_some_iff (hwrites : ∀ i w c, writes i = some w → f c i = w)
    (hkeeps : ∀ i c, writes i = none → f c i = c.filter (keeps i)) (labels : List ι) (v : ν) :
    labels.foldl f none = some v ↔ ∃ before i after, labels = before ++ i :: after ∧ writes i = some (some v) ∧
      ∀ j ∈ after, writes j = none ∧ keeps j v = true := by
  induction labels using List.reverseRecOn with
  | nil => simp
  | append_singleton labels i ih =>
    -- the last label is the writer, or comes after it
    have hsplit : (∃ before j after, labels ++ [i] = before ++ j :: after ∧ writes j = some (some v) ∧
        ∀ k ∈ after, writes k = none ∧ keeps k v = true) ↔
        writes i = some (some v) ∨ labels.foldl f none = some v ∧ writes i = none ∧ keeps i v = true := by
      rw [ih]
      constructor
      · rintro ⟨before, j, after, heq, hj, hafter⟩
        rcases List.eq_nil_or_concat after with rfl | ⟨after, k, rfl⟩
        · obtain ⟨-, hlast⟩ := List.append_inj' heq rfl
          cases hlast
          exact .inl hj
        · rw [List.concat_eq_append] at heq hafter
          rw [← List.cons_append, ← List.append_assoc] at heq
          obtain ⟨rfl, hlast⟩ := List.append_inj' heq rfl
          cases hlast
          rw [List.forall_mem_append] at hafter
          exact .inr ⟨⟨before, j, after, rfl, hj, hafter.1⟩, hafter.2 i List.mem_cons_self⟩
      · rintro (hi | ⟨⟨before, j, after, rfl, hj, hafter⟩, hi⟩)
        · exact ⟨labels, i, [], rfl, hi, nofun⟩
        · refine ⟨before, j, after ++ [i], by simp, hj, List.forall_mem_append.mpr ⟨hafter, ?_⟩⟩
          rwa [List.forall_mem_singleton]
    rw [hsplit, List.foldl_append, List.foldl_cons, List.foldl_nil]
    cases hi : writes i with
    | some w => simp [hwrites i w _ hi]
    | none => simp [hkeeps i _ hi, Option.filter_eq_some_iff]

end Cell

/-- The steps of a run that make p true where it was false. -/
def rises (step : σ → ι → σ) (p : σ → Bool) : σ → List ι → Nat
  | _, [] => 0
  | s, i :: is => (if p (step s i) && !p s then 1 else 0) + rises step p (step s i) is

/-- A loop over items with distinct keys whose turns touch only their own key: each key is taken
through its one turn, and all others are left alone. -/
theorem foldl_ownBy {κ μ : Type} (key : ι → κ) (turn : σ → ι → σ) (look : σ → κ → μ) {R : ι → μ → μ → Prop}
    (hother : ∀ s i x, x ≠ key i → look (turn s i) x = look s x)
    (hown : ∀ s i, R i (look s (key i)) (look (turn s i) (key i))) (s : σ) {items : List ι}
    (hn : (items.map key).Nodup) :
    (∀ i ∈ items, R i (look s (key i)) (look (items.foldl turn s) (key i))) ∧
      ∀ k ∉ items.map key, look (items.foldl turn s) k = look s k := by
  induction items generalizing s with
  | nil => exact ⟨nofun, fun _ _ => rfl⟩
  | cons i items ih =>
    obtain ⟨hi, hn⟩ := List.nodup_cons.mp hn
    obtain ⟨hrest, hframe⟩ := ih (turn s i) hn
    rw [List.foldl_cons]
    constructor
    · intro j hj
      rcases List.mem_cons.mp hj with rfl | hj
      · -- its own turn comes first, the later ones are other keys'
        rw [hframe (key j) hi]
        exact hown s j
      · have hne : key j ≠ key i := fun heq => hi (heq ▸ List.mem_map_of_mem hj)
        have hturn := hrest j hj
        rw [hother s i (key j) hne] at hturn
        exact hturn
    · intro k hk
      rw [List.map_cons, List.mem_cons, not_or] at hk
      rw [hframe k hk.2, hother s i k hk.1]

theorem foldl_own {κ μ : Type} {turn : σ → κ → σ} (look : σ → κ → μ) {R : κ → μ → μ → Prop}
    (hother : ∀ s k x, x ≠ k → look (turn s k) x = look s x)
    (hown : ∀ s k, R k (look s k) (look (turn s k) k)) (s : σ) {keys : List κ} (hn : keys.Nodup) :
    (∀ k ∈ keys, R k (look s k) (look (keys.foldl turn s) k)) ∧
      ∀ k ∉ keys, look (keys.foldl turn s) k = look s k := by
  have h := foldl_ownBy id turn look hother hown s (by rwa [List.map_id])
  rwa [List.map_id] at h

theorem foldl_eq_self {turn : σ → ι → σ} {s : σ} {items : List ι} (h : ∀ i ∈ items, turn s i = s) :
    items.foldl turn s = s := by
  induction items with
  | nil => rfl
  | cons i items ih =>
    rw [List.foldl_cons, h i List.mem_cons_self]
    exact ih fun j hj => h j (List.mem_cons_of_mem i hj)

end Droid.Lib
