import Droid.Lib.Run
import Mathlib.Data.List.Induction
import Mathlib.Logic.Function.Basic

/-! A shared cell that scopes of many tasks wrap when they are entered, and set back when they are left. The scopes of
one task nest; those of different tasks need not. -/
namespace Droid.Lib.Patch
variable {κ α : Type} [DecidableEq κ]

inductive Move (κ : Type) where
  | enter (task : κ)
  | leave (task : κ)
  deriving DecidableEq, Repr

def Move.task : Move κ → κ
  | .enter task => task
  | .leave task => task

/-- The cell, and for each task what its open scopes have saved, the inmost first. -/
structure Shared (κ α : Type) where
  cell : α
  saved : κ → List α

def start (base : α) : Shared κ α := ⟨base, fun _ => []⟩

/-- A task outside all scopes has none to leave. -/
def move (wrap : α → α) (s : Shared κ α) : Move κ → Shared κ α
  | .enter task => ⟨wrap s.cell, Function.update s.saved task (s.cell :: s.saved task)⟩
  | .leave task =>
    match s.saved task with
    | [] => s
    | original :: rest => ⟨original, Function.update s.saved task rest⟩

def after (wrap : α → α) (base : α) (moves : List (Move κ)) : Shared κ α := run (move wrap) (start base) moves

/-- A task leaves a scope only inside one. -/
def Paired (wrap : α → α) (base : α) (moves : List (Move κ)) : Prop :=
  Guarded (move wrap) (fun s m => ∀ task, m = .leave task → s.saved task ≠ []) (start base) moves

/-- No scope is entered while another task is inside one. -/
def Serial (wrap : α → α) (base : α) (moves : List (Move κ)) : Prop :=
  Guarded (move wrap) (fun s m => ∀ task, m = .enter task → ∀ other, other ≠ task → s.saved other = [])
    (start base) moves

/-- Every scope that the task enters here it leaves here, and no other. -/
inductive Balanced (task : κ) : List (Move κ) → Prop
  | nil : Balanced task []
  | other {moves} {m : Move κ} : Balanced task moves → m.task ≠ task → Balanced task (moves ++ [m])
  | scope {moves inner} : Balanced task moves → Balanced task inner →
      Balanced task (moves ++ .enter task :: inner ++ [.leave task])

/-- Blocks one after the other, each from the entry of a scope to its leaving. -/
inductive Flat : List (Move κ) → Prop
  | nil : Flat []
  | block {moves inner task} : Flat moves → Balanced task inner →
      Flat (moves ++ .enter task :: inner ++ [.leave task])

variable {wrap : α → α} {base : α}

theorem after_append (moves rest : List (Move κ)) :
    after wrap base (moves ++ rest) = run (move wrap) (after wrap base moves) rest := run_append _ _ _ _

theorem saved_move_of_ne (s : Shared κ α) {m : Move κ} {task : κ} (h : m.task ≠ task) :
    (move wrap s m).saved task = s.saved task := by
  cases m with
  | enter other => exact Function.update_of_ne (Ne.symm h) _ _
  | leave other =>
    rw [move]
    cases s.saved other with
    | nil => rfl
    | cons original rest => exact Function.update_of_ne (Ne.symm h) _ _

theorem move_leave {s : Shared κ α} {task : κ} {original : α} {rest : List α} (h : s.saved task = original :: rest) :
    move wrap s (.leave task) = ⟨original, Function.update s.saved task rest⟩ := by
  rw [move, h]

@[simp] theorem saved_move_enter (s : Shared κ α) (task : κ) :
    (move wrap s (.enter task)).saved task = s.cell :: s.saved task := Function.update_self _ _ _

theorem Balanced.saved {task : κ} {inner : List (Move κ)} (h : Balanced task inner) (s : Shared κ α) :
    (run (move wrap) s inner).saved task = s.saved task := by
  induction h generalizing s with
  | nil => rfl
  | other _ hne ih => rw [run_append, run_cons, run_nil, saved_move_of_ne _ hne, ih]
  | @scope moves inner _ _ ih ihInner =>
    have hopen := ihInner (move wrap (run (move wrap) s moves) (.enter task))
    rw [saved_move_enter] at hopen
    rw [run_append, run_append, run_cons, run_cons, run_nil, move_leave hopen]
    exact (Function.update_self _ _ _).trans (ih s)

/-- What a scope has saved is the cell at its entry. -/
theorem Balanced.saved_scope {task : κ} {inner : List (Move κ)} (h : Balanced task inner) (moves : List (Move κ)) :
    (after wrap base (moves ++ .enter task :: inner)).saved task =
      (after wrap base moves).cell :: (after wrap base moves).saved task := by
  rw [after_append, run_cons, h.saved, saved_move_enter]

/-- The entry of the inmost open scope of a task. -/
theorem entry_of_saved {task : κ} {original : α} {rest : List α} {moves : List (Move κ)}
    (h : (after wrap base moves).saved task = original :: rest) :
    ∃ before inner, moves = before ++ .enter task :: inner ∧ Balanced task inner ∧
      (after wrap base before).cell = original ∧ (after wrap base before).saved task = rest := by
  induction hn : moves.length using Nat.strong_induction_on generalizing moves original rest with
  | _ n ih =>
  cases moves using List.reverseRecOn with
  | nil => cases h
  | append_singleton moves m =>
    have hlen : moves.length < n := by
      rw [← hn, List.length_append]
      exact Nat.lt_succ_self _
    rw [after_append, run_cons, run_nil] at h
    by_cases hother : m.task ≠ task
    · rw [saved_move_of_ne _ hother] at h
      obtain ⟨before, inner, rfl, hinner, hcell, hsaved⟩ := ih _ hlen h rfl
      exact ⟨before, inner ++ [m], by simp, hinner.other hother, hcell, hsaved⟩
    · rw [not_ne_iff] at hother
      cases m with
      | enter current =>
        obtain rfl : current = task := hother
        rw [saved_move_enter] at h
        obtain ⟨hcell, hsaved⟩ := List.cons.inj h
        exact ⟨moves, [], rfl, .nil, hcell, hsaved⟩
      | leave current =>
        obtain rfl : current = task := hother
        cases hsaved : (after wrap base moves).saved current with
        | nil =>
          rw [move, hsaved] at h
          cases hsaved.symm.trans h
        | cons closed outer =>
          rw [move_leave hsaved] at h
          have houter : outer = original :: rest := by simpa using h
          -- the scope that is left here lies within the one that is still open
          obtain ⟨middle, closing, rfl, hclosing, -, hmiddle⟩ := ih _ hlen hsaved rfl
          have hshort : middle.length < n := by
            rw [List.length_append] at hlen
            omega
          obtain ⟨before, inner, rfl, hinner, hcell, hrest⟩ := ih _ hshort (hmiddle.trans houter) rfl
          refine ⟨before, inner ++ .enter current :: closing ++ [.leave current], ?_, hinner.scope hclosing, hcell, hrest⟩
          simp only [List.append_assoc, List.cons_append]

theorem Flat.cell {moves : List (Move κ)} (h : Flat moves) : (after wrap base moves).cell = base := by
  induction h with
  | nil => rfl
  | block _ hinner ih =>
    rw [after_append, run_cons, run_nil, move_leave (hinner.saved_scope _)]
    exact ih

/-- The cell is set back exactly by histories of blocks. -/
theorem cell_eq_base_iff (hwrap : ∀ a, wrap a ≠ base) {moves : List (Move κ)} (hpaired : Paired wrap base moves) :
    (after wrap base moves).cell = base ↔ Flat moves := by
  refine ⟨fun h => ?_, Flat.cell⟩
  induction hn : moves.length using Nat.strong_induction_on generalizing moves with
  | _ n ih =>
  cases moves using List.reverseRecOn with
  | nil => exact .nil
  | append_singleton moves m =>
    obtain ⟨hbefore, hguard, -⟩ := (guarded_append _ _ _ _ _).mp hpaired
    rw [after_append, run_cons, run_nil] at h
    cases m with
    | enter task => exact absurd h (hwrap _)
    | leave task =>
      obtain ⟨original, rest, hsaved⟩ := List.exists_cons_of_ne_nil (hguard task rfl)
      obtain ⟨before, inner, rfl, hinner, hcell, -⟩ := entry_of_saved hsaved
      have hshort : before.length < n := by
        rw [← hn]
        simp only [List.length_append, List.length_cons]
        omega
      have hbase : (after wrap base before).cell = base := by
        rw [hcell, ← h]
        exact (congrArg Shared.cell (move_leave hsaved)).symm
      exact .block (ih _ hshort ((guarded_append _ _ _ _ _).mp hbefore).1 hbase rfl) hinner

/-! ### One task at a time -/

/-- The saved values of one task from the inmost: only the outmost scope has saved the base. -/
def Tower (base : α) : α → List α → Prop
  | cell, [] => cell = base
  | cell, original :: rest => cell ≠ base ∧ Tower base original rest

/-- At most one task is inside its scopes, and they stand on the base. -/
def Seated (base : α) (s : Shared κ α) : Prop :=
  ∃ task, (∀ other, other ≠ task → s.saved other = []) ∧ Tower base s.cell (s.saved task)

theorem Seated.cell_ne {s : Shared κ α} (h : Seated base s) {task : κ} (hopen : s.saved task ≠ []) : s.cell ≠ base := by
  obtain ⟨owner, hothers, htower⟩ := h
  by_cases hsame : task = owner
  · subst hsame
    obtain ⟨original, rest, hsaved⟩ := List.exists_cons_of_ne_nil hopen
    rw [hsaved] at htower
    exact htower.1
  · exact absurd (hothers task hsame) hopen

theorem Seated.move (hwrap : ∀ a, wrap a ≠ base) {s : Shared κ α} (h : Seated base s) (m : Move κ)
    (hguard : ∀ task, m = .enter task → ∀ other, other ≠ task → s.saved other = []) :
    Seated base (move wrap s m) := by
  obtain ⟨owner, hothers, htower⟩ := h
  cases m with
  | enter task =>
    have halone := hguard task rfl
    refine ⟨task, fun other hother => ?_, ?_⟩
    · rw [saved_move_of_ne _ (Ne.symm hother)]
      exact halone other hother
    · rw [saved_move_enter]
      refine ⟨hwrap _, ?_⟩
      by_cases hsame : owner = task
      · exact hsame ▸ htower
      · rw [halone owner hsame] at htower
        rw [hothers task (Ne.symm hsame)]
        exact htower
  | leave task =>
    by_cases hsame : task = owner
    · subst hsame
      cases hsaved : s.saved task with
      | nil =>
        rw [Patch.move, hsaved]
        exact ⟨task, hothers, htower⟩
      | cons original rest =>
        rw [hsaved] at htower
        rw [move_leave hsaved]
        refine ⟨task, fun other hother => ?_, ?_⟩
        · exact (Function.update_of_ne hother _ _).trans (hothers other hother)
        · dsimp only
          rw [Function.update_self]
          exact htower.2
    · rw [Patch.move, hothers task hsame]
      exact ⟨owner, hothers, htower⟩

/-- In a serial history the cell is wrapped as long as a scope is open. -/
theorem cell_ne_of_serial (hwrap : ∀ a, wrap a ≠ base) {moves : List (Move κ)}
    (hserial : Serial wrap base moves) {task : κ} (hopen : (after wrap base moves).saved task ≠ []) :
    (after wrap base moves).cell ≠ base := by
  have hstart : Seated base (start base) := ⟨task, fun _ _ => rfl, rfl⟩
  have halways := always_of_guarded (P := Seated base) (fun s m hs hg => hs.move hwrap m hg) hstart hserial
  exact (run_of_always halways).cell_ne hopen

end Droid.Lib.Patch
