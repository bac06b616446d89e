import Droid.Lib.Dict
import Mathlib.Data.List.Induction
import Mathlib.Algebra.Order.Group.Unbundled.Abs
import Mathlib.Algebra.Order.Ring.Rat
import Mathlib.Tactic.Linarith

/-! Items tallied by a key, each under an entry that starts out empty, and what the entries sum up to. -/
namespace Droid.Lib
variable {κ ι ν : Type} [DecidableEq κ]

/-- `setdefault` and update, for one item after the other. -/
def tallyFrom (key : ι → κ) (start : ν) (add : ν → ι → ν) (d : Dict κ ν) (items : List ι) : Dict κ ν :=
  items.foldl (fun d i => d.insert (key i) (add ((d.get? (key i)).getD start) i)) d

def tally (key : ι → κ) (start : ν) (add : ν → ι → ν) (items : List ι) : Dict κ ν :=
  tallyFrom key start add Dict.empty items

variable {key : ι → κ} {start : ν} {add : ν → ι → ν}

theorem tally_append_singleton (items : List ι) (i : ι) : tally key start add (items ++ [i]) =
    (tally key start add items).insert (key i)
      (add (((tally key start add items).get? (key i)).getD start) i) := by
  rw [tally, tallyFrom, List.foldl_append]
  rfl

theorem forall_get?_tally {P : ν → Prop} (hstart : P start) (hadd : ∀ e i, P e → P (add e i)) (items : List ι)
    {k : κ} {e : ν} (h : (tally key start add items).get? k = some e) : P e := by
  induction items using List.reverseRecOn generalizing k e with
  | nil => cases h
  | append_singleton items i ih =>
    rw [tally_append_singleton, Dict.get?_insert] at h
    split at h
    · rw [← Option.some.inj h]
      apply hadd
      cases hold : (tally key start add items).get? (key i) with
      | none => exact hstart
      | some old => exact ih hold
    · exact ih h

/-- One item changes the sum by what it changes in its entry. -/
theorem sum_tally_turn {M : Type} [AddCommGroup M] {w : ν → M} (hstart : w start = 0) (d : Dict κ ν) (i : ι) :
    (d.insert (key i) (add ((d.get? (key i)).getD start) i)).sum (fun _ => w) =
      d.sum (fun _ => w) +
        (w (add ((d.get? (key i)).getD start) i) - w ((d.get? (key i)).getD start)) := by
  rw [Dict.sum_insert]
  cases d.get? (key i) with
  | none =>
    simp only [Option.map_none, Option.getD_none, hstart]
    abel
  | some e =>
    simp only [Option.map_some, Option.getD_some]
    abel

theorem sum_tally {M : Type} [AddCommGroup M] (w : ν → M) (v : ι → M) (hstart : w start = 0)
    (hadd : ∀ e i, w (add e i) = w e + v i) (items : List ι) :
    (tally key start add items).sum (fun _ => w) = (items.map v).sum := by
  have hfrom : ∀ d : Dict κ ν,
      (tallyFrom key start add d items).sum (fun _ => w) = d.sum (fun _ => w) + (items.map v).sum := by
    induction items with
    | nil => exact fun d => (add_zero _).symm
    | cons i items ih =>
      intro d
      rw [tallyFrom, List.foldl_cons, ← tallyFrom, ih, sum_tally_turn hstart, hadd, List.map_cons,
        List.sum_cons]
      abel
  rw [tally, hfrom]
  exact zero_add _

theorem abs_sum_tally_sub_le (w : ν → ℚ) (v : ι → ℚ) {ε : ℚ} (hstart : w start = 0)
    (hadd : ∀ e i, |w (add e i) - (w e + v i)| ≤ ε) (items : List ι) :
    |(tally key start add items).sum (fun _ => w) - (items.map v).sum| ≤ items.length * ε := by
  have hfrom : ∀ d : Dict κ ν,
      |(tallyFrom key start add d items).sum (fun _ => w) - (d.sum (fun _ => w) + (items.map v).sum)| ≤
        items.length * ε := by
    induction items with
    | nil =>
      intro d
      simp [tallyFrom]
    | cons i items ih =>
      intro d
      have hrest := ih (d.insert (key i) (add ((d.get? (key i)).getD start) i))
      have hturn := hadd ((d.get? (key i)).getD start) i
      rw [sum_tally_turn hstart] at hrest
      rw [tallyFrom, List.foldl_cons, ← tallyFrom, List.map_cons, List.sum_cons, List.length_cons]
      rw [abs_le] at hrest hturn ⊢
      push_cast
      constructor <;> linarith
  have hzero : (Dict.empty : Dict κ ν).sum (fun _ => w) = 0 := rfl
  have hempty := hfrom Dict.empty
  rwa [hzero, zero_add] at hempty

/-- `defaultdict(list)`: the items under their keys, in their order. -/
def grouped (key : ι → κ) (items : List ι) : Dict κ (List ι) := tally key [] (fun group i => group ++ [i]) items

theorem get?_grouped (items : List ι) (k : κ) : (grouped key items).get? k =
    if items.filter (fun i => key i = k) = [] then none else some (items.filter fun i => key i = k) := by
  induction items using List.reverseRecOn generalizing k with
  | nil => rfl
  | append_singleton items i ih =>
    have hold : ((tally key [] (fun group i => group ++ [i]) items).get? (key i)).getD [] =
        items.filter fun x => key x = key i := by
      have hgroup := ih (key i)
      rw [grouped] at hgroup
      rw [hgroup]
      split
      · rename_i hempty
        exact hempty.symm
      · rfl
    rw [grouped, tally_append_singleton, Dict.get?_insert, List.filter_append, hold]
    by_cases hk : k = key i
    · subst hk
      simp
    · have hother : [i].filter (fun x => key x = k) = [] := by simp [Ne.symm hk]
      rw [if_neg hk, hother, List.append_nil]
      exact ih k

theorem mem_grouped {items : List ι} {k : κ} {group : List ι} (h : (k, group) ∈ (grouped key items).entries) :
    group = items.filter (fun i => key i = k) ∧ group ≠ [] := by
  rw [Dict.mem_entries_iff, get?_grouped] at h
  split at h
  · cases h
  · rename_i hne
    cases h
    exact ⟨rfl, hne⟩

theorem mem_grouped_of_mem {items : List ι} {i : ι} (h : i ∈ items) :
    (key i, items.filter fun x => key x = key i) ∈ (grouped key items).entries := by
  rw [Dict.mem_entries_iff, get?_grouped, if_neg]
  exact List.ne_nil_of_mem (List.mem_filter.mpr ⟨h, by simp⟩)

/-- What a loop over the groups collects from its own group, where it collects items of the group only. -/
theorem filter_flatMap_grouped {f : κ → List ι → List ι} (hsub : ∀ k group, ∀ i ∈ f k group, i ∈ group)
    {items : List ι} {k : κ} (h : items.filter (fun i => key i = k) ≠ []) :
    ((grouped key items).entries.flatMap fun e => f e.1 e.2).filter (fun i => key i = k) =
      f k (items.filter fun i => key i = k) := by
  have hown : ∀ e ∈ (grouped key items).entries, ∀ i ∈ f e.1 e.2, key i = e.1 := by
    intro e he i hi
    have hmem := hsub _ _ i hi
    rw [(mem_grouped he).1] at hmem
    simpa using (List.mem_filter.mp hmem).2
  have hentry : (k, items.filter fun i => key i = k) ∈ (grouped key items).entries := by
    rw [Dict.mem_entries_iff, get?_grouped, if_neg h]
  have hkeys := (grouped key items).nodup
  generalize (grouped key items).entries = entries at hown hentry hkeys
  induction entries with
  | nil => cases hentry
  | cons e rest ih =>
    obtain ⟨hnew, hkeys'⟩ := List.nodup_cons.mp hkeys
    rw [List.flatMap_cons, List.filter_append]
    rcases List.mem_cons.mp hentry with rfl | hrest
    · have hmine : (f k (items.filter fun i => key i = k)).filter (fun i => key i = k) =
          f k (items.filter fun i => key i = k) :=
        List.filter_eq_self.mpr fun i hi => by simpa using hown _ List.mem_cons_self i hi
      have htheirs : (rest.flatMap fun e => f e.1 e.2).filter (fun i => key i = k) = [] := by
        refine List.filter_eq_nil_iff.mpr fun i hi => ?_
        obtain ⟨e, he, hie⟩ := List.mem_flatMap.mp hi
        intro hk
        have heq := (hown e (List.mem_cons_of_mem _ he) i hie).symm.trans (by simpa using hk)
        exact hnew (List.mem_map.mpr ⟨e, he, heq⟩)
      rw [hmine, htheirs, List.append_nil]
    · have hother : (f e.1 e.2).filter (fun i => key i = k) = [] := by
        refine List.filter_eq_nil_iff.mpr fun i hi => ?_
        intro hk
        have heq : e.1 = k := (hown e List.mem_cons_self i hi).symm.trans (by simpa using hk)
        exact hnew (List.mem_map.mpr ⟨_, hrest, heq.symm⟩)
      rw [hother, List.nil_append]
      exact ih (fun e he => hown e (List.mem_cons_of_mem _ he)) hrest hkeys'

end Droid.Lib
