import Droid.Lib.Buckets
import Droid.Lib.Dict
import Droid.Lib.Frames
import Mathlib.Data.List.Induction
import Mathlib.Data.List.Sort

/-! Rows gathered into a dictionary of lists: each key has its rows, the first of each tag. -/
namespace Droid.Lib

section KeepFirst
variable {α τ : Type} [DecidableEq τ] (tag : α → τ)

theorem exists_mem_keepFirst {rows : List α} {row : α} (h : row ∈ rows) :
    ∃ first ∈ keepFirst tag rows, tag first = tag row := by
  induction rows with
  | nil => exact absurd h List.not_mem_nil
  | cons a rest ih =>
    by_cases htag : tag a = tag row
    · exact ⟨a, List.mem_cons_self, htag⟩
    · have hrest : row ∈ rest := (List.mem_cons.mp h).resolve_left fun heq => htag (by rw [heq])
      obtain ⟨first, hfirst, hkept⟩ := ih hrest
      have hne : tag first ≠ tag a := fun heq => htag (heq.symm.trans hkept)
      exact ⟨first, List.mem_cons_of_mem _ (List.mem_filter.mpr ⟨hfirst, decide_eq_true hne⟩), hkept⟩

theorem keepFirst_concat (rows : List α) (row : α) :
    keepFirst tag (rows ++ [row]) =
      if ∃ first ∈ keepFirst tag rows, tag first = tag row then keepFirst tag rows
      else keepFirst tag rows ++ [row] := by
  induction rows with
  | nil => rfl
  | cons a rest ih =>
    rw [List.cons_append, keepFirst, keepFirst, ih]
    by_cases hrest : ∃ first ∈ keepFirst tag rest, tag first = tag row
    · obtain ⟨first, hfirst, hkept⟩ := hrest
      have hseen : ∃ other ∈ a :: (keepFirst tag rest).filter (fun other => tag other ≠ tag a),
          tag other = tag row := by
        by_cases ha : tag first = tag a
        · exact ⟨a, List.mem_cons_self, ha.symm.trans hkept⟩
        · exact ⟨first, List.mem_cons_of_mem _ (List.mem_filter.mpr ⟨hfirst, decide_eq_true ha⟩), hkept⟩
      rw [if_pos ⟨first, hfirst, hkept⟩, if_pos hseen]
    · rw [if_neg hrest, List.filter_append]
      by_cases ha : tag row = tag a
      · rw [List.filter_cons_of_neg (by simpa using ha), List.filter_nil, List.append_nil,
          if_pos ⟨a, List.mem_cons_self, ha.symm⟩]
      · have hnew : ¬ ∃ other ∈ a :: (keepFirst tag rest).filter (fun other => tag other ≠ tag a),
            tag other = tag row := by
          rintro ⟨other, hother, heq⟩
          rcases List.mem_cons.mp hother with rfl | hother
          · exact ha heq.symm
          · exact hrest ⟨other, (List.mem_filter.mp hother).1, heq⟩
        rw [if_neg hnew, List.filter_cons_of_pos (by simpa using ha), List.filter_nil, List.cons_append]

end KeepFirst

section Gather
variable {α κ τ : Type} [DecidableEq κ] [DecidableEq τ] (key : α → κ) (tag : α → τ)

/-- A row goes to the end of its key's list, unless one of its tag is there. -/
def gather (found : Dict κ (List α)) (row : α) : Dict κ (List α) :=
  let known := (found.get? (key row)).getD []
  if known.any fun other => tag other == tag row then found else found.insert (key row) (known ++ [row])

def gatherAll (rows : List α) : Dict κ (List α) := rows.foldl (gather key tag) .empty

theorem bucket_concat (rows : List α) (row : α) (k : κ) :
    bucket key (rows ++ [row]) k = bucket key rows k ++ if key row = k then [row] else [] := by
  unfold bucket
  rw [List.filter_append]
  split
  · rename_i h
    rw [List.filter_cons_of_pos (by simpa using h), List.filter_nil]
  · rename_i h
    rw [List.filter_cons_of_neg (by simpa using h), List.filter_nil]

theorem get?_gatherAll (rows : List α) (k : κ) :
    (gatherAll key tag rows).get? k =
      if bucket key rows k = [] then none else some (keepFirst tag (bucket key rows k)) := by
  induction rows using List.reverseRecOn generalizing k with
  | nil => rfl
  | append_singleton rows row ih =>
    have hall : gatherAll key tag (rows ++ [row]) = gather key tag (gatherAll key tag rows) row := by
      unfold gatherAll
      rw [List.foldl_append]
      rfl
    have hknown : ((gatherAll key tag rows).get? (key row)).getD [] =
        keepFirst tag (bucket key rows (key row)) := by
      rw [ih]
      split
      · rename_i hnone
        rw [hnone]
        rfl
      · rfl
    rw [hall, gather, hknown, bucket_concat]
    by_cases hseen : ∃ first ∈ keepFirst tag (bucket key rows (key row)), tag first = tag row
    · have hany : (keepFirst tag (bucket key rows (key row))).any (fun other => tag other == tag row) = true := by
        simpa using hseen
      rw [if_pos hany, ih]
      by_cases hk : key row = k
      · subst hk
        have hne : bucket key rows (key row) ≠ [] :=
          hseen.elim fun first h => List.ne_nil_of_mem ((keepFirst_sublist tag _).subset h.1)
        rw [if_pos rfl, keepFirst_concat, if_pos hseen, if_neg hne,
          if_neg (List.append_ne_nil_of_left_ne_nil hne _)]
      · rw [if_neg hk, List.append_nil]
    · have hany : ¬ (keepFirst tag (bucket key rows (key row))).any (fun other => tag other == tag row) = true := by
        simpa using hseen
      rw [if_neg hany, Dict.get?_insert]
      by_cases hk : key row = k
      · subst hk
        rw [if_pos rfl, if_pos rfl, keepFirst_concat, if_neg hseen,
          if_neg (List.append_ne_nil_of_right_ne_nil _ (List.cons_ne_nil _ _))]
      · rw [if_neg (Ne.symm hk), if_neg hk, List.append_nil, ih]

/-! The lists in the order of a number. -/

section Sorted
variable (number : α → Nat)

def gatherSorted (rows : List α) : Dict κ (List α) :=
  (gatherAll key tag rows).mapValues fun _ list => list.insertionSort fun a b => number a ≤ number b

/-- The list of a key: rows of the key, one of each tag, in order. -/
structure Gathered (rows : List α) (k : κ) (list : List α) : Prop where
  nonempty : list ≠ []
  seen : ∀ row ∈ list, row ∈ rows ∧ key row = k
  all : ∀ row ∈ rows, key row = k → ∃ first ∈ list, tag first = tag row
  nodup : (list.map tag).Nodup
  ordered : list.Pairwise fun a b => number a ≤ number b

variable {key tag number}

theorem gathered_of_get? {rows list : List α} {k : κ} (h : (gatherSorted key tag number rows).get? k = some list) :
    Gathered key tag number rows k list := by
  rw [gatherSorted, Dict.get?_mapValues, get?_gatherAll] at h
  split at h
  · cases h
  rename_i hne
  obtain rfl := Option.some.inj h
  have hperm := List.perm_insertionSort (fun a b : α => number a ≤ number b)
    (keepFirst tag (bucket key rows k))
  have hall : ∀ row ∈ bucket key rows k,
      ∃ first ∈ (keepFirst tag (bucket key rows k)).insertionSort fun a b => number a ≤ number b,
        tag first = tag row := by
    intro row hrow
    obtain ⟨first, hfirst, htag⟩ := exists_mem_keepFirst tag hrow
    exact ⟨first, hperm.mem_iff.mpr hfirst, htag⟩
  constructor
  · obtain ⟨row, hrow⟩ := List.exists_mem_of_ne_nil _ hne
    obtain ⟨first, hfirst, -⟩ := hall row hrow
    exact List.ne_nil_of_mem hfirst
  · intro row hrow
    exact (mem_bucket key).mp ((keepFirst_sublist tag _).subset (hperm.mem_iff.mp hrow))
  · intro row hrow hk
    exact hall row ((mem_bucket key).mpr ⟨hrow, hk⟩)
  · exact (hperm.map _).nodup_iff.mpr (nodup_keepFirst tag _)
  · have : Std.Total fun a b : α => number a ≤ number b := ⟨fun a b => Nat.le_total _ _⟩
    have : IsTrans α fun a b => number a ≤ number b := ⟨fun _ _ _ => Nat.le_trans⟩
    exact List.pairwise_insertionSort _ _

theorem get?_gatherSorted_eq_none {rows : List α} {k : κ} :
    (gatherSorted key tag number rows).get? k = none ↔ ∀ row ∈ rows, key row ≠ k := by
  rw [gatherSorted, Dict.get?_mapValues, Option.map_eq_none_iff, get?_gatherAll, bucket]
  simp [List.filter_eq_nil_iff]

end Sorted

/-! Rows that are made of other rows. -/

section Map
variable {β : Type} (f : β → α)

theorem keepFirst_map (rows : List β) :
    keepFirst tag (rows.map f) = (keepFirst (fun row => tag (f row)) rows).map f := by
  induction rows with
  | nil => rfl
  | cons row rest ih =>
    rw [List.map_cons, keepFirst, keepFirst, ih, List.map_cons, List.filter_map]
    rfl

theorem bucket_map (rows : List β) (k : κ) :
    bucket key (rows.map f) k = (bucket (fun row => key (f row)) rows k).map f := by
  rw [bucket, List.filter_map]
  rfl

theorem get?_gatherSorted_map (number : α → Nat) (rows : List β) (k : κ) :
    (gatherSorted key tag number (rows.map f)).get? k =
      ((gatherSorted (fun row => key (f row)) (fun row => tag (f row)) (fun row => number (f row)) rows).get? k).map
        (List.map f) := by
  rw [gatherSorted, gatherSorted, Dict.get?_mapValues, Dict.get?_mapValues, get?_gatherAll, get?_gatherAll,
    bucket_map, keepFirst_map]
  by_cases hne : bucket (fun row => key (f row)) rows k = []
  · rw [hne]
    rfl
  · rw [if_neg hne, if_neg (mt List.map_eq_nil_iff.mp hne), Option.map_some, Option.map_some, Option.map_some]
    congr 1
    exact (List.map_insertionSort _ _ f _ fun _ _ _ _ => Iff.rfl).symm

/-- Which rows a list has depends on which tags are equal, and on nothing else of them. -/
theorem keepFirst_congr {σ : Type} [DecidableEq σ] {tag : α → τ} {tag' : α → σ} (rows : List α)
    (h : ∀ a b, tag a = tag b ↔ tag' a = tag' b) : keepFirst tag rows = keepFirst tag' rows := by
  induction rows with
  | nil => rfl
  | cons row rest ih =>
    rw [keepFirst, keepFirst, ih]
    congr 1
    apply List.filter_congr
    intro other _
    rw [decide_eq_decide, ne_eq, ne_eq, h]

theorem get?_gatherSorted_congr {σ : Type} [DecidableEq σ] {tag : α → τ} {tag' : α → σ} (number : α → Nat)
    (h : ∀ a b, tag a = tag b ↔ tag' a = tag' b) (rows : List α) (k : κ) :
    (gatherSorted key tag number rows).get? k = (gatherSorted key tag' number rows).get? k := by
  rw [gatherSorted, gatherSorted, Dict.get?_mapValues, Dict.get?_mapValues, get?_gatherAll, get?_gatherAll,
    keepFirst_congr _ h]

end Map

end Gather

end Droid.Lib
