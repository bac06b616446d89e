import Mathlib.Data.List.Nodup
import Mathlib.Algebra.BigOperators.Group.List.Basic
import Mathlib.Algebra.Order.BigOperators.Group.List
import Mathlib.Algebra.Order.Group.Int
import Mathlib.Tactic.Ring
import Mathlib.Tactic.Abel

/-! Insertion-ordered dictionaries: a new key goes last, an old key keeps its place. -/
namespace Droid.Lib

/-- A dictionary is its entries in insertion order; no key occurs twice. -/
structure Dict (κ ν : Type) where
  entries : List (κ × ν)
  nodup : (entries.map Prod.fst).Nodup

namespace Dict
variable {κ ν : Type} [DecidableEq κ]

def empty : Dict κ ν := ⟨[], List.nodup_nil⟩

instance : Inhabited (Dict κ ν) := ⟨empty⟩

def get? (d : Dict κ ν) (k : κ) : Option ν := d.entries.lookup k

def contains (d : Dict κ ν) (k : κ) : Bool := (d.get? k).isSome

def size (d : Dict κ ν) : Nat := d.entries.length

def values (d : Dict κ ν) : List ν := d.entries.map Prod.snd

/-- Assignment to a key on a raw entry list. -/
def put (k : κ) (v : ν) : List (κ × ν) → List (κ × ν)
  | [] => [(k, v)]
  | e :: es => if e.1 = k then (k, v) :: es else e :: put k v es

theorem mem_keys_put (k : κ) (v : ν) (es : List (κ × ν)) (x : κ) :
    x ∈ (put k v es).map Prod.fst ↔ x = k ∨ x ∈ es.map Prod.fst := by
  induction es with
  | nil => simp [put]
  | cons e es ih =>
    rw [put]
    split
    · rename_i h
      simp only [List.map_cons, List.mem_cons, h]
      tauto
    · simp only [List.map_cons, List.mem_cons, ih]
      tauto

theorem nodup_put (k : κ) (v : ν) {es : List (κ × ν)} (h : (es.map Prod.fst).Nodup) :
    ((put k v es).map Prod.fst).Nodup := by
  induction es with
  | nil => simp [put]
  | cons e es ih =>
    obtain ⟨hn, ht⟩ := List.nodup_cons.mp h
    rw [put]
    split
    · rename_i hk
      exact List.nodup_cons.mpr ⟨hk ▸ hn, ht⟩
    · rename_i hk
      refine List.nodup_cons.mpr ⟨?_, ih ht⟩
      intro hm
      rcases (mem_keys_put k v es e.1).mp hm with he | he
      · exact hk he
      · exact hn he

/-- `d[k] = v`. -/
def insert (d : Dict κ ν) (k : κ) (v : ν) : Dict κ ν := ⟨put k v d.entries, nodup_put k v d.nodup⟩

/-- Keep the entries whose key satisfies the test. -/
def filterKeys (d : Dict κ ν) (p : κ → Bool) : Dict κ ν :=
  ⟨d.entries.filter (fun e => p e.1), (List.Sublist.map _ List.filter_sublist).nodup d.nodup⟩

def erase (d : Dict κ ν) (k : κ) : Dict κ ν := d.filterKeys (fun x => decide (x ≠ k))

/-- Replace every value, keys and order unchanged. -/
def mapValues {μ : Type} (d : Dict κ ν) (f : κ → ν → μ) : Dict κ μ :=
  ⟨d.entries.map (fun e => (e.1, f e.1 e.2)), by simpa [Function.comp_def] using d.nodup⟩

@[simp] theorem get?_empty (k : κ) : (empty : Dict κ ν).get? k = none := rfl

private theorem lookup_entry (e : κ × ν) (es : List (κ × ν)) (x : κ) :
    (e :: es).lookup x = if x = e.1 then some e.2 else es.lookup x := by
  obtain ⟨k, v⟩ := e
  rw [List.lookup_cons]
  by_cases hx : x = k
  · simp [hx]
  · rw [if_neg hx, beq_eq_false_iff_ne.mpr hx]

private theorem lookup_put (k : κ) (v : ν) (es : List (κ × ν)) (x : κ) :
    (put k v es).lookup x = if x = k then some v else es.lookup x := by
  induction es with
  | nil =>
    by_cases hx : x = k
    · simp [put, hx]
    · simp [put, hx]
  | cons e es ih =>
    rw [put]
    split
    · rename_i hk
      rw [lookup_entry, lookup_entry, hk]
      by_cases hx : x = k <;> simp [hx]
    · rename_i hk
      rw [lookup_entry, lookup_entry, ih]
      by_cases hx : x = e.1
      · subst hx
        simp [hk]
      · simp [hx]

private theorem put_new {k : κ} {es : List (κ × ν)} (h : es.lookup k = none) (v : ν) :
    put k v es = es ++ [(k, v)] := by
  induction es with
  | nil => rfl
  | cons e es ih =>
    rw [lookup_entry] at h
    by_cases hk : k = e.1
    · rw [if_pos hk] at h
      cases h
    · rw [if_neg hk] at h
      rw [put, if_neg (Ne.symm hk), ih h]
      rfl

theorem entries_insert {d : Dict κ ν} {k : κ} (h : d.get? k = none) (v : ν) :
    (d.insert k v).entries = d.entries ++ [(k, v)] :=
  put_new h v

@[simp] theorem get?_insert (d : Dict κ ν) (k : κ) (v : ν) (x : κ) :
    (d.insert k v).get? x = if x = k then some v else d.get? x :=
  lookup_put k v d.entries x

private theorem put_self {k : κ} {v : ν} {es : List (κ × ν)} (h : es.lookup k = some v) : put k v es = es := by
  induction es with
  | nil => cases h
  | cons e es ih =>
    rw [lookup_entry] at h
    rw [put]
    by_cases hk : k = e.1
    · rw [if_pos hk] at h
      rw [if_pos hk.symm, ← Option.some.inj h, hk]
    · rw [if_neg hk] at h
      rw [if_neg (Ne.symm hk), ih h]

private theorem lookup_filter (p : κ → Bool) (es : List (κ × ν)) (x : κ) :
    (es.filter (fun e => p e.1)).lookup x = if p x then es.lookup x else none := by
  induction es with
  | nil => simp
  | cons e es ih =>
    rw [List.filter_cons]
    by_cases hx : x = e.1
    · subst hx
      by_cases hp : p e.1 <;> simp [hp, lookup_entry, ih]
    · by_cases hp : p e.1 <;> simp [hp, lookup_entry, hx, ih]

@[simp] theorem get?_filterKeys (d : Dict κ ν) (p : κ → Bool) (x : κ) :
    (d.filterKeys p).get? x = if p x then d.get? x else none :=
  lookup_filter p d.entries x

@[simp] theorem get?_erase (d : Dict κ ν) (k x : κ) :
    (d.erase k).get? x = if x = k then none else d.get? x := by
  by_cases h : x = k <;> simp [erase, h]

private theorem lookup_mapValues {μ : Type} (f : κ → ν → μ) (es : List (κ × ν)) (x : κ) :
    (es.map (fun e => (e.1, f e.1 e.2))).lookup x = (es.lookup x).map (f x) := by
  induction es with
  | nil => rfl
  | cons e es ih =>
    rw [List.map_cons, lookup_entry, lookup_entry, ih]
    by_cases hx : x = e.1
    · subst hx
      simp
    · simp [hx]

@[simp] theorem get?_mapValues {μ : Type} (d : Dict κ ν) (f : κ → ν → μ) (x : κ) :
    (d.mapValues f).get? x = (d.get? x).map (f x) :=
  lookup_mapValues f d.entries x

theorem mem_entries_of_get? {d : Dict κ ν} {k : κ} {v : ν} (h : d.get? k = some v) :
    (k, v) ∈ d.entries := by
  unfold get? at h
  generalize d.entries = es at h
  induction es with
  | nil => simp at h
  | cons e es ih =>
    rw [lookup_entry] at h
    by_cases hk : k = e.1
    · rw [if_pos hk] at h
      cases h
      rw [hk]
      exact List.mem_cons_self
    · rw [if_neg hk] at h
      exact List.mem_cons_of_mem _ (ih h)

private theorem lookup_of_mem {es : List (κ × ν)} (hn : (es.map Prod.fst).Nodup) {k : κ} {v : ν}
    (h : (k, v) ∈ es) : es.lookup k = some v := by
  induction es with
  | nil => simp at h
  | cons e es ih =>
    obtain ⟨hne, ht⟩ := List.nodup_cons.mp hn
    rw [lookup_entry]
    rcases List.mem_cons.mp h with rfl | hm
    · exact if_pos rfl
    · have hk : k ≠ e.1 := fun hk => hne (hk ▸ List.mem_map_of_mem hm)
      rw [if_neg hk]
      exact ih ht hm

theorem mem_entries_iff (d : Dict κ ν) (k : κ) (v : ν) :
    (k, v) ∈ d.entries ↔ d.get? k = some v :=
  ⟨lookup_of_mem d.nodup, mem_entries_of_get?⟩

/-- Keep the entries that satisfy the test. -/
def filter (d : Dict κ ν) (p : κ → ν → Bool) : Dict κ ν :=
  ⟨d.entries.filter (fun e => p e.1 e.2), (List.Sublist.map _ List.filter_sublist).nodup d.nodup⟩

@[simp] theorem get?_filter (d : Dict κ ν) (p : κ → ν → Bool) (x : κ) : (d.filter p).get? x = (d.get? x).filter (p x) := by
  ext v
  rw [← mem_entries_iff, Option.filter_eq_some_iff, ← mem_entries_iff]
  exact List.mem_filter

theorem mem_keys_iff (d : Dict κ ν) (k : κ) : k ∈ d.entries.map Prod.fst ↔ (d.get? k).isSome := by
  rw [List.mem_map, Option.isSome_iff_exists]
  constructor
  · rintro ⟨e, he, rfl⟩
    exact ⟨e.2, (mem_entries_iff d e.1 e.2).mp he⟩
  · rintro ⟨v, hv⟩
    exact ⟨(k, v), (mem_entries_iff d k v).mpr hv, rfl⟩

theorem mem_values_iff (d : Dict κ ν) (v : ν) : v ∈ d.values ↔ ∃ k, d.get? k = some v := by
  rw [values, List.mem_map]
  constructor
  · rintro ⟨⟨k, v⟩, he, rfl⟩
    exact ⟨k, (mem_entries_iff d k v).mp he⟩
  · rintro ⟨k, hk⟩
    exact ⟨(k, v), (mem_entries_iff d k v).mpr hk, rfl⟩

theorem find?_values_of_sole {d : Dict κ ν} {p : ν → Bool} {k : κ} {v : ν} (hk : d.get? k = some v) (hv : p v = true)
    (hsole : ∀ x w, d.get? x = some w → p w = true → x = k) : d.values.find? p = some v := by
  have hmem := (mem_values_iff d v).mpr ⟨k, hk⟩
  cases hfind : d.values.find? p with
  | none => exact absurd hv (List.find?_eq_none.mp hfind v hmem)
  | some w =>
    obtain ⟨x, hx⟩ := (mem_values_iff d w).mp (List.mem_of_find?_eq_some hfind)
    rw [hsole x w hx (List.find?_some hfind), hk] at hx
    exact hx.symm

omit [DecidableEq κ] in
theorem entries_injective {d d' : Dict κ ν} (h : d.entries = d'.entries) : d = d' := by
  cases d
  cases d'
  cases h
  rfl

theorem insert_self {d : Dict κ ν} {k : κ} {v : ν} (h : d.get? k = some v) : d.insert k v = d :=
  entries_injective (put_self h)

def update (d d' : Dict κ ν) : Dict κ ν := d'.entries.foldl (fun acc e => acc.insert e.1 e.2) d

private theorem get?_foldl_insert {es : List (κ × ν)} (hn : (es.map Prod.fst).Nodup) (d : Dict κ ν)
    (x : κ) :
    (es.foldl (fun acc e => acc.insert e.1 e.2) d).get? x = (es.lookup x).or (d.get? x) := by
  induction es generalizing d with
  | nil => rfl
  | cons e es ih =>
    obtain ⟨hne, hn⟩ := List.nodup_cons.mp hn
    rw [List.foldl_cons, ih hn, lookup_entry, get?_insert]
    by_cases hx : x = e.1
    · -- no later entry has the key
      have hlookup : es.lookup x = none := by
        apply List.lookup_eq_none_iff.mpr
        intro a ha
        exact bne_iff_ne.mpr fun h => hne (hx ▸ h ▸ List.mem_map_of_mem ha)
      rw [hlookup, if_pos hx, if_pos hx]
      rfl
    · rw [if_neg hx, if_neg hx]

@[simp] theorem get?_update (d d' : Dict κ ν) (x : κ) :
    (d.update d').get? x = (d'.get? x).or (d.get? x) :=
  get?_foldl_insert d'.nodup d x

/-- A comprehension over rows: a later row replaces an earlier one of the same key. -/
def ofRows (key : ν → κ) (rows : List ν) : Dict κ ν :=
  rows.foldl (fun d r => d.insert (key r) r) empty

private theorem get?_foldl_rows (key : ν → κ) (rows : List ν) (d : Dict κ ν) (k : κ) :
    (rows.foldl (fun d r => d.insert (key r) r) d).get? k =
      (rows.reverse.find? fun r => decide (key r = k)).or (d.get? k) := by
  induction rows generalizing d with
  | nil => simp
  | cons r rows ih =>
    rw [List.foldl_cons, ih, get?_insert, List.reverse_cons, List.find?_append]
    cases rows.reverse.find? fun r => decide (key r = k) with
    | some x => simp
    | none =>
      by_cases h : key r = k
      · simp [h]
      · simp [h, Ne.symm h]

theorem get?_ofRows (key : ν → κ) (rows : List ν) (k : κ) :
    (ofRows key rows).get? k = rows.reverse.find? fun r => decide (key r = k) := by
  rw [ofRows, get?_foldl_rows]
  simp

theorem mem_of_ofRows {key : ν → κ} {rows : List ν} {k : κ} {r : ν}
    (h : (ofRows key rows).get? k = some r) : r ∈ rows ∧ key r = k := by
  rw [get?_ofRows] at h
  exact ⟨List.mem_reverse.mp (List.mem_of_find?_eq_some h), by simpa using List.find?_some h⟩

section Sum
variable {M : Type} [AddCommGroup M]

def sum (w : κ → ν → M) (d : Dict κ ν) : M := (d.entries.map (fun e => w e.1 e.2)).sum

private theorem sum_put (w : κ → ν → M) (k : κ) (v : ν) (es : List (κ × ν)) :
    ((put k v es).map (fun e => w e.1 e.2)).sum =
      (es.map (fun e => w e.1 e.2)).sum + w k v - ((es.lookup k).map (w k)).getD 0 := by
  induction es with
  | nil => simp [put]
  | cons e es ih =>
    rw [put, lookup_entry]
    split
    · rename_i hk
      subst hk
      simp only [List.map_cons, List.sum_cons, if_true, Option.map_some, Option.getD_some]
      abel
    · rename_i hk
      rw [List.map_cons, List.sum_cons, ih, if_neg (Ne.symm hk), List.map_cons, List.sum_cons]
      abel

theorem sum_insert (w : κ → ν → M) (d : Dict κ ν) (k : κ) (v : ν) :
    (d.insert k v).sum w = d.sum w + w k v - ((d.get? k).map (w k)).getD 0 :=
  sum_put w k v d.entries

omit [DecidableEq κ] in
theorem sum_add (w w' : κ → ν → M) (d : Dict κ ν) :
    (d.sum fun k v => w k v + w' k v) = d.sum w + d.sum w' := by
  unfold sum
  induction d.entries with
  | nil => simp
  | cons e es ih =>
    simp only [List.map_cons, List.sum_cons, ih]
    abel

theorem sum_congr {w w' : κ → ν → M} {d : Dict κ ν} (h : ∀ k v, d.get? k = some v → w k v = w' k v) :
    d.sum w = d.sum w' := by
  rw [sum]
  congr 1
  refine List.map_congr_left fun e he => ?_
  exact h e.1 e.2 (lookup_of_mem d.nodup he)

private theorem sum_single_entries (w : κ → ν → M) {es : List (κ × ν)} (hn : (es.map Prod.fst).Nodup)
    (k : κ) :
    (es.map fun e => if e.1 = k then w e.1 e.2 else 0).sum = ((es.lookup k).map (w k)).getD 0 := by
  induction es with
  | nil => rfl
  | cons e es ih =>
    obtain ⟨hne, hn⟩ := List.nodup_cons.mp hn
    rw [List.map_cons, List.sum_cons]
    by_cases hk : e.1 = k
    · subst hk
      have hrest : (es.map fun x => if x.1 = e.1 then w x.1 x.2 else 0).sum = 0 := by
        refine List.sum_eq_zero fun x hx => ?_
        obtain ⟨y, hy, rfl⟩ := List.mem_map.mp hx
        have hother : y.1 ≠ e.1 := fun heq => hne (heq ▸ List.mem_map_of_mem hy)
        rw [if_neg hother]
      rw [if_pos rfl, hrest, add_zero, lookup_entry, if_pos rfl]
      rfl
    · rw [if_neg hk, zero_add, ih hn, lookup_entry, if_neg (Ne.symm hk)]

theorem sum_single (w : κ → ν → M) (d : Dict κ ν) (k : κ) :
    (d.sum fun x v => if x = k then w x v else 0) = ((d.get? k).map (w k)).getD 0 :=
  sum_single_entries w d.nodup k

omit [DecidableEq κ] in
theorem sum_mapValues {μ : Type} (w : κ → μ → M) (d : Dict κ ν) (f : κ → ν → μ) :
    (d.mapValues f).sum w = d.sum fun k v => w k (f k v) := by
  simp [sum, mapValues, Function.comp_def]

end Sum

section Total
variable (w : κ → ν → ℤ)

def total (d : Dict κ ν) : ℤ := (d.entries.map (fun e => w e.1 e.2)).sum

omit [DecidableEq κ] in
@[simp] theorem total_empty : total w (empty : Dict κ ν) = 0 := rfl

theorem total_insert (d : Dict κ ν) (k : κ) (v : ν) :
    (d.insert k v).total w = d.total w + w k v - ((d.get? k).map (w k)).getD 0 :=
  sum_insert w d k v

theorem total_nonneg (d : Dict κ ν) (h : ∀ k v, d.get? k = some v → 0 ≤ w k v) : 0 ≤ d.total w := by
  apply List.sum_nonneg
  intro x hx
  obtain ⟨e, he, rfl⟩ := List.mem_map.mp hx
  exact h e.1 e.2 ((mem_entries_iff d e.1 e.2).mp he)

theorem weight_le_total (d : Dict κ ν) (h : ∀ k v, d.get? k = some v → 0 ≤ w k v) {k : κ} {v : ν}
    (hk : d.get? k = some v) : w k v ≤ d.total w := by
  have hm := mem_entries_of_get? hk
  rw [total]
  apply List.single_le_sum
  · intro x hx
    obtain ⟨e, he, rfl⟩ := List.mem_map.mp hx
    exact h e.1 e.2 ((mem_entries_iff d e.1 e.2).mp he)
  · exact List.mem_map.mpr ⟨(k, v), hm, rfl⟩

end Total
end Dict
end Droid.Lib
