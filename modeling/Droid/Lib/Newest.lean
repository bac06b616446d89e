import Droid.Lib.Dict

/-! Copies with update stamps: the newest of several, and dictionaries merged so that a newer copy replaces an
older one. -/
namespace Droid.Lib

section Newest
variable {α : Type} (stamp : α → Int)

/-- One of the copies, with the greatest stamp among them. -/
def IsNewest (copies : List α) (a : α) : Prop := a ∈ copies ∧ ∀ b ∈ copies, stamp b ≤ stamp a

instance [DecidableEq α] (copies : List α) (a : α) : Decidable (IsNewest stamp copies a) :=
  inferInstanceAs (Decidable (a ∈ copies ∧ ∀ b ∈ copies, stamp b ≤ stamp a))

theorem IsNewest.keep {copies : List α} {a b : α} (h : IsNewest stamp copies a) (hle : stamp b ≤ stamp a) :
    IsNewest stamp (copies ++ [b]) a := by
  refine ⟨List.mem_append_left [b] h.1, ?_⟩
  intro c hc
  rcases List.mem_append.mp hc with hc | hc
  · exact h.2 c hc
  · rw [List.mem_singleton.mp hc]
    exact hle

theorem IsNewest.take {copies : List α} {a b : α} (h : IsNewest stamp copies a) (hle : stamp a ≤ stamp b) :
    IsNewest stamp (copies ++ [b]) b := by
  refine ⟨List.mem_append_right copies List.mem_cons_self, ?_⟩
  intro c hc
  rcases List.mem_append.mp hc with hc | hc
  · exact le_trans (h.2 c hc) hle
  · rw [List.mem_singleton.mp hc]

theorem IsNewest.single (a : α) : IsNewest stamp [a] a := by
  refine ⟨List.mem_cons_self, ?_⟩
  intro b hb
  rw [List.mem_singleton.mp hb]

def NewestWins (sources : List (Int × α)) (held : Option α) : Prop :=
  sources ≠ [] → ∃ source, IsNewest Prod.fst sources source ∧ held = some source.2

theorem newestWins_iff_of_stamped {sources : List (Int × α)} {a : α} (hmem : sources ≠ [])
    (hstamp : ∀ source ∈ sources, stamp source.2 = source.1) :
    NewestWins sources (some a) ↔ IsNewest Prod.fst sources (stamp a, a) := by
  constructor
  · intro h
    obtain ⟨⟨t, b⟩, hnewest, hheld⟩ := h hmem
    have hb : stamp b = t := hstamp _ hnewest.1
    cases hheld
    rw [hb]
    exact hnewest
  · intro h _
    exact ⟨_, h, rfl⟩

end Newest

namespace Dict
variable {κ μ ν : Type} [DecidableEq κ]

/-- A new copy is stored where there is none, or where it is newer than the old one. -/
def keepNewer (make : μ → ν) (newer : μ → ν → Bool) (old : Option ν) (new : μ) : ν :=
  match old with
  | none => make new
  | some old => if newer new old then make new else old

/-- Entry by entry into the first. -/
def mergeNewer (make : μ → ν) (newer : μ → ν → Bool) (d : Dict κ ν) (d' : Dict κ μ) : Dict κ ν :=
  d'.entries.foldl (fun acc e => acc.insert e.1 (keepNewer make newer (acc.get? e.1) e.2)) d

private theorem get?_foldl_keepNewer (make : μ → ν) (newer : μ → ν → Bool) {es : List (κ × μ)}
    (hn : (es.map Prod.fst).Nodup) (d : Dict κ ν) (k : κ) :
    (es.foldl (fun acc e => acc.insert e.1 (keepNewer make newer (acc.get? e.1) e.2)) d).get? k =
      ((es.lookup k).map (keepNewer make newer (d.get? k))).or (d.get? k) := by
  induction es generalizing d with
  | nil => rfl
  | cons e es ih =>
    obtain ⟨hne, hn⟩ := List.nodup_cons.mp hn
    rw [List.foldl_cons, ih hn, get?_insert, List.lookup_cons]
    by_cases hk : k = e.1
    · -- no later entry has the key
      have hlookup : es.lookup k = none := by
        apply List.lookup_eq_none_iff.mpr
        intro a ha
        exact bne_iff_ne.mpr fun h => hne (hk ▸ h ▸ List.mem_map_of_mem ha)
      subst hk
      simp [hlookup]
    · have hbeq : (k == e.1) = false := beq_eq_false_iff_ne.mpr hk
      rw [if_neg hk, hbeq]

@[simp] theorem get?_mergeNewer (make : μ → ν) (newer : μ → ν → Bool) (d : Dict κ ν) (d' : Dict κ μ) (k : κ) :
    (d.mergeNewer make newer d').get? k =
      ((d'.get? k).map (keepNewer make newer (d.get? k))).or (d.get? k) :=
  get?_foldl_keepNewer make newer d'.nodup d k

section Keep
variable {make : μ → ν} {newer : μ → ν → Bool} {old : Option ν}

theorem keepNewer_stays {new : Option μ} (h : ∀ m, new = some m → ∃ v, old = some v ∧ newer m v = false) :
    (new.map (keepNewer make newer old)).or old = old := by
  cases new with
  | none => rfl
  | some m =>
    obtain ⟨v, rfl, hnewer⟩ := h m rfl
    rw [Option.map_some, Option.some_or, keepNewer, hnewer, if_neg Bool.false_ne_true]

/-- What was kept is not older than the new copy, if that is not newer than what is made of it. -/
theorem not_newer_keepNewer {new : Option μ} (h : ∀ m, new = some m → newer m (make m) = false) :
    ∀ m, new = some m → ∃ v, (new.map (keepNewer make newer old)).or old = some v ∧ newer m v = false := by
  intro m hm
  have hmade := h m hm
  rw [hm, Option.map_some, Option.some_or]
  cases old with
  | none => exact ⟨make m, rfl, hmade⟩
  | some v =>
    rw [keepNewer]
    cases hv : newer m v with
    | true => exact ⟨make m, rfl, hmade⟩
    | false => exact ⟨v, rfl, hv⟩

/-- A newest copy stays one when the next is kept only where it is newer. -/
theorem newestWins_keepNewer {stamp : ν → Int} {stamp' : μ → Int} {sources : List (Int × ν)}
    (hold : ∀ v, old = some v → IsNewest Prod.fst sources (stamp v, v)) (hnone : old = none → sources = [])
    (hnewer : ∀ m v, newer m v = decide (stamp v < stamp' m)) (new : Option μ) :
    NewestWins (sources ++ (new.map fun m => (stamp' m, make m)).toList)
      ((new.map (keepNewer make newer old)).or old) := by
  intro hmem
  cases new with
  | none =>
    rw [Option.map_none, Option.toList_none, List.append_nil] at hmem ⊢
    cases hcase : old with
    | none => exact absurd (hnone hcase) hmem
    | some v => exact ⟨_, hold v hcase, rfl⟩
  | some m =>
    rw [Option.map_some, Option.toList_some, Option.map_some, Option.some_or]
    cases hcase : old with
    | none =>
      rw [hnone hcase]
      exact ⟨(stamp' m, make m), IsNewest.single Prod.fst _, rfl⟩
    | some v =>
      rw [keepNewer, hnewer]
      by_cases hlt : stamp v < stamp' m
      · rw [decide_eq_true hlt, if_pos rfl]
        exact ⟨(stamp' m, make m), (hold v hcase).take Prod.fst hlt.le, rfl⟩
      · rw [decide_eq_false hlt, if_neg Bool.false_ne_true]
        exact ⟨(stamp v, v), (hold v hcase).keep Prod.fst (not_lt.mp hlt), rfl⟩

end Keep

end Dict
end Droid.Lib
