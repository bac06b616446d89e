import Droid.Lib.Dict

/-! Dictionaries that go on from another one: the old keys keep their places, each old value changes
within a relation, new keys come last. -/
namespace Droid.Lib.Dict
variable {κ ν : Type} {R : ν → ν → Prop}

/-- The relation on raw entry lists. -/
def extendsEntries (R : ν → ν → Prop) : List (κ × ν) → List (κ × ν) → Prop
  | [], _ => True
  | _ :: _, [] => False
  | e :: es, e' :: es' => e'.1 = e.1 ∧ R e.2 e'.2 ∧ extendsEntries R es es'

def ExtendsBy (R : ν → ν → Prop) (d d' : Dict κ ν) : Prop := extendsEntries R d.entries d'.entries

private theorem extendsEntries_refl (hrefl : ∀ v, R v v) (es : List (κ × ν)) : extendsEntries R es es := by
  induction es with
  | nil => trivial
  | cons e es ih => exact ⟨rfl, hrefl e.2, ih⟩

theorem extendsBy_refl (hrefl : ∀ v, R v v) (d : Dict κ ν) : d.ExtendsBy R d :=
  extendsEntries_refl hrefl d.entries

private theorem extendsEntries_trans (htrans : ∀ u v w, R u v → R v w → R u w)
    {es es' es'' : List (κ × ν)} (h : extendsEntries R es es') (h' : extendsEntries R es' es'') :
    extendsEntries R es es'' := by
  induction es generalizing es' es'' with
  | nil => trivial
  | cons e es ih =>
    cases es' with
    | nil => exact h.elim
    | cons e' es' =>
      cases es'' with
      | nil => exact h'.elim
      | cons e'' es'' =>
        obtain ⟨hkey, hvalue, hrest⟩ := h
        obtain ⟨hkey', hvalue', hrest'⟩ := h'
        exact ⟨hkey'.trans hkey, htrans _ _ _ hvalue hvalue', ih hrest hrest'⟩

theorem ExtendsBy.trans {d d' d'' : Dict κ ν} (htrans : ∀ u v w, R u v → R v w → R u w)
    (h : d.ExtendsBy R d') (h' : d'.ExtendsBy R d'') : d.ExtendsBy R d'' :=
  extendsEntries_trans htrans h h'

private theorem find?_extendsEntries {p : κ × ν → Bool} (hp : ∀ k v v', R v v' → p (k, v') = p (k, v))
    {es es' : List (κ × ν)} (h : extendsEntries R es es') {k : κ} {v : ν} (hfind : es.find? p = some (k, v)) :
    ∃ v', es'.find? p = some (k, v') ∧ R v v' := by
  induction es generalizing es' with
  | nil => cases hfind
  | cons e es ih =>
    cases es' with
    | nil => exact h.elim
    | cons e' es' =>
      obtain ⟨hkey, hvalue, hrest⟩ := h
      have hsame : p e' = p e := by
        obtain ⟨k', v'⟩ := e'
        obtain ⟨k, v⟩ := e
        cases hkey
        exact hp _ v v' hvalue
      rw [List.find?_cons] at hfind
      rw [List.find?_cons, hsame]
      split at hfind
      · cases hfind
        exact ⟨e'.2, congrArg some (Prod.ext hkey rfl), hvalue⟩
      · exact ih hrest hfind

/-- What is found first is found first again, where the test does not see the change. -/
theorem ExtendsBy.find? {d d' : Dict κ ν} (h : d.ExtendsBy R d') {p : κ × ν → Bool}
    (hp : ∀ k v v', R v v' → p (k, v') = p (k, v)) {k : κ} {v : ν}
    (hfind : d.entries.find? p = some (k, v)) : ∃ v', d'.entries.find? p = some (k, v') ∧ R v v' :=
  find?_extendsEntries hp h hfind

variable [DecidableEq κ]

private theorem lookup_extendsEntries {es es' : List (κ × ν)} (h : extendsEntries R es es') {k : κ} {v : ν}
    (hk : es.lookup k = some v) : ∃ v', es'.lookup k = some v' ∧ R v v' := by
  induction es generalizing es' with
  | nil => cases hk
  | cons e es ih =>
    cases es' with
    | nil => exact h.elim
    | cons e' es' =>
      obtain ⟨hkey, hvalue, hrest⟩ := h
      rw [List.lookup_cons] at hk
      rw [List.lookup_cons, hkey]
      split at hk
      · cases hk
        exact ⟨e'.2, rfl, hvalue⟩
      · exact ih hrest hk

theorem ExtendsBy.get? {d d' : Dict κ ν} (h : d.ExtendsBy R d') {k : κ} {v : ν} (hk : d.get? k = some v) :
    ∃ v', d'.get? k = some v' ∧ R v v' :=
  lookup_extendsEntries h hk

private theorem extendsEntries_put (hrefl : ∀ v, R v v) {es : List (κ × ν)} {k : κ} {v : ν}
    (h : ∀ old, es.lookup k = some old → R old v) : extendsEntries R es (put k v es) := by
  induction es with
  | nil => trivial
  | cons e es ih =>
    rw [put]
    split
    · rename_i hk
      refine ⟨hk.symm, h e.2 ?_, extendsEntries_refl hrefl es⟩
      rw [← hk]
      exact List.lookup_cons_self
    · rename_i hk
      refine ⟨rfl, hrefl e.2, ih ?_⟩
      intro old hold
      refine h old ?_
      rw [List.lookup_cons, beq_eq_false_iff_ne.mpr (Ne.symm hk)]
      exact hold

/-- Assignment, where the old value allows the new one. -/
theorem extendsBy_insert (hrefl : ∀ v, R v v) {d : Dict κ ν} {k : κ} {v : ν}
    (h : ∀ old, d.get? k = some old → R old v) : d.ExtendsBy R (d.insert k v) :=
  extendsEntries_put hrefl h

end Droid.Lib.Dict
