import Droid.Events.Ingestion
import Droid.Lib.Extension

/-! Ingestion keeps every source record, once: what each entry of a run keeps of the store. -/
namespace Droid.Events.Ingestion
open Lib

def RawSourceEvent.origin (raw : RawSourceEvent) : Option (Adapter × FeedItem) :=
  match raw.rawPayload with
  | .item i => ([.RBI, .NSE, .BSE, .SEBI].find? fun a => a.sourceName == raw.sourceName).map fun a => (a, i)
  | .notes _ => none

theorem Adapter.origin_normalize (a : Adapter) (i : FeedItem) : (a.normalize i).origin = some (a, i) := by
  cases a <;> rfl

section
variable {P : Type} (env : Services P)

def Entry.item : Entry → Option (Adapter × FeedItem)
  | .rbi _ i => if Adapter.RBI.validate env.isDate i then some (.RBI, i) else none
  | .corporate _ i =>
    if (Adapter.ofCorporate i).validate env.isDate i then some (Adapter.ofCorporate i, i) else none
  | .sebi i => if Adapter.SEBI.validate env.isDate i then some (.SEBI, i) else none
  | .manual _ _ => none

def Holds (s : Store P) (k : String) (raw : RawSourceEvent) : Prop :=
  ∃ event, s.get? k = some event ∧ raw ∈ event.sources

/-- An event once stored keeps everything, and its sources in order. -/
def Grown (old new : CanonicalEvent P) : Prop :=
  ∃ more, new = { old with sources := old.sources ++ more }

def Extends (s s' : Store P) : Prop :=
  ∀ k event, s.get? k = some event → ∃ event', s'.get? k = some event' ∧ Grown event event'

/-- No event under another id holds a record of an item of this id, where no event has the id yet. -/
def Unclaimed (s : Store P) (id : String) : Prop :=
  ∀ e ∈ s.entries, ∀ raw ∈ e.2.sources, ∀ p ∈ raw.origin, p.1.identify p.2 ≠ id

/-- An item whose record finds its place: it is new, or the first event that it matches is the one with
its id, where that is stored, and has no other record of the same source. -/
def Fits (s : Store P) (a : Adapter) (i : FeedItem) : Prop :=
  match matchedExisting env s a i with
  | some (k, existing) => (s.contains (a.identify i) = true → k = a.identify i) ∧
    ((existing.sources.any fun source => source.sourceName == (a.normalize i).sourceName) = true →
      a.normalize i ∈ existing.sources)
  | none => Unclaimed s (a.identify i)

/-- A circular that is new, or whose record is there already. -/
def FitsCircular (s : Store P) (i : FeedItem) : Prop :=
  match s.get? (Adapter.SEBI.identify i) with
  | some existing => Adapter.SEBI.normalize i ∈ existing.sources
  | none => Unclaimed s (Adapter.SEBI.identify i)

def Lossless (s : Store P) : Entry → Prop
  | .rbi _ i => Adapter.RBI.validate env.isDate i = true → Fits env s .RBI i
  | .corporate _ i =>
    (Adapter.ofCorporate i).validate env.isDate i = true → Fits env s (Adapter.ofCorporate i) i
  | .sebi i => Adapter.SEBI.validate env.isDate i = true → FitsCircular s i
  | .manual _ c => s.get? c.id = none ∧ Unclaimed s c.id

def home (s : Store P) (a : Adapter) (i : FeedItem) : Option String :=
  match a with
  | .SEBI => some (Adapter.SEBI.identify i)
  | a => (matchedExisting env s a i).map Prod.fst

structure Kept (s : Store P) : Prop where
  keyed : ∀ k event, s.get? k = some event → event.canonicalEventId = k
  homed : ∀ k event, s.get? k = some event → ∀ raw ∈ event.sources, ∀ a i, raw.origin = some (a, i) →
    home env s a i = some k
  own : ∀ k event, s.get? k = some event → ∀ raw ∈ event.sources, ∀ a i, raw.origin = some (a, i) →
    s.contains (a.identify i) = true → k = a.identify i

end

section
variable {P : Type} {env : Services P} {s s' : Store P}

theorem grown_refl (event : CanonicalEvent P) : Grown event event := ⟨[], by rw [List.append_nil]⟩

theorem Grown.trans {a b c : CanonicalEvent P} (hab : Grown a b) (hbc : Grown b c) : Grown a c := by
  obtain ⟨more, rfl⟩ := hab
  obtain ⟨more', rfl⟩ := hbc
  exact ⟨more ++ more', by rw [List.append_assoc]⟩

theorem isDuplicate_grown {old new : CanonicalEvent P} (h : Grown old new) (candidate : CanonicalEvent P) :
    isDuplicate env candidate new = isDuplicate env candidate old := by
  obtain ⟨more, rfl⟩ := h
  rfl

theorem isDuplicate_id {candidate existing : CanonicalEvent P}
    (h : candidate.canonicalEventId = existing.canonicalEventId) :
    isDuplicate env candidate existing = true := by
  rw [isDuplicate, classifyMatch, if_pos h]

@[simp] theorem candidate_id (a : Adapter) (i : FeedItem) :
    (candidate env i a).canonicalEventId = a.identify i := by
  cases a <;> rfl

theorem contains_iff {k : String} : s.contains k = true ↔ ∃ event, s.get? k = some event :=
  Option.isSome_iff_exists

/-- A match that was first stays first while events grow and new ones come last. -/
theorem matched_extends (h : s.ExtendsBy Grown s') {a : Adapter} {i : FeedItem} {k : String}
    {event : CanonicalEvent P} (hmatched : matchedExisting env s a i = some (k, event)) :
    ∃ event', matchedExisting env s' a i = some (k, event') ∧ Grown event event' :=
  h.find? (fun _ _ _ hgrown => isDuplicate_grown hgrown _) hmatched

theorem home_extends (h : s.ExtendsBy Grown s') {a : Adapter} {i : FeedItem} {k : String}
    (hhome : home env s a i = some k) : home env s' a i = some k := by
  have hmatch : ∀ a, (matchedExisting env s a i).map Prod.fst = some k →
      (matchedExisting env s' a i).map Prod.fst = some k := by
    intro a hmap
    obtain ⟨⟨k', event⟩, hmatched, rfl⟩ := Option.map_eq_some_iff.mp hmap
    obtain ⟨event', hmatched', -⟩ := matched_extends h hmatched
    rw [hmatched']
    rfl
  cases a with
  | SEBI => exact hhome
  | RBI => exact hmatch _ hhome
  | NSE => exact hmatch _ hhome
  | BSE => exact hmatch _ hhome

theorem Kept.append (h : Kept env s) {k : String} {event : CanonicalEvent P} (hk : s.get? k = some event)
    {raw : RawSourceEvent} (hraw : ∀ a i, raw.origin = some (a, i) →
      home env s a i = some k ∧ (s.contains (a.identify i) = true → k = a.identify i)) :
    Kept env (s.insert k { event with sources := event.sources ++ [raw] }) := by
  have hextends : s.ExtendsBy Grown (s.insert k { event with sources := event.sources ++ [raw] }) := by
    refine Dict.extendsBy_insert grown_refl ?_
    intro old hold
    cases hk.symm.trans hold
    exact ⟨[raw], rfl⟩
  have hcontains : ∀ x, (s.insert k { event with sources := event.sources ++ [raw] }).contains x = true →
      s.contains x = true := by
    intro x hx
    obtain ⟨event', hx⟩ := contains_iff.mp hx
    rw [Dict.get?_insert] at hx
    split at hx
    · rename_i hxk
      exact contains_iff.mpr ⟨event, hxk ▸ hk⟩
    · exact contains_iff.mpr ⟨event', hx⟩
  have hsource : ∀ x event', (s.insert k { event with sources := event.sources ++ [raw] }).get? x = some event' →
      ∀ r ∈ event'.sources, (x = k ∧ r = raw) ∨ ∃ old, s.get? x = some old ∧ r ∈ old.sources := by
    intro x event' hx r hr
    rw [Dict.get?_insert] at hx
    split at hx
    · rename_i hxk
      cases hx
      rcases List.mem_append.mp hr with hold | hnew
      · exact .inr ⟨event, hxk ▸ hk, hold⟩
      · exact .inl ⟨hxk, List.mem_singleton.mp hnew⟩
    · exact .inr ⟨event', hx, hr⟩
  refine ⟨?_, ?_, ?_⟩
  · intro x event' hx
    rw [Dict.get?_insert] at hx
    split at hx
    · rename_i hxk
      cases hx
      exact hxk ▸ h.keyed k event hk
    · exact h.keyed x event' hx
  · intro x event' hx r hr a i horigin
    rcases hsource x event' hx r hr with ⟨rfl, rfl⟩ | ⟨old, hold, hmem⟩
    · exact home_extends hextends (hraw a i horigin).1
    · exact home_extends hextends (h.homed x old hold r hmem a i horigin)
  · intro x event' hx r hr a i horigin hown
    rcases hsource x event' hx r hr with ⟨rfl, rfl⟩ | ⟨old, hold, hmem⟩
    · exact (hraw a i horigin).2 (hcontains _ hown)
    · exact h.own x old hold r hmem a i horigin (hcontains _ hown)

theorem Kept.store (h : Kept env s) (event : CanonicalEvent P) (hnew : s.get? event.canonicalEventId = none)
    (hunclaimed : Unclaimed s event.canonicalEventId)
    (hraw : ∀ raw ∈ event.sources, ∀ a i, raw.origin = some (a, i) →
      a.identify i = event.canonicalEventId ∧
        home env (s.insert event.canonicalEventId event) a i = some event.canonicalEventId) :
    Kept env (s.insert event.canonicalEventId event) := by
  have hextends : s.ExtendsBy Grown (s.insert event.canonicalEventId event) := by
    refine Dict.extendsBy_insert grown_refl ?_
    intro old hold
    cases hnew.symm.trans hold
  refine ⟨?_, ?_, ?_⟩
  · intro x event' hx
    rw [Dict.get?_insert] at hx
    split at hx
    · rename_i hxk
      cases hx
      exact hxk.symm
    · exact h.keyed x event' hx
  · intro x event' hx r hr a i horigin
    rw [Dict.get?_insert] at hx
    split at hx
    · rename_i hxk
      cases hx
      rw [hxk]
      exact (hraw r hr a i horigin).2
    · exact home_extends hextends (h.homed x event' hx r hr a i horigin)
  · intro x event' hx r hr a i horigin hown
    rw [Dict.get?_insert] at hx
    split at hx
    · rename_i hxk
      cases hx
      rw [hxk]
      exact (hraw r hr a i horigin).1.symm
    · obtain ⟨owner, howner⟩ := contains_iff.mp hown
      rw [Dict.get?_insert] at howner
      split at howner
      · rename_i hid
        exact absurd hid (hunclaimed (x, event') (Dict.mem_entries_of_get? hx) r hr (a, i) horigin)
      · exact h.own x event' hx r hr a i horigin (contains_iff.mpr ⟨owner, howner⟩)

theorem matched_new (h : matchedExisting env s a i = none) {event : CanonicalEvent P}
    (hid : event.canonicalEventId = a.identify i) (hnew : s.get? (a.identify i) = none) :
    matchedExisting env (s.insert (a.identify i) event) a i = some (a.identify i, event) := by
  rw [matchedExisting, Dict.entries_insert hnew, List.find?_append]
  rw [matchedExisting] at h
  rw [h, Option.none_or, List.find?_cons, isDuplicate_id ((candidate_id a i).trans hid.symm)]

theorem Kept.new_of_unmatched (h : Kept env s) {a : Adapter} {i : FeedItem}
    (hnone : matchedExisting env s a i = none) : s.get? (a.identify i) = none := by
  by_contra hsome
  obtain ⟨event, hevent⟩ := Option.ne_none_iff_exists'.mp hsome
  have hdiffer := List.find?_eq_none.mp hnone (a.identify i, event) (Dict.mem_entries_of_get? hevent)
  refine hdiffer (isDuplicate_id ?_)
  rw [candidate_id, h.keyed _ event hevent]

theorem holds_extends (h : s.ExtendsBy Grown s') {k : String} {raw : RawSourceEvent} (hheld : Holds s k raw) :
    Holds s' k raw := by
  obtain ⟨event, hk, hraw⟩ := hheld
  obtain ⟨event', hk', more, rfl⟩ := h.get? hk
  exact ⟨_, hk', List.mem_append_left _ hraw⟩

theorem holds_insert (s : Store P) (k : String) {event : CanonicalEvent P} {raw : RawSourceEvent}
    (hraw : raw ∈ event.sources) : Holds (s.insert k event) k raw :=
  ⟨event, by rw [Dict.get?_insert, if_pos rfl], hraw⟩

theorem get?_of_matched {a : Adapter} {i : FeedItem} {k : String} {event : CanonicalEvent P}
    (h : matchedExisting env s a i = some (k, event)) : s.get? k = some event :=
  (Dict.mem_entries_iff _ _ _).mp (List.mem_of_find?_eq_some h)

theorem home_merged {a : Adapter} (ha : a ≠ .SEBI) (s : Store P) (i : FeedItem) :
    home env s a i = (matchedExisting env s a i).map Prod.fst := by
  cases a with
  | SEBI => exact absurd rfl ha
  | RBI => rfl
  | NSE => rfl
  | BSE => rfl

/-- What an entry does to a store that it fits. -/
structure Kept.Result (env : Services P) (s s' : Store P) : Prop where
  kept : Kept env s'
  grows : s.ExtendsBy Grown s'

theorem Kept.merge (h : Kept env s) {a : Adapter} (ha : a ≠ .SEBI) (now : Int) {i : FeedItem}
    (hfits : Fits env s a i) : Kept.Result env s (Ingestion.merge env s a now i) ∧
      ∃ k, Holds (Ingestion.merge env s a now i) k (a.normalize i) := by
  rw [Fits] at hfits
  rw [Ingestion.merge]
  cases hmatched : matchedExisting env s a i with
  | some found =>
    obtain ⟨k, existing⟩ := found
    rw [hmatched] at hfits
    obtain ⟨hown, hsource⟩ := hfits
    have hk := get?_of_matched hmatched
    dsimp only
    split
    · rename_i hany
      exact ⟨⟨h, Dict.extendsBy_refl grown_refl s⟩, k, existing, hk, hsource hany⟩
    · refine ⟨⟨h.append hk ?_, Dict.extendsBy_insert grown_refl ?_⟩, k,
        holds_insert s k (List.mem_append_right _ List.mem_cons_self)⟩
      · intro a' i' horigin
        cases (Adapter.origin_normalize a i).symm.trans horigin
        rw [home_merged ha, hmatched]
        exact ⟨rfl, hown⟩
      · intro old hold
        cases hk.symm.trans hold
        exact ⟨[a.normalize i], rfl⟩
  | none =>
    rw [hmatched] at hfits
    have hnew := h.new_of_unmatched hmatched
    have hid : (discovered env a now i).canonicalEventId = a.identify i := candidate_id a i
    have hstore := h.store (discovered env a now i) (hid ▸ hnew) (hid ▸ hfits)
    rw [hid] at hstore
    refine ⟨⟨hstore ?_, Dict.extendsBy_insert grown_refl ?_⟩, a.identify i,
      holds_insert s _ List.mem_cons_self⟩
    · intro raw hraw a' i' horigin
      obtain rfl := List.mem_singleton.mp hraw
      cases (Adapter.origin_normalize a i).symm.trans horigin
      rw [home_merged ha, matched_new hmatched hid hnew]
      exact ⟨rfl, rfl⟩
    · intro old hold
      cases hnew.symm.trans hold

theorem Kept.circular (h : Kept env s) {i : FeedItem} (hfits : FitsCircular s i) :
    Kept.Result env s (Ingestion.circular env s i) ∧
      ∃ k, Holds (Ingestion.circular env s i) k (Adapter.SEBI.normalize i) := by
  rw [FitsCircular] at hfits
  rw [Ingestion.circular]
  dsimp only
  rw [Dict.contains]
  cases hk : s.get? (Adapter.SEBI.identify i) with
  | some existing =>
    rw [hk] at hfits
    exact ⟨⟨h, Dict.extendsBy_refl grown_refl s⟩, _, existing, hk, hfits⟩
  | none =>
    rw [hk] at hfits
    have hstore := h.store { candidate env i .SEBI with sources := [Adapter.SEBI.normalize i] } hk hfits
    refine ⟨⟨hstore ?_, Dict.extendsBy_insert grown_refl ?_⟩, Adapter.SEBI.identify i,
      holds_insert s _ List.mem_cons_self⟩
    · intro raw hraw a' i' horigin
      obtain rfl := List.mem_singleton.mp hraw
      cases (Adapter.origin_normalize .SEBI i).symm.trans horigin
      exact ⟨rfl, rfl⟩
    · intro old hold
      cases hk.symm.trans hold

theorem Kept.manual (h : Kept env s) {now : Int} {c : EventCreate} (hnew : s.get? c.id = none)
    (hunclaimed : Unclaimed s c.id) : Kept.Result env s (createManualEvent env s now c) := by
  refine ⟨?_, Dict.extendsBy_insert grown_refl ?_⟩
  · refine h.store (manualEvent env now c) hnew hunclaimed ?_
    intro raw hraw a i horigin
    obtain rfl := List.mem_singleton.mp hraw
    cases horigin
  · intro old hold
    cases hnew.symm.trans hold

theorem Adapter.rbi_ne : Adapter.RBI ≠ .SEBI := by
  decide

theorem ofCorporate_ne (i : FeedItem) : Adapter.ofCorporate i ≠ .SEBI := by
  rw [Adapter.ofCorporate]
  split <;> decide

/-- An entry that loses no record keeps the others and adds its own. -/
theorem Kept.ingest (h : Kept env s) {e : Entry} (hlossless : Lossless env s e) :
    Kept.Result env s (Ingestion.ingest env s e) ∧
      ∀ p ∈ e.item env, ∃ k, Holds (Ingestion.ingest env s e) k (p.1.normalize p.2) := by
  have hsame : Kept.Result env s s := ⟨h, Dict.extendsBy_refl grown_refl s⟩
  have hnone : ∀ s' : Store P, ∀ p ∈ (none : Option (Adapter × FeedItem)),
      ∃ k, Holds s' k (p.1.normalize p.2) := by
    intro s' p hp
    cases hp
  cases e with
  | rbi now i =>
    rw [Ingestion.ingest, Entry.item]
    split
    · rename_i hvalid
      obtain ⟨hresult, hheld⟩ := h.merge Adapter.rbi_ne now (hlossless hvalid)
      refine ⟨hresult, fun p hp => ?_⟩
      cases hp
      exact hheld
    · exact ⟨hsame, hnone _⟩
  | corporate now i =>
    rw [Ingestion.ingest, Entry.item]
    split
    · rename_i hvalid
      obtain ⟨hresult, hheld⟩ := h.merge (ofCorporate_ne i) now (hlossless hvalid)
      refine ⟨hresult, fun p hp => ?_⟩
      cases hp
      exact hheld
    · exact ⟨hsame, hnone _⟩
  | sebi i =>
    rw [Ingestion.ingest, Entry.item]
    split
    · rename_i hvalid
      obtain ⟨hresult, hheld⟩ := h.circular (hlossless hvalid)
      refine ⟨hresult, fun p hp => ?_⟩
      cases hp
      exact hheld
    · exact ⟨hsame, hnone _⟩
  | manual now c => exact ⟨h.manual hlossless.1 hlossless.2, hnone _⟩

def Entry.at (now : Int) : Entry → Option Entry
  | .rbi _ i => some (.rbi now i)
  | .corporate _ i => some (.corporate now i)
  | .sebi i => some (.sebi i)
  | .manual _ _ => none

/-- What a run keeps: every record that its entries brought is held, and was held since. -/
theorem Kept.run (h : Kept env s) {entries : List Entry}
    (hlossless : Guarded (Ingestion.ingest env) (Lossless env) s entries) :
    Kept.Result env s (Lib.run (Ingestion.ingest env) s entries) ∧
      ∀ e ∈ entries, ∀ p ∈ e.item env,
        ∃ k, Holds (Lib.run (Ingestion.ingest env) s entries) k (p.1.normalize p.2) := by
  induction entries generalizing s with
  | nil =>
    refine ⟨⟨h, Dict.extendsBy_refl grown_refl s⟩, ?_⟩
    intro e he
    cases he
  | cons e entries ih =>
    obtain ⟨hfirst, hrest⟩ := hlossless
    obtain ⟨hresult, hheld⟩ := h.ingest hfirst
    obtain ⟨hresult', hheld'⟩ := ih hresult.kept hrest
    refine ⟨⟨hresult'.kept, hresult.grows.trans (fun _ _ _ => Grown.trans) hresult'.grows⟩, ?_⟩
    intro e' he' p hp
    rcases List.mem_cons.mp he' with rfl | he'
    · obtain ⟨k, hk⟩ := hheld p hp
      exact ⟨k, holds_extends hresult'.grows hk⟩
    · exact hheld' e' he' p hp

theorem kept_empty : Kept env (Dict.empty : Store P) where
  keyed := by
    intro k event hk
    cases hk
  homed := by
    intro k event hk
    cases hk
  own := by
    intro k event hk
    cases hk

end

section
variable {P : Type} (env : Services P)

def Call.again (now : Int) : Call → Option Call
  | .syncRbi _ feed => some (.syncRbi now feed)
  | .syncCorporate _ feed => some (.syncCorporate now feed)
  | .syncSebi feed => some (.syncSebi feed)
  | .createManualEvent _ _ => none

/-- One stored event holds the record of an item: the one with its id, where that is stored. -/
def Recorded (s : Store P) (a : Adapter) (i : FeedItem) : Prop :=
  ∃ k, Holds s k (a.normalize i) ∧ (∀ k', Holds s k' (a.normalize i) → k' = k) ∧
    (s.contains (a.identify i) = true → k = a.identify i)

/-- What the calls so far have brought is kept. -/
structure Faithful (calls : List Call) (s : Store P) : Prop where
  idempotent : ∀ call ∈ calls, ∀ now again, call.again now = some again → step env s again = s
  recorded : ∀ call ∈ calls, ∀ e ∈ call.entries, ∀ p ∈ e.item env, Recorded s p.1 p.2
  grown : ∀ earlier, earlier <+: calls → Extends (Lib.run (step env) Dict.empty earlier) s

end

instance {P : Type} (s : Store P) (id : String) : Decidable (Unclaimed s id) :=
  inferInstanceAs (Decidable (∀ e ∈ s.entries, _))

instance {P : Type} (env : Services P) (s : Store P) (a : Adapter) (i : FeedItem) :
    Decidable (Fits env s a i) := by
  unfold Fits
  split <;> infer_instance

instance {P : Type} (s : Store P) (i : FeedItem) : Decidable (FitsCircular s i) := by
  unfold FitsCircular
  split <;> infer_instance

instance {P : Type} (env : Services P) (s : Store P) : (e : Entry) → Decidable (Lossless env s e)
  | .rbi _ i => inferInstanceAs (Decidable (_ → Fits env s .RBI i))
  | .corporate _ i => inferInstanceAs (Decidable (_ → Fits env s (Adapter.ofCorporate i) i))
  | .sebi i => inferInstanceAs (Decidable (_ → FitsCircular s i))
  | .manual _ c => decidable_of_iff ((s.get? c.id).isNone = true ∧ Unclaimed s c.id)
      (and_congr Option.isNone_iff_eq_none Iff.rfl)

end Droid.Events.Ingestion
