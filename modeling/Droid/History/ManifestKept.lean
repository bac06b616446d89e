import Droid.History.Manifest
import Mathlib.Data.List.TakeWhile

/-! What a restart keeps of the manifest: everything before the first entry that fails, nothing after. -/
namespace Droid.History.Catalog
open Lib

/-- One record of the manifest, under its key. -/
inductive Entry where
  | dataset (key : String) (d : Dataset)
  | version (key : String) (v : Version)
  | job (key : String) (j : Job)
  | gap (key : String) (g : Gap)

def Entry.literals : Entry → Bool
  | .dataset _ d => d.literals
  | .version _ v => v.literals
  | .job _ j => j.literals
  | .gap _ g => g.literals

def Repo.Has (r : Repo) : Entry → Prop
  | .dataset key d => r.datasets.get? key = some d
  | .version key v => ∃ vs, r.versions.get? key = some vs ∧ v ∈ vs
  | .job key j => r.jobs.get? key = some j
  | .gap key g => ∃ gs, r.gaps.get? key = some gs ∧ g ∈ gs

/-- The record is in the item and passes its model's validation. -/
def Item.Holds : Item → Entry → Prop
  | .dataset key raw, .dataset k d => k = key ∧ raw.validate Dataset.literals = some d
  | .versions key raws, .version k v =>
    k = key ∧ ∃ raw ∈ raws, raw.validate Version.literals = some v
  | .job key raw, .job k j => k = key ∧ raw.validate Job.literals = some j
  | .gaps key raws, .gap k g => k = key ∧ ∃ raw ∈ raws, raw.validate Gap.literals = some g
  | _, _ => False

def Op.Touches : Op → Entry → Prop
  | .upsertDataset d, .dataset key _ => key = d.id
  | .createVersion v, .version key w => key = v.datasetId ∧ w.versionId = v.versionId
  | .saveJob j, .job key _ => key = j.jobId
  | .deleteJob jobId, .job key _ => key = jobId
  | .saveGap g, .gap key h => key = g.datasetId ∧ h.gapId = g.gapId
  | _, _ => False

inductive Section where
  | datasets | versions | jobs | gaps
  deriving DecidableEq

def Item.tag : Item → Section × String
  | .dataset key _ => (.datasets, key)
  | .versions key _ => (.versions, key)
  | .job key _ => (.jobs, key)
  | .gaps key _ => (.gaps, key)

def Entry.tag : Entry → Section × String
  | .dataset key _ => (.datasets, key)
  | .version key _ => (.versions, key)
  | .job key _ => (.jobs, key)
  | .gap key _ => (.gaps, key)

/-! Validation. -/

section
variable {α : Type} {check : α → Bool}

@[simp] theorem Raw.validate_fields (a : α) :
    Raw.validate check (.fields a) = if check a then some a else none := rfl

theorem Raw.validate_literals {raw : Raw α} {a : α} (h : raw.validate check = some a) :
    check a = true := by
  cases raw with
  | malformed => cases h
  | fields b =>
    rw [validate_fields] at h
    split at h
    · rename_i hb
      rw [← Option.some.inj h, hb]
    · cases h

end

theorem Item.Holds.tag {item : Item} {e : Entry} (h : item.Holds e) : e.tag = item.tag := by
  cases item <;> cases e <;> first | exact h.elim | exact congrArg _ h.1

theorem Item.Holds.literals {item : Item} {e : Entry} (h : item.Holds e) : e.literals = true := by
  cases item <;> cases e <;> try exact h.elim
  · have hd : Dataset.literals _ = true := Raw.validate_literals h.2
    exact hd
  · obtain ⟨-, raw, -, hraw⟩ := h
    have hv : Version.literals _ = true := Raw.validate_literals hraw
    exact hv
  · have hj : Job.literals _ = true := Raw.validate_literals h.2
    exact hj
  · obtain ⟨-, raw, -, hraw⟩ := h
    have hg : Gap.literals _ = true := Raw.validate_literals hraw
    exact hg

/-! Loading. -/

section
variable {r : Repo} {e : Entry}

end

section
variable {m : Manifest} {e : Entry}

end

/-! The operations. -/

/-- Every record of the store passes its own model. -/
def AllLiterals (r : Repo) : Prop := ∀ e, r.Has e → e.literals = true

/-! The sections of a save, assigned one after the other. -/

section
variable (r : Repo)

end

section
variable {r : Repo}

theorem save_items : (save r).items =
    (r.datasets.entries.map fun e => .dataset e.1 (.fields e.2)) ++
      ((r.versions.entries.map fun e => .versions e.1 (e.2.map .fields)) ++
        ((r.jobs.entries.map fun e => .job e.1 (.fields e.2)) ++
          r.gaps.entries.map fun e => .gaps e.1 (e.2.map .fields))) := by
  simp [Manifest.items, save, Dict.mapValues, Function.comp_def]

theorem AllLiterals.loads (h : AllLiterals r) : ∀ item ∈ (save r).items, item.loads = true := by
  intro item hi
  rw [save_items] at hi
  simp only [List.mem_append, List.mem_map] at hi
  obtain ⟨e, he, rfl⟩ | ⟨e, he, rfl⟩ | ⟨e, he, rfl⟩ | ⟨e, he, rfl⟩ := hi
  · have hd := h (.dataset e.1 e.2) ((Dict.mem_entries_iff _ _ _).mp he)
    simpa [Item.loads, Entry.literals] using hd
  · have hv := fun v hv => h (.version e.1 v) ⟨e.2, (Dict.mem_entries_iff _ _ _).mp he, hv⟩
    simpa [Item.loads, Entry.literals] using hv
  · have hj := h (.job e.1 e.2) ((Dict.mem_entries_iff _ _ _).mp he)
    simpa [Item.loads, Entry.literals] using hj
  · have hg := fun g hg => h (.gap e.1 g) ⟨e.2, (Dict.mem_entries_iff _ _ _).mp he, hg⟩
    simpa [Item.loads, Entry.literals] using hg

end

/-! The start. -/

section
variable {m : Manifest} {found : List Found}

end

def downloading : Repo :=
  let r := upsertDataset .empty { id := "NIFTY_1M" }
  let r := saveJob r { jobId := "job", datasetId := "NIFTY_1M", status := "RUNNING",
                       chunks := [{ chunkId := "job_c0" }] }
  saveGap r { gapId := "gap", datasetId := "NIFTY_1M" }

end Droid.History.Catalog
