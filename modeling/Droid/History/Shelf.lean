import Droid.History.Store
import Droid.Lib.Gather
import Mathlib.Data.List.Induction
import Mathlib.Data.List.Pairwise

/-! The version tags of a dataset: on disk they run from one without a hole up to the current one, and
the records are at most one behind. -/
namespace Droid.History
open Lib Text

/-! Ids and directories. -/

theorem datasetId_inj {symbol symbol' timeframe timeframe' : String} (h : '_' ∉ timeframe.toList)
    (h' : '_' ∉ timeframe'.toList) (heq : datasetId symbol timeframe = datasetId symbol' timeframe') :
    upper symbol = upper symbol' ∧ upper timeframe = upper timeframe' := by
  apply joined_inj _ _ heq
  · rwa [mem_upper (by decide)]
  · rwa [mem_upper (by decide)]

theorem getParquetPath_congr {symbol symbol' timeframe timeframe' : String}
    (h : '_' ∉ timeframe.toList) (h' : '_' ∉ timeframe'.toList)
    (heq : datasetId symbol timeframe = datasetId symbol' timeframe') (tag : Nat) :
    getParquetPath symbol timeframe tag = getParquetPath symbol' timeframe' tag := by
  obtain ⟨hsymbol, htimeframe⟩ := datasetId_inj h h' heq
  rw [getParquetPath, getParquetPath, cleanSymbol, cleanSymbol, upper_eq_iff.mp hsymbol,
    upper_eq_iff.mp htimeframe]

theorem getParquetPath_tag {symbol symbol' timeframe timeframe' : String} {tag tag' : Nat}
    (h : getParquetPath symbol timeframe tag = getParquetPath symbol' timeframe' tag') : tag = tag' :=
  congrArg ParquetPath.versionTag h

/-- What the sidecar of a file says, and where the file lies. -/
structure Filed (pl : Polars) (path : ParquetPath) (file : ParquetFile) : Prop where
  path_eq : path = getParquetPath file.symbol file.timeframe file.versionTag
  plain : '_' ∉ file.timeframe.toList
  rowCount_eq : file.rowCount = file.frame.length
  checksum_eq : file.checksum = pl.checksum file.frame

namespace Store

def OnDisk (s : Store) (id : String) (tag : Nat) : Prop :=
  ∃ path file, s.disk.get? path = some file ∧ file.datasetId = id ∧ file.versionTag = tag

def head (s : Store) (id : String) : Nat :=
  (((s.datasets.get? id).bind Dataset.currentVersionId).map VersionId.versionTag).getD 0

def tags (s : Store) (id : String) : List Nat := (s.recordsOf id).map DatasetVersion.versionTag

structure Shelved (s : Store) (id : String) : Prop where
  files : ∀ tag, s.OnDisk id tag ↔ 1 ≤ tag ∧ tag ≤ s.head id
  nodup : (s.tags id).Nodup
  mem_tags : ∀ tag, tag ∈ s.tags id ↔ 1 ≤ tag ∧ tag ≤ (s.tags id).length
  recorded : (s.tags id).length ≤ s.head id
  unrecorded : s.head id ≤ (s.tags id).length + 1

structure Kept (pl : Polars) (s : Store) : Prop where
  filed : ∀ path file, s.disk.get? path = some file → Filed pl path file
  keyed : ∀ id d, s.datasets.get? id = some d →
    d.id = id ∧ ∀ v, d.currentVersionId = some v → v.datasetId = id ∧ 1 ≤ v.versionTag
  records_keyed : ∀ id, ∀ v ∈ s.recordsOf id, v.versionId.datasetId = id
  shelved : ∀ id, s.Shelved id
  jobs_keyed : ∀ job ∈ s.jobs, job.datasetId = datasetId job.symbol job.timeframe ∧
    (s.datasets.get? job.datasetId).isSome

theorem kept_empty (pl : Polars) : Kept pl empty where
  filed := nofun
  keyed := nofun
  records_keyed := nofun
  shelved := fun id =>
    { files := by
        intro tag
        constructor
        · rintro ⟨path, file, h, -⟩
          cases h
        · rintro ⟨hpos, hle⟩
          exact absurd (hpos.trans hle) (Nat.not_succ_le_zero 0)
      nodup := List.nodup_nil
      mem_tags := by
        intro tag
        constructor
        · intro h
          cases h
        · rintro ⟨hpos, hle⟩
          exact absurd (hpos.trans hle) (Nat.not_succ_le_zero 0)
      recorded := Nat.le_refl 0
      unrecorded := Nat.zero_le _ }
  jobs_keyed := nofun

/-! The scan. -/

section
variable {disk : Dict ParquetPath ParquetFile}

/-- The records of the files, in the order of the scan. -/
def filed (disk : Dict ParquetPath ParquetFile) : List DatasetVersion :=
  disk.entries.map fun e => scannedVersion e.1 e.2

theorem scan_eq (disk : Dict ParquetPath ParquetFile) :
    scanDiskForDatasets disk =
      gatherSorted (fun v => v.versionId.datasetId) DatasetVersion.versionTag DatasetVersion.versionTag
        (filed disk) := by
  rw [scanDiskForDatasets, gatherSorted, gatherAll, filed, List.foldl_map]
  rfl

private theorem mem_filed {v : DatasetVersion} :
    v ∈ filed disk ↔ ∃ path file, disk.get? path = some file ∧ v = scannedVersion path file := by
  rw [filed, List.mem_map]
  constructor
  · rintro ⟨e, he, rfl⟩
    exact ⟨e.1, e.2, (Dict.mem_entries_iff disk e.1 e.2).mp he, rfl⟩
  · rintro ⟨path, file, hfile, rfl⟩
    exact ⟨(path, file), (Dict.mem_entries_iff disk _ _).mpr hfile, rfl⟩

structure Scanned (disk : Dict ParquetPath ParquetFile) (id : String) (l : List DatasetVersion) : Prop where
  nonempty : l ≠ []
  nodup : (l.map DatasetVersion.versionTag).Nodup
  ordered : l.Pairwise fun v w => v.versionTag ≤ w.versionTag
  seen : ∀ v ∈ l, ∃ path file, disk.get? path = some file ∧ file.datasetId = id ∧
    v = scannedVersion path file
  all : ∀ path file, disk.get? path = some file → file.datasetId = id →
    ∃ v ∈ l, v.versionTag = file.versionTag

theorem scan_some {id : String} {l : List DatasetVersion}
    (h : (scanDiskForDatasets disk).get? id = some l) : Scanned disk id l := by
  rw [scan_eq] at h
  have hgathered := gathered_of_get? h
  refine ⟨hgathered.nonempty, hgathered.nodup, hgathered.ordered, ?_, ?_⟩
  · intro v hv
    obtain ⟨hfiled, hid⟩ := hgathered.seen v hv
    obtain ⟨path, file, hfile, rfl⟩ := mem_filed.mp hfiled
    exact ⟨path, file, hfile, hid, rfl⟩
  · intro path file hfile hid
    exact hgathered.all _ (mem_filed.mpr ⟨path, file, hfile, rfl⟩) hid

theorem scan_none {id : String} (h : (scanDiskForDatasets disk).get? id = none) :
    ∀ path file, disk.get? path = some file → file.datasetId ≠ id := by
  rw [scan_eq] at h
  intro path file hfile
  exact get?_gatherSorted_eq_none.mp h _ (mem_filed.mpr ⟨path, file, hfile, rfl⟩)

end

/-! A sync changes no current version. -/

theorem get?_syncFromDisk (s : Store) (id : String) :
    s.syncFromDisk.datasets.get? id =
      (((scanDiskForDatasets s.disk).get? id).map (discoveredDataset id)).or (s.datasets.get? id) := by
  rw [syncFromDisk, Dict.get?_update, Dict.get?_mapValues]

theorem recordsOf_syncFromDisk (s : Store) (id : String) :
    s.syncFromDisk.recordsOf id = ((scanDiskForDatasets s.disk).get? id).getD (s.recordsOf id) := by
  rw [recordsOf, syncFromDisk, Dict.get?_update]
  cases (scanDiskForDatasets s.disk).get? id <;> rfl

private theorem length_eq_of_tags {l : List Nat} {n : Nat} (hn : l.Nodup)
    (h : ∀ t, t ∈ l ↔ 1 ≤ t ∧ t ≤ n) : l.length = n := by
  have hperm : l.Perm (List.range' 1 n) := by
    apply (List.perm_ext_iff_of_nodup hn List.nodup_range').mpr
    intro t
    rw [h, List.mem_range'_1]
    omega
  rw [hperm.length_eq, List.length_range']

section
variable {pl : Polars} {s : Store} {id : String}

private theorem Scanned.mem_tags {l : List DatasetVersion} (h : Scanned s.disk id l)
    (hs : s.Shelved id) (tag : Nat) :
    tag ∈ l.map DatasetVersion.versionTag ↔ 1 ≤ tag ∧ tag ≤ s.head id := by
  rw [← hs.files tag, List.mem_map]
  constructor
  · rintro ⟨v, hv, rfl⟩
    obtain ⟨path, file, hfile, hid, rfl⟩ := h.seen v hv
    exact ⟨path, file, hfile, hid, rfl⟩
  · rintro ⟨path, file, hfile, hid, rfl⟩
    obtain ⟨v, hv, htag⟩ := h.all path file hfile hid
    exact ⟨v, hv, htag⟩

theorem Shelved.head_sync (hs : s.Shelved id) : s.syncFromDisk.head id = s.head id := by
  rw [head, get?_syncFromDisk]
  cases hscan : (scanDiskForDatasets s.disk).get? id with
  | none => rfl
  | some l =>
    have h := scan_some hscan
    have hlast := List.getLast_mem h.nonempty
    rw [Option.map_some, Option.some_or, Option.bind_some, discoveredDataset,
      List.getLast?_eq_some_getLast h.nonempty]
    -- the last of the ordered list is the largest tag, and the largest tag on disk is the current one
    obtain ⟨hpos, hle⟩ := (h.mem_tags hs _).mp (List.mem_map_of_mem hlast)
    apply Nat.le_antisymm hle
    obtain ⟨v, hv, htag⟩ := List.mem_map.mp ((h.mem_tags hs (s.head id)).mpr ⟨hpos.trans hle, Nat.le_refl _⟩)
    have hordered := h.ordered.rel_getLast_of_rel_getLast_getLast hv (Nat.le_refl _)
    rwa [htag] at hordered

/-- After a sync a dataset with files has a record of each, and any other the records it had. -/
theorem Shelved.tags_sync (hs : s.Shelved id) :
    (s.syncFromDisk.tags id = s.tags id ∧ s.head id = 0) ∨
      ((s.syncFromDisk.tags id).Nodup ∧
        (∀ tag, tag ∈ s.syncFromDisk.tags id ↔ 1 ≤ tag ∧ tag ≤ s.head id) ∧
        (s.syncFromDisk.tags id).length = s.head id) := by
  rw [tags, recordsOf_syncFromDisk]
  cases hscan : (scanDiskForDatasets s.disk).get? id with
  | none =>
    refine Or.inl ⟨rfl, ?_⟩
    by_contra hpos
    obtain ⟨path, file, hfile, hid, -⟩ :=
      (hs.files (s.head id)).mpr ⟨Nat.pos_of_ne_zero hpos, Nat.le_refl _⟩
    exact scan_none hscan path file hfile hid
  | some l =>
    have h := scan_some hscan
    have hmem := h.mem_tags hs
    exact Or.inr ⟨h.nodup, hmem, length_eq_of_tags h.nodup hmem⟩

theorem Shelved.sync (hs : s.Shelved id) : s.syncFromDisk.Shelved id := by
  have hhead := hs.head_sync
  rcases hs.tags_sync with ⟨htags, -⟩ | ⟨hnodup, hmem, hlen⟩
  · exact
      { files := by
          intro tag
          rw [hhead]
          exact hs.files tag
        nodup := htags ▸ hs.nodup
        mem_tags := htags ▸ hs.mem_tags
        recorded := by
          rw [htags, hhead]
          exact hs.recorded
        unrecorded := by
          rw [htags, hhead]
          exact hs.unrecorded }
  · exact
      { files := by
          intro tag
          rw [hhead]
          exact hs.files tag
        nodup := hnodup
        mem_tags := by
          rw [hlen]
          exact hmem
        recorded := by rw [hlen, hhead]
        unrecorded := by
          rw [hlen, hhead]
          exact Nat.le_succ _ }

theorem isSome_sync {id : String} (h : (s.datasets.get? id).isSome) :
    (s.syncFromDisk.datasets.get? id).isSome := by
  rw [get?_syncFromDisk, Option.isSome_or, h, Bool.or_true]

theorem Kept.sync (hk : Kept pl s) : Kept pl s.syncFromDisk where
  filed := hk.filed
  keyed := by
    intro id d hd
    rw [get?_syncFromDisk] at hd
    cases hscan : (scanDiskForDatasets s.disk).get? id with
    | none =>
      rw [hscan] at hd
      exact hk.keyed id d hd
    | some l =>
      rw [hscan] at hd
      cases hd
      refine ⟨rfl, fun v hv => ?_⟩
      obtain ⟨last, hlast, rfl⟩ := Option.map_eq_some_iff.mp hv
      obtain ⟨path, file, hfile, hid, rfl⟩ := (scan_some hscan).seen last (List.mem_of_getLast? hlast)
      exact ⟨hid, (((hk.shelved id).files file.versionTag).mp ⟨path, file, hfile, hid, rfl⟩).1⟩
  records_keyed := by
    intro id v hv
    rw [recordsOf_syncFromDisk] at hv
    cases hscan : (scanDiskForDatasets s.disk).get? id with
    | none =>
      rw [hscan] at hv
      exact hk.records_keyed id v hv
    | some l =>
      rw [hscan] at hv
      obtain ⟨path, file, -, hid, rfl⟩ := (scan_some hscan).seen v hv
      exact hid
  shelved := fun id => (hk.shelved id).sync
  jobs_keyed := fun job hjob =>
    ⟨(hk.jobs_keyed job hjob).1, isSome_sync (hk.jobs_keyed job hjob).2⟩

/-- No file has the tag 0. -/
theorem Kept.get?_zero (hk : Kept pl s) (symbol timeframe : String) :
    s.disk.get? (getParquetPath symbol timeframe 0) = none := by
  cases hget : s.disk.get? (getParquetPath symbol timeframe 0) with
  | none => rfl
  | some file =>
    have htag := getParquetPath_tag (hk.filed _ _ hget).path_eq
    have hpos := ((hk.shelved file.datasetId).files file.versionTag).mp ⟨_, _, hget, rfl, rfl⟩
    omega

theorem Kept.currentFrame_eq (hk : Kept pl s) (symbol timeframe : String) :
    s.currentFrame symbol timeframe =
      ((s.disk.get? (getParquetPath symbol timeframe (s.head (datasetId symbol timeframe)))).map
        ParquetFile.frame).getD [] := by
  rw [currentFrame, head]
  cases (s.datasets.get? (datasetId symbol timeframe)).bind Dataset.currentVersionId with
  | none =>
    rw [Option.map_none, Option.getD_none, hk.get?_zero]
    rfl
  | some v => rfl

/-- The current version is on disk, in the dataset's own directory. -/
theorem Kept.get?_head (hk : Kept pl s) {symbol timeframe : String} (hp : '_' ∉ timeframe.toList)
    (hpos : s.head (datasetId symbol timeframe) ≠ 0) :
    ∃ file, s.disk.get? (getParquetPath symbol timeframe (s.head (datasetId symbol timeframe))) = some file ∧
      file.datasetId = datasetId symbol timeframe := by
  obtain ⟨path, file, hfile, hid, htag⟩ :=
    ((hk.shelved (datasetId symbol timeframe)).files _).mpr ⟨Nat.pos_of_ne_zero hpos, Nat.le_refl _⟩
  have hfiled := hk.filed path file hfile
  have hpath := hfiled.path_eq
  rw [htag, getParquetPath_congr hfiled.plain hp hid] at hpath
  exact ⟨file, hpath ▸ hfile, hid⟩

theorem Kept.currentFrame_sync (hk : Kept pl s) (symbol timeframe : String) :
    s.syncFromDisk.currentFrame symbol timeframe = s.currentFrame symbol timeframe := by
  rw [hk.currentFrame_eq, hk.sync.currentFrame_eq, (hk.shelved _).head_sync]
  rfl

end

/-! What is only read does not matter to the shelf. -/

/-- The store as it is, or after a sync. -/
def Reread (s s' : Store) : Prop := s' = s ∨ s' = s.syncFromDisk

theorem getDataset_store (s : Store) (id : String) : s.Reread (s.getDataset id).2 := by
  rw [getDataset]
  dsimp only
  split
  · exact Or.inl rfl
  · exact Or.inr rfl

theorem listVersions_store (s : Store) (id : String) : s.Reread (s.listVersions id).2 := by
  rw [listVersions]
  dsimp only
  split
  · exact Or.inl rfl
  · exact Or.inr rfl

theorem listDatasets_store (s : Store) : s.Reread s.listDatasets.2 := by
  rw [listDatasets]
  dsimp only
  split
  · exact Or.inr rfl
  · exact Or.inl rfl

theorem getDataset_of_isSome {s : Store} {id : String} (h : (s.datasets.get? id).isSome) :
    s.getDataset id = (s.datasets.get? id, s) := by
  rw [getDataset, Dict.contains, if_pos h]

theorem Kept.congr {pl : Polars} {s s' : Store} (hk : Kept pl s) (hdatasets : s'.datasets = s.datasets)
    (hversions : s'.versions = s.versions) (hdisk : s'.disk = s.disk)
    (hjobs : ∀ job ∈ s'.jobs, job ∈ s.jobs) : Kept pl s' := by
  obtain ⟨datasets, versions, gaps, disk, jobs⟩ := s
  obtain ⟨datasets', versions', gaps', disk', jobs'⟩ := s'
  cases hdatasets
  cases hversions
  cases hdisk
  exact
    { filed := hk.filed
      keyed := hk.keyed
      records_keyed := hk.records_keyed
      shelved := fun id =>
        have hs := hk.shelved id
        ⟨hs.files, hs.nodup, hs.mem_tags, hs.recorded, hs.unrecorded⟩
      jobs_keyed := fun job hjob => hk.jobs_keyed job (hjobs job hjob) }

end Store
end Droid.History
