import Droid.History.Shelf

/-! A save takes the tag after the recorded ones, and the services are syncs, saves and gap records. -/
namespace Droid.History
open Lib Text

namespace Store

def nextTag (s : Store) (id : String) : Nat := (s.tags id).length + 1

def savedFile (pl : Polars) (df : Frame) (symbol timeframe : String) (versionTag : Nat) : ParquetFile :=
  { frame := df, symbol, timeframe, versionTag, rowCount := df.length, checksum := pl.checksum df }

/-- The file that a save of this frame writes, as the version record names it. -/
def savedVersion (pl : Polars) (df : Frame) (symbol timeframe : String) (versionTag : Nat) :
    DatasetVersion :=
  scannedVersion (getParquetPath symbol timeframe versionTag) (savedFile pl df symbol timeframe versionTag)

/-- The directory of the symbol and the timeframe holds files of their dataset only. -/
def Alone (s : Store) (symbol timeframe : String) : Prop :=
  ∀ path file, s.disk.get? path = some file → path.symbolDir = cleanSymbol symbol →
    path.timeframeDir = lower timeframe → file.datasetId = datasetId symbol timeframe

/-- From s to s' the frame is saved as the next version, which becomes the current one; a repair makes
no record of it. -/
structure Save (pl : Polars) (recorded : Bool) (s s' : Store) (symbol timeframe : String) (df : Frame) :
    Prop where
  plain : '_' ∉ timeframe.toList
  nonempty : df ≠ []
  datasets : ∃ d : Dataset, d.id = datasetId symbol timeframe ∧
    d.currentVersionId =
      some ⟨datasetId symbol timeframe, s.nextTag (datasetId symbol timeframe)⟩ ∧
    s'.datasets = s.datasets.insert d.id d
  records : ∀ id, s'.recordsOf id =
    if id = datasetId symbol timeframe ∧ recorded = true then
      (s.recordsOf id).eraseP (fun v => v.versionId = ⟨id, s.nextTag id⟩) ++
        [savedVersion pl df symbol timeframe (s.nextTag id)]
    else s.recordsOf id
  disk : s'.disk = s.disk.insert
    (getParquetPath symbol timeframe (s.nextTag (datasetId symbol timeframe)))
    (savedFile pl df symbol timeframe (s.nextTag (datasetId symbol timeframe)))
  gaps : s'.gaps = s.gaps
  jobs : s'.jobs = s.jobs

section
variable {pl : Polars} {recorded : Bool} {s s' : Store} {symbol timeframe : String} {df : Frame}

theorem Shelved.nextTag_le {id : String} (hs : s.Shelved id) :
    s.nextTag id ≤ s.head id + 1 := Nat.succ_le_succ hs.recorded

theorem Shelved.nextTag_notMem {id : String} (hs : s.Shelved id) : s.nextTag id ∉ s.tags id := by
  rw [hs.mem_tags, nextTag]
  omega

theorem Save.get?_datasets (h : Save pl recorded s s' symbol timeframe df) {id : String}
    (hid : id ≠ datasetId symbol timeframe) : s'.datasets.get? id = s.datasets.get? id := by
  obtain ⟨d, hd, -, hdatasets⟩ := h.datasets
  rw [hdatasets, Dict.get?_insert, if_neg (hd ▸ hid)]

theorem Save.head_self (h : Save pl recorded s s' symbol timeframe df) :
    s'.head (datasetId symbol timeframe) = s.nextTag (datasetId symbol timeframe) := by
  obtain ⟨d, hd, hcurrent, hdatasets⟩ := h.datasets
  rw [head, hdatasets, Dict.get?_insert, if_pos hd.symm, Option.bind_some, hcurrent]
  rfl

theorem Save.head_other (h : Save pl recorded s s' symbol timeframe df) {id : String}
    (hid : id ≠ datasetId symbol timeframe) : s'.head id = s.head id := by
  rw [head, head, h.get?_datasets hid]

theorem Save.isSome_datasets (h : Save pl recorded s s' symbol timeframe df) {id : String}
    (hsome : (s.datasets.get? id).isSome) : (s'.datasets.get? id).isSome := by
  obtain ⟨d, -, -, hdatasets⟩ := h.datasets
  rw [hdatasets, Dict.get?_insert]
  split
  · rfl
  · exact hsome

theorem Save.get?_saved (h : Save pl recorded s s' symbol timeframe df) :
    s'.disk.get? (getParquetPath symbol timeframe (s.nextTag (datasetId symbol timeframe))) =
      some (savedFile pl df symbol timeframe (s.nextTag (datasetId symbol timeframe))) := by
  rw [h.disk, Dict.get?_insert, if_pos rfl]

theorem Save.records_self (h : Save pl true s s' symbol timeframe df)
    (hs : s.Shelved (datasetId symbol timeframe)) :
    s'.recordsOf (datasetId symbol timeframe) = s.recordsOf (datasetId symbol timeframe) ++
      [savedVersion pl df symbol timeframe (s.nextTag (datasetId symbol timeframe))] := by
  -- the tag is new, so that no record is replaced
  have hnew : ∀ v ∈ s.recordsOf (datasetId symbol timeframe),
      ¬ v.versionId = ⟨datasetId symbol timeframe, s.nextTag (datasetId symbol timeframe)⟩ := by
    intro v hv hid
    apply hs.nextTag_notMem
    have htag : v.versionTag = s.nextTag (datasetId symbol timeframe) := congrArg VersionId.versionTag hid
    exact htag ▸ List.mem_map_of_mem hv
  rw [h.records, if_pos ⟨rfl, rfl⟩, List.eraseP_of_forall_not (by simpa using hnew)]

theorem Save.records_other (h : Save pl recorded s s' symbol timeframe df) {id : String}
    (hid : id ≠ datasetId symbol timeframe) : s'.recordsOf id = s.recordsOf id := by
  rw [h.records, if_neg (mt And.left hid)]

theorem Save.records_unrecorded (h : Save pl false s s' symbol timeframe df) (id : String) :
    s'.recordsOf id = s.recordsOf id := by
  rw [h.records, if_neg (mt And.right Bool.false_ne_true)]

theorem Save.tags_self (h : Save pl recorded s s' symbol timeframe df)
    (hs : s.Shelved (datasetId symbol timeframe)) :
    s'.tags (datasetId symbol timeframe) = s.tags (datasetId symbol timeframe) ++
      if recorded then [s.nextTag (datasetId symbol timeframe)] else [] := by
  cases recorded with
  | true =>
    rw [tags, h.records_self hs, List.map_append]
    rfl
  | false =>
    rw [tags, h.records_unrecorded, if_neg Bool.false_ne_true, List.append_nil]
    rfl

variable (h : Save pl recorded s s' symbol timeframe df) (hk : Kept pl s) (ha : s.Alone symbol timeframe)
include h hk ha

/-- The files of a save: those before, and the one that it writes. -/
theorem Save.onDisk (id : String) (tag : Nat) :
    s'.OnDisk id tag ↔ s.OnDisk id tag ∨
      (id = datasetId symbol timeframe ∧ tag = s.nextTag (datasetId symbol timeframe)) := by
  constructor
  · rintro ⟨path, file, hfile, rfl, rfl⟩
    rw [h.disk, Dict.get?_insert] at hfile
    split at hfile
    · cases hfile
      exact Or.inr ⟨rfl, rfl⟩
    · exact Or.inl ⟨path, file, hfile, rfl, rfl⟩
  · rintro (⟨path, file, hfile, rfl, rfl⟩ | ⟨rfl, rfl⟩)
    · by_cases hpath :
          path = getParquetPath symbol timeframe (s.nextTag (datasetId symbol timeframe))
      · -- the file that is overwritten is of the same dataset and has the same tag
        have hid := ha path file hfile (congrArg ParquetPath.symbolDir hpath)
          (congrArg ParquetPath.timeframeDir hpath)
        have htag := getParquetPath_tag ((hk.filed _ _ hfile).path_eq.symm.trans hpath)
        refine ⟨path, savedFile pl df symbol timeframe (s.nextTag (datasetId symbol timeframe)), ?_,
          hid.symm, htag.symm⟩
        rw [h.disk, Dict.get?_insert, if_pos hpath]
      · refine ⟨path, file, ?_, rfl, rfl⟩
        rw [h.disk, Dict.get?_insert, if_neg hpath]
        exact hfile
    · refine ⟨getParquetPath symbol timeframe (s.nextTag (datasetId symbol timeframe)),
        savedFile pl df symbol timeframe (s.nextTag (datasetId symbol timeframe)), h.get?_saved, rfl, rfl⟩

theorem Save.shelved (id : String) : s'.Shelved id := by
  have hs := hk.shelved id
  by_cases hid : id = datasetId symbol timeframe
  · subst hid
    have htags := h.tags_self hs
    have hfiles : ∀ tag, s'.OnDisk (datasetId symbol timeframe) tag ↔
        1 ≤ tag ∧ tag ≤ s'.head (datasetId symbol timeframe) := by
      intro tag
      rw [h.onDisk hk ha, hs.files, h.head_self, and_iff_right rfl]
      have hle := hs.nextTag_le
      have hrecorded := hs.recorded
      have hunrecorded := hs.unrecorded
      rw [nextTag] at hle ⊢
      omega
    cases recorded with
    | false =>
      rw [if_neg Bool.false_ne_true, List.append_nil] at htags
      refine ⟨hfiles, htags ▸ hs.nodup, htags ▸ hs.mem_tags, ?_, ?_⟩
      · rw [htags, h.head_self]
        exact Nat.le_succ _
      · rw [htags, h.head_self, nextTag]
    | true =>
      rw [if_pos rfl] at htags
      refine ⟨hfiles, ?_, ?_, ?_, ?_⟩
      · rw [htags, List.nodup_append']
        refine ⟨hs.nodup, List.nodup_singleton _, ?_⟩
        intro tag htag hlast
        exact hs.nextTag_notMem (List.mem_singleton.mp hlast ▸ htag)
      · intro tag
        rw [htags, List.mem_append, List.mem_singleton, hs.mem_tags, List.length_append,
          List.length_singleton, nextTag]
        omega
      · rw [htags, h.head_self, List.length_append]
        exact Nat.le_refl _
      · rw [htags, h.head_self, List.length_append]
        exact Nat.le_succ _
  · have htags : s'.tags id = s.tags id := by rw [tags, tags, h.records_other hid]
    refine ⟨?_, htags ▸ hs.nodup, htags ▸ hs.mem_tags, ?_, ?_⟩
    · intro tag
      rw [h.onDisk hk ha, hs.files, h.head_other hid]
      exact or_iff_left (mt And.left hid)
    · rw [htags, h.head_other hid]
      exact hs.recorded
    · rw [htags, h.head_other hid]
      exact hs.unrecorded

theorem Save.kept : Kept pl s' where
  filed := by
    intro path file hfile
    rw [h.disk, Dict.get?_insert] at hfile
    split at hfile
    · rename_i hpath
      cases hfile
      exact ⟨hpath, h.plain, rfl, rfl⟩
    · exact hk.filed path file hfile
  keyed := by
    intro id d hd
    obtain ⟨entry, hentry, hcurrent, hdatasets⟩ := h.datasets
    rw [hdatasets, Dict.get?_insert] at hd
    split at hd
    · rename_i hid
      cases hd
      refine ⟨hid.symm, fun v hv => ?_⟩
      rw [hcurrent] at hv
      cases hv
      exact ⟨(hid.trans hentry).symm, Nat.succ_le_succ (Nat.zero_le _)⟩
    · exact hk.keyed id d hd
  records_keyed := by
    intro id v hv
    by_cases hid : id = datasetId symbol timeframe
    · subst hid
      cases recorded with
      | false =>
        rw [h.records_unrecorded] at hv
        exact hk.records_keyed _ v hv
      | true =>
        rw [h.records_self (hk.shelved _), List.mem_append, List.mem_singleton] at hv
        rcases hv with hv | rfl
        · exact hk.records_keyed _ v hv
        · rfl
    · rw [h.records_other hid] at hv
      exact hk.records_keyed id v hv
  shelved := h.shelved hk ha
  jobs_keyed := by
    intro job hjob
    rw [h.jobs] at hjob
    exact ⟨(hk.jobs_keyed job hjob).1, h.isSome_datasets (hk.jobs_keyed job hjob).2⟩

omit hk ha in
theorem Save.currentFrame_self {symbol' timeframe' : String} (hp : '_' ∉ timeframe'.toList)
    (hid : datasetId symbol' timeframe' = datasetId symbol timeframe) :
    s'.currentFrame symbol' timeframe' = df := by
  obtain ⟨d, hd, hcurrent, hdatasets⟩ := h.datasets
  rw [currentFrame, hid, hdatasets, Dict.get?_insert, if_pos hd.symm, Option.bind_some, hcurrent]
  dsimp only
  rw [getParquetPath_congr hp h.plain hid, h.get?_saved]
  rfl

theorem Save.currentFrame_other {symbol' timeframe' : String} (hp : '_' ∉ timeframe'.toList)
    (hid : datasetId symbol' timeframe' ≠ datasetId symbol timeframe) :
    s'.currentFrame symbol' timeframe' = s.currentFrame symbol' timeframe' := by
  rw [(h.kept hk ha).currentFrame_eq, hk.currentFrame_eq, h.head_other hid, h.disk, Dict.get?_insert]
  split
  · rename_i hpath
    -- its file would lie alone in the directory of the saved one
    by_cases hzero : s.head (datasetId symbol' timeframe') = 0
    · have htag := getParquetPath_tag hpath
      exact absurd (htag.symm.trans hzero) (Nat.succ_ne_zero _)
    · obtain ⟨file, hfile, hfileId⟩ := hk.get?_head hp hzero
      have hsame := ha _ file hfile (congrArg ParquetPath.symbolDir hpath)
        (congrArg ParquetPath.timeframeDir hpath)
      exact absurd (hfileId.symm.trans hsame) hid
  · rfl

omit hk ha in
theorem Save.alone {symbol' timeframe' : String} (hsymbol : upper symbol' = upper symbol)
    (ha' : s.Alone symbol' timeframe') : s'.Alone symbol' timeframe' := by
  intro path file hfile hdir htf
  rw [h.disk, Dict.get?_insert] at hfile
  split at hfile
  · rename_i hpath
    cases hfile
    have hlower : lower timeframe = lower timeframe' :=
      (congrArg ParquetPath.timeframeDir hpath).symm.trans htf
    have hid : datasetId symbol timeframe = datasetId symbol' timeframe' := by
      rw [datasetId, datasetId, hsymbol, upper_eq_iff.mpr hlower]
    exact hid
  · exact ha' path file hfile hdir htf

end
end Store
end Droid.History
