import Droid.History.Saves

/-! The services, as the syncs, saves and gap records that they are made of. -/
namespace Droid.History
open Lib Text

namespace Store
variable {pl : Polars} {s : Store}

theorem Reread.kept {s' : Store} (h : s.Reread s') (hk : Kept pl s) : Kept pl s' := by
  rcases h with rfl | rfl
  · exact hk
  · exact hk.sync

theorem Reread.disk {s' : Store} (h : s.Reread s') : s'.disk = s.disk := by
  rcases h with rfl | rfl <;> rfl

theorem Reread.gaps {s' : Store} (h : s.Reread s') : s'.gaps = s.gaps := by
  rcases h with rfl | rfl <;> rfl

theorem Reread.jobs {s' : Store} (h : s.Reread s') : s'.jobs = s.jobs := by
  rcases h with rfl | rfl <;> rfl

theorem Reread.head {s' : Store} (h : s.Reread s') (hk : Kept pl s) (id : String) :
    s'.head id = s.head id := by
  rcases h with rfl | rfl
  · rfl
  · exact (hk.shelved id).head_sync

theorem Reread.currentFrame {s' : Store} (h : s.Reread s') (hk : Kept pl s) (symbol timeframe : String) :
    s'.currentFrame symbol timeframe = s.currentFrame symbol timeframe := by
  rcases h with rfl | rfl
  · rfl
  · exact hk.currentFrame_sync symbol timeframe

theorem Reread.alone {s' : Store} (h : s.Reread s') {symbol timeframe : String}
    (ha : s.Alone symbol timeframe) : s'.Alone symbol timeframe := by
  intro path file hfile
  rw [h.disk] at hfile
  exact ha path file hfile

/-! A save by the services. -/

def withNext (pl : Polars) (s : Store) (df : Frame) (symbol timeframe : String) : Store :=
  let tag := s.nextTag (datasetId symbol timeframe)
  { s with
    disk := s.disk.insert (getParquetPath symbol timeframe tag) (savedFile pl df symbol timeframe tag) }

def nextVersion (pl : Polars) (s : Store) (df : Frame) (symbol timeframe : String) : DatasetVersion :=
  savedVersion pl df symbol timeframe (s.nextTag (datasetId symbol timeframe))

theorem saveNextVersion_eq (pl : Polars) (s : Store) {df : Frame} (hne : df ≠ []) (symbol timeframe : String) :
    ∃ s1, s.Reread s1 ∧ s.saveNextVersion pl (datasetId symbol timeframe) df symbol timeframe =
      (some (s1.nextVersion pl df symbol timeframe), s1.withNext pl df symbol timeframe) := by
  refine ⟨(s.listVersions (datasetId symbol timeframe)).2, listVersions_store s _, ?_⟩
  have htag : (s.listVersions (datasetId symbol timeframe)).1.length + 1 =
      (s.listVersions (datasetId symbol timeframe)).2.nextTag (datasetId symbol timeframe) := by
    rw [nextTag, tags, List.length_map]
    rfl
  rw [saveNextVersion]
  dsimp only
  rw [saveDatasetVersion, if_neg hne, htag]
  rfl

/-- A download or a derivation: file, record, catalogue entry. -/
theorem save_recorded {symbol timeframe : String} {df : Frame} (hp : '_' ∉ timeframe.toList)
    (hne : df ≠ []) {d : Dataset} (hd : d.id = datasetId symbol timeframe)
    (hcurrent : d.currentVersionId = some (s.nextVersion pl df symbol timeframe).versionId) :
    Save pl true s
      (((s.withNext pl df symbol timeframe).createVersion (s.nextVersion pl df symbol timeframe)).upsertDataset d)
      symbol timeframe df where
  plain := hp
  nonempty := hne
  datasets := ⟨d, hd, hcurrent, rfl⟩
  records := by
    intro id
    change ((s.versions.insert (datasetId symbol timeframe) _).get? id).getD [] = _
    rw [Dict.get?_insert]
    by_cases hid : id = datasetId symbol timeframe
    · subst hid
      rw [if_pos rfl, if_pos ⟨rfl, rfl⟩]
      rfl
    · rw [if_neg hid, if_neg (mt And.left hid)]
      rfl
  disk := rfl
  gaps := rfl
  jobs := rfl

/-- A repair: file and catalogue entry. -/
theorem save_unrecorded {symbol timeframe : String} {df : Frame} (hp : '_' ∉ timeframe.toList)
    (hne : df ≠ []) {d : Dataset} (hd : d.id = datasetId symbol timeframe)
    (hcurrent : d.currentVersionId = some (s.nextVersion pl df symbol timeframe).versionId) :
    Save pl false s ((s.withNext pl df symbol timeframe).upsertDataset d) symbol timeframe df where
  plain := hp
  nonempty := hne
  datasets := ⟨d, hd, hcurrent, rfl⟩
  records := by
    intro id
    rw [if_neg (mt And.right Bool.false_ne_true)]
    rfl
  disk := rfl
  gaps := rfl
  jobs := rfl

/-! Derivation. -/

/-- The timeframes that one-minute candles are resampled to. -/
def derivable (tf : String) : Bool := !oneMinute tf && (timeframeDeltas.lookup (lower tf)).isSome

theorem deriveOne_cases (pl : Polars) (s : Store) {df1m : Frame} (hne : df1m ≠ []) (symbol tf : String) :
    deriveOne pl symbol df1m s tf = s ∨
      ∃ s1 df, s.Reread s1 ∧ derivable tf = true ∧
        Save pl true s1 (deriveOne pl symbol df1m s tf) symbol tf df := by
  rw [deriveOne]
  split
  · exact Or.inl rfl
  · rename_i htf
    rw [Bool.not_eq_true] at htf
    split
    · exact Or.inl rfl
    · exact Or.inl rfl
    · rename_i resampled hempty hresampled
      rw [resample1mCandles, if_neg (by simp [hne, htf])] at hresampled
      obtain ⟨every, hevery, -⟩ := Option.map_eq_some_iff.mp hresampled
      obtain ⟨s1, hread, hsave⟩ := saveNextVersion_eq pl s hempty symbol tf
      rw [hsave]
      refine Or.inr ⟨s1, resampled, hread, ?_,
        save_recorded (underscore_notMem_of_delta hevery) hempty rfl rfl⟩
      rw [derivable, htf, hevery]
      rfl

def deriveSource (pl : Polars) (s : Store) (symbol sourceTimeframe : String) : Frame :=
  let (sourceDataset, s) := s.getDataset (datasetId symbol sourceTimeframe)
  let sourceVersion := ((sourceDataset.bind Dataset.currentVersionId).map VersionId.versionTag).getD 1
  (s.loadCandles pl symbol sourceTimeframe sourceVersion).getD []

theorem derive_of_source_nil {symbol sourceTimeframe : String} (targets : List String)
    (h : s.deriveSource pl symbol sourceTimeframe = []) :
    s.Reread (s.deriveHigherTimeframeDatasets pl symbol sourceTimeframe targets) := by
  rw [deriveSource] at h
  rw [deriveHigherTimeframeDatasets]
  dsimp only at h ⊢
  split
  · exact getDataset_store s _
  · exact getDataset_store s _
  · rename_i df1m hne hload
    rw [hload, Option.getD_some] at h
    exact absurd h hne

/-- What syncs and the saves of the symbol's other timeframes keep is kept by a derivation. -/
theorem derive_induction {P : Store → Prop} (pl : Polars) (symbol : String) (targets : List String)
    (hsync : ∀ s, P s → P s.syncFromDisk)
    (hsave : ∀ s s' tf df, P s → tf ∈ targets → derivable tf = true → Save pl true s s' symbol tf df → P s')
    (h : P s) (sourceTimeframe : String) :
    P (s.deriveHigherTimeframeDatasets pl symbol sourceTimeframe targets) := by
  have hread : ∀ {s s1 : Store}, s.Reread s1 → P s → P s1 := by
    rintro s s1 (rfl | rfl) hP
    · exact hP
    · exact hsync s hP
  rw [deriveHigherTimeframeDatasets]
  dsimp only
  have hstart := hread (getDataset_store s (datasetId symbol sourceTimeframe)) h
  split
  · exact hstart
  · exact hstart
  · rename_i df1m hne _
    have hloop : ∀ (tfs : List String), (∀ tf ∈ tfs, tf ∈ targets) → ∀ t, P t →
        P (tfs.foldl (deriveOne pl symbol df1m) t) := by
      intro tfs
      induction tfs with
      | nil => exact fun _ t ht => ht
      | cons tf tfs ih =>
        intro hmem t ht
        refine ih (fun x hx => hmem x (List.mem_cons_of_mem _ hx)) _ ?_
        rcases deriveOne_cases pl t hne symbol tf with hsame | ⟨s1, df, hs1, htf, hs⟩
        · rw [hsame]
          exact ht
        · exact hsave s1 _ tf df (hread hs1 ht) (hmem tf List.mem_cons_self) htf hs
    exact hloop targets (fun _ htf => htf) _ hstart

/-- The source is the current version, or the first file where there is none. -/
theorem Kept.deriveSource_eq (hk : Kept pl s) (symbol sourceTimeframe : String) :
    s.deriveSource pl symbol sourceTimeframe =
      (s.loadCandles pl symbol sourceTimeframe
        (max 1 (s.head (datasetId symbol sourceTimeframe)))).getD [] := by
  have hread := getDataset_store s (datasetId symbol sourceTimeframe)
  have hkept := hread.kept hk
  rw [deriveSource, ← hread.head hk]
  dsimp only
  have htag : (((s.getDataset (datasetId symbol sourceTimeframe)).1.bind
      Dataset.currentVersionId).map VersionId.versionTag).getD 1 =
        max 1 ((s.getDataset (datasetId symbol sourceTimeframe)).2.head (datasetId symbol sourceTimeframe)) := by
    rw [head]
    change ((((s.getDataset _).2.datasets.get? _).bind _).map _).getD 1 = _
    cases hd : (s.getDataset (datasetId symbol sourceTimeframe)).2.datasets.get?
        (datasetId symbol sourceTimeframe) with
    | none => rfl
    | some d =>
      rw [Option.bind_some]
      cases hv : d.currentVersionId with
      | none => rfl
      | some v => exact (Nat.max_eq_right ((hkept.keyed _ d hd).2 v hv).2).symm
  rw [htag, loadCandles, loadCandles, hread.disk]

/-! Downloads. -/

theorem supported_of_fetched {job : DownloadJob} {answers : Nat → Answer}
    (h : fetched pl job answers ≠ []) : supported job.timeframe = true := by
  by_contra hs
  apply h
  rw [fetched, List.flatten_eq_nil_iff]
  intro df hdf
  obtain ⟨i, -, hi⟩ := List.mem_filterMap.mp hdf
  exact absurd (supported_of_fetchCandles hi) hs

theorem fetched_spelled (pl : Polars) (job : DownloadJob) (answers : Nat → Answer) :
    ∀ c ∈ fetched pl job answers, c.symbol = job.symbol ∧ c.timeframe = job.timeframe := by
  intro c hc
  obtain ⟨df, hdf, hcdf⟩ := List.mem_flatten.mp hc
  obtain ⟨i, -, hi⟩ := List.mem_filterMap.mp hdf
  exact fetchCandles_spelled hi c hcdf

theorem mem_stamps_finalFrame (pl : Polars) (s : Store) (job : DownloadJob) (newDf : Frame) (t : Int) :
    t ∈ stamps (finalFrame pl s job newDf) ↔ t ∈ stamps newDf ∨ (job.forceRefresh = false ∧
      t ∈ stamps ((s.loadCandles pl job.symbol job.timeframe 1).getD [])) := by
  rw [finalFrame]
  cases job.forceRefresh with
  | true => simp
  | false =>
    rw [if_neg Bool.false_ne_true, and_iff_right rfl]
    split
    · rename_i hload
      simp [hload, stamps]
    · rename_i hload
      simp [hload, stamps]
    · rename_i existing _ hload
      rw [pl.mem_stamps_tidy, hload, Option.getD_some, stamps, stamps, stamps, List.map_append,
        List.mem_append]
      exact or_comm

theorem finalFrame_ne_nil {job : DownloadJob} {newDf : Frame} (h : newDf ≠ []) :
    finalFrame pl s job newDf ≠ [] := by
  obtain ⟨c, hc⟩ := List.exists_mem_of_ne_nil newDf h
  have hmem := (mem_stamps_finalFrame pl s job newDf c.timestamp).mpr
    (Or.inl (List.mem_map_of_mem hc))
  intro hnil
  rw [hnil] at hmem
  cases hmem

def foundGaps (pl : Polars) (cal : MarketCalendar) (s : Store) (job : DownloadJob)
    (answers : Nat → Answer) : List DataGap :=
  detectGaps cal (finalFrame pl s job (pl.tidy (fetched pl job answers))) job.datasetId job.rangeFrom
    job.rangeTo job.timeframe

@[simp] theorem foldl_saveGap (gaps : List DataGap) :
    (gaps.foldl saveGap s).datasets = s.datasets ∧ (gaps.foldl saveGap s).versions = s.versions ∧
      (gaps.foldl saveGap s).disk = s.disk ∧ (gaps.foldl saveGap s).jobs = s.jobs := by
  induction gaps generalizing s with
  | nil => exact ⟨rfl, rfl, rfl, rfl⟩
  | cons g gaps ih => exact ih

theorem runJobPipeline_cases (cal : MarketCalendar) {job : DownloadJob} (hk : Kept pl s)
    (hid : job.datasetId = datasetId job.symbol job.timeframe)
    (hsome : (s.datasets.get? job.datasetId).isSome) (answers : Nat → Answer) :
    (fetched pl job answers = [] ∧ s.runJobPipeline pl cal job answers = s) ∨
      (fetched pl job answers ≠ [] ∧ ∃ s1 s2,
        Reread ((s.foundGaps pl cal job answers).foldl saveGap s) s1 ∧
        Save pl true s1 s2 job.symbol job.timeframe
          (finalFrame pl s job (pl.tidy (fetched pl job answers))) ∧
        s.runJobPipeline pl cal job answers =
          if oneMinute job.timeframe then
            s2.deriveHigherTimeframeDatasets pl job.symbol "1m" defaultTargets
          else s2) := by
  rw [runJobPipeline]
  dsimp only
  split
  · rename_i hrows
    exact Or.inl ⟨hrows, rfl⟩
  · rename_i hrows
    refine Or.inr ⟨hrows, ?_⟩
    have hfinal : finalFrame pl s job (pl.tidy (fetched pl job answers)) ≠ [] :=
      finalFrame_ne_nil (mt pl.tidy_eq_nil.mp hrows)
    obtain ⟨d, hd⟩ := Option.isSome_iff_exists.mp hsome
    obtain ⟨s1, hread, hsave⟩ := saveNextVersion_eq pl ((s.foundGaps pl cal job answers).foldl saveGap s)
      hfinal job.symbol job.timeframe
    have hfound : detectGaps cal (finalFrame pl s job (pl.tidy (fetched pl job answers))) job.datasetId
        job.rangeFrom job.rangeTo job.timeframe = s.foundGaps pl cal job answers := rfl
    have hkey := (hk.keyed _ d hd).1
    rw [getDataset_of_isSome hsome, hd]
    dsimp only
    rw [hfound, hid, hsave]
    have hplain := underscore_notMem_of_supported (supported_of_fetched hrows)
    let version := s1.nextVersion pl (finalFrame pl s job (pl.tidy (fetched pl job answers))) job.symbol
      job.timeframe
    exact ⟨s1, _, hread, save_recorded (d := { d with currentVersionId := some version.versionId }) hplain
      hfinal (hkey.trans hid) rfl, rfl⟩

/-! Repairs. -/

/-- What a repair that gets to the merge has: the catalogue entry, the first version and the new rows. -/
def repairMerge (pl : Polars) (s : Store) (gapId : GapId) (answer : Answer) :
    Option (Dataset × Frame × Frame) :=
  let (datasets, s) := s.listDatasets
  match s.findGap datasets gapId with
  | none => none
  | some (targetDatasetId, _) =>
    (s.datasets.get? targetDatasetId).bind fun dataset =>
      match fetchCandles pl dataset.symbol dataset.timeframe "" answer with
      | none | some [] => none
      | some repairedDf =>
        (s.loadCandles pl dataset.symbol dataset.timeframe 1).map fun existingDf =>
          (dataset, existingDf, repairedDf)

def repairing (gap : DataGap) : DataGap :=
  { gap with status := .REPAIRING, repairAttempts := gap.repairAttempts + 1 }

theorem findGap_spec (hk : Kept pl s) {gapId : GapId} {id : String} {gap : DataGap}
    (h : s.findGap s.datasets.values gapId = some (id, gap)) :
    (s.datasets.get? id).isSome ∧ gap ∈ s.gapsOf id ∧ gap.gapId = gapId := by
  rw [findGap] at h
  obtain ⟨d, hd, hfound⟩ := List.exists_of_findSome?_eq_some h
  obtain ⟨g, hg, heq⟩ := Option.map_eq_some_iff.mp hfound
  cases heq
  obtain ⟨e, he, rfl⟩ := List.mem_map.mp hd
  have hget := (Dict.mem_entries_iff s.datasets e.1 e.2).mp he
  have hid : gap.gapId = gapId := by simpa using List.find?_some hg
  refine ⟨?_, List.mem_of_find?_eq_some hg, hid⟩
  rw [(hk.keyed e.1 e.2 hget).1, hget]
  rfl

theorem plain_of_repairMerge {gapId : GapId} {answer : Answer} {d : Dataset} {existingDf repairedDf : Frame}
    (h : s.repairMerge pl gapId answer = some (d, existingDf, repairedDf)) :
    '_' ∉ d.timeframe.toList ∧ repairedDf ≠ [] := by
  rw [repairMerge] at h
  dsimp only at h
  split at h
  · cases h
  · obtain ⟨dataset, -, h⟩ := Option.bind_eq_some_iff.mp h
    split at h
    · cases h
    · cases h
    · rename_i rows hne hfetch
      obtain ⟨existing, -, heq⟩ := Option.map_eq_some_iff.mp h
      cases heq
      exact ⟨underscore_notMem_of_supported (supported_of_fetchCandles hfetch), hne⟩

/-- The status of a gap that a repair does not get to merge for. -/
def failedStatus (pl : Polars) (d : Dataset) (gap : DataGap) (answer : Answer) : GapStatus :=
  if fetchCandles pl d.symbol d.timeframe "" answer = some [] ∧ 2 ≤ gap.repairAttempts + 1 then
    .UNREPAIRABLE_UPSTREAM_OMISSION
  else .OPEN

theorem repairGap_cases (hk : Kept pl s) (gapId : GapId) (answer : Answer) :
    (s.listDatasets.2.findGap s.listDatasets.1 gapId = none ∧
        s.repairGap pl gapId answer = s.listDatasets.2) ∨
      ∃ id gap d, s.listDatasets.2.findGap s.listDatasets.1 gapId = some (id, gap) ∧
        s.listDatasets.2.datasets.get? id = some d ∧
        ((s.repairMerge pl gapId answer = none ∧
            s.repairGap pl gapId answer = (s.listDatasets.2.saveGap (repairing gap)).saveGap
              { repairing gap with status := failedStatus pl d gap answer }) ∨
          ∃ existingDf repairedDf, s.repairMerge pl gapId answer = some (d, existingDf, repairedDf) ∧
            s.repairGap pl gapId answer =
              match (s.listDatasets.2.saveGap (repairing gap)).saveNextVersion pl d.id
                (pl.tidy (existingDf ++ repairedDf)) d.symbol d.timeframe with
              | (none, s) => s.saveGap { repairing gap with status := .OPEN }
              | (some version, s) =>
                (s.saveGap { repairing gap with status := .RESOLVED }).upsertDataset
                  { d with currentVersionId := some version.versionId }) := by
  rw [repairGap, repairMerge]
  dsimp only
  have hkept := (listDatasets_store s).kept hk
  cases hfind : s.listDatasets.2.findGap s.listDatasets.1 gapId with
  | none => exact Or.inl ⟨rfl, rfl⟩
  | some found =>
    obtain ⟨id, gap⟩ := found
    obtain ⟨hsome, -, -⟩ := findGap_spec hkept hfind
    obtain ⟨d, hd⟩ := Option.isSome_iff_exists.mp hsome
    refine Or.inr ⟨id, gap, d, rfl, hd, ?_⟩
    have hget : (s.listDatasets.2.saveGap (repairing gap)).getDataset id =
        (some d, s.listDatasets.2.saveGap (repairing gap)) := by
      have hsame : (s.listDatasets.2.saveGap (repairing gap)).datasets = s.listDatasets.2.datasets := rfl
      rw [getDataset_of_isSome (hsame ▸ hsome), hsame, hd]
    have hload : (s.listDatasets.2.saveGap (repairing gap)).loadCandles pl d.symbol d.timeframe 1 =
        s.listDatasets.2.loadCandles pl d.symbol d.timeframe 1 := rfl
    rw [repairing] at hget hload ⊢
    dsimp only
    rw [hget, hd]
    dsimp only
    rw [Option.bind_some, hload, failedStatus]
    cases fetchCandles pl d.symbol d.timeframe "" answer with
    | none => exact Or.inl ⟨rfl, rfl⟩
    | some rows =>
      cases rows with
      | nil =>
        refine Or.inl ⟨rfl, ?_⟩
        dsimp only
        split
        · rename_i htwice
          rw [if_pos ⟨rfl, htwice⟩]
        · rename_i htwice
          rw [if_neg (mt And.right htwice)]
      | cons row rows =>
        cases s.listDatasets.2.loadCandles pl d.symbol d.timeframe 1 with
        | none => exact Or.inl ⟨rfl, rfl⟩
        | some existingDf => exact Or.inr ⟨existingDf, _, rfl, rfl⟩

/-- A merge is a save without a record, where the entry is spelled as its dataset. -/
theorem repairGap_merge (hk : Kept pl s) {gapId : GapId} {answer : Answer} {d : Dataset}
    {existingDf repairedDf : Frame}
    (hmerge : s.repairMerge pl gapId answer = some (d, existingDf, repairedDf))
    (hspelled : datasetId d.symbol d.timeframe = d.id) :
    ∃ id gap s1, s.listDatasets.2.findGap s.listDatasets.1 gapId = some (id, gap) ∧ d.id = id ∧
      Reread (s.listDatasets.2.saveGap (repairing gap)) s1 ∧
      Save pl false (s1.saveGap { repairing gap with status := .RESOLVED }) (s.repairGap pl gapId answer)
        d.symbol d.timeframe (pl.tidy (existingDf ++ repairedDf)) := by
  have hkept := (listDatasets_store s).kept hk
  rcases repairGap_cases hk gapId answer with ⟨hnone, -⟩ | ⟨id, gap, d', hfind, hd', hcases⟩
  · rw [repairMerge] at hmerge
    dsimp only at hmerge
    rw [hnone] at hmerge
    cases hmerge
  · rcases hcases with ⟨hnone, -⟩ | ⟨ex, rep, hsome, heq⟩
    · rw [hnone] at hmerge
      cases hmerge
    · rw [hsome] at hmerge
      cases hmerge
      obtain ⟨hplain, hne⟩ := plain_of_repairMerge hsome
      have hmerged : pl.tidy (existingDf ++ repairedDf) ≠ [] :=
        mt pl.tidy_eq_nil.mp (List.append_ne_nil_of_right_ne_nil _ hne)
      obtain ⟨s1, hread, hsave⟩ := saveNextVersion_eq pl (s.listDatasets.2.saveGap (repairing gap)) hmerged
        d.symbol d.timeframe
      rw [hspelled] at hsave
      rw [hsave] at heq
      refine ⟨id, gap, s1, hfind, (hkept.keyed id d hd').1, hread, ?_⟩
      rw [heq]
      let resolved := s1.saveGap { repairing gap with status := .RESOLVED }
      let version := resolved.nextVersion pl (pl.tidy (existingDf ++ repairedDf)) d.symbol d.timeframe
      exact save_unrecorded (s := resolved)
        (d := { d with currentVersionId := some version.versionId }) hplain hmerged hspelled.symm rfl

/-! Gaps are kept under their own datasets. -/

def GapsKeyed (s : Store) : Prop := ∀ id, ∀ g ∈ s.gapsOf id, g.datasetId = id

theorem GapsKeyed.congr {s' : Store} (h : GapsKeyed s) (hgaps : s'.gaps = s.gaps) : GapsKeyed s' := by
  intro id g hg
  rw [gapsOf, hgaps] at hg
  exact h id g hg

theorem gapsOf_saveGap (s : Store) (gap : DataGap) (id : String) :
    (s.saveGap gap).gapsOf id =
      if id = gap.datasetId then
        (s.gapsOf id).eraseP (fun g => g.gapId = gap.gapId) ++ [gap]
      else s.gapsOf id := by
  rw [gapsOf, saveGap, Dict.get?_insert]
  split
  · rename_i hid
    rw [hid, Option.getD_some]
  · rfl

theorem GapsKeyed.saveGap (h : GapsKeyed s) (gap : DataGap) : GapsKeyed (s.saveGap gap) := by
  intro id g hg
  rw [gapsOf_saveGap] at hg
  split at hg
  · rename_i hid
    rcases List.mem_append.mp hg with hg | hg
    · exact h id g (List.mem_of_mem_eraseP hg)
    · rw [List.mem_singleton.mp hg, hid]
  · exact h id g hg

theorem GapsKeyed.foldl_saveGap (h : GapsKeyed s) (gaps : List DataGap) :
    GapsKeyed (gaps.foldl Store.saveGap s) := by
  induction gaps generalizing s with
  | nil => exact h
  | cons g gaps ih => exact ih (h.saveGap g)

theorem repairMerge_dataset (hk : Kept pl s) (hg : GapsKeyed s) {gapId : GapId} {answer : Answer}
    {m : Dataset × Frame × Frame} (h : s.repairMerge pl gapId answer = some m) :
    m.1.id = gapId.datasetId := by
  have hread := listDatasets_store s
  rw [repairMerge] at h
  dsimp only at h
  split at h
  · cases h
  · rename_i id gap hfind
    obtain ⟨-, hgap, hgapId⟩ := findGap_spec (hread.kept hk) hfind
    obtain ⟨d, hd, h⟩ := Option.bind_eq_some_iff.mp h
    have hid := ((hread.kept hk).keyed id d hd).1
    have hdataset := hg.congr hread.gaps id gap hgap
    split at h
    · cases h
    · cases h
    · obtain ⟨existing, -, heq⟩ := Option.map_eq_some_iff.mp h
      cases heq
      rw [← hgapId]
      exact hid.trans hdataset.symm

/-! Enqueueing. -/

def newEntry (symbol timeframe : String) : Dataset :=
  { id := datasetId (upper (strip symbol)) timeframe, symbol := upper (strip symbol), timeframe }

def withEntry (s : Store) (d : Dataset) : Store :=
  if (s.getDataset d.id).1.isSome then (s.getDataset d.id).2 else (s.getDataset d.id).2.upsertDataset d

theorem withEntry_cases (s : Store) (d : Dataset) :
    ∃ s1, s.Reread s1 ∧ (s.withEntry d = s1 ∨
      (s1.datasets.get? d.id = none ∧ s.withEntry d = s1.upsertDataset d)) := by
  refine ⟨(s.getDataset d.id).2, getDataset_store s d.id, ?_⟩
  rw [withEntry]
  split
  · exact Or.inl rfl
  · rename_i hnone
    exact Or.inr ⟨Option.not_isSome_iff_eq_none.mp hnone, rfl⟩

theorem isSome_withEntry (s : Store) (d : Dataset) : ((s.withEntry d).datasets.get? d.id).isSome := by
  rw [withEntry]
  split
  · rename_i hsome
    exact hsome
  · rw [upsertDataset, Dict.get?_insert, if_pos rfl]
    rfl

theorem enqueueDownload_cases (s : Store) (symbol timeframe : String) (startDate endDate : Int)
    (forceRefresh : Bool) (jobId : String) :
    s.enqueueDownload symbol timeframe startDate endDate forceRefresh jobId =
        s.withEntry (newEntry symbol timeframe) ∨
      ∃ job, job.datasetId = datasetId job.symbol job.timeframe ∧
        (job.symbol = upper (strip symbol) ∧ job.timeframe = timeframe ∧ job.forceRefresh = forceRefresh) ∧
        s.enqueueDownload symbol timeframe startDate endDate forceRefresh jobId =
          { s.withEntry (newEntry symbol timeframe) with
            jobs := (s.withEntry (newEntry symbol timeframe)).jobs ++ [job] } := by
  have hid : joined '_' (upper (strip symbol)) (upper timeframe) =
      datasetId (upper (strip symbol)) timeframe := by
    rw [datasetId, upper_upper]
  rw [enqueueDownload]
  dsimp only
  rw [hid]
  cases splitDateRange startDate endDate with
  | none => exact Or.inl rfl
  | some chunks =>
    let job : DownloadJob :=
      { jobId, datasetId := datasetId (upper (strip symbol)) timeframe, symbol := upper (strip symbol)
        timeframe, rangeFrom := startDate, rangeTo := endDate, forceRefresh, chunks }
    exact Or.inr ⟨job, rfl, ⟨rfl, rfl, rfl⟩, rfl⟩

theorem head_upsert_new {d : Dataset} (hnew : s.datasets.get? d.id = none)
    (hcurrent : d.currentVersionId = none) (id : String) : (s.upsertDataset d).head id = s.head id := by
  rw [head, head, upsertDataset, Dict.get?_insert]
  split
  · rename_i hid
    rw [hid, hnew, Option.bind_some, hcurrent, Option.bind_none]
  · rfl

theorem Kept.upsert_new (hk : Kept pl s) {d : Dataset} (hnew : s.datasets.get? d.id = none)
    (hcurrent : d.currentVersionId = none) : Kept pl (s.upsertDataset d) where
  filed := hk.filed
  keyed := by
    intro id x hx
    rw [upsertDataset, Dict.get?_insert] at hx
    split at hx
    · rename_i hid
      cases hx
      refine ⟨hid.symm, fun v hv => ?_⟩
      rw [hcurrent] at hv
      cases hv
    · exact hk.keyed id x hx
  records_keyed := hk.records_keyed
  shelved := by
    intro id
    have hs := hk.shelved id
    have hhead := head_upsert_new hnew hcurrent id
    refine ⟨?_, hs.nodup, hs.mem_tags, ?_, ?_⟩
    · intro tag
      rw [hhead]
      exact hs.files tag
    · rw [hhead]
      exact hs.recorded
    · rw [hhead]
      exact hs.unrecorded
  jobs_keyed := by
    intro job hjob
    refine ⟨(hk.jobs_keyed job hjob).1, ?_⟩
    rw [upsertDataset, Dict.get?_insert]
    split
    · rfl
    · exact (hk.jobs_keyed job hjob).2

theorem Kept.withEntry (hk : Kept pl s) (symbol timeframe : String) :
    Kept pl (s.withEntry (newEntry symbol timeframe)) := by
  obtain ⟨s1, hread, hsame | ⟨hnew, hentry⟩⟩ := withEntry_cases s (newEntry symbol timeframe)
  · rw [hsame]
    exact hread.kept hk
  · rw [hentry]
    exact (hread.kept hk).upsert_new hnew rfl

theorem withEntry_disk (s : Store) (d : Dataset) : (s.withEntry d).disk = s.disk := by
  obtain ⟨s1, hread, hsame | ⟨-, hentry⟩⟩ := withEntry_cases s d
  · rw [hsame, hread.disk]
  · rw [hentry, ← hread.disk]
    rfl

theorem withEntry_gaps (s : Store) (d : Dataset) : (s.withEntry d).gaps = s.gaps := by
  obtain ⟨s1, hread, hsame | ⟨-, hentry⟩⟩ := withEntry_cases s d
  · rw [hsame, hread.gaps]
  · rw [hentry, ← hread.gaps]
    rfl

theorem withEntry_jobs (s : Store) (d : Dataset) : (s.withEntry d).jobs = s.jobs := by
  obtain ⟨s1, hread, hsame | ⟨-, hentry⟩⟩ := withEntry_cases s d
  · rw [hsame, hread.jobs]
  · rw [hentry, ← hread.jobs]
    rfl

theorem Kept.head_withEntry (hk : Kept pl s) (symbol timeframe id : String) :
    (s.withEntry (newEntry symbol timeframe)).head id = s.head id := by
  obtain ⟨s1, hread, hsame | ⟨hnew, hentry⟩⟩ := withEntry_cases s (newEntry symbol timeframe)
  · rw [hsame, hread.head hk]
  · rw [hentry, head_upsert_new hnew rfl, hread.head hk]

section
variable (symbol timeframe : String) (startDate endDate : Int) (forceRefresh : Bool) (jobId : String)

theorem Kept.enqueue (hk : Kept pl s) :
    Kept pl (s.enqueueDownload symbol timeframe startDate endDate forceRefresh jobId) := by
  have hentry := hk.withEntry symbol timeframe
  rcases enqueueDownload_cases s symbol timeframe startDate endDate forceRefresh jobId with
    heq | ⟨job, hid, ⟨hsymbol, htf, -⟩, heq⟩
  · rwa [heq]
  · rw [heq]
    refine ⟨hentry.filed, hentry.keyed, hentry.records_keyed, ?_, ?_⟩
    · intro id
      have hs := hentry.shelved id
      exact ⟨hs.files, hs.nodup, hs.mem_tags, hs.recorded, hs.unrecorded⟩
    · intro x hx
      rcases List.mem_append.mp hx with hx | hx
      · exact hentry.jobs_keyed x hx
      · rw [List.mem_singleton] at hx
        subst hx
        refine ⟨hid, ?_⟩
        rw [hid, hsymbol, htf]
        exact isSome_withEntry s (newEntry symbol timeframe)

theorem enqueue_disk (s : Store) :
    (s.enqueueDownload symbol timeframe startDate endDate forceRefresh jobId).disk = s.disk := by
  rw [← withEntry_disk s (newEntry symbol timeframe)]
  rcases enqueueDownload_cases s symbol timeframe startDate endDate forceRefresh jobId with
    heq | ⟨job, -, -, heq⟩ <;> rw [heq]

theorem enqueue_gaps (s : Store) :
    (s.enqueueDownload symbol timeframe startDate endDate forceRefresh jobId).gaps = s.gaps := by
  rw [← withEntry_gaps s (newEntry symbol timeframe)]
  rcases enqueueDownload_cases s symbol timeframe startDate endDate forceRefresh jobId with
    heq | ⟨job, -, -, heq⟩ <;> rw [heq]

theorem Kept.enqueue_head (hk : Kept pl s) (id : String) :
    (s.enqueueDownload symbol timeframe startDate endDate forceRefresh jobId).head id = s.head id := by
  rw [← hk.head_withEntry symbol timeframe id]
  rcases enqueueDownload_cases s symbol timeframe startDate endDate forceRefresh jobId with
    heq | ⟨job, -, -, heq⟩ <;> rw [heq]
  rfl

theorem Kept.enqueue_currentFrame (hk : Kept pl s) (symbol' timeframe' : String) :
    (s.enqueueDownload symbol timeframe startDate endDate forceRefresh jobId).currentFrame symbol' timeframe' =
      s.currentFrame symbol' timeframe' := by
  rw [(hk.enqueue symbol timeframe startDate endDate forceRefresh jobId).currentFrame_eq, hk.currentFrame_eq,
    hk.enqueue_head, enqueue_disk]

end

end Store
end Droid.History
