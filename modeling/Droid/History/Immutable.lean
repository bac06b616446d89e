import Droid.History.Services
import Droid.Lib.Run

/-! Immutable versions and a consistent catalogue: what they need, and what a merging repair does. -/
namespace Droid.History
open Lib Text

namespace Store

/-- The current version of every dataset has a record that tells the truth about its file, and the
files of two datasets are apart. -/
structure Consistent (pl : Polars) (s : Store) : Prop where
  recorded : ∀ id d v, s.datasets.get? id = some d → d.currentVersionId = some v →
    ∃ r ∈ s.recordsOf id, r.versionId = v ∧ ∃ file, s.disk.get? r.parquetPath = some file ∧
      r.rowCount = file.frame.length ∧ r.checksum = pl.checksum file.frame
  apart : ∀ id id', id ≠ id' → ∀ r ∈ s.recordsOf id, ∀ r' ∈ s.recordsOf id',
    r.parquetPath ≠ r'.parquetPath

def Unwritten (s s' : Store) : Prop :=
  ∀ path file, s.disk.get? path = some file → s'.disk.get? path = some file

/-- The symbols and timeframes that an operation saves versions of, a repair apart. -/
def written (pl : Polars) (s : Store) : Op → List (String × String)
  | .enqueueDownload .. => []
  | .finishJob i answers =>
    match s.jobs[i]? with
    | none => []
    | some job =>
      if fetched pl job answers = [] then []
      else
        (job.symbol, job.timeframe) ::
          if oneMinute job.timeframe ∧
              (lower job.timeframe = "1m" ∨ s.deriveSource pl job.symbol "1m" ≠ []) then
            (defaultTargets.filter derivable).map fun tf => (job.symbol, tf)
          else []
  | .repairGap .. => []
  | .deriveHigherTimeframeDatasets symbol sourceTimeframe targetTimeframes =>
    if s.deriveSource pl symbol sourceTimeframe = [] then []
    else (targetTimeframes.filter derivable).map fun tf => (symbol, tf)

/-- The operation is no repair that gets to its merge. -/
def mergesNothing (pl : Polars) (s : Store) : Op → Bool
  | .repairGap gapId answer => (s.repairMerge pl gapId answer).isNone
  | _ => true

/-- Every directory that is written to holds files of the one dataset, and no repair gets to merge. -/
def Careful (pl : Polars) (s : Store) (op : Op) : Prop :=
  (∀ w ∈ written pl s op, s.Alone w.1 w.2) ∧ mergesNothing pl s op = true

instance (s : Store) (symbol timeframe : String) : Decidable (s.Alone symbol timeframe) :=
  decidable_of_iff (∀ e ∈ s.disk.entries, e.1.symbolDir = cleanSymbol symbol →
      e.1.timeframeDir = lower timeframe → e.2.datasetId = datasetId symbol timeframe)
    ⟨fun h path file hfile => h (path, file) ((Dict.mem_entries_iff s.disk path file).mpr hfile),
      fun h e he => h e.1 e.2 ((Dict.mem_entries_iff s.disk e.1 e.2).mp he)⟩

instance (pl : Polars) (s : Store) (op : Op) : Decidable (Careful pl s op) :=
  inferInstanceAs (Decidable (_ ∧ _))

/-- The invariant: every tag on disk has its record, and every record its file. -/
structure Catalogued (pl : Polars) (s : Store) : Prop where
  kept : Kept pl s
  level : ∀ id, (s.tags id).length = s.head id
  backed : ∀ id, ∀ r ∈ s.recordsOf id, ∃ file, s.disk.get? r.parquetPath = some file ∧
    file.datasetId = id ∧ r = scannedVersion r.parquetPath file

section
variable {pl : Polars} {cal : MarketCalendar} {s s' : Store}

theorem catalogued_empty (pl : Polars) : Catalogued pl empty where
  kept := kept_empty pl
  level := fun _ => rfl
  backed := nofun

theorem Catalogued.consistent (h : Catalogued pl s) : Consistent pl s where
  recorded := by
    intro id d v hd hv
    have hkeyed := (h.kept.keyed id d hd).2 v hv
    have hhead : s.head id = v.versionTag := by
      rw [head, hd, Option.bind_some, hv]
      rfl
    have htag : v.versionTag ∈ s.tags id := by
      rw [(h.kept.shelved id).mem_tags, h.level, hhead]
      exact ⟨hkeyed.2, Nat.le_refl _⟩
    obtain ⟨r, hr, hrtag⟩ := List.mem_map.mp htag
    obtain ⟨file, hfile, -, hrecord⟩ := h.backed id r hr
    have hfiled := h.kept.filed _ _ hfile
    refine ⟨r, hr, ?_, file, hfile, ?_, ?_⟩
    · exact VersionId.ext ((h.kept.records_keyed id r hr).trans hkeyed.1.symm) hrtag
    · rw [hrecord, ← hfiled.rowCount_eq]
      rfl
    · rw [hrecord, ← hfiled.checksum_eq]
      rfl
  apart := by
    intro id id' hne r hr r' hr' hpath
    obtain ⟨file, hfile, hid, -⟩ := h.backed id r hr
    obtain ⟨file', hfile', hid', -⟩ := h.backed id' r' hr'
    rw [← hpath, hfile] at hfile'
    cases hfile'
    exact hne (hid.symm.trans hid')

theorem Catalogued.congr (h : Catalogued pl s) (hdatasets : s'.datasets = s.datasets)
    (hversions : s'.versions = s.versions) (hdisk : s'.disk = s.disk)
    (hjobs : ∀ job ∈ s'.jobs, job ∈ s.jobs) : Catalogued pl s' where
  kept := h.kept.congr hdatasets hversions hdisk hjobs
  level := by
    intro id
    rw [tags, recordsOf, head, hdatasets, hversions]
    exact h.level id
  backed := by
    intro id r hr
    rw [recordsOf, hversions] at hr
    rw [hdisk]
    exact h.backed id r hr

theorem Catalogued.sync (h : Catalogued pl s) : Catalogued pl s.syncFromDisk where
  kept := h.kept.sync
  level := by
    intro id
    rw [(h.kept.shelved id).head_sync]
    rcases (h.kept.shelved id).tags_sync with ⟨hsame, -⟩ | ⟨-, -, hlen⟩
    · rw [hsame]
      exact h.level id
    · exact hlen
  backed := by
    intro id r hr
    rw [recordsOf_syncFromDisk] at hr
    cases hscan : (scanDiskForDatasets s.disk).get? id with
    | none =>
      rw [hscan] at hr
      exact h.backed id r hr
    | some l =>
      rw [hscan] at hr
      obtain ⟨path, file, hfile, hid, rfl⟩ := (scan_some hscan).seen r hr
      exact ⟨file, hfile, hid, rfl⟩

theorem Catalogued.reread (h : Catalogued pl s) (hread : s.Reread s') : Catalogued pl s' := by
  rcases hread with rfl | rfl
  · exact h
  · exact h.sync

/-! A recorded save keeps the invariant and writes no file again. -/

section
variable {symbol timeframe : String} {df : Frame} (hsave : Save pl true s s' symbol timeframe df)
  (h : Catalogued pl s) (ha : s.Alone symbol timeframe)
include hsave h ha

theorem Save.unwritten : Unwritten s s' := by
  intro path file hfile
  rw [hsave.disk, Dict.get?_insert]
  split
  · rename_i hpath
    -- a file under the new tag would be of this dataset, whose tags end one before it
    have hid := ha path file hfile (congrArg ParquetPath.symbolDir hpath)
      (congrArg ParquetPath.timeframeDir hpath)
    have htag := getParquetPath_tag ((h.kept.filed _ _ hfile).path_eq.symm.trans hpath)
    have hle := (((h.kept.shelved _).files file.versionTag).mp ⟨path, file, hfile, hid, rfl⟩).2
    rw [htag, nextTag, h.level] at hle
    exact absurd hle (Nat.not_succ_le_self _)
  · exact hfile

theorem Save.catalogued : Catalogued pl s' where
  kept := hsave.kept h.kept ha
  level := by
    intro id
    by_cases hid : id = datasetId symbol timeframe
    · subst hid
      rw [hsave.tags_self (h.kept.shelved _), hsave.head_self, if_pos rfl, List.length_append]
      rfl
    · rw [tags, hsave.records_other hid, hsave.head_other hid]
      exact h.level id
  backed := by
    intro id r hr
    by_cases hid : id = datasetId symbol timeframe
    · subst hid
      rw [hsave.records_self (h.kept.shelved _), List.mem_append, List.mem_singleton] at hr
      rcases hr with hr | rfl
      · obtain ⟨file, hfile, hfid, hrecord⟩ := h.backed _ r hr
        exact ⟨file, hsave.unwritten h ha _ _ hfile, hfid, hrecord⟩
      · exact ⟨_, hsave.get?_saved, rfl, rfl⟩
    · rw [hsave.records_other hid] at hr
      obtain ⟨file, hfile, hfid, hrecord⟩ := h.backed id r hr
      exact ⟨file, hsave.unwritten h ha _ _ hfile, hfid, hrecord⟩

end

theorem Catalogued.derive (h : Catalogued pl s) {symbol : String} {targets : List String}
    (ha : ∀ tf ∈ targets, derivable tf = true → s.Alone symbol tf) (sourceTimeframe : String) :
    Catalogued pl (s.deriveHigherTimeframeDatasets pl symbol sourceTimeframe targets) ∧
      Unwritten s (s.deriveHigherTimeframeDatasets pl symbol sourceTimeframe targets) := by
  have hall := derive_induction pl symbol targets
    (P := fun t => (Catalogued pl t ∧ Unwritten s t) ∧
      ∀ tf ∈ targets, derivable tf = true → t.Alone symbol tf)
    (fun t ht => ⟨⟨ht.1.1.sync, ht.1.2⟩, ht.2⟩) ?_ ⟨⟨h, fun _ _ hfile => hfile⟩, ha⟩ sourceTimeframe
  · exact hall.1
  · rintro t t' tf df ⟨⟨ht, hun⟩, halone⟩ htf hderivable hsave
    have hown := halone tf htf hderivable
    refine ⟨⟨hsave.catalogued ht hown, fun path file hfile => ?_⟩, fun x hx hxd => ?_⟩
    · exact hsave.unwritten ht hown path file (hun path file hfile)
    · exact hsave.alone rfl (halone x hx hxd)

/-! The save of a download leaves the source of a derivation alone. -/

theorem Save.deriveSource {recorded : Bool} {symbol timeframe sourceTimeframe : String} {df : Frame}
    (hsave : Save pl recorded s s' symbol timeframe df) (hk : Kept pl s) (hk' : Kept pl s')
    (hp : '_' ∉ sourceTimeframe.toList) (hne : lower timeframe ≠ lower sourceTimeframe) :
    s'.deriveSource pl symbol sourceTimeframe = s.deriveSource pl symbol sourceTimeframe := by
  have hid : datasetId symbol sourceTimeframe ≠ datasetId symbol timeframe := by
    intro heq
    exact hne (upper_eq_iff.mp (datasetId_inj hp hsave.plain heq).2.symm)
  rw [hk'.deriveSource_eq, hk.deriveSource_eq, hsave.head_other hid, loadCandles, loadCandles, hsave.disk,
    Dict.get?_insert, if_neg]
  intro hpath
  exact hne (congrArg ParquetPath.timeframeDir hpath).symm

theorem Save.deriveSource_oneMinute {recorded : Bool} {symbol timeframe : String} {df : Frame}
    (hsave : Save pl recorded s s' symbol timeframe df) (hk : Kept pl s) (hk' : Kept pl s')
    (hne : lower timeframe ≠ "1m") : s'.deriveSource pl symbol "1m" = s.deriveSource pl symbol "1m" := by
  have hlower : lower "1m" = "1m" := by decide +kernel
  apply hsave.deriveSource hk hk' (by decide)
  rwa [hlower]

theorem Kept.deriveSource_congr (hk : Kept pl s) (hk' : Kept pl s') (hdatasets : s'.datasets = s.datasets)
    (hdisk : s'.disk = s.disk) (symbol sourceTimeframe : String) :
    s'.deriveSource pl symbol sourceTimeframe = s.deriveSource pl symbol sourceTimeframe := by
  rw [hk'.deriveSource_eq, hk.deriveSource_eq, head, head, hdatasets, loadCandles, loadCandles, hdisk]

theorem Reread.deriveSource (hread : s.Reread s') (hk : Kept pl s) (symbol sourceTimeframe : String) :
    s'.deriveSource pl symbol sourceTimeframe = s.deriveSource pl symbol sourceTimeframe := by
  rw [(hread.kept hk).deriveSource_eq, hk.deriveSource_eq, hread.head hk, loadCandles, loadCandles,
    hread.disk]

/-! Every operation. -/

theorem Catalogued.enqueue (h : Catalogued pl s) (symbol timeframe : String) (startDate endDate : Int)
    (forceRefresh : Bool) (jobId : String) :
    Catalogued pl (s.enqueueDownload symbol timeframe startDate endDate forceRefresh jobId) := by
  have hkept := h.kept.enqueue symbol timeframe startDate endDate forceRefresh jobId
  obtain ⟨s1, hread, hentry⟩ := withEntry_cases s (newEntry symbol timeframe)
  have h1 := h.reread hread
  -- neither the entry nor the job changes a record or a file
  have hrecords (id : String) :
      (s.enqueueDownload symbol timeframe startDate endDate forceRefresh jobId).recordsOf id =
        s1.recordsOf id := by
    have hwith : (s.withEntry (newEntry symbol timeframe)).recordsOf id = s1.recordsOf id := by
      rcases hentry with hsame | ⟨-, hnew⟩
      · rw [hsame]
      · rw [hnew]
        rfl
    rw [← hwith]
    rcases enqueueDownload_cases s symbol timeframe startDate endDate forceRefresh jobId with
      heq | ⟨job, -, -, heq⟩ <;> rw [heq]
    rfl
  refine ⟨hkept, ?_, ?_⟩
  · intro id
    rw [tags, hrecords, h.kept.enqueue_head, ← hread.head h.kept]
    exact h1.level id
  · intro id r hr
    rw [hrecords] at hr
    rw [enqueue_disk, ← hread.disk]
    exact h1.backed id r hr

/-- A finished job, by what it saves: nothing; a version; or that and the timeframes derived from it,
where none of the directories holds another dataset's files. -/
theorem finishJob_cases (cal : MarketCalendar) (hk : Kept pl s) {i : Nat} {answers : Nat → Answer}
    (ha : ∀ w ∈ written pl s (.finishJob i answers), s.Alone w.1 w.2) :
    (s.jobs[i]? = none ∧ s.finishJob pl cal i answers = s) ∨
      ∃ job s0, s.jobs[i]? = some job ∧ s0 = { s with jobs := s.jobs.eraseIdx i } ∧ Kept pl s0 ∧
        ((fetched pl job answers = [] ∧ s.finishJob pl cal i answers = s0) ∨
          (fetched pl job answers ≠ [] ∧ ∃ s1 s2,
            Reread ((s0.foundGaps pl cal job answers).foldl saveGap s0) s1 ∧ Kept pl s1 ∧
            s1.Alone job.symbol job.timeframe ∧
            Save pl true s1 s2 job.symbol job.timeframe
              (finalFrame pl s0 job (pl.tidy (fetched pl job answers))) ∧
            (Reread s2 (s.finishJob pl cal i answers) ∨
              (oneMinute job.timeframe = true ∧
                (∀ tf ∈ defaultTargets, derivable tf = true → s2.Alone job.symbol tf) ∧
                s.finishJob pl cal i answers =
                  s2.deriveHigherTimeframeDatasets pl job.symbol "1m" defaultTargets)))) := by
  rw [finishJob]
  cases hjob : s.jobs[i]? with
  | none => exact Or.inl ⟨rfl, rfl⟩
  | some job =>
    let s0 : Store := { s with jobs := s.jobs.eraseIdx i }
    rw [written, hjob] at ha
    dsimp only at ha ⊢
    obtain ⟨hid, hsome⟩ := hk.jobs_keyed job (List.mem_of_getElem? hjob)
    have h0 : Kept pl s0 := hk.congr rfl rfl rfl fun _ hmem => List.mem_of_mem_eraseIdx hmem
    refine Or.inr ⟨job, s0, rfl, rfl, h0, ?_⟩
    rcases runJobPipeline_cases cal h0 hid hsome answers with hnone | ⟨hrows, s1, s2, hread, hsave, heq⟩
    · exact Or.inl hnone
    · refine Or.inr ⟨hrows, s1, s2, hread, ?_⟩
      rw [if_neg hrows] at ha
      obtain ⟨hown, htargets⟩ := List.forall_mem_cons.mp ha
      obtain ⟨hd, hv, hdisk, hj⟩ := foldl_saveGap (s := s0) (s0.foundGaps pl cal job answers)
      have hgapped : Kept pl ((s0.foundGaps pl cal job answers).foldl saveGap s0) :=
        h0.congr hd hv hdisk (fun x hx => hj ▸ hx)
      have hdisk1 : s1.disk = s.disk := hread.disk.trans hdisk
      have h1 := hread.kept hgapped
      have hown1 : s1.Alone job.symbol job.timeframe := by
        intro path file hfile
        rw [hdisk1] at hfile
        exact hown path file hfile
      have h2 := hsave.kept h1 hown1
      refine ⟨h1, hown1, hsave, ?_⟩
      rw [heq]
      split
      · rename_i hminute
        by_cases hsource : s2.deriveSource pl job.symbol "1m" = []
        · exact Or.inl (derive_of_source_nil defaultTargets hsource)
        · have hderives : lower job.timeframe = "1m" ∨ s.deriveSource pl job.symbol "1m" ≠ [] := by
            by_contra hneither
            rw [not_or, not_not] at hneither
            apply hsource
            rw [hsave.deriveSource_oneMinute h1 h2 hneither.1, hread.deriveSource hgapped,
              hk.deriveSource_congr hgapped hd hdisk, hneither.2]
          rw [if_pos ⟨hminute, hderives⟩] at htargets
          refine Or.inr ⟨hminute, fun tf htf hderivable => ?_, rfl⟩
          apply hsave.alone rfl
          intro path file hfile
          rw [hdisk1] at hfile
          exact htargets _ (List.mem_map_of_mem (List.mem_filter.mpr ⟨htf, hderivable⟩)) path file hfile
      · exact Or.inl (Or.inl rfl)

theorem Catalogued.finish (h : Catalogued pl s) {i : Nat} {answers : Nat → Answer}
    (ha : ∀ w ∈ written pl s (.finishJob i answers), s.Alone w.1 w.2) :
    Catalogued pl (s.finishJob pl cal i answers) ∧ Unwritten s (s.finishJob pl cal i answers) := by
  rcases finishJob_cases cal h.kept ha with
    ⟨-, heq⟩ | ⟨job, s0, -, rfl, -, ⟨-, heq⟩ | ⟨-, s1, s2, hread, -, hown, hsave, hlast⟩⟩
  · rw [heq]
    exact ⟨h, fun _ _ hfile => hfile⟩
  · rw [heq]
    exact ⟨h.congr rfl rfl rfl fun _ hmem => List.mem_of_mem_eraseIdx hmem, fun _ _ hfile => hfile⟩
  · have h0 : Catalogued pl { s with jobs := s.jobs.eraseIdx i } :=
      h.congr rfl rfl rfl fun _ hmem => List.mem_of_mem_eraseIdx hmem
    obtain ⟨hd, hv, hdisk, hj⟩ := foldl_saveGap (s := { s with jobs := s.jobs.eraseIdx i })
      (foundGaps pl cal { s with jobs := s.jobs.eraseIdx i } job answers)
    have h1 := (h0.congr hd hv hdisk fun x hx => hj ▸ hx).reread hread
    have h2 := hsave.catalogued h1 hown
    have hun : Unwritten s s2 := by
      intro path file hfile
      apply hsave.unwritten h1 hown
      rwa [hread.disk, hdisk]
    rcases hlast with hreread | ⟨-, halone, heq⟩
    · refine ⟨h2.reread hreread, fun path file hfile => ?_⟩
      rw [hreread.disk]
      exact hun path file hfile
    · rw [heq]
      obtain ⟨h3, hun3⟩ := h2.derive halone "1m"
      exact ⟨h3, fun path file hfile => hun3 path file (hun path file hfile)⟩

theorem Catalogued.step (h : Catalogued pl s) {op : Op} (hop : Careful pl s op) :
    Catalogued pl (s.step pl cal op) ∧ Unwritten s (s.step pl cal op) := by
  obtain ⟨hwritten, hmerge⟩ := hop
  cases op with
  | enqueueDownload symbol timeframe startDate endDate forceRefresh jobId =>
    refine ⟨h.enqueue symbol timeframe startDate endDate forceRefresh jobId, fun path file hfile => ?_⟩
    exact (enqueue_disk symbol timeframe startDate endDate forceRefresh jobId s).symm ▸ hfile
  | finishJob i answers => exact h.finish hwritten
  | repairGap gapId answer =>
    have hread := listDatasets_store s
    have hlisted := h.reread hread
    have hdisk := hread.disk
    rcases repairGap_cases h.kept gapId answer with ⟨-, heq⟩ | ⟨id, gap, d, -, -, ⟨-, heq⟩ | ⟨_, _, hsome, -⟩⟩
    · rw [Store.step, heq]
      exact ⟨hlisted, fun path file hfile => hdisk.symm ▸ hfile⟩
    · rw [Store.step, heq]
      exact ⟨hlisted.congr rfl rfl rfl fun _ hx => hx, fun path file hfile => hdisk.symm ▸ hfile⟩
    · rw [mergesNothing, hsome] at hmerge
      cases hmerge
  | deriveHigherTimeframeDatasets symbol sourceTimeframe targetTimeframes =>
    rw [Store.step]
    rw [written] at hwritten
    split at hwritten
    · rename_i hsource
      have hread := derive_of_source_nil targetTimeframes hsource
      exact ⟨h.reread hread, fun path file hfile => hread.disk.symm ▸ hfile⟩
    · refine h.derive (fun tf htf hderivable => ?_) sourceTimeframe
      exact hwritten (symbol, tf) (List.mem_map_of_mem (List.mem_filter.mpr ⟨htf, hderivable⟩))

/-- In a run where every directory that is written to holds files of the one dataset and no repair
gets to its merge, the catalogue is consistent in every state, and no file is written twice. -/
theorem versions_immutable (pl : Polars) (cal : MarketCalendar) (ops : List Op)
    (hops : Guarded (step pl cal) (Careful pl) empty ops) :
    Always (step pl cal) (Consistent pl) empty ops ∧
      ∀ pre mid, pre ++ mid <+: ops →
        Unwritten (run (step pl cal) empty pre) (run (step pl cal) empty (pre ++ mid)) := by
  have hinv : Always (step pl cal) (Catalogued pl) empty ops :=
    always_of_guarded (fun s op h hop => (h.step hop).1) (catalogued_empty pl) hops
  refine ⟨hinv.mono fun s h => h.consistent, ?_⟩
  apply (related_iff_guarded (R := Unwritten) ?_ ?_ empty ops).mpr
  · exact hops.mono hinv fun s op h hop => (h.step hop).2
  · exact fun s path file hfile => hfile
  · exact fun a b c hab hbc path file hfile => hbc path file (hab path file hfile)

end

/-! The evening session of 8 November 2026, downloaded and repaired. -/

def eveningDownload (minutes : List Int) : List Op :=
  [.enqueueDownload "nifty" "1m" evening evening false "job",
    .finishJob 0 fun _ => some (minutes.map eveningCandle)]

def eveningRun : List Op :=
  eveningDownload [0] ++ eveningDownload [0, 1] ++
    [.repairGap ⟨"NIFTY_1M", evening⟩ (some []), .deriveHigherTimeframeDatasets "NIFTY" "1m" ["5m"]]

theorem versions_immutable_evening :
    Guarded (step plainPolars indianCalendar) (Careful plainPolars) empty eveningRun ∧
      Always (step plainPolars indianCalendar) (Consistent plainPolars) empty eveningRun :=
  have hops : Guarded (step plainPolars indianCalendar) (Careful plainPolars) empty eveningRun := by
    decide +kernel
  ⟨hops, (versions_immutable plainPolars indianCalendar _ hops).1⟩

def eveningRepaired : List Op :=
  eveningDownload [0] ++ [.repairGap ⟨"NIFTY_1M", evening⟩ (some [eveningCandle 1])]

/-- After a repair with candles the current version has no record. -/
theorem repair_records_nothing :
    ¬ ∀ (pl : Polars) (cal : MarketCalendar) (ops : List Op),
      Always (step pl cal) (Consistent pl) empty ops ∧
        ∀ pre mid, pre ++ mid <+: ops →
          Unwritten (run (step pl cal) empty pre) (run (step pl cal) empty (pre ++ mid)) := by
  intro h
  have hlast := run_of_always (h plainPolars indianCalendar eveningRepaired).1
  have hcurrent : ((run (step plainPolars indianCalendar) empty eveningRepaired).datasets.get? "NIFTY_1M").bind
      Dataset.currentVersionId = some ⟨"NIFTY_1M", 2⟩ := by decide +kernel
  have hrecords : ∀ r ∈ (run (step plainPolars indianCalendar) empty eveningRepaired).recordsOf "NIFTY_1M",
      r.versionId ≠ ⟨"NIFTY_1M", 2⟩ := by decide +kernel
  obtain ⟨d, hd, hv⟩ := Option.bind_eq_some_iff.mp hcurrent
  obtain ⟨r, hr, hid, -⟩ := hlast.recorded _ d _ hd hv
  exact hrecords r hr hid

end Store
end Droid.History
