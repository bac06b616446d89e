import Droid.History.Immutable

/-! Growth of one dataset's history: what incremental downloads and repairs keep of it. -/
namespace Droid.History
open Lib Text

def Op.On (symbol timeframe : String) : Op → Prop
  | .enqueueDownload sym tf _ _ forceRefresh _ =>
    upper (strip sym) = upper symbol ∧ upper tf = upper timeframe ∧ forceRefresh = false
  | .finishJob .. => True
  | .repairGap gapId _ => gapId.datasetId = datasetId symbol timeframe
  | .deriveHigherTimeframeDatasets .. => False

namespace Store

def fetchedRows (pl : Polars) (s : Store) : Op → Frame
  | .finishJob i answers => ((s.jobs[i]?).map fun job => fetched pl job answers).getD []
  | .repairGap gapId answer => ((s.repairMerge pl gapId answer).map fun m => m.2.2).getD []
  | _ => []

/-- The history after the operation holds what it held, and the new rows. -/
def Grows (symbol timeframe : String) (s s' : Store) : Prop :=
  ∀ t ∈ stamps (s.currentFrame symbol timeframe), t ∈ stamps (s'.currentFrame symbol timeframe)

/-- Every version of the dataset has each timestamp once. -/
def Distinct (id : String) (s : Store) : Prop :=
  ∀ path file, s.disk.get? path = some file → file.datasetId = id → (stamps file.frame).Nodup

/-- The current version's timestamps are all in the first version or in the new rows, and where these
two have a timestamp in common, they spell symbol and timeframe alike. -/
def Mergeable (pl : Polars) (s : Store) (symbol timeframe : String) (rows : Frame) : Prop :=
  let existingDf := (s.loadCandles pl symbol timeframe 1).getD []
  (∀ t ∈ stamps (s.currentFrame symbol timeframe), t ∈ stamps existingDf ∨ t ∈ stamps rows) ∧
    ∀ a ∈ existingDf, ∀ b ∈ rows, a.timestamp = b.timestamp → a.key = b.key

/-- What an operation needs to let the history grow; a repair also needs an entry that still spells
the dataset. -/
def Growing (pl : Polars) (symbol timeframe : String) (s : Store) (op : Op) : Prop :=
  (fetchedRows pl s op ≠ [] → Mergeable pl s symbol timeframe (fetchedRows pl s op)) ∧
    match op with
    | .repairGap gapId answer => ∀ m ∈ s.repairMerge pl gapId answer,
      upper m.1.symbol = upper symbol ∧ upper m.1.timeframe = upper timeframe
    | _ => True

instance (pl : Polars) (s : Store) (symbol timeframe : String) (rows : Frame) :
    Decidable (Mergeable pl s symbol timeframe rows) := inferInstanceAs (Decidable (_ ∧ _))

instance (pl : Polars) (symbol timeframe : String) (s : Store) :
    (op : Op) → Decidable (Growing pl symbol timeframe s op)
  | .enqueueDownload .. | .finishJob .. | .deriveHigherTimeframeDatasets .. =>
    inferInstanceAs (Decidable (_ ∧ True))
  | .repairGap .. => inferInstanceAs (Decidable (_ ∧ ∀ m ∈ _, _))

/-- The invariant: all files are of the symbol, all jobs of the dataset. -/
structure OneDataset (pl : Polars) (symbol timeframe : String) (s : Store) : Prop where
  kept : Kept pl s
  symbol_eq : ∀ path file, s.disk.get? path = some file → upper file.symbol = upper symbol
  jobs : ∀ job ∈ s.jobs, upper job.symbol = upper symbol ∧ upper job.timeframe = upper timeframe ∧
    job.forceRefresh = false
  distinct : Distinct (datasetId symbol timeframe) s
  gaps : GapsKeyed s

section
variable {pl : Polars} {cal : MarketCalendar} {symbol timeframe : String} {s s' : Store}

theorem oneDataset_empty (pl : Polars) (symbol timeframe : String) :
    OneDataset pl symbol timeframe empty :=
  ⟨kept_empty pl, nofun, nofun, nofun, nofun⟩

theorem datasetId_congr {symbol' timeframe' : String} (hs : upper symbol' = upper symbol)
    (ht : upper timeframe' = upper timeframe) : datasetId symbol' timeframe' = datasetId symbol timeframe := by
  rw [datasetId, datasetId, hs, ht]

theorem alone_of_symbol (h : ∀ path file, s.disk.get? path = some file → upper file.symbol = upper symbol)
    (hk : Kept pl s) {symbol' : String} (hs : upper symbol' = upper symbol) (timeframe' : String) :
    s.Alone symbol' timeframe' := by
  intro path file hfile _ htf
  have hpath := (hk.filed path file hfile).path_eq
  have hlower : lower file.timeframe = lower timeframe' := by
    rw [hpath] at htf
    exact htf
  exact datasetId_congr ((h path file hfile).trans hs.symm) (upper_eq_iff.mpr hlower)

theorem OneDataset.alone (h : OneDataset pl symbol timeframe s) {symbol' : String}
    (hs : upper symbol' = upper symbol) (timeframe' : String) : s.Alone symbol' timeframe' :=
  alone_of_symbol h.symbol_eq h.kept hs timeframe'

theorem OneDataset.congr (h : OneDataset pl symbol timeframe s) (hdatasets : s'.datasets = s.datasets)
    (hversions : s'.versions = s.versions) (hdisk : s'.disk = s.disk)
    (hgaps : GapsKeyed s') (hjobs : ∀ job ∈ s'.jobs, job ∈ s.jobs) :
    OneDataset pl symbol timeframe s' where
  kept := h.kept.congr hdatasets hversions hdisk hjobs
  symbol_eq := hdisk ▸ h.symbol_eq
  jobs := fun job hjob => h.jobs job (hjobs job hjob)
  distinct := by
    intro path file hfile
    rw [hdisk] at hfile
    exact h.distinct path file hfile
  gaps := hgaps

theorem OneDataset.reread (h : OneDataset pl symbol timeframe s) (hread : s.Reread s') :
    OneDataset pl symbol timeframe s' where
  kept := hread.kept h.kept
  symbol_eq := hread.disk ▸ h.symbol_eq
  jobs := hread.jobs ▸ h.jobs
  distinct := by
    intro path file hfile
    rw [hread.disk] at hfile
    exact h.distinct path file hfile
  gaps := h.gaps.congr hread.gaps

/-- A save of the symbol's: a version of the dataset needs distinct timestamps. -/
theorem OneDataset.save (h : OneDataset pl symbol timeframe s) {recorded : Bool}
    {symbol' timeframe' : String} {df : Frame} (hsave : Save pl recorded s s' symbol' timeframe' df)
    (hs : upper symbol' = upper symbol)
    (hdf : datasetId symbol' timeframe' = datasetId symbol timeframe → (stamps df).Nodup) :
    OneDataset pl symbol timeframe s' where
  kept := hsave.kept h.kept (h.alone hs timeframe')
  symbol_eq := by
    intro path file hfile
    rw [hsave.disk, Dict.get?_insert] at hfile
    split at hfile
    · cases hfile
      exact hs
    · exact h.symbol_eq path file hfile
  jobs := hsave.jobs ▸ h.jobs
  distinct := by
    intro path file hfile hid
    rw [hsave.disk, Dict.get?_insert] at hfile
    split at hfile
    · cases hfile
      exact hdf hid
    · exact h.distinct path file hfile hid
  gaps := h.gaps.congr hsave.gaps

/-! The merged frame. -/

theorem OneDataset.first_distinct (h : OneDataset pl symbol timeframe s) :
    (stamps ((s.loadCandles pl symbol timeframe 1).getD [])).Nodup := by
  cases hload : s.loadCandles pl symbol timeframe 1 with
  | none => exact List.nodup_nil
  | some df =>
    obtain ⟨file, hfile, rfl⟩ := Option.map_eq_some_iff.mp hload
    have hid := h.alone rfl timeframe _ file hfile rfl rfl
    have hperm : (stamps (pl.sort file.frame)).Perm (stamps file.frame) := (pl.sort_perm _).map _
    exact hperm.nodup_iff.mpr (h.distinct _ file hfile hid)

theorem key_of_spelled {rows : Frame} {sym tf : String}
    (h : ∀ c ∈ rows, c.symbol = sym ∧ c.timeframe = tf) :
    ∀ a ∈ rows, ∀ b ∈ rows, a.timestamp = b.timestamp → a.key = b.key := by
  intro a ha b hb ht
  rw [Candle.key, Candle.key, (h a ha).1, (h a ha).2, (h b hb).1, (h b hb).2, ht]

theorem merged_nodup {existingDf rows : Frame} (hexisting : (stamps existingDf).Nodup)
    (hrows : ∀ a ∈ rows, ∀ b ∈ rows, a.timestamp = b.timestamp → a.key = b.key)
    (hmixed : ∀ a ∈ existingDf, ∀ b ∈ rows, a.timestamp = b.timestamp → a.key = b.key) :
    (stamps (pl.tidy (existingDf ++ rows))).Nodup := by
  apply pl.stamps_tidy_nodup
  intro a ha b hb ht
  rcases List.mem_append.mp ha with ha | ha <;> rcases List.mem_append.mp hb with hb | hb
  · rw [List.inj_on_of_nodup_map hexisting ha hb ht]
  · exact hmixed a ha b hb ht
  · exact (hmixed b hb a ha ht.symm).symm
  · exact hrows a ha b hb ht

/-- Both names of the dataset load the same file. -/
theorem loadCandles_congr {symbol' timeframe' : String} (hs : upper symbol' = upper symbol)
    (ht : upper timeframe' = upper timeframe) (tag : Nat) :
    s.loadCandles pl symbol' timeframe' tag = s.loadCandles pl symbol timeframe tag := by
  rw [loadCandles, loadCandles, getParquetPath, getParquetPath, cleanSymbol, cleanSymbol,
    upper_eq_iff.mp hs, upper_eq_iff.mp ht]

theorem finalFrame_nodup {job : DownloadJob} {newDf : Frame}
    (hexisting : (stamps ((s.loadCandles pl job.symbol job.timeframe 1).getD [])).Nodup)
    (hdistinct : (stamps newDf).Nodup)
    (hrows : ∀ a ∈ newDf, ∀ b ∈ newDf, a.timestamp = b.timestamp → a.key = b.key)
    (hmixed : ∀ a ∈ (s.loadCandles pl job.symbol job.timeframe 1).getD [], ∀ b ∈ newDf,
      a.timestamp = b.timestamp → a.key = b.key) :
    (stamps (finalFrame pl s job newDf)).Nodup := by
  rw [finalFrame]
  split
  · exact hdistinct
  · split
    · exact hdistinct
    · exact hdistinct
    · rename_i existingDf _ hload
      rw [hload] at hexisting hmixed
      exact merged_nodup hexisting hrows hmixed

/-! Every operation. -/

/-- What a derivation of the symbol's saves is of other datasets. -/
theorem derived_ne {sym sym' tf tf' : String} (htf : '_' ∉ tf.toList) (htf' : '_' ∉ tf'.toList)
    (hminute : oneMinute tf = true) (hderivable : derivable tf' = true) :
    datasetId sym tf ≠ datasetId sym' tf' := by
  intro heq
  have hlower := upper_eq_iff.mp (datasetId_inj htf htf' heq).2
  rw [derivable, oneMinute, ← hlower, ← oneMinute, hminute] at hderivable
  cases hderivable

theorem OneDataset.derive (h : OneDataset pl symbol timeframe s) {sym tf : String}
    (hs : upper sym = upper symbol) (ht : upper tf = upper timeframe) (hplain : '_' ∉ tf.toList)
    (hminute : oneMinute tf = true) (sourceTimeframe : String) (targets : List String) :
    OneDataset pl symbol timeframe (s.deriveHigherTimeframeDatasets pl sym sourceTimeframe targets) ∧
      (s.deriveHigherTimeframeDatasets pl sym sourceTimeframe targets).currentFrame symbol timeframe =
        s.currentFrame symbol timeframe := by
  have hid : datasetId sym tf = datasetId symbol timeframe := datasetId_congr hs ht
  have hplain' : '_' ∉ timeframe.toList := by
    rwa [← mem_upper (by decide), ← ht, mem_upper (by decide)]
  refine derive_induction pl sym targets (P := fun t => OneDataset pl symbol timeframe t ∧
    t.currentFrame symbol timeframe = s.currentFrame symbol timeframe) ?_ ?_ ⟨h, rfl⟩ sourceTimeframe
  · rintro t ⟨hone, hcurrent⟩
    exact ⟨hone.reread (Or.inr rfl), (hone.kept.currentFrame_sync symbol timeframe).trans hcurrent⟩
  · rintro t t' tf' df ⟨hone, hcurrent⟩ _ hderivable hsave
    have hother : datasetId sym tf' ≠ datasetId symbol timeframe :=
      fun heq => derived_ne hplain hsave.plain hminute hderivable (hid.trans heq.symm)
    refine ⟨hone.save hsave hs fun heq => absurd heq hother, ?_⟩
    rw [hsave.currentFrame_other hone.kept (hone.alone hs tf') hplain' (Ne.symm hother), hcurrent]

theorem OneDataset.finish (h : OneDataset pl symbol timeframe s) {i : Nat} {answers : Nat → Answer}
    (hop : Growing pl symbol timeframe s (.finishJob i answers)) :
    OneDataset pl symbol timeframe (s.finishJob pl cal i answers) ∧
      Grows symbol timeframe s (s.finishJob pl cal i answers) ∧
      ∀ t ∈ stamps (fetchedRows pl s (.finishJob i answers)),
        t ∈ stamps ((s.finishJob pl cal i answers).currentFrame symbol timeframe) := by
  obtain ⟨hmergeable, -⟩ := hop
  rw [fetchedRows] at hmergeable ⊢
  rw [finishJob]
  cases hjob : s.jobs[i]? with
  | none => exact ⟨h, fun _ ht => ht, fun _ ht => absurd ht List.not_mem_nil⟩
  | some job =>
    rw [hjob, Option.map_some, Option.getD_some] at hmergeable
    rw [Option.map_some, Option.getD_some]
    dsimp only
    obtain ⟨hsymbol, htimeframe, hforce⟩ := h.jobs job (List.mem_of_getElem? hjob)
    obtain ⟨hid, hsome⟩ := h.kept.jobs_keyed job (List.mem_of_getElem? hjob)
    have h0 : OneDataset pl symbol timeframe { s with jobs := s.jobs.eraseIdx i } :=
      h.congr rfl rfl rfl h.gaps fun _ hmem => List.mem_of_mem_eraseIdx hmem
    rcases runJobPipeline_cases cal h0.kept hid hsome answers with
      ⟨hrows, heq⟩ | ⟨hrows, s1, s2, hread, hsave, heq⟩
    · rw [heq, hrows]
      exact ⟨h0, fun _ ht => ht, fun _ ht => absurd ht List.not_mem_nil⟩
    · obtain ⟨hcovered, hmixed⟩ := hmergeable hrows
      -- the frame that is saved
      have hload : Store.loadCandles pl { s with jobs := s.jobs.eraseIdx i } job.symbol job.timeframe 1 =
          s.loadCandles pl symbol timeframe 1 := loadCandles_congr hsymbol htimeframe 1
      have hspelled := key_of_spelled (fetched_spelled pl job answers)
      have hnodup : (stamps (finalFrame pl { s with jobs := s.jobs.eraseIdx i } job
          (pl.tidy (fetched pl job answers)))).Nodup := by
        apply finalFrame_nodup
        · rw [hload]
          exact h.first_distinct
        · exact pl.stamps_tidy_nodup hspelled
        · exact fun a ha b hb => hspelled a (pl.mem_tidy ha) b (pl.mem_tidy hb)
        · rw [hload]
          exact fun a ha b hb => hmixed a ha b (pl.mem_tidy hb)
      obtain ⟨hd, hv, hdisk, hj⟩ := foldl_saveGap (s := { s with jobs := s.jobs.eraseIdx i })
        (foundGaps pl cal { s with jobs := s.jobs.eraseIdx i } job answers)
      have h1 := (h0.congr hd hv hdisk (h0.gaps.foldl_saveGap _) fun x hx => hj ▸ hx).reread hread
      have h2 := h1.save hsave hsymbol fun _ => hnodup
      have hplain := hsave.plain
      have hplain' : '_' ∉ timeframe.toList := by
        rwa [← mem_upper (by decide), ← htimeframe, mem_upper (by decide)]
      have hcurrent := hsave.currentFrame_self hplain' (datasetId_congr hsymbol htimeframe).symm
      have hafter : OneDataset pl symbol timeframe (Store.runJobPipeline pl cal
            { s with jobs := s.jobs.eraseIdx i } job answers) ∧
          (Store.runJobPipeline pl cal { s with jobs := s.jobs.eraseIdx i } job answers).currentFrame
            symbol timeframe = s2.currentFrame symbol timeframe := by
        rw [heq]
        split
        · rename_i hminute
          exact h2.derive hsymbol htimeframe hplain hminute "1m" defaultTargets
        · exact ⟨h2, rfl⟩
      refine ⟨hafter.1, ?_, ?_⟩
      · intro t ht
        rw [hafter.2, hcurrent, mem_stamps_finalFrame, hload, pl.mem_stamps_tidy]
        exact (hcovered t ht).elim (fun hex => Or.inr ⟨hforce, hex⟩) Or.inl
      · intro t ht
        rw [hafter.2, hcurrent, mem_stamps_finalFrame, pl.mem_stamps_tidy]
        exact Or.inl ht

theorem repairMerge_spec {gapId : GapId} {answer : Answer} {d : Dataset} {existingDf repairedDf : Frame}
    (h : s.repairMerge pl gapId answer = some (d, existingDf, repairedDf)) :
    s.loadCandles pl d.symbol d.timeframe 1 = some existingDf ∧
      ∀ c ∈ repairedDf, c.symbol = d.symbol ∧ c.timeframe = d.timeframe := by
  rw [repairMerge] at h
  dsimp only at h
  split at h
  · cases h
  · obtain ⟨dataset, -, h⟩ := Option.bind_eq_some_iff.mp h
    split at h
    · cases h
    · cases h
    · rename_i rows _ hfetch
      obtain ⟨existing, hload, heq⟩ := Option.map_eq_some_iff.mp h
      cases heq
      rw [loadCandles, (listDatasets_store s).disk] at hload
      exact ⟨hload, fetchCandles_spelled hfetch⟩

theorem OneDataset.repair (h : OneDataset pl symbol timeframe s) {gapId : GapId} {answer : Answer}
    (hid : gapId.datasetId = datasetId symbol timeframe)
    (hop : Growing pl symbol timeframe s (.repairGap gapId answer)) :
    OneDataset pl symbol timeframe (s.repairGap pl gapId answer) ∧
      Grows symbol timeframe s (s.repairGap pl gapId answer) ∧
      ∀ t ∈ stamps (fetchedRows pl s (.repairGap gapId answer)),
        t ∈ stamps ((s.repairGap pl gapId answer).currentFrame symbol timeframe) := by
  have hread := listDatasets_store s
  have hlisted := h.reread hread
  have hsame := hread.currentFrame h.kept symbol timeframe
  obtain ⟨hmergeable, hspelled⟩ := hop
  rw [fetchedRows] at hmergeable ⊢
  cases hmerge : s.repairMerge pl gapId answer with
  | none =>
    rcases repairGap_cases h.kept gapId answer with ⟨-, heq⟩ | ⟨id, gap, d, -, -, ⟨-, heq⟩ | ⟨_, _, hsome, -⟩⟩
    · rw [heq]
      exact ⟨hlisted, fun t ht => hsame.symm ▸ ht, nofun⟩
    · rw [heq]
      refine ⟨hlisted.congr rfl rfl rfl ((hlisted.gaps.saveGap _).saveGap _) fun _ hx => hx, fun t ht => ?_, nofun⟩
      rw [← hsame] at ht
      exact ht
    · rw [hmerge] at hsome
      cases hsome
  | some m =>
    obtain ⟨d, existingDf, repairedDf⟩ := m
    obtain ⟨hsymbol, htimeframe⟩ := hspelled _ hmerge
    obtain ⟨hplain, hne⟩ := plain_of_repairMerge hmerge
    obtain ⟨hload, hrows⟩ := repairMerge_spec hmerge
    rw [hmerge, Option.map_some, Option.getD_some] at hmergeable
    rw [Option.map_some, Option.getD_some]
    obtain ⟨hcovered, hmixed⟩ := hmergeable hne
    rw [← loadCandles_congr hsymbol htimeframe, hload] at hcovered hmixed
    -- the entry is the dataset's own
    have hdataset : datasetId d.symbol d.timeframe = datasetId symbol timeframe :=
      datasetId_congr hsymbol htimeframe
    have hentry := (repairMerge_dataset h.kept h.gaps hmerge).trans hid
    obtain ⟨id, gap, s1, -, -, hs1, hsave⟩ := repairGap_merge h.kept hmerge (hdataset.trans hentry.symm)
    have h0 : OneDataset pl symbol timeframe (s.listDatasets.2.saveGap (repairing gap)) :=
      hlisted.congr rfl rfl rfl (hlisted.gaps.saveGap _) fun _ hx => hx
    have h1 := h0.reread hs1
    have h2 : OneDataset pl symbol timeframe (s1.saveGap { repairing gap with status := .RESOLVED }) :=
      h1.congr rfl rfl rfl (h1.gaps.saveGap _) fun _ hx => hx
    have hnodup : (stamps (pl.tidy (existingDf ++ repairedDf))).Nodup := by
      have hfirst := h.first_distinct
      rw [← loadCandles_congr hsymbol htimeframe, hload] at hfirst
      exact merged_nodup hfirst (key_of_spelled hrows) hmixed
    have hplain' : '_' ∉ timeframe.toList := by
      rwa [← mem_upper (by decide), ← htimeframe, mem_upper (by decide)]
    have hcurrent := hsave.currentFrame_self hplain' hdataset.symm
    have hstamps (t : Int) : t ∈ stamps (pl.tidy (existingDf ++ repairedDf)) ↔
        t ∈ stamps existingDf ∨ t ∈ stamps repairedDf := by
      rw [pl.mem_stamps_tidy, stamps, List.map_append, List.mem_append]
      rfl
    refine ⟨h2.save hsave hsymbol fun _ => hnodup, fun t ht => ?_, fun t ht => ?_⟩
    · rw [hcurrent, hstamps]
      exact hcovered t ht
    · rw [hcurrent, hstamps]
      exact Or.inr ht

theorem OneDataset.enqueue (h : OneDataset pl symbol timeframe s) {sym tf : String}
    (hs : upper (strip sym) = upper symbol) (ht : upper tf = upper timeframe) (startDate endDate : Int)
    (jobId : String) :
    OneDataset pl symbol timeframe (s.enqueueDownload sym tf startDate endDate false jobId) where
  kept := h.kept.enqueue sym tf startDate endDate false jobId
  symbol_eq := by
    rw [enqueue_disk]
    exact h.symbol_eq
  jobs := by
    have hjobs := withEntry_jobs s (newEntry sym tf)
    intro job hjob
    rcases enqueueDownload_cases s sym tf startDate endDate false jobId with
      heq | ⟨new, -, ⟨hsymbol, htimeframe, hforce⟩, heq⟩
    · rw [heq, hjobs] at hjob
      exact h.jobs job hjob
    · rw [heq] at hjob
      rcases List.mem_append.mp hjob with hjob | hjob
      · exact h.jobs job (hjobs ▸ hjob)
      · rw [List.mem_singleton.mp hjob, hsymbol, htimeframe, upper_upper]
        exact ⟨hs, ht, hforce⟩
  distinct := by
    intro path file hfile
    rw [enqueue_disk] at hfile
    exact h.distinct path file hfile
  gaps := h.gaps.congr (enqueue_gaps sym tf startDate endDate false jobId s)

theorem OneDataset.step (h : OneDataset pl symbol timeframe s) {op : Op} (hon : op.On symbol timeframe)
    (hop : Growing pl symbol timeframe s op) :
    OneDataset pl symbol timeframe (s.step pl cal op) ∧ Grows symbol timeframe s (s.step pl cal op) ∧
      ∀ t ∈ stamps (fetchedRows pl s op), t ∈ stamps ((s.step pl cal op).currentFrame symbol timeframe) := by
  cases op with
  | enqueueDownload sym tf startDate endDate forceRefresh jobId =>
    obtain ⟨hs, ht, rfl⟩ := hon
    refine ⟨h.enqueue hs ht startDate endDate jobId, fun t hmem => ?_, nofun⟩
    rw [Store.step, h.kept.enqueue_currentFrame]
    exact hmem
  | finishJob i answers => exact h.finish hop
  | repairGap gapId answer => exact h.repair hon hop
  | deriveHigherTimeframeDatasets symbol' sourceTimeframe targetTimeframes => exact hon.elim

/-- Where every merge is growing, the history of the dataset only grows: later versions hold the
timestamps of earlier ones, each saved version holds the new rows, and none has a timestamp twice. -/
theorem history_grows (pl : Polars) (cal : MarketCalendar) (symbol timeframe : String) (ops : List Op)
    (hon : ∀ op ∈ ops, op.On symbol timeframe)
    (hops : Guarded (step pl cal) (Growing pl symbol timeframe) empty ops) :
    (∀ pre mid, pre ++ mid <+: ops →
        Grows symbol timeframe (run (step pl cal) empty pre) (run (step pl cal) empty (pre ++ mid))) ∧
      Guarded (step pl cal) (fun s op => ∀ t ∈ stamps (fetchedRows pl s op),
        t ∈ stamps ((s.step pl cal op).currentFrame symbol timeframe)) empty ops ∧
      Always (step pl cal) (Distinct (datasetId symbol timeframe)) empty ops := by
  have hguard := (guarded_and _ _ _ empty ops).mpr ⟨guarded_of_mem (fun op hop _ => hon op hop) empty, hops⟩
  have hinv : Always (step pl cal) (OneDataset pl symbol timeframe) empty ops :=
    always_of_guarded (fun s op h hop => (h.step hop.1 hop.2).1) (oneDataset_empty pl symbol timeframe) hguard
  refine ⟨?_, ?_, hinv.mono fun s h => h.distinct⟩
  · apply (related_iff_guarded (R := Grows symbol timeframe) ?_ ?_ empty ops).mpr
    · exact hguard.mono hinv fun s op h hop => (h.step hop.1 hop.2).2.1
    · exact fun s t ht => ht
    · exact fun a b c hab hbc t ht => hbc t (hab t ht)
  · exact hguard.mono hinv fun s op h hop => (h.step hop.1 hop.2).2.2

end

/-! The evening session of 8 November 2026 again. -/

/-- A download, a repair, and a download of what the repair brought and more. -/
def growingRun : List Op :=
  eveningRepaired ++ eveningDownload [1, 2]

theorem history_grows_evening :
    (∀ op ∈ growingRun, op.On "NIFTY" "1m") ∧
      Guarded (step plainPolars indianCalendar) (Growing plainPolars "NIFTY" "1m") empty growingRun ∧
      Always (step plainPolars indianCalendar) (Distinct (datasetId "NIFTY" "1m")) empty growingRun :=
  have hon : ∀ op ∈ growingRun, op.On "NIFTY" "1m" := by
    have hsymbol : upper (strip "nifty") = upper "NIFTY" := by decide +kernel
    have hid : "NIFTY_1M" = datasetId "NIFTY" "1m" := by decide +kernel
    simp [growingRun, eveningRepaired, eveningDownload, Op.On, hsymbol, hid]
  have hops : Guarded (step plainPolars indianCalendar) (Growing plainPolars "NIFTY" "1m") empty
      growingRun := by decide +kernel
  ⟨hon, hops, (history_grows plainPolars indianCalendar "NIFTY" "1m" growingRun hon hops).2.2⟩

def threeDownloads : List Op :=
  eveningDownload [0] ++ eveningDownload [1] ++ eveningDownload [2]

/-- The third download merges with the first version and drops what the second brought. -/
theorem third_download_drops_second :
    ¬ ∀ (pl : Polars) (cal : MarketCalendar) (symbol timeframe : String) (ops : List Op),
      (∀ op ∈ ops, op.On symbol timeframe) →
        ∀ pre mid, pre ++ mid <+: ops →
          Grows symbol timeframe (run (step pl cal) empty pre) (run (step pl cal) empty (pre ++ mid)) := by
  intro h
  have hon : ∀ op ∈ threeDownloads, op.On "NIFTY" "1m" := by
    have hsymbol : upper (strip "nifty") = upper "NIFTY" := by decide +kernel
    simp [threeDownloads, eveningDownload, Op.On, hsymbol]
  have hgrows := h plainPolars indianCalendar "NIFTY" "1m" threeDownloads hon
    (eveningDownload [0] ++ eveningDownload [1]) (eveningDownload [2]) (List.prefix_refl _)
  have hsecond : (eveningCandle 1).epoch * 1000 ∈ stamps ((run (step plainPolars indianCalendar) empty
      (eveningDownload [0] ++ eveningDownload [1])).currentFrame "NIFTY" "1m") := by decide +kernel
  have hthird : (eveningCandle 1).epoch * 1000 ∉ stamps ((run (step plainPolars indianCalendar) empty
      (eveningDownload [0] ++ eveningDownload [1] ++ eveningDownload [2])).currentFrame "NIFTY" "1m") := by
    decide +kernel
  exact hthird (hgrows _ hsecond)

end Store
end Droid.History
