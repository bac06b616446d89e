import Droid.History.Growth

/-! Gap records against the candles: what downloads and repairs need to keep the status of a gap true. -/
namespace Droid.History
open Lib Text

def Op.OneMinute : Op → Prop
  | .enqueueDownload _ timeframe .. => oneMinute timeframe = true
  | .finishJob .. | .repairGap .. => True
  | .deriveHigherTimeframeDatasets .. => False

namespace Store

/-- A status that is right about the candles: a resolved gap has no minute of its day missing, an open
one has. -/
def Right (cal : MarketCalendar) (df : Frame) (g : DataGap) : Prop :=
  (g.status = .RESOLVED → cal.missing g.tradingDate df = []) ∧
    (g.status = .OPEN → cal.missing g.tradingDate df ≠ [])

/-- The gaps of the one-minute datasets are right about the current versions. -/
def Truthful (cal : MarketCalendar) (s : Store) : Prop :=
  ∀ symbol timeframe, oneMinute timeframe = true →
    ∀ g ∈ s.gapsOf (datasetId symbol timeframe), Right cal (s.currentFrame symbol timeframe) g

/-- Unrepairable gaps stay where their day misses what it missed. -/
def Remembers (cal : MarketCalendar) (s s' : Store) : Prop :=
  ∀ symbol timeframe, oneMinute timeframe = true →
    ∀ g ∈ s.gapsOf (datasetId symbol timeframe), g.status = .UNREPAIRABLE_UPSTREAM_OMISSION →
      cal.missing g.tradingDate (s'.currentFrame symbol timeframe) =
        cal.missing g.tradingDate (s.currentFrame symbol timeframe) →
      g ∈ s'.gapsOf (datasetId symbol timeframe)

/-- The candles of a dataset's current version, by the dataset's id. -/
def currentOf (s : Store) (id : String) : Frame :=
  ((s.disk.entries.find? fun e => e.2.datasetId = id ∧ e.2.versionTag = s.head id).map
    fun e => e.2.frame).getD []

/-- The candles that a download has to merge. -/
def heldRows (pl : Polars) (s : Store) (job : DownloadJob) (answers : Nat → Answer) : Frame :=
  fetched pl job answers ++
    if job.forceRefresh then [] else (s.loadCandles pl job.symbol job.timeframe 1).getD []

/-- A download finds no open gap's day complete, no resolved gap's day incomplete outside of its range,
and no unrepairable gap's day as it was and in its range. -/
def DownloadHonest (pl : Polars) (cal : MarketCalendar) (s : Store) (job : DownloadJob)
    (answers : Nat → Answer) : Prop :=
  ∀ g ∈ s.gapsOf job.datasetId,
    let missing := cal.missing g.tradingDate (s.heldRows pl job answers)
    let inRange := job.rangeFrom ≤ g.tradingDate ∧ g.tradingDate ≤ job.rangeTo
    (g.status = .OPEN → missing ≠ []) ∧ (g.status = .RESOLVED → missing = [] ∨ inRange) ∧
      (g.status = .UNREPAIRABLE_UPSTREAM_OMISSION → inRange → missing ≠ [] →
        missing ≠ cal.missing g.tradingDate (s.currentOf job.datasetId))

/-- A repair with candles completes the day of its gap and leaves the dataset's other gaps right; the
entry still spells the dataset, and its directory holds no other. -/
def MergeHonest (cal : MarketCalendar) (s : Store) (gapId : GapId) (d : Dataset)
    (existingDf repairedDf : Frame) : Prop :=
  (datasetId d.symbol d.timeframe = d.id ∧ s.Alone d.symbol d.timeframe) ∧
    cal.missing gapId.tradingDate (existingDf ++ repairedDf) = [] ∧
    ∀ g ∈ s.gapsOf gapId.datasetId, g.gapId ≠ gapId → Right cal (existingDf ++ repairedDf) g

/-- A repair that leaves its gap open finds a minute of the day missing. -/
def FailureHonest (pl : Polars) (cal : MarketCalendar) (s : Store) (gapId : GapId) (answer : Answer) :
    Prop :=
  ∀ found ∈ s.listDatasets.2.findGap s.listDatasets.1 gapId,
    ∀ d ∈ s.listDatasets.2.datasets.get? found.1, failedStatus pl d found.2 answer = .OPEN →
      cal.missing gapId.tradingDate (s.currentOf gapId.datasetId) ≠ []

def Honest (pl : Polars) (cal : MarketCalendar) (s : Store) : Op → Prop
  | .enqueueDownload .. | .deriveHigherTimeframeDatasets .. => True
  | .finishJob i answers =>
    (∀ w ∈ written pl s (.finishJob i answers), s.Alone w.1 w.2) ∧
      ∀ job ∈ s.jobs[i]?, fetched pl job answers ≠ [] → DownloadHonest pl cal s job answers
  | .repairGap gapId answer =>
    (∀ m ∈ s.repairMerge pl gapId answer, MergeHonest cal s gapId m.1 m.2.1 m.2.2) ∧
      (s.repairMerge pl gapId answer = none → FailureHonest pl cal s gapId answer)

instance (cal : MarketCalendar) (df : Frame) (g : DataGap) : Decidable (Right cal df g) :=
  inferInstanceAs (Decidable (_ ∧ _))

instance (pl : Polars) (cal : MarketCalendar) (s : Store) (job : DownloadJob) (answers : Nat → Answer) :
    Decidable (DownloadHonest pl cal s job answers) := inferInstanceAs (Decidable (∀ g ∈ _, _ ∧ _ ∧ _))

instance (cal : MarketCalendar) (s : Store) (gapId : GapId) (d : Dataset) (existingDf repairedDf : Frame) :
    Decidable (MergeHonest cal s gapId d existingDf repairedDf) := inferInstanceAs (Decidable (_ ∧ _))

instance (pl : Polars) (cal : MarketCalendar) (s : Store) (gapId : GapId) (answer : Answer) :
    Decidable (FailureHonest pl cal s gapId answer) :=
  inferInstanceAs (Decidable (∀ found ∈ _, ∀ d ∈ _, _ → _))

instance (pl : Polars) (cal : MarketCalendar) (s : Store) : (op : Op) → Decidable (Honest pl cal s op)
  | .enqueueDownload .. | .deriveHigherTimeframeDatasets .. => inferInstanceAs (Decidable True)
  | .finishJob .. => inferInstanceAs (Decidable (_ ∧ ∀ job ∈ _, _ → _))
  | .repairGap .. => inferInstanceAs (Decidable ((∀ m ∈ _, _) ∧ (_ → _)))

/-- The invariant: gaps lie under their datasets, each day of a dataset has one at most, and the jobs
are of one-minute datasets. -/
structure GapsKept (pl : Polars) (s : Store) : Prop where
  kept : Kept pl s
  keyed : GapsKeyed s
  distinct : ∀ id, ((s.gapsOf id).map DataGap.gapId).Nodup
  jobs : ∀ job ∈ s.jobs, oneMinute job.timeframe = true

section
variable {pl : Polars} {cal : MarketCalendar} {s s' : Store}

theorem gapsKept_empty (pl : Polars) : GapsKept pl empty :=
  ⟨kept_empty pl, nofun, fun _ => List.nodup_nil, nofun⟩

theorem underscore_notMem_of_oneMinute {tf : String} (h : oneMinute tf = true) : '_' ∉ tf.toList := by
  rw [oneMinute, decide_eq_true_eq] at h
  rw [← mem_lower (by decide)]
  have hall : ∀ t ∈ ["1m", "1", "1min"], '_' ∉ t.toList := by decide
  exact hall _ h

theorem Kept.currentOf_eq (hk : Kept pl s) {symbol timeframe : String} (hp : '_' ∉ timeframe.toList) :
    s.currentOf (datasetId symbol timeframe) = s.currentFrame symbol timeframe := by
  rw [hk.currentFrame_eq, currentOf]
  cases hfind : s.disk.entries.find? fun e => decide (e.2.datasetId = datasetId symbol timeframe ∧
      e.2.versionTag = s.head (datasetId symbol timeframe)) with
  | none =>
    by_cases hzero : s.head (datasetId symbol timeframe) = 0
    · rw [hzero, hk.get?_zero]
      rfl
    · obtain ⟨file, hfile, hid⟩ := hk.get?_head hp hzero
      have htag := getParquetPath_tag (hk.filed _ _ hfile).path_eq
      have hno := List.find?_eq_none.mp hfind _ ((Dict.mem_entries_iff _ _ _).mpr hfile)
      exact absurd (decide_eq_true ⟨hid, htag.symm⟩) hno
  | some e =>
    have hfile := (Dict.mem_entries_iff s.disk e.1 e.2).mp (List.mem_of_find?_eq_some hfind)
    have hfound := List.find?_some hfind
    rw [decide_eq_true_eq] at hfound
    obtain ⟨hid, htag⟩ := hfound
    have hfiled := hk.filed _ _ hfile
    have hpath := hfiled.path_eq
    rw [htag, getParquetPath_congr hfiled.plain hp hid] at hpath
    rw [← hpath, hfile]
    rfl

/-! Saving a gap replaces the one of its day. -/

section
variable {g gap : DataGap} {id : String}

theorem mem_eraseP_gapId {gaps : List DataGap} (hn : (gaps.map DataGap.gapId).Nodup) {gapId : GapId} :
    g ∈ gaps.eraseP (fun x => x.gapId = gapId) ↔ g ∈ gaps ∧ g.gapId ≠ gapId := by
  induction gaps with
  | nil => simp
  | cons x gaps ih =>
    obtain ⟨hx, hn⟩ := List.nodup_cons.mp hn
    by_cases hkey : x.gapId = gapId
    · rw [List.eraseP_cons, decide_eq_true hkey, cond_true, List.mem_cons]
      constructor
      · intro hg
        refine ⟨Or.inr hg, fun heq => hx ?_⟩
        rw [hkey, ← heq]
        exact List.mem_map_of_mem hg
      · rintro ⟨rfl | hg, hne⟩
        · exact absurd hkey hne
        · exact hg
    · rw [List.eraseP_cons, decide_eq_false hkey, cond_false, List.mem_cons, List.mem_cons, ih hn]
      constructor
      · rintro (rfl | ⟨hg, hne⟩)
        · exact ⟨Or.inl rfl, hkey⟩
        · exact ⟨Or.inr hg, hne⟩
      · rintro ⟨rfl | hg, hne⟩
        · exact Or.inl rfl
        · exact Or.inr ⟨hg, hne⟩

theorem mem_saveGap (hn : ((s.gapsOf id).map DataGap.gapId).Nodup) (hid : gap.datasetId = id) :
    g ∈ (s.saveGap gap).gapsOf id ↔ g = gap ∨ (g ∈ s.gapsOf id ∧ g.gapId ≠ gap.gapId) := by
  rw [gapsOf_saveGap, if_pos hid.symm, List.mem_append, List.mem_singleton, or_comm, mem_eraseP_gapId hn]

theorem nodup_saveGap (h : ∀ id, ((s.gapsOf id).map DataGap.gapId).Nodup) (gap : DataGap) (id : String) :
    (((s.saveGap gap).gapsOf id).map DataGap.gapId).Nodup := by
  rw [gapsOf_saveGap]
  split
  · rw [List.map_append, List.map_singleton, List.nodup_append]
    refine ⟨(h id).sublist (List.eraseP_sublist.map _), List.nodup_singleton _, ?_⟩
    rintro x hx y hy rfl
    obtain ⟨g, hg, rfl⟩ := List.mem_map.mp hx
    exact ((mem_eraseP_gapId (h id)).mp hg).2 (List.mem_singleton.mp hy)
  · exact h id

/-- After a detection: what it found, and the other days' gaps as they were. -/
theorem mem_foldl_saveGap (h : ∀ id, ((s.gapsOf id).map DataGap.gapId).Nodup) {found : List DataGap}
    (hfound : ∀ f ∈ found, f.datasetId = id) (hg : g ∈ (found.foldl saveGap s).gapsOf id) :
    g ∈ found ∨ (g ∈ s.gapsOf id ∧ ∀ f ∈ found, g.gapId ≠ f.gapId) := by
  induction found generalizing s with
  | nil => exact Or.inr ⟨hg, nofun⟩
  | cons f found ih =>
    obtain ⟨hf, hfound⟩ := List.forall_mem_cons.mp hfound
    rcases ih (nodup_saveGap h f) hfound hg with hg | ⟨hg, hne⟩
    · exact Or.inl (List.mem_cons_of_mem _ hg)
    · rcases (mem_saveGap (h id) hf).mp hg with rfl | ⟨hg, hgf⟩
      · exact Or.inl List.mem_cons_self
      · exact Or.inr ⟨hg, List.forall_mem_cons.mpr ⟨hgf, hne⟩⟩

theorem mem_foldl_saveGap_of_other (h : ∀ id, ((s.gapsOf id).map DataGap.gapId).Nodup)
    {found : List DataGap} (hfound : ∀ f ∈ found, f.datasetId = id) (hg : g ∈ s.gapsOf id)
    (hne : ∀ f ∈ found, g.gapId ≠ f.gapId) : g ∈ (found.foldl saveGap s).gapsOf id := by
  induction found generalizing s with
  | nil => exact hg
  | cons f found ih =>
    obtain ⟨hf, hfound⟩ := List.forall_mem_cons.mp hfound
    obtain ⟨hgf, hne⟩ := List.forall_mem_cons.mp hne
    exact ih (nodup_saveGap h f) hfound ((mem_saveGap (h id) hf).mpr (Or.inr ⟨hg, hgf⟩)) hne

theorem gapsOf_foldl_other {found : List DataGap} {id' : String} (hfound : ∀ f ∈ found, f.datasetId = id)
    (hid : id' ≠ id) : (found.foldl saveGap s).gapsOf id' = s.gapsOf id' := by
  induction found generalizing s with
  | nil => rfl
  | cons f found ih =>
    obtain ⟨hf, hfound⟩ := List.forall_mem_cons.mp hfound
    rw [List.foldl_cons, ih hfound, gapsOf_saveGap, if_neg (hf ▸ hid)]

end

/-! The invariant. -/

theorem GapsKept.congr (h : GapsKept pl s) (hk : Kept pl s') (hgaps : s'.gaps = s.gaps)
    (hjobs : ∀ job ∈ s'.jobs, job ∈ s.jobs) : GapsKept pl s' where
  kept := hk
  keyed := h.keyed.congr hgaps
  distinct := by
    intro id
    rw [gapsOf, hgaps]
    exact h.distinct id
  jobs := fun job hjob => h.jobs job (hjobs job hjob)

theorem GapsKept.reread (h : GapsKept pl s) (hread : s.Reread s') : GapsKept pl s' :=
  h.congr (hread.kept h.kept) hread.gaps fun _ hjob => hread.jobs ▸ hjob

theorem GapsKept.saveGap (h : GapsKept pl s) (gap : DataGap) : GapsKept pl (s.saveGap gap) where
  kept := h.kept.congr rfl rfl rfl fun _ hjob => hjob
  keyed := h.keyed.saveGap gap
  distinct := nodup_saveGap h.distinct gap
  jobs := h.jobs

theorem GapsKept.foldl_saveGap (h : GapsKept pl s) (found : List DataGap) :
    GapsKept pl (found.foldl Store.saveGap s) := by
  induction found generalizing s with
  | nil => exact h
  | cons f found ih => exact ih (h.saveGap f)

structure Untouched (s s' : Store) : Prop where
  gaps : s'.gaps = s.gaps
  frames : ∀ symbol timeframe, oneMinute timeframe = true →
    s'.currentFrame symbol timeframe = s.currentFrame symbol timeframe

theorem Untouched.gapsOf (h : Untouched s s') (id : String) : s'.gapsOf id = s.gapsOf id := by
  rw [Store.gapsOf, h.gaps]
  rfl

theorem Untouched.trans {s'' : Store} (h : Untouched s s') (h' : Untouched s' s'') : Untouched s s'' where
  gaps := h'.gaps.trans h.gaps
  frames := fun symbol tf hm => (h'.frames symbol tf hm).trans (h.frames symbol tf hm)

theorem Reread.untouched (hread : s.Reread s') (hk : Kept pl s) : Untouched s s' where
  gaps := hread.gaps
  frames := fun symbol tf _ => hread.currentFrame hk symbol tf

theorem Untouched.truthful (h : Untouched s s') (ht : Truthful cal s) : Truthful cal s' := by
  intro symbol tf hm g hg
  rw [h.frames symbol tf hm]
  exact ht symbol tf hm g (h.gapsOf _ ▸ hg)

theorem Untouched.remembers (h : Untouched s s') : Remembers cal s s' := by
  intro symbol tf _ g hg _ _
  exact (h.gapsOf _).symm ▸ hg

theorem GapsKept.derive (h : GapsKept pl s) {symbol : String} {targets : List String}
    (ha : ∀ tf ∈ targets, derivable tf = true → s.Alone symbol tf) (sourceTimeframe : String) :
    GapsKept pl (s.deriveHigherTimeframeDatasets pl symbol sourceTimeframe targets) ∧
      Untouched s (s.deriveHigherTimeframeDatasets pl symbol sourceTimeframe targets) := by
  have hall := derive_induction pl symbol targets
    (P := fun t => (GapsKept pl t ∧ Untouched s t) ∧
      ∀ tf ∈ targets, derivable tf = true → t.Alone symbol tf)
    (fun t ht => ⟨⟨ht.1.1.reread (Or.inr rfl), ht.1.2.trans (Reread.untouched (Or.inr rfl) ht.1.1.kept)⟩, ht.2⟩)
    ?_ ⟨⟨h, ⟨rfl, fun _ _ _ => rfl⟩⟩, ha⟩ sourceTimeframe
  · exact hall.1
  · rintro t t' tf df ⟨⟨ht, hun⟩, halone⟩ htf hderivable hsave
    have hown := halone tf htf hderivable
    have hframes : Untouched t t' := by
      refine ⟨hsave.gaps, fun sym tf' hm => ?_⟩
      have hplain := underscore_notMem_of_oneMinute hm
      exact hsave.currentFrame_other ht.kept hown hplain (derived_ne hplain hsave.plain hm hderivable)
    refine ⟨⟨?_, hun.trans hframes⟩, fun x hx hxd => hsave.alone rfl (halone x hx hxd)⟩
    exact ht.congr (hsave.kept ht.kept hown) hsave.gaps fun _ hjob => hsave.jobs ▸ hjob

/-! A download. -/

theorem missing_congr_stamps (cal : MarketCalendar) {df df' : Frame}
    (h : ∀ t, t ∈ stamps df ↔ t ∈ stamps df') (day : Int) : cal.missing day df = cal.missing day df' := by
  apply missing_congr
  intro t
  rw [MarketCalendar.minutes, MarketCalendar.minutes, List.mem_map, List.mem_map]
  exact exists_congr fun t => and_congr_left fun _ => h t

theorem missing_tidy (pl : Polars) (cal : MarketCalendar) (df : Frame) (day : Int) :
    cal.missing day (pl.tidy df) = cal.missing day df :=
  missing_congr_stamps cal (fun t => pl.mem_stamps_tidy df t) day

theorem missing_finalFrame (cal : MarketCalendar) (job : DownloadJob) (answers : Nat → Answer) (day : Int) :
    cal.missing day (finalFrame pl s job (pl.tidy (fetched pl job answers))) =
      cal.missing day (s.heldRows pl job answers) := by
  apply missing_congr_stamps
  intro t
  rw [mem_stamps_finalFrame, pl.mem_stamps_tidy, heldRows]
  cases job.forceRefresh <;> simp [stamps]

theorem GapsKept.download (h : GapsKept pl s) {job : DownloadJob} {answers : Nat → Answer} {s1 s2 : Store}
    (hminute : oneMinute job.timeframe = true) (hid : job.datasetId = datasetId job.symbol job.timeframe)
    (hread : Reread ((s.foundGaps pl cal job answers).foldl Store.saveGap s) s1)
    (hown : s1.Alone job.symbol job.timeframe)
    (hsave : Save pl true s1 s2 job.symbol job.timeframe
      (finalFrame pl s job (pl.tidy (fetched pl job answers))))
    (hhonest : DownloadHonest pl cal s job answers) (ht : Truthful cal s) :
    GapsKept pl s2 ∧ Truthful cal s2 ∧ Remembers cal s s2 := by
  have hfolded := h.foldl_saveGap (s.foundGaps pl cal job answers)
  have h1 := hfolded.reread hread
  have h2 : GapsKept pl s2 :=
    h1.congr (hsave.kept h1.kept hown) hsave.gaps fun _ hjob => hsave.jobs ▸ hjob
  have hfound : ∀ f ∈ s.foundGaps pl cal job answers, f.datasetId = job.datasetId :=
    fun f hf => (mem_detectGaps cal hf).2.1
  have hgaps (id : String) :
      s2.gapsOf id = ((s.foundGaps pl cal job answers).foldl Store.saveGap s).gapsOf id := by
    rw [Store.gapsOf, hsave.gaps, hread.gaps]
    rfl
  have hself {symbol tf : String} (hm : oneMinute tf = true) (hdata : datasetId symbol tf = job.datasetId) :
      s2.currentFrame symbol tf = finalFrame pl s job (pl.tidy (fetched pl job answers)) :=
    hsave.currentFrame_self (underscore_notMem_of_oneMinute hm) (hdata.trans hid)
  have hother {symbol tf : String} (hm : oneMinute tf = true) (hdata : datasetId symbol tf ≠ job.datasetId) :
      s2.currentFrame symbol tf = s.currentFrame symbol tf := by
    obtain ⟨hd, -, hdisk, -⟩ := Store.foldl_saveGap (s := s) (s.foundGaps pl cal job answers)
    rw [hsave.currentFrame_other h1.kept hown (underscore_notMem_of_oneMinute hm) (hid ▸ hdata),
      hread.currentFrame hfolded.kept, currentFrame, currentFrame, hd, hdisk]
  refine ⟨h2, ?_, ?_⟩
  · intro symbol tf hm g hg
    rw [hgaps] at hg
    by_cases hdata : datasetId symbol tf = job.datasetId
    · rw [hself hm hdata, Right, missing_finalFrame]
      rw [hdata] at hg
      rcases mem_foldl_saveGap h.distinct hfound hg with hg | ⟨hg, hne⟩
      · obtain ⟨-, -, hopen, hmissing, -⟩ := mem_detectGaps cal hg
        rw [missing_finalFrame] at hmissing
        refine ⟨fun hresolved => ?_, fun _ => hmissing⟩
        rw [hopen] at hresolved
        cases hresolved
      · obtain ⟨hopen, hresolved, -⟩ := hhonest g hg
        refine ⟨fun hstatus => ?_, hopen⟩
        rcases hresolved hstatus with hcomplete | hrange
        · exact hcomplete
        · -- an incomplete day of the range would have been found
          by_contra hmissing
          rw [← missing_finalFrame] at hmissing
          obtain ⟨f, hf, hfid⟩ := detectGaps_covers cal job.datasetId hminute hrange.1 hrange.2
            hmissing
          apply hne f hf
          rw [hfid, DataGap.gapId, h.keyed _ g hg]
    · rw [hother hm hdata]
      rw [gapsOf_foldl_other hfound hdata] at hg
      exact ht symbol tf hm g hg
  · intro symbol tf hm g hg hstatus hday
    rw [hgaps]
    by_cases hdata : datasetId symbol tf = job.datasetId
    · rw [hself hm hdata, missing_finalFrame] at hday
      rw [hdata] at hg ⊢
      apply mem_foldl_saveGap_of_other h.distinct hfound hg
      intro f hf heq
      obtain ⟨-, -, -, hmissing, hfrom, hto⟩ := mem_detectGaps cal hf
      have hdate : g.tradingDate = f.tradingDate := congrArg GapId.tradingDate heq
      rw [missing_finalFrame, ← hdate] at hmissing
      apply (hhonest g hg).2.2 hstatus (by rw [hdate]; exact ⟨hfrom, hto⟩) hmissing
      rw [← hdata, h.kept.currentOf_eq (underscore_notMem_of_oneMinute hm)]
      exact hday
    · rw [gapsOf_foldl_other hfound hdata]
      exact hg

theorem GapsKept.finish (h : GapsKept pl s) {i : Nat} {answers : Nat → Answer}
    (hop : Honest pl cal s (.finishJob i answers)) (ht : Truthful cal s) :
    GapsKept pl (s.finishJob pl cal i answers) ∧ Truthful cal (s.finishJob pl cal i answers) ∧
      Remembers cal s (s.finishJob pl cal i answers) := by
  obtain ⟨hwritten, hdownload⟩ := hop
  rcases finishJob_cases cal h.kept hwritten with
    ⟨-, heq⟩ | ⟨job, s0, hjob, rfl, h0, ⟨-, heq⟩ | ⟨hrows, s1, s2, hread, -, hown, hsave, hlast⟩⟩
  · rw [heq]
    exact ⟨h, ht, fun _ _ _ _ hg _ _ => hg⟩
  · rw [heq]
    exact ⟨h.congr h0 rfl fun _ hmem => List.mem_of_mem_eraseIdx hmem, ht, fun _ _ _ _ hg _ _ => hg⟩
  · have hmem := List.mem_of_getElem? hjob
    have hkept : GapsKept pl { s with jobs := s.jobs.eraseIdx i } :=
      h.congr h0 rfl fun _ hmem => List.mem_of_mem_eraseIdx hmem
    obtain ⟨h2, ht2, hr2⟩ := hkept.download (h.jobs job hmem) (h.kept.jobs_keyed job hmem).1 hread hown hsave
      (hdownload job hjob hrows) ht
    have hrest : GapsKept pl (s.finishJob pl cal i answers) ∧ Untouched s2 (s.finishJob pl cal i answers) := by
      rcases hlast with hreread | ⟨-, halone, heq⟩
      · exact ⟨h2.reread hreread, hreread.untouched h2.kept⟩
      · rw [heq]
        exact h2.derive halone "1m"
    refine ⟨hrest.1, hrest.2.truthful ht2, ?_⟩
    intro symbol tf hm g hg hstatus hday
    rw [hrest.2.gapsOf]
    rw [hrest.2.frames symbol tf hm] at hday
    exact hr2 symbol tf hm g hg hstatus hday

/-! A repair. -/

theorem mem_resaved (h : GapsKept pl s) (a b : DataGap) {g : DataGap} (hs : s'.gaps = (s.saveGap a).gaps)
    (hab : b.gapId = a.gapId) {id : String} (hg : g ∈ (s'.saveGap b).gapsOf id) :
    (id = b.datasetId ∧ g = b) ∨ (g ∈ s.gapsOf id ∧ g.gapId ≠ b.gapId) := by
  have hsame (x : String) : s'.gapsOf x = (s.saveGap a).gapsOf x := by
    rw [gapsOf, hs]
    rfl
  have hdataset : b.datasetId = a.datasetId := congrArg GapId.datasetId hab
  by_cases hid : id = b.datasetId
  · have hn := nodup_saveGap h.distinct a id
    rw [← hsame] at hn
    rcases (mem_saveGap hn hid.symm).mp hg with rfl | ⟨hg, hne⟩
    · exact Or.inl ⟨hid, rfl⟩
    · rw [hsame] at hg
      rcases (mem_saveGap (h.distinct id) (hdataset.symm.trans hid.symm)).mp hg with rfl | ⟨hg, -⟩
      · exact absurd hab.symm hne
      · exact Or.inr ⟨hg, hne⟩
  · rw [gapsOf_saveGap, if_neg hid, hsame, gapsOf_saveGap, if_neg (hdataset ▸ hid)] at hg
    refine Or.inr ⟨hg, fun heq => hid ?_⟩
    rw [← h.keyed id g hg]
    exact congrArg GapId.datasetId heq

theorem failedStatus_cases (pl : Polars) (d : Dataset) (gap : DataGap) (answer : Answer) :
    failedStatus pl d gap answer = .UNREPAIRABLE_UPSTREAM_OMISSION ∨ failedStatus pl d gap answer = .OPEN := by
  rw [failedStatus]
  split
  · exact Or.inl rfl
  · exact Or.inr rfl

theorem GapsKept.repair (h : GapsKept pl s) {gapId : GapId} {answer : Answer}
    (hop : Honest pl cal s (.repairGap gapId answer)) (ht : Truthful cal s) :
    GapsKept pl (s.repairGap pl gapId answer) ∧ Truthful cal (s.repairGap pl gapId answer) := by
  obtain ⟨hmerges, hfails⟩ := hop
  have hread := listDatasets_store s
  have hlisted := h.reread hread
  have hframe := hread.currentFrame h.kept
  have hgapsOf (id : String) : s.listDatasets.2.gapsOf id = s.gapsOf id := by
    rw [gapsOf, hread.gaps]
    rfl
  cases hmerge : s.repairMerge pl gapId answer with
  | none =>
    rcases repairGap_cases h.kept gapId answer with
      ⟨-, heq⟩ | ⟨id, gap, d, hfind, hd, ⟨-, heq⟩ | ⟨_, _, hsome, -⟩⟩
    · rw [heq]
      exact ⟨hlisted, (hread.untouched h.kept).truthful ht⟩
    · obtain ⟨-, hgap, hgapId⟩ := findGap_spec hlisted.kept hfind
      rw [heq]
      refine ⟨(hlisted.saveGap _).saveGap _, ?_⟩
      intro symbol tf hm g hg
      change Right cal (s.listDatasets.2.currentFrame symbol tf) g
      rw [hframe]
      rcases mem_resaved hlisted (repairing gap) { repairing gap with status := failedStatus pl d gap answer }
        rfl rfl hg with ⟨hid, rfl⟩ | ⟨hg, -⟩
      · refine ⟨fun hresolved => ?_, fun hopen => ?_⟩
        · rcases failedStatus_cases pl d gap answer with hst | hst
          · exact absurd (hst.symm.trans hresolved) (by decide)
          · exact absurd (hst.symm.trans hresolved) (by decide)
        · have hmissing := hfails hmerge (id, gap) hfind d hd hopen
          have hdataset : gapId.datasetId = datasetId symbol tf := by
            rw [hid, ← hgapId]
            rfl
          have hdate : gapId.tradingDate = gap.tradingDate := by
            rw [← hgapId]
            rfl
          rw [hdataset, h.kept.currentOf_eq (underscore_notMem_of_oneMinute hm), hdate] at hmissing
          exact hmissing
      · exact ht symbol tf hm g (hgapsOf _ ▸ hg)
    · rw [hmerge] at hsome
      cases hsome
  | some m =>
    obtain ⟨d, existingDf, repairedDf⟩ := m
    obtain ⟨⟨hspelled, hown⟩, hcomplete, hothers⟩ := hmerges _ hmerge
    obtain ⟨id, gap, s1, hfind, hdid, hread1, hsave⟩ := repairGap_merge h.kept hmerge hspelled
    obtain ⟨-, hgap, hgapId⟩ := findGap_spec hlisted.kept hfind
    have hdataset : gapId.datasetId = d.id := by
      rw [← hgapId, hdid]
      exact hlisted.keyed id gap hgap
    have h1 := (hlisted.saveGap (repairing gap)).reread hread1
    have hresolved := h1.saveGap { repairing gap with status := .RESOLVED }
    have hown1 : (s1.saveGap { repairing gap with status := .RESOLVED }).Alone d.symbol d.timeframe := by
      intro path file hfile
      change s1.disk.get? path = some file at hfile
      rw [hread1.disk] at hfile
      change s.listDatasets.2.disk.get? path = some file at hfile
      rw [hread.disk] at hfile
      exact hown path file hfile
    refine ⟨?_, ?_⟩
    · exact hresolved.congr (hsave.kept hresolved.kept hown1) hsave.gaps fun _ hjob => hsave.jobs ▸ hjob
    · intro symbol tf hm g hg
      have hplain := underscore_notMem_of_oneMinute hm
      rw [gapsOf, hsave.gaps] at hg
      have hcases := mem_resaved hlisted (repairing gap) { repairing gap with status := .RESOLVED }
        hread1.gaps rfl hg
      by_cases hdata : datasetId symbol tf = datasetId d.symbol d.timeframe
      · rw [hsave.currentFrame_self hplain hdata, Right, missing_tidy]
        rcases hcases with ⟨-, rfl⟩ | ⟨hg, hne⟩
        · have hdate : gapId.tradingDate = gap.tradingDate := by
            rw [← hgapId]
            rfl
          rw [hdate] at hcomplete
          refine ⟨fun _ => hcomplete, ?_⟩
          intro hopen
          cases hopen
        · rw [hgapsOf, hdata, hspelled, ← hdataset] at hg
          exact hothers g hg (hgapId ▸ hne)
      · rw [hsave.currentFrame_other hresolved.kept hown1 hplain hdata]
        change Right cal (s1.currentFrame symbol tf) g
        rw [hread1.currentFrame (hlisted.saveGap _).kept]
        change Right cal (s.listDatasets.2.currentFrame symbol tf) g
        rw [hframe]
        rcases hcases with ⟨hid, -⟩ | ⟨hg, -⟩
        · exfalso
          apply hdata
          rw [hid, hspelled, ← hdataset, ← hgapId]
          rfl
        · exact ht symbol tf hm g (hgapsOf _ ▸ hg)

theorem GapsKept.enqueue (h : GapsKept pl s) {symbol timeframe : String} (hm : oneMinute timeframe = true)
    (startDate endDate : Int) (forceRefresh : Bool) (jobId : String) :
    GapsKept pl (s.enqueueDownload symbol timeframe startDate endDate forceRefresh jobId) where
  kept := h.kept.enqueue symbol timeframe startDate endDate forceRefresh jobId
  keyed := h.keyed.congr (enqueue_gaps symbol timeframe startDate endDate forceRefresh jobId s)
  distinct := by
    intro id
    rw [gapsOf, enqueue_gaps]
    exact h.distinct id
  jobs := by
    have hjobs := withEntry_jobs s (newEntry symbol timeframe)
    intro job hjob
    rcases enqueueDownload_cases s symbol timeframe startDate endDate forceRefresh jobId with
      heq | ⟨new, -, ⟨-, htf, -⟩, heq⟩
    · rw [heq, hjobs] at hjob
      exact h.jobs job hjob
    · rw [heq] at hjob
      rcases List.mem_append.mp hjob with hjob | hjob
      · exact h.jobs job (hjobs ▸ hjob)
      · rw [List.mem_singleton.mp hjob, htf]
        exact hm

theorem GapsKept.step (h : GapsKept pl s) {op : Op} (hon : op.OneMinute) (hop : Honest pl cal s op)
    (ht : Truthful cal s) :
    GapsKept pl (s.step pl cal op) ∧ Truthful cal (s.step pl cal op) ∧
      ∀ i answers, op = .finishJob i answers → Remembers cal s (s.step pl cal op) := by
  cases op with
  | enqueueDownload symbol timeframe startDate endDate forceRefresh jobId =>
    refine ⟨h.enqueue hon startDate endDate forceRefresh jobId, ?_, nofun⟩
    apply Untouched.truthful _ ht
    exact ⟨enqueue_gaps symbol timeframe startDate endDate forceRefresh jobId s, fun symbol' tf _ =>
      h.kept.enqueue_currentFrame symbol timeframe startDate endDate forceRefresh jobId symbol' tf⟩
  | finishJob i answers =>
    obtain ⟨hkept, htruthful, hremembers⟩ := h.finish hop ht
    exact ⟨hkept, htruthful, fun _ _ _ => hremembers⟩
  | repairGap gapId answer =>
    obtain ⟨hkept, htruthful⟩ := h.repair hop ht
    exact ⟨hkept, htruthful, nofun⟩
  | deriveHigherTimeframeDatasets symbol sourceTimeframe targetTimeframes => exact hon.elim

/-- Where every download and every repair is honest, the gaps are right about the candles in every
state, and no download resets an unrepairable gap of an unchanged day. -/
theorem gaps_truthful (pl : Polars) (cal : MarketCalendar) (ops : List Op) (hon : ∀ op ∈ ops, op.OneMinute)
    (hops : Guarded (step pl cal) (Honest pl cal) empty ops) :
    Always (step pl cal) (Truthful cal) empty ops ∧
      Guarded (step pl cal) (fun s op => ∀ i answers, op = .finishJob i answers →
        Remembers cal s (s.step pl cal op)) empty ops := by
  have hguard := (guarded_and _ _ _ empty ops).mpr ⟨guarded_of_mem (fun op hop _ => hon op hop) empty, hops⟩
  have hinv : Always (step pl cal) (fun s => GapsKept pl s ∧ Truthful cal s) empty ops := by
    apply always_of_guarded _ ⟨gapsKept_empty pl, nofun⟩ hguard
    rintro s op ⟨h, ht⟩ ⟨hon, hop⟩
    obtain ⟨hkept, htruthful, -⟩ := h.step hon hop ht
    exact ⟨hkept, htruthful⟩
  refine ⟨hinv.mono fun s h => h.2, hguard.mono hinv ?_⟩
  rintro s op ⟨h, ht⟩ ⟨hon, hop⟩
  exact (h.step hon hop ht).2.2

end

/-! The evening session of 8 November 2026 once more. -/

def eveningGap : GapId := ⟨"NIFTY_1M", evening⟩

/-- A minute downloaded, a repair that fails and one that finds nothing, a repair of the whole hour, and
the minute downloaded again. -/
def honestRun : List Op :=
  eveningDownload [0] ++
    [.repairGap eveningGap none, .repairGap eveningGap (some []),
      .repairGap eveningGap (some ((List.range 60).map fun i : Nat => eveningCandle i))] ++
    eveningDownload [0]

theorem gaps_truthful_evening :
    (∀ op ∈ honestRun, op.OneMinute) ∧
      Guarded (step plainPolars indianCalendar) (Honest plainPolars indianCalendar) empty honestRun ∧
      Always (step plainPolars indianCalendar) (Truthful indianCalendar) empty honestRun :=
  have hon : ∀ op ∈ honestRun, op.OneMinute := by
    have hm : oneMinute "1m" = true := by decide +kernel
    simp [honestRun, eveningDownload, Op.OneMinute, hm]
  have hops : Guarded (step plainPolars indianCalendar) (Honest plainPolars indianCalendar) empty
      honestRun := by decide +kernel
  ⟨hon, hops, (gaps_truthful plainPolars indianCalendar honestRun hon hops).1⟩

/-- A repair of one minute resolves the gap of the hour. -/
theorem one_minute_resolves_hour :
    ¬ ∀ (pl : Polars) (cal : MarketCalendar) (ops : List Op), (∀ op ∈ ops, op.OneMinute) →
      Always (step pl cal) (Truthful cal) empty ops := by
  intro h
  have hm : oneMinute "1m" = true := by decide +kernel
  have hon : ∀ op ∈ eveningRepaired, op.OneMinute := by
    simp [eveningRepaired, eveningDownload, Op.OneMinute, hm]
  have hlast := run_of_always (h plainPolars indianCalendar eveningRepaired hon) "NIFTY" "1m" hm
  have hresolved : ∃ g ∈ (run (step plainPolars indianCalendar) empty eveningRepaired).gapsOf
      (datasetId "NIFTY" "1m"), g.status = .RESOLVED ∧ indianCalendar.missing g.tradingDate
        ((run (step plainPolars indianCalendar) empty eveningRepaired).currentFrame "NIFTY" "1m") ≠ [] := by
    decide +kernel
  obtain ⟨g, hg, hstatus, hmissing⟩ := hresolved
  exact hmissing ((hlast g hg).1 hstatus)

end Store
end Droid.History
