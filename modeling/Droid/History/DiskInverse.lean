import Droid.History.DiskScan
import Droid.History.Shelf

/-! The scan against the saves: which files survive, which records the scan makes of them, and when these
give every save back. -/
namespace Droid.History.Disk
open Lib Text

/-! Fields. -/

theorem splitFields_joined (a b : String) : splitFields (joined '_' a b) = splitFields a ++ splitFields b := by
  rw [splitFields, toList_joined, List.splitOn_append_cons_self, List.map_append]
  rfl

theorem splitFields_of_notMem {text : String} (h : '_' ∉ text.toList) : splitFields text = [text] := by
  rw [splitFields, List.splitOn_eq_singleton h, List.map_singleton, String.ofList_toList]

/-- The first field has no separator, and one without a separator is its own first field. -/
theorem splitFields_eq_cons (text : String) :
    ∃ first rest, splitFields text = first :: rest ∧ '_' ∉ first.toList := by
  have hhead : ∀ chars : List Char, ∃ first rest, chars.splitOn '_' = first :: rest ∧ '_' ∉ first := by
    intro chars
    induction chars with
    | nil => exact ⟨[], [], List.splitOn_nil _, List.not_mem_nil⟩
    | cons c cs ih =>
      obtain ⟨first, rest, hsplit, hnone⟩ := ih
      rw [List.splitOn_cons_eq_if_modifyHead, hsplit]
      split
      · exact ⟨[], first :: rest, rfl, List.not_mem_nil⟩
      · rename_i hc
        refine ⟨c :: first, rest, rfl, ?_⟩
        rw [List.mem_cons, not_or]
        exact ⟨fun heq => hc (by rw [← heq, beq_self_eq_true]), hnone⟩
  obtain ⟨first, rest, hsplit, hnone⟩ := hhead text.toList
  refine ⟨String.ofList first, rest.map String.ofList, ?_, by rwa [String.toList_ofList]⟩
  rw [splitFields, hsplit, List.map_cons]

/-! The files that are on disk after the saves. -/

section
variable (pl : Polars) (base : Path) (now : Int) (saves : List SaveCall)

theorem get?_saveAll (path : Path) :
    (saveAll pl base saves).get? path =
      ((bucket (SaveCall.path base) saves path).getLast?).map (SaveCall.file pl) := by
  induction saves using List.reverseRecOn with
  | nil => rfl
  | append_singleton saves c ih =>
    have hall : saveAll pl base (saves ++ [c]) = saveDatasetVersion pl base (saveAll pl base saves) c := by
      unfold saveAll
      rw [List.foldl_append]
      rfl
    rw [hall, saveDatasetVersion, Dict.get?_insert, bucket_concat]
    by_cases hp : c.path base = path
    · rw [if_pos hp.symm, if_pos hp, List.getLast?_concat, Option.map_some]
    · rw [if_neg (Ne.symm hp), if_neg hp, List.append_nil, ih]

/-- The walk finds the file of a save, and no later save has written over it. -/
def Survives (c : SaveCall) : Prop :=
  (bucket (SaveCall.path base) saves (c.path base)).getLast? = some c ∧ globbed base (c.path base) = true

def recordOf (c : SaveCall) : HistoricalDatasetVersion := inspectFile pl now (c.path base) (c.file pl)

variable {pl base now saves}

theorem mem_records {files : List (Path × CandleFile)} (hfiles : Listing base (saveAll pl base saves) files)
    {v : HistoricalDatasetVersion} :
    v ∈ files.map (fun e => inspectFile pl now e.1 e.2) ↔
      ∃ c ∈ saves, Survives base saves c ∧ v = recordOf pl base now c := by
  rw [List.mem_map]
  constructor
  · rintro ⟨e, he, rfl⟩
    obtain ⟨hget, hglob⟩ := (hfiles e).mp he
    rw [get?_saveAll, Option.map_eq_some_iff] at hget
    obtain ⟨c, hlast, hfile⟩ := hget
    obtain ⟨hc, hpath⟩ := (mem_bucket _).mp (List.mem_of_getLast? hlast)
    rw [← hpath] at hlast hglob
    exact ⟨c, hc, ⟨hlast, hglob⟩, by rw [recordOf, hpath, hfile]⟩
  · rintro ⟨c, -, ⟨hlast, hglob⟩, rfl⟩
    refine ⟨(c.path base, c.file pl), (hfiles _).mpr ⟨?_, hglob⟩, rfl⟩
    rw [get?_saveAll, hlast, Option.map_some]

theorem recordOf_datasetId (c : SaveCall) : (recordOf pl base now c).datasetId = c.datasetId := rfl

theorem recordOf_versionTag (c : SaveCall) : (recordOf pl base now c).versionTag = c.versionTag := rfl

theorem recordOf_versionId (c : SaveCall) : (recordOf pl base now c).versionId = c.versionId := rfl

theorem recordOf_recorded (c : SaveCall) : (recordOf pl base now c).recorded = c.recorded pl := by
  have hne : stamps c.df ≠ [] := fun h => c.nonempty (List.map_eq_nil_iff.mp h)
  obtain ⟨first, hfirst⟩ := Option.isSome_iff_exists.mp (List.isSome_min?_of_ne_nil hne)
  obtain ⟨last, hlast⟩ := Option.isSome_iff_exists.mp (List.isSome_max?_of_ne_nil hne)
  rw [HistoricalDatasetVersion.recorded, SaveCall.recorded, hfirst, hlast]
  simp only [recordOf, inspectFile, SaveCall.file, Option.getD_some, hfirst, hlast, ite_self]

end

/-! The scan. -/

/-- What the scan has of a dataset: records of saves whose files survive, one of each tag, in the order of
the numbers of their tags. -/
structure Discovered (pl : Polars) (base : Path) (now : Int) (saves : List SaveCall) (id : String)
    (versions : List HistoricalDatasetVersion) : Prop where
  nonempty : versions ≠ []
  made : ∀ v ∈ versions, ∃ c ∈ saves, Survives base saves c ∧ c.datasetId = id ∧ v = recordOf pl base now c
  all : ∀ c ∈ saves, Survives base saves c → c.datasetId = id → ∃ v ∈ versions, v.versionTag = c.versionTag
  nodup : (versions.map HistoricalDatasetVersion.versionTag).Nodup
  ordered : versions.Pairwise fun v w => tagNumber v.versionTag ≤ tagNumber w.versionTag

section
variable {pl : Polars} {base : Path} {now : Int} {saves : List SaveCall} {files : List (Path × CandleFile)}

theorem get?_datasets (id : String) :
    (scanDiskForDatasets pl now files).1.get? id =
      ((scanDiskForDatasets pl now files).2.get? id).map (datasetOf now id) :=
  Dict.get?_mapValues _ _ id

theorem discovered_of_get? (hfiles : Listing base (saveAll pl base saves) files) {id : String}
    {versions : List HistoricalDatasetVersion}
    (h : (scanDiskForDatasets pl now files).2.get? id = some versions) :
    Discovered pl base now saves id versions := by
  have hgathered := gathered_of_get? h
  refine ⟨hgathered.nonempty, ?_, ?_, hgathered.nodup, hgathered.ordered⟩
  · intro v hv
    obtain ⟨hrow, hid⟩ := hgathered.seen v hv
    obtain ⟨c, hc, hsurvives, rfl⟩ := (mem_records hfiles).mp hrow
    exact ⟨c, hc, hsurvives, hid, rfl⟩
  · intro c hc hsurvives hid
    exact hgathered.all (recordOf pl base now c) ((mem_records hfiles).mpr ⟨c, hc, hsurvives, rfl⟩) hid

theorem exists_discovered (now : Int) (hfiles : Listing base (saveAll pl base saves) files) {c : SaveCall} (hc : c ∈ saves)
    (hsurvives : Survives base saves c) :
    ∃ versions, (scanDiskForDatasets pl now files).2.get? c.datasetId = some versions := by
  have hrow : recordOf pl base now c ∈ files.map (fun e => inspectFile pl now e.1 e.2) :=
    (mem_records hfiles).mpr ⟨c, hc, hsurvives, rfl⟩
  by_contra hnone
  have hnone := Option.eq_none_iff_forall_ne_some.mpr fun versions h => hnone ⟨versions, h⟩
  exact get?_gatherSorted_eq_none.mp hnone _ hrow (recordOf_datasetId c)

/-- The entry has the first two fields of the joined names. -/
theorem datasetOf_fields (now : Int) (id : String) {symbol timeframe tag : String} {versions : List HistoricalDatasetVersion}
    {latest : HistoricalDatasetVersion} (hlast : versions.getLast? = some latest)
    (hversion : latest.versionId = joined '_' (datasetId symbol timeframe) tag) :
    (datasetOf now id versions).symbol = ((splitFields (upper symbol) ++ splitFields (upper timeframe))[0]?).getD "" ∧
      (datasetOf now id versions).timeframe =
        lower (((splitFields (upper symbol) ++ splitFields (upper timeframe))[1]?).getD "") := by
  obtain ⟨first, rest, hsymbol, -⟩ := splitFields_eq_cons (upper symbol)
  obtain ⟨second, later, htimeframe, -⟩ := splitFields_eq_cons (upper timeframe)
  have hlength : 2 ≤ (splitFields (upper symbol) ++ splitFields (upper timeframe)).length := by
    rw [hsymbol, htimeframe, List.length_append, List.length_cons, List.length_cons]
    omega
  have hsplit : splitFields (joined '_' (datasetId symbol timeframe) tag) =
      splitFields (upper symbol) ++ splitFields (upper timeframe) ++ splitFields tag := by
    rw [splitFields_joined, datasetId, splitFields_joined]
  have hfield : ∀ i < 2, (splitFields (joined '_' (datasetId symbol timeframe) tag))[i]? =
      (splitFields (upper symbol) ++ splitFields (upper timeframe))[i]? := by
    intro i hi
    rw [hsplit, List.getElem?_append_left (by omega)]
  rw [datasetOf, hlast, Option.getD_some, hversion, hfield 0 (by decide), hfield 1 (by decide)]
  exact ⟨rfl, rfl⟩

theorem Discovered.fields {symbol timeframe : String} {versions : List HistoricalDatasetVersion}
    (h : Discovered pl base now saves (datasetId symbol timeframe) versions) :
    (datasetOf now (datasetId symbol timeframe) versions).symbol =
        ((splitFields (upper symbol) ++ splitFields (upper timeframe))[0]?).getD "" ∧
      (datasetOf now (datasetId symbol timeframe) versions).timeframe =
        lower (((splitFields (upper symbol) ++ splitFields (upper timeframe))[1]?).getD "") := by
  obtain ⟨c, -, -, hid, hmade⟩ := h.made _ (List.getLast_mem h.nonempty)
  have hversion : (versions.getLast h.nonempty).versionId = joined '_' (datasetId symbol timeframe) c.versionTag := by
    rw [hmade, recordOf_versionId, SaveCall.versionId, hid]
  exact datasetOf_fields now _ (List.getLast?_eq_some_getLast h.nonempty) hversion

/-! What the entries say about the names. -/

theorem Discovered.symbol {symbol timeframe : String} {versions : List HistoricalDatasetVersion}
    (h : Discovered pl base now saves (datasetId symbol timeframe) versions) :
    (datasetOf now (datasetId symbol timeframe) versions).symbol = symbol ↔
      '_' ∉ symbol.toList ∧ upper symbol = symbol := by
  obtain ⟨hsymbol, -⟩ := h.fields
  obtain ⟨first, rest, hsplit, hnone⟩ := splitFields_eq_cons (upper symbol)
  rw [hsplit] at hsymbol
  change _ = first at hsymbol
  rw [hsymbol]
  constructor
  · rintro rfl
    rw [splitFields_of_notMem (fun hmem => hnone ((mem_upper (by decide) _).mp hmem)), List.cons.injEq] at hsplit
    exact ⟨hnone, hsplit.1⟩
  · rintro ⟨hplain, hupper⟩
    rw [hupper, splitFields_of_notMem hplain, List.cons.injEq] at hsplit
    exact hsplit.1.symm

theorem Discovered.timeframe {symbol timeframe : String} {versions : List HistoricalDatasetVersion}
    (h : Discovered pl base now saves (datasetId symbol timeframe) versions) (hplain : '_' ∉ symbol.toList) :
    upper (datasetOf now (datasetId symbol timeframe) versions).timeframe = upper timeframe ↔
      '_' ∉ timeframe.toList := by
  obtain ⟨-, htimeframe⟩ := h.fields
  obtain ⟨first, rest, hsplit, hnone⟩ := splitFields_eq_cons (upper timeframe)
  rw [splitFields_of_notMem (fun hmem => hplain ((mem_upper (by decide) _).mp hmem)), hsplit] at htimeframe
  change _ = lower first at htimeframe
  rw [htimeframe, upper_lower]
  constructor
  · intro heq
    rwa [← mem_upper (by decide), ← heq, mem_upper (by decide)]
  · intro hplain
    rw [splitFields_of_notMem (fun hmem => hplain ((mem_upper (by decide) _).mp hmem)), List.cons.injEq] at hsplit
    rw [← hsplit.1, upper_upper]

/-! When the scan gives the saves back. -/

section
variable (hinc : Increasing saves)
include hinc

theorem eq_of_tagNumber {c d : SaveCall} (hc : c ∈ saves) (hd : d ∈ saves) (hsame : c.SameDataset d)
    (hnumber : tagNumber c.versionTag = tagNumber d.versionTag) : c = d := by
  by_contra hne
  have : Std.Symm fun c d : SaveCall => c.SameDataset d → tagNumber c.versionTag ≠ tagNumber d.versionTag :=
    ⟨fun c d h hsame heq => h ⟨hsame.1.symm, hsame.2.symm⟩ heq.symm⟩
  have hapart : saves.Pairwise fun c d : SaveCall =>
      c.SameDataset d → tagNumber c.versionTag ≠ tagNumber d.versionTag :=
    hinc.imp fun h hsame => (h hsame).ne
  have hapart := hapart.forall
  exact hapart hc hd hne hsame hnumber

theorem nodup_saves : saves.Nodup := by
  refine hinc.imp ?_
  rintro c d h rfl
  exact absurd (h ⟨rfl, rfl⟩) (lt_irrefl _)

theorem survives_of_inverts (hfiles : Listing base (saveAll pl base saves) files)
    (hinv : Inverts pl saves (scanDiskForDatasets pl now files))
    (hplain : ∀ c ∈ saves, '_' ∉ c.timeframe.toList) {c : SaveCall} (hc : c ∈ saves) :
    Survives base saves c := by
  obtain ⟨versions, hget, hperm⟩ := hinv.versions c hc
  have hmem : c.recorded pl ∈ (savesOf saves c).map (SaveCall.recorded pl) :=
    List.mem_map_of_mem (List.mem_filter.mpr ⟨hc, decide_eq_true ⟨rfl, rfl⟩⟩)
  obtain ⟨v, hv, hrecorded⟩ := List.mem_map.mp (hperm.mem_iff.mpr hmem)
  obtain ⟨d, hd, hsurvives, hid, rfl⟩ := (discovered_of_get? hfiles hget).made v hv
  have htag : d.versionTag = c.versionTag := congrArg Recorded.versionTag hrecorded
  have hsame : d.SameDataset c := datasetId_inj (hplain d hd) (hplain c hc) hid
  rwa [← eq_of_tagNumber hinc hd hc hsame (congrArg tagNumber htag)]

theorem decodable_of_inverts (hfiles : Listing base (saveAll pl base saves) files)
    (hinv : Inverts pl saves (scanDiskForDatasets pl now files)) : Decodable base saves := by
  have hentry : ∀ c ∈ saves, ∃ versions, Discovered pl base now saves c.datasetId versions ∧
      (datasetOf now c.datasetId versions).symbol = c.symbol ∧
      upper (datasetOf now c.datasetId versions).timeframe = upper c.timeframe := by
    intro c hc
    obtain ⟨entry, hget, -, hsymbol, htimeframe, -⟩ := hinv.entry c hc
    rw [get?_datasets, Option.map_eq_some_iff] at hget
    obtain ⟨versions, hversions, rfl⟩ := hget
    exact ⟨versions, discovered_of_get? hfiles hversions, hsymbol, htimeframe⟩
  have hsymbols : ∀ c ∈ saves, '_' ∉ c.symbol.toList ∧ upper c.symbol = c.symbol := by
    intro c hc
    obtain ⟨versions, hfound, hsymbol, -⟩ := hentry c hc
    exact hfound.symbol.mp hsymbol
  have htimeframes : ∀ c ∈ saves, '_' ∉ c.timeframe.toList := by
    intro c hc
    obtain ⟨versions, hfound, -, htimeframe⟩ := hentry c hc
    exact (hfound.timeframe (hsymbols c hc).1).mp htimeframe
  have hsurvive : ∀ c ∈ saves, Survives base saves c := fun c hc =>
    survives_of_inverts hinc hfiles hinv htimeframes hc
  refine ⟨hsymbols, htimeframes, fun c hc => (hsurvive c hc).2, ?_⟩
  refine (nodup_saves hinc).map_on ?_
  intro c hc d hd hpath
  have hlast := (hsurvive d hd).1
  rw [← hpath, (hsurvive c hc).1] at hlast
  exact Option.some.inj hlast

theorem versions_eq (now : Int) (hfiles : Listing base (saveAll pl base saves) files) (hdecodable : Decodable base saves)
    {c : SaveCall} (hc : c ∈ saves) :
    (scanDiskForDatasets pl now files).2.get? c.datasetId =
      some ((savesOf saves c).map (recordOf pl base now)) := by
  have hsurvive : ∀ d ∈ saves, Survives base saves d := by
    intro d hd
    refine ⟨?_, hdecodable.walked d hd⟩
    rw [bucket_of_nodup _ hdecodable.apart hd]
    rfl
  have hsame : ∀ d ∈ saves, d.datasetId = c.datasetId ↔ d.SameDataset c := by
    intro d hd
    constructor
    · exact datasetId_inj (hdecodable.timeframes d hd) (hdecodable.timeframes c hc)
    · intro h
      rw [SaveCall.datasetId, SaveCall.datasetId, datasetId, datasetId, h.1, h.2]
  obtain ⟨versions, hget⟩ := exists_discovered now hfiles hc (hsurvive c hc)
  have hfound := discovered_of_get? hfiles hget
  have hordered : ((savesOf saves c).map (recordOf pl base now)).Pairwise fun v w =>
      tagNumber v.versionTag < tagNumber w.versionTag := by
    rw [List.pairwise_map]
    refine (hinc.filter _).imp_of_mem ?_
    intro d e hd he h
    have hdc := of_decide_eq_true (List.mem_filter.mp hd).2
    have hec := of_decide_eq_true (List.mem_filter.mp he).2
    exact h ⟨hdc.1.trans hec.1.symm, hdc.2.trans hec.2.symm⟩
  have hmem : ∀ v, v ∈ versions ↔ v ∈ (savesOf saves c).map (recordOf pl base now) := by
    intro v
    rw [List.mem_map]
    constructor
    · intro hv
      obtain ⟨d, hd, -, hid, rfl⟩ := hfound.made v hv
      exact ⟨d, List.mem_filter.mpr ⟨hd, decide_eq_true ((hsame d hd).mp hid)⟩, rfl⟩
    · rintro ⟨d, hd, rfl⟩
      obtain ⟨hd, hdc⟩ := List.mem_filter.mp hd
      obtain ⟨v, hv, htag⟩ := hfound.all d hd (hsurvive d hd) ((hsame d hd).mpr (of_decide_eq_true hdc))
      obtain ⟨e, he, -, hid, rfl⟩ := hfound.made v hv
      have hec := (hsame e he).mp hid
      have hdc := of_decide_eq_true hdc
      have heq := eq_of_tagNumber hinc he hd ⟨hec.1.trans hdc.1.symm, hec.2.trans hdc.2.symm⟩
        (congrArg tagNumber htag)
      exact heq ▸ hv
  have hperm : versions.Perm ((savesOf saves c).map (recordOf pl base now)) := by
    refine (List.perm_ext_iff_of_nodup (List.Nodup.of_map _ hfound.nodup) ?_).mpr hmem
    refine hordered.imp ?_
    rintro v w hlt rfl
    exact absurd hlt (lt_irrefl _)
  rw [hget, hperm.eq_of_pairwise ?_ hfound.ordered (hordered.imp le_of_lt)]
  intro v w hv hw hvw hwv
  obtain ⟨d, hd, -, hid, rfl⟩ := hfound.made v hv
  obtain ⟨e, he, -, hid', rfl⟩ := hfound.made w ((hmem w).mpr hw)
  have hdc := (hsame d hd).mp hid
  have hec := (hsame e he).mp hid'
  rw [eq_of_tagNumber hinc hd he ⟨hdc.1.trans hec.1.symm, hdc.2.trans hec.2.symm⟩ (le_antisymm hvw hwv)]

theorem inverts_of_decodable (hfiles : Listing base (saveAll pl base saves) files)
    (hdecodable : Decodable base saves) : Inverts pl saves (scanDiskForDatasets pl now files) := by
  constructor
  · intro c hc
    have hget := versions_eq hinc now hfiles hdecodable hc
    have hfound := discovered_of_get? hfiles hget
    obtain ⟨hplain, hupper⟩ := hdecodable.symbols c hc
    refine ⟨datasetOf now c.datasetId ((savesOf saves c).map (recordOf pl base now)), ?_, rfl,
      hfound.symbol.mpr ⟨hplain, hupper⟩, (hfound.timeframe hplain).mpr (hdecodable.timeframes c hc), ?_⟩
    · rw [get?_datasets, hget, Option.map_some]
    · have hlast := List.getLast?_eq_some_getLast hfound.nonempty
      have hcurrent := congrArg (Option.map HistoricalDatasetVersion.versionId) hlast
      rw [List.getLast?_map, Option.map_map] at hcurrent
      rw [datasetOf, hlast, Option.getD_some]
      exact hcurrent
  · intro c hc
    refine ⟨_, versions_eq hinc now hfiles hdecodable hc, List.Perm.of_eq ?_⟩
    rw [List.map_map]
    exact List.map_congr_left fun d _ => recordOf_recorded d

/-- The scan inverts the saves where they are decodable, in whatever order the directories list the files. -/
theorem inverts_iff (hfiles : Listing base (saveAll pl base saves) files) :
    Inverts pl saves (scanDiskForDatasets pl now files) ↔ Decodable base saves :=
  ⟨decodable_of_inverts hinc hfiles, inverts_of_decodable hinc hfiles⟩

end

end

/-! The catalogue's own scan, which knows tags by their numbers and ids by their fields, is this one. -/

section
variable {pl : Polars} {base : Path} {now : Int} {disk : Dict ParquetPath ParquetFile}

def tagText (n : Nat) : String := "v" ++ n.repr

def written (base : Path) (e : ParquetPath × ParquetFile) : Path × CandleFile :=
  (base ++ [e.1.symbolDir, e.1.timeframeDir, "candles_" ++ tagText e.1.versionTag ++ ".parquet"],
    { frame := e.2.frame
      sidecar := some
        { symbol := e.2.symbol, timeframe := e.2.timeframe, versionTag := tagText e.2.versionTag
          rowCount := e.2.rowCount
          startTime := (stamps e.2.frame).min?, endTime := (stamps e.2.frame).max?
          checksumSha256 := e.2.checksum
          qualityScore := 100 } })

theorem tagNumber_tagText (n : Nat) : tagNumber (tagText n) = n := by
  have hdigits : (tagText n).toList.filter Char.isDigit = Nat.toDigits 10 n := by
    rw [tagText, String.toList_append, Nat.toList_repr, List.filter_append]
    have hall : (Nat.toDigits 10 n).filter Char.isDigit = Nat.toDigits 10 n :=
      List.filter_eq_self.mpr fun c hc => Nat.isDigit_of_mem_toDigits (by decide) (by decide) hc
    rw [hall]
    rfl
  rw [tagNumber, hdigits, Nat.ofDigitChars_ten_toDigits]

/-- What both scans say of a version. -/
theorem scan_refines (hchecksum : ∀ e ∈ disk.entries, e.2.checksum = pl.checksum e.2.frame) (id : String) :
    ((scanDiskForDatasets pl now (disk.entries.map (written base))).2.get? id).map
        (List.map fun v => (v.datasetId, tagNumber v.versionTag, v.rowCount, v.checksumSha256)) =
      ((Store.scanDiskForDatasets disk).get? id).map
        (List.map fun v => (v.versionId.datasetId, v.versionTag, v.rowCount, v.checksum)) := by
  have htags : ∀ a b : ParquetPath × ParquetFile,
      tagText a.2.versionTag = tagText b.2.versionTag ↔ a.2.versionTag = b.2.versionTag := by
    intro a b
    constructor
    · intro h
      rw [← tagNumber_tagText a.2.versionTag, h, tagNumber_tagText]
    · exact congrArg tagText
  have hnumber : (fun e : ParquetPath × ParquetFile => tagNumber (tagText e.2.versionTag)) =
      fun e => e.2.versionTag := funext fun e => tagNumber_tagText _
  have hlists : (gatherSorted (fun e : ParquetPath × ParquetFile => e.2.datasetId)
      (fun e => tagText e.2.versionTag) (fun e => tagNumber (tagText e.2.versionTag)) disk.entries).get? id =
      (gatherSorted (fun e : ParquetPath × ParquetFile => e.2.datasetId) (fun e => e.2.versionTag)
        (fun e => e.2.versionTag) disk.entries).get? id := by
    rw [hnumber]
    exact get?_gatherSorted_congr _ _ htags _ _
  have hdisk : (scanDiskForDatasets pl now (disk.entries.map (written base))).2.get? id =
      ((gatherSorted (fun e : ParquetPath × ParquetFile => e.2.datasetId) (fun e => e.2.versionTag)
        (fun e => e.2.versionTag) disk.entries).get? id).map
          (List.map fun e => inspectFile pl now (written base e).1 (written base e).2) := by
    rw [← hlists, scanDiskForDatasets, discoveredVersions, List.map_map]
    exact get?_gatherSorted_map _ _ _ _ _ _
  have hstore : (Store.scanDiskForDatasets disk).get? id =
      ((gatherSorted (fun e : ParquetPath × ParquetFile => e.2.datasetId) (fun e => e.2.versionTag)
        (fun e => e.2.versionTag) disk.entries).get? id).map
          (List.map fun e => Store.scannedVersion e.1 e.2) := by
    rw [Store.scan_eq, Store.filed]
    exact get?_gatherSorted_map _ _ _ _ _ _
  rw [hdisk, hstore, Option.map_map, Option.map_map]
  cases hget : (gatherSorted (fun e : ParquetPath × ParquetFile => e.2.datasetId) (fun e => e.2.versionTag)
      (fun e => e.2.versionTag) disk.entries).get? id with
  | none => rfl
  | some list =>
    rw [Option.map_some, Option.map_some, Function.comp_apply, Function.comp_apply, List.map_map, List.map_map]
    congr 1
    apply List.map_congr_left
    intro e he
    have hsum := hchecksum e ((gathered_of_get? hget).seen e he).1
    simp only [Function.comp_apply, inspectFile, written, Option.getD_some, tagNumber_tagText,
      Store.scannedVersion, DatasetVersion.versionTag, hsum, ite_self, ParquetFile.datasetId]

theorem datasetOf_refines {symbol timeframe tag : String} {versions : List HistoricalDatasetVersion}
    {latest : HistoricalDatasetVersion} (hlast : versions.getLast? = some latest)
    (hversion : latest.versionId = joined '_' (datasetId symbol timeframe) tag) (stored : List DatasetVersion) :
    (datasetOf now (datasetId symbol timeframe) versions).symbol =
        (Store.discoveredDataset (datasetId symbol timeframe) stored).symbol ∧
      (datasetOf now (datasetId symbol timeframe) versions).timeframe =
        (Store.discoveredDataset (datasetId symbol timeframe) stored).timeframe := by
  obtain ⟨hsymbol, htimeframe⟩ := datasetOf_fields now (datasetId symbol timeframe) hlast hversion
  have hsplit : splitFields (datasetId symbol timeframe) =
      splitFields (upper symbol) ++ splitFields (upper timeframe) := splitFields_joined _ _
  rw [hsymbol, htimeframe, ← hsplit]
  exact ⟨rfl, rfl⟩

end

/-- The walk of one directory, in the order of the saves. -/
theorem listing_entries (base : Path) (disk : Dict Path CandleFile) :
    Listing base disk (disk.entries.filter fun e => globbed base e.1) := by
  intro e
  rw [List.mem_filter, ← Dict.mem_entries_iff]

def flatSave (symbol timeframe versionTag : String) (timestamp : Int) : SaveCall where
  df := [{ timestamp, symbol, exchange := "BSE", assetType := "INDEX", timeframe
           openPrice := 100, high := 100, low := 100, close := 100, volume := 0
           provider := "fyers", ingestionJobId := "job", dataVersion := "v1" }]
  nonempty := List.cons_ne_nil _ _
  symbol := symbol
  timeframe := timeframe
  versionTag := versionTag

/-- Two datasets, one of them saved twice, its tenth version after its second. -/
theorem flatSaves_inverted :
    let base := ["data", "parquet"]
    let saves := [flatSave "SENSEX" "1m" "v2" 0, flatSave "NSE:NIFTY" "1D" "v1" 0, flatSave "SENSEX" "1m" "v10" 60000]
    Inverts plainPolars saves (scanDiskForDatasets plainPolars 0
      ((saveAll plainPolars base saves).entries.filter fun e => globbed base e.1)) := by
  intro base saves
  have hinc : Increasing saves := by
    unfold Increasing
    decide +kernel
  exact (inverts_iff hinc (listing_entries base (saveAll plainPolars base saves))).mpr
    ⟨by decide +kernel, by decide +kernel, by decide +kernel, by decide +kernel⟩

/-- A symbol with an underscore comes back as its first part. -/
theorem underscored_not_inverted :
    let base := ["data", "parquet"]
    let saves := [flatSave "NIFTY_BANK" "1m" "v1" 0]
    ¬ Inverts plainPolars saves (scanDiskForDatasets plainPolars 0
      ((saveAll plainPolars base saves).entries.filter fun e => globbed base e.1)) := by
  intro base saves h
  have hinc : Increasing saves := List.pairwise_singleton _ _
  have hsymbols := (decodable_of_inverts hinc (listing_entries base (saveAll plainPolars base saves)) h).symbols
  exact absurd hsymbols (by decide +kernel)

end Droid.History.Disk
