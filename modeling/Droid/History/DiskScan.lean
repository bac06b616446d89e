import Droid.History.Store
import Droid.Lib.Gather

/-! The parquet directories: what a save writes below them, and what a scan makes of the files it finds. -/
namespace Droid.History.Disk
open Lib Text

/-! Paths, as the names from the root. -/

abbrev Path : Type := List String

/-- The names that a text has between its slashes. -/
def names (text : String) : List String :=
  ((text.toList.splitOn '/').map String.ofList).filter fun name => name ≠ "" ∧ name ≠ "."

/-- `base / text`; an absolute text replaces the base. -/
def joinpath (base : Path) (text : String) : Path :=
  if text.toList.head? = some '/' then names text else base ++ names text

/-- The file that a path leads to: two dots are the directory above. -/
def opened (path : Path) : Path :=
  path.foldl (fun above name => if name = ".." then above.dropLast else above ++ [name]) []

def getDatasetDir (base : Path) (symbol timeframe : String) : Path :=
  joinpath (joinpath base (cleanSymbol symbol)) (lower timeframe)

def getParquetPath (base : Path) (symbol timeframe versionTag : String) : Path :=
  opened (joinpath (getDatasetDir base symbol timeframe) ("candles_" ++ versionTag ++ ".parquet"))

/-- `rglob("candles_*.parquet")` finds the path. -/
def globbed (base path : Path) : Bool :=
  base.isPrefixOf path && decide (base.length < path.length) &&
    path.getLast?.any fun name =>
      ("candles_".toList.isPrefixOf name.toList) && (".parquet".toList.isSuffixOf name.toList) &&
        decide ("candles_.parquet".length ≤ name.toList.length)

/-! Saves. -/

structure Sidecar where
  symbol : String
  timeframe : String
  versionTag : String
  rowCount : Nat
  startTime : Option Int
  endTime : Option Int
  checksumSha256 : String
  qualityScore : ℚ
  deriving DecidableEq

structure CandleFile where
  frame : Frame
  sidecar : Option Sidecar
  deriving DecidableEq

/-- The arguments of a save; an empty frame is refused. -/
structure SaveCall where
  df : Frame
  nonempty : df ≠ []
  symbol : String
  timeframe : String
  versionTag : String
  qualityScore : ℚ := 100
  deriving DecidableEq

def SaveCall.path (base : Path) (c : SaveCall) : Path :=
  getParquetPath base c.symbol c.timeframe c.versionTag

def SaveCall.file (pl : Polars) (c : SaveCall) : CandleFile where
  frame := c.df
  sidecar := some
    { symbol := c.symbol, timeframe := c.timeframe, versionTag := c.versionTag
      rowCount := c.df.length
      startTime := (stamps c.df).min?, endTime := (stamps c.df).max?
      checksumSha256 := pl.checksum c.df
      qualityScore := c.qualityScore }

def saveDatasetVersion (pl : Polars) (base : Path) (disk : Dict Path CandleFile) (c : SaveCall) :
    Dict Path CandleFile :=
  disk.insert (c.path base) (c.file pl)

def saveAll (pl : Polars) (base : Path) (saves : List SaveCall) : Dict Path CandleFile :=
  saves.foldl (saveDatasetVersion pl base) .empty

/-! The scan. -/

inductive QualityStatus where
  | PASSED | DEGRADED
  deriving DecidableEq, Repr, Inhabited

inductive DatasetStatus where
  | READY | DEGRADED
  deriving DecidableEq, Repr

structure HistoricalDatasetVersion where
  versionId : String
  datasetId : String
  versionTag : String
  startTime : Int
  endTime : Int
  rowCount : Nat
  checksumSha256 : String
  qualityScore : ℚ
  qualityStatus : QualityStatus
  parquetPath : Path
  deriving DecidableEq, Inhabited

structure HistoricalDataset where
  id : String
  symbol : String
  exchange : String
  timeframe : String
  status : DatasetStatus
  currentVersionId : String
  earliestAvailableTs : Int
  latestAvailableTs : Int
  totalCandles : Nat
  latestQualityScore : ℚ
  parquetRelativePath : Path
  availableVersions : List String
  deriving DecidableEq

/-- `text.replace(sub, "")`, by the characters that are left. -/
def erased (sub : List Char) : Nat → List Char → List Char
  | 0, text => text
  | _, [] => []
  | fuel + 1, c :: cs =>
    if sub.isPrefixOf (c :: cs) then erased sub fuel ((c :: cs).drop sub.length)
    else c :: erased sub fuel cs

/-- `re.search(r"candles_(v\d+)\.parquet$", name)`. -/
def tagOfName (name : String) : Option String :=
  let chars := name.toList
  let stem := chars.take (chars.length - ".parquet".length)
  let digits := (stem.reverse.takeWhile Char.isDigit).reverse
  let before := stem.take (stem.length - digits.length)
  if ".parquet".toList.isSuffixOf chars && "candles_v".toList.isSuffixOf before && !digits.isEmpty then
    some (String.ofList ('v' :: digits))
  else none

/-- What a file without a sidecar is taken for: symbol, timeframe and tag are read off its path. -/
def sidecarOfPath (pl : Polars) (path : Path) (frame : Frame) : Sidecar :=
  let symbolDir := upper ((path.dropLast.dropLast.getLast?).getD "")
  { symbol := String.ofList (erased "_INDEX".toList symbolDir.length symbolDir.toList)
    timeframe := lower ((path.dropLast.getLast?).getD "")
    versionTag := (tagOfName ((path.getLast?).getD "")).getD "v1"
    rowCount := frame.length
    startTime := (stamps frame).min?, endTime := (stamps frame).max?
    checksumSha256 := pl.checksum frame
    qualityScore := 100 }

def inspectFile (pl : Polars) (now : Int) (path : Path) (file : CandleFile) : HistoricalDatasetVersion :=
  let found := file.sidecar.getD (sidecarOfPath pl path file.frame)
  let id := datasetId found.symbol found.timeframe
  { versionId := joined '_' id found.versionTag
    datasetId := id
    versionTag := found.versionTag
    startTime := found.startTime.getD now, endTime := found.endTime.getD now
    rowCount := found.rowCount
    checksumSha256 := if found.checksumSha256 = "" then pl.checksum file.frame else found.checksumSha256
    qualityScore := found.qualityScore
    qualityStatus := if 80 ≤ found.qualityScore then .PASSED else .DEGRADED
    parquetPath := path }

/-- `int(re.sub(r"\D", "", tag) or "0")`. -/
def tagNumber (tag : String) : Nat :=
  Nat.ofDigitChars 10 (tag.toList.filter Char.isDigit) 0

def splitFields (text : String) : List String := (text.toList.splitOn '_').map String.ofList

def datasetOf (now : Int) (id : String) (versions : List HistoricalDatasetVersion) : HistoricalDataset :=
  let latest := versions.getLast?.getD default
  let symbol := ((splitFields latest.versionId)[0]?).getD ""
  let tf := ((splitFields latest.versionId)[1]?).getD ""
  { id
    symbol
    exchange := if hasText (upper symbol) "SENSEX" then "BSE" else "NSE"
    timeframe := lower tf
    status := if 80 ≤ latest.qualityScore then .READY else .DEGRADED
    currentVersionId := latest.versionId
    earliestAvailableTs := (versions.map HistoricalDatasetVersion.startTime).min?.getD now
    latestAvailableTs := (versions.map HistoricalDatasetVersion.endTime).max?.getD now
    totalCandles := latest.rowCount
    latestQualityScore := latest.qualityScore
    parquetRelativePath := latest.parquetPath
    availableVersions := versions.map HistoricalDatasetVersion.versionTag }

/-- The versions by dataset: a tag that a dataset has already is left out, and the tags are in the order of
their numbers. -/
def discoveredVersions (pl : Polars) (now : Int) (files : List (Path × CandleFile)) :
    Dict String (List HistoricalDatasetVersion) :=
  gatherSorted HistoricalDatasetVersion.datasetId HistoricalDatasetVersion.versionTag
    (fun v => tagNumber v.versionTag) (files.map fun e => inspectFile pl now e.1 e.2)

def scanDiskForDatasets (pl : Polars) (now : Int) (files : List (Path × CandleFile)) :
    Dict String HistoricalDataset × Dict String (List HistoricalDatasetVersion) :=
  let versions := discoveredVersions pl now files
  (versions.mapValues (datasetOf now), versions)

/-- The files that a walk finds, in any order; a directory that is walked twice has them twice. -/
def Listing (base : Path) (disk : Dict Path CandleFile) (files : List (Path × CandleFile)) : Prop :=
  ∀ e, e ∈ files ↔ disk.get? e.1 = some e.2 ∧ globbed base e.1 = true

/-! What the scan should find. -/

namespace SaveCall

def datasetId (c : SaveCall) : String := History.datasetId c.symbol c.timeframe

def versionId (c : SaveCall) : String := joined '_' c.datasetId c.versionTag

/-- One symbol and one timeframe, up to case. -/
def SameDataset (c d : SaveCall) : Prop :=
  upper c.symbol = upper d.symbol ∧ upper c.timeframe = upper d.timeframe

instance (c d : SaveCall) : Decidable (c.SameDataset d) := inferInstanceAs (Decidable (_ ∧ _))

end SaveCall

structure Recorded where
  versionTag : String
  rowCount : Nat
  checksum : String
  startTime : Option Int
  endTime : Option Int
  deriving DecidableEq

def HistoricalDatasetVersion.recorded (v : HistoricalDatasetVersion) : Recorded :=
  ⟨v.versionTag, v.rowCount, v.checksumSha256, some v.startTime, some v.endTime⟩

def SaveCall.recorded (pl : Polars) (c : SaveCall) : Recorded :=
  ⟨c.versionTag, c.df.length, pl.checksum c.df, (stamps c.df).min?, (stamps c.df).max?⟩

def Increasing (saves : List SaveCall) : Prop :=
  saves.Pairwise fun c d => c.SameDataset d → tagNumber c.versionTag < tagNumber d.versionTag

def savesOf (saves : List SaveCall) (c : SaveCall) : List SaveCall := saves.filter fun d => d.SameDataset c

structure Inverts (pl : Polars) (saves : List SaveCall)
    (found : Dict String HistoricalDataset × Dict String (List HistoricalDatasetVersion)) : Prop where
  entry : ∀ c ∈ saves, ∃ entry, found.1.get? c.datasetId = some entry ∧
    entry.id = c.datasetId ∧ entry.symbol = c.symbol ∧ upper entry.timeframe = upper c.timeframe ∧
    (savesOf saves c).getLast?.map SaveCall.versionId = some entry.currentVersionId
  versions : ∀ c ∈ saves, ∃ versions, found.2.get? c.datasetId = some versions ∧
    (versions.map HistoricalDatasetVersion.recorded).Perm ((savesOf saves c).map (SaveCall.recorded pl))

/-- No separator is in a symbol or a timeframe, symbols are in upper case, every file lies where the walk
finds it, and no two saves write one file. -/
structure Decodable (base : Path) (saves : List SaveCall) : Prop where
  symbols : ∀ c ∈ saves, '_' ∉ c.symbol.toList ∧ upper c.symbol = c.symbol
  timeframes : ∀ c ∈ saves, '_' ∉ c.timeframe.toList
  walked : ∀ c ∈ saves, globbed base (c.path base) = true
  apart : (saves.map (SaveCall.path base)).Nodup

end Droid.History.Disk
