import Droid.History.Calendar
import Droid.Lib.Dict
import Mathlib.Data.Nat.Basic

/-! The candle store: parquet files with their sidecars, the catalogue over them, and the services
that write both. The catalogue is in local mode. A download job runs in the background; what follows
its last chunk has no suspension, and a repair is one step with the provider's answer in it. -/
namespace Droid.History
open Lib Text

/-- `candles_v{n}.parquet` in the directories of a symbol and a timeframe. -/
structure ParquetPath where
  symbolDir : String
  timeframeDir : String
  versionTag : Nat
  deriving DecidableEq, Repr

/-- `f"{symbol.upper()}_{timeframe.upper()}"`. -/
def datasetId (symbol timeframe : String) : String := joined '_' (upper symbol) (upper timeframe)

def cleanSymbol (symbol : String) : String :=
  String.ofList ((lower symbol).toList.map fun c => if c = ':' ∨ c = ' ' ∨ c = '-' then '_' else c)

def getParquetPath (symbol timeframe : String) (versionTag : Nat) : ParquetPath where
  symbolDir := cleanSymbol symbol
  timeframeDir := lower timeframe
  versionTag := versionTag

/-- A candle file and its sidecar. -/
structure ParquetFile where
  frame : Frame
  symbol : String
  timeframe : String
  versionTag : Nat
  rowCount : Nat
  checksum : String
  deriving DecidableEq, Repr

def ParquetFile.datasetId (file : ParquetFile) : String := History.datasetId file.symbol file.timeframe

/-- `{dataset_id}_v{n}`, as the two fields it is made of. -/
@[ext] structure VersionId where
  datasetId : String
  versionTag : Nat
  deriving DecidableEq, Repr

structure DatasetVersion where
  versionId : VersionId
  rowCount : Nat
  checksum : String
  parquetPath : ParquetPath
  deriving DecidableEq, Repr

def DatasetVersion.versionTag (v : DatasetVersion) : Nat := v.versionId.versionTag

structure Dataset where
  id : String
  symbol : String
  timeframe : String
  currentVersionId : Option VersionId := none
  deriving DecidableEq, Repr

structure DownloadJob where
  jobId : String
  datasetId : String
  symbol : String
  timeframe : String
  rangeFrom : Int
  rangeTo : Int
  forceRefresh : Bool
  chunks : List (Int × Int)
  deriving DecidableEq, Repr

structure Store where
  datasets : Dict String Dataset
  versions : Dict String (List DatasetVersion)
  gaps : Dict String (List DataGap)
  disk : Dict ParquetPath ParquetFile
  /-- The jobs whose pipeline is running. -/
  jobs : List DownloadJob

namespace Store

def empty : Store := ⟨.empty, .empty, .empty, .empty, []⟩

/-! The disk scan. -/

/-- The record that the scan makes of a file. -/
def scannedVersion (path : ParquetPath) (file : ParquetFile) : DatasetVersion where
  versionId := ⟨file.datasetId, file.versionTag⟩
  rowCount := file.rowCount
  checksum := file.checksum
  parquetPath := path

/-- One file of the scan: a tag that its dataset has already is left out. -/
def scanFile (discovered : Dict String (List DatasetVersion)) (path : ParquetPath) (file : ParquetFile) :
    Dict String (List DatasetVersion) :=
  let known := (discovered.get? file.datasetId).getD []
  if known.any fun v => v.versionTag == file.versionTag then discovered
  else discovered.insert file.datasetId (known ++ [scannedVersion path file])

/-- The versions on disk by dataset, in order of their tags. -/
def scanDiskForDatasets (disk : Dict ParquetPath ParquetFile) : Dict String (List DatasetVersion) :=
  (disk.entries.foldl (fun found e => scanFile found e.1 e.2) .empty).mapValues fun _ versions =>
    versions.insertionSort fun v w => v.versionTag ≤ w.versionTag

/-- A dataset as the scan makes it up: symbol and timeframe are the first two fields of its id. -/
def discoveredDataset (id : String) (versions : List DatasetVersion) : Dataset :=
  let fields := (id.toList.splitOn '_').map String.ofList
  { id
    symbol := fields[0]?.getD ""
    timeframe := lower (fields[1]?.getD "")
    currentVersionId := versions.getLast?.map DatasetVersion.versionId }

def syncFromDisk (s : Store) : Store :=
  let found := scanDiskForDatasets s.disk
  { s with
    datasets := s.datasets.update (found.mapValues discoveredDataset)
    versions := s.versions.update found }

/-! The catalogue. -/

def getDataset (s : Store) (id : String) : Option Dataset × Store :=
  let s := if s.datasets.contains id then s else s.syncFromDisk
  (s.datasets.get? id, s)

def listDatasets (s : Store) : List Dataset × Store :=
  let s := if s.datasets.size = 0 then s.syncFromDisk else s
  (s.datasets.values, s)

def upsertDataset (s : Store) (dataset : Dataset) : Store :=
  { s with datasets := s.datasets.insert dataset.id dataset }

def recordsOf (s : Store) (id : String) : List DatasetVersion := (s.versions.get? id).getD []

def listVersions (s : Store) (id : String) : List DatasetVersion × Store :=
  let s := if s.versions.contains id then s else s.syncFromDisk
  (s.recordsOf id, s)

def createVersion (s : Store) (version : DatasetVersion) : Store :=
  let id := version.versionId.datasetId
  { s with
    versions := s.versions.insert id
      ((s.recordsOf id).eraseP (fun v => v.versionId = version.versionId) ++ [version]) }

def gapsOf (s : Store) (id : String) : List DataGap := (s.gaps.get? id).getD []

def saveGap (s : Store) (gap : DataGap) : Store :=
  { s with
    gaps := s.gaps.insert gap.datasetId
      ((s.gapsOf gap.datasetId).eraseP (fun g => g.gapId = gap.gapId) ++ [gap]) }

/-! The parquet files. -/

/-- `save_dataset_version`; none is the error for an empty frame. -/
def saveDatasetVersion (pl : Polars) (s : Store) (df : Frame) (symbol timeframe : String)
    (versionTag : Nat) : Option (Store × ParquetPath × String) :=
  if df = [] then none
  else
    let path := getParquetPath symbol timeframe versionTag
    let checksum := pl.checksum df
    let file := { frame := df, symbol, timeframe, versionTag, rowCount := df.length, checksum }
    some ({ s with disk := s.disk.insert path file }, path, checksum)

/-- `load_candles`; none is the error for a missing file. -/
def loadCandles (pl : Polars) (s : Store) (symbol timeframe : String) (versionTag : Nat) : Option Frame :=
  (s.disk.get? (getParquetPath symbol timeframe versionTag)).map fun file => pl.sort file.frame

/-- What the three services have in common: the tag after as many as are recorded, and its file. -/
def saveNextVersion (pl : Polars) (s : Store) (id : String) (df : Frame) (symbol timeframe : String) :
    Option DatasetVersion × Store :=
  let (versions, s) := s.listVersions id
  let versionTag := versions.length + 1
  match saveDatasetVersion pl s df symbol timeframe versionTag with
  | none => (none, s)
  | some (s, parquetPath, checksum) =>
    (some { versionId := ⟨id, versionTag⟩, rowCount := df.length, checksum, parquetPath }, s)

/-! Derivation of the higher timeframes. -/

def deriveOne (pl : Polars) (symbol : String) (df1m : Frame) (s : Store) (tf : String) : Store :=
  if oneMinute tf then s
  else
    match resample1mCandles pl df1m tf with
    | none | some [] => s
    | some resampled =>
      match s.saveNextVersion pl (datasetId symbol tf) resampled symbol tf with
      | (none, s) => s
      | (some version, s) =>
        (s.createVersion version).upsertDataset
          { id := datasetId symbol tf, symbol := upper symbol, timeframe := tf
            currentVersionId := some version.versionId }

def defaultTargets : List String := ["5m", "15m", "30m", "1h", "1D"]

def deriveHigherTimeframeDatasets (pl : Polars) (s : Store) (symbol sourceTimeframe : String)
    (targetTimeframes : List String) : Store :=
  let (sourceDataset, s) := s.getDataset (datasetId symbol sourceTimeframe)
  let sourceVersion := ((sourceDataset.bind Dataset.currentVersionId).map VersionId.versionTag).getD 1
  match s.loadCandles pl symbol sourceTimeframe sourceVersion with
  | none | some [] => s
  | some df1m => targetTimeframes.foldl (deriveOne pl symbol df1m) s

/-! Downloads. -/

def enqueueDownload (s : Store) (symbol timeframe : String) (startDate endDate : Int)
    (forceRefresh : Bool) (jobId : String) : Store :=
  let symUpper := upper (strip symbol)
  let id := joined '_' symUpper (upper timeframe)
  let (dataset, s) := s.getDataset id
  let s := if dataset.isSome then s else s.upsertDataset { id, symbol := symUpper, timeframe }
  match splitDateRange startDate endDate with
  | none => s
  | some chunks =>
    let job := { jobId, datasetId := id, symbol := symUpper, timeframe, rangeFrom := startDate,
                 rangeTo := endDate, forceRefresh, chunks }
    { s with jobs := s.jobs ++ [job] }

def fetched (pl : Polars) (job : DownloadJob) (answers : Nat → Answer) : Frame :=
  ((List.range job.chunks.length).filterMap fun i : Nat =>
    fetchCandles pl job.symbol job.timeframe job.jobId (answers i)).flatten

/-- The new rows, merged with the first version unless the download is forced. -/
def finalFrame (pl : Polars) (s : Store) (job : DownloadJob) (newDf : Frame) : Frame :=
  if job.forceRefresh then newDf
  else
    match s.loadCandles pl job.symbol job.timeframe 1 with
    | none | some [] => newDf
    | some existingDf => pl.tidy (existingDf ++ newDf)

def runJobPipeline (pl : Polars) (cal : MarketCalendar) (s : Store) (job : DownloadJob)
    (answers : Nat → Answer) : Store :=
  let rows := fetched pl job answers
  if rows = [] then s
  else
    let finalDf := finalFrame pl s job (pl.tidy rows)
    let (dataset, s) := s.getDataset job.datasetId
    let gaps := detectGaps cal finalDf job.datasetId job.rangeFrom job.rangeTo job.timeframe
    let s := gaps.foldl saveGap s
    match s.saveNextVersion pl job.datasetId finalDf job.symbol job.timeframe with
    | (none, s) => s
    | (some version, s) =>
      let s := s.createVersion version
      let s := match dataset with
        | some dataset => s.upsertDataset { dataset with currentVersionId := some version.versionId }
        | none => s
      if oneMinute job.timeframe then
        s.deriveHigherTimeframeDatasets pl job.symbol "1m" defaultTargets
      else s

def finishJob (pl : Polars) (cal : MarketCalendar) (s : Store) (i : Nat) (answers : Nat → Answer) :
    Store :=
  match s.jobs[i]? with
  | none => s
  | some job => runJobPipeline pl cal { s with jobs := s.jobs.eraseIdx i } job answers

/-! Repairs. -/

def findGap (s : Store) (datasets : List Dataset) (gapId : GapId) : Option (String × DataGap) :=
  datasets.findSome? fun d =>
    ((s.gapsOf d.id).find? fun g => g.gapId = gapId).map fun g => (d.id, g)

def repairGap (pl : Polars) (s : Store) (gapId : GapId) (answer : Answer) : Store :=
  let (datasets, s) := s.listDatasets
  match s.findGap datasets gapId with
  | none => s
  | some (targetDatasetId, gap) =>
    let gap := { gap with status := .REPAIRING, repairAttempts := gap.repairAttempts + 1 }
    let (dataset, s) := (s.saveGap gap).getDataset targetDatasetId
    match dataset with
    | none => s.saveGap { gap with status := .OPEN }
    | some dataset =>
      match fetchCandles pl dataset.symbol dataset.timeframe "" answer with
      | none => s.saveGap { gap with status := .OPEN }
      | some [] =>
        if 2 ≤ gap.repairAttempts then s.saveGap { gap with status := .UNREPAIRABLE_UPSTREAM_OMISSION }
        else s.saveGap { gap with status := .OPEN }
      | some repairedDf =>
        match s.loadCandles pl dataset.symbol dataset.timeframe 1 with
        | none => s.saveGap { gap with status := .OPEN }
        | some existingDf =>
          match s.saveNextVersion pl dataset.id (pl.tidy (existingDf ++ repairedDf)) dataset.symbol
            dataset.timeframe with
          | (none, s) => s.saveGap { gap with status := .OPEN }
          | (some version, s) =>
            (s.saveGap { gap with status := .RESOLVED }).upsertDataset
              { dataset with currentVersionId := some version.versionId }

end Store

inductive Op where
  | enqueueDownload (symbol timeframe : String) (startDate endDate : Int) (forceRefresh : Bool)
      (jobId : String)
  | finishJob (i : Nat) (answers : Nat → Answer)
  | repairGap (gapId : GapId) (answer : Answer)
  | deriveHigherTimeframeDatasets (symbol sourceTimeframe : String) (targetTimeframes : List String)

namespace Store

def step (pl : Polars) (cal : MarketCalendar) (s : Store) : Op → Store
  | .enqueueDownload symbol timeframe startDate endDate forceRefresh jobId =>
    s.enqueueDownload symbol timeframe startDate endDate forceRefresh jobId
  | .finishJob i answers => s.finishJob pl cal i answers
  | .repairGap gapId answer => s.repairGap pl gapId answer
  | .deriveHigherTimeframeDatasets symbol sourceTimeframe targetTimeframes =>
    s.deriveHigherTimeframeDatasets pl symbol sourceTimeframe targetTimeframes

/-- The candles of the version that the catalogue has for a symbol and a timeframe. -/
def currentFrame (s : Store) (symbol timeframe : String) : Frame :=
  match (s.datasets.get? (datasetId symbol timeframe)).bind Dataset.currentVersionId with
  | none => []
  | some version =>
    ((s.disk.get? (getParquetPath symbol timeframe version.versionTag)).map ParquetFile.frame).getD []

end Store
end Droid.History
