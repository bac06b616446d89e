import Droid.Lib.Dict

/-! The catalogue manifest: what a restart loads, what a save writes, and the operations that save. -/
namespace Droid.History.Catalog
open Lib

/-! The records of the four sections, with the fields a model checks or an operation reads. A status
is text: a model checks it when it is constructed, not when it is assigned. -/

structure Dataset where
  id : String
  status : String := "INITIALIZED"
  currentVersionId : Option String := none
  deriving DecidableEq, Repr

structure Version where
  versionId : String
  datasetId : String
  qualityStatus : String := "PASSED"
  methodologyEvents : List String := []
  deriving DecidableEq, Repr

structure Chunk where
  chunkId : String
  status : String := "PENDING"
  deriving DecidableEq, Repr

structure Job where
  jobId : String
  datasetId : String
  status : String := "QUEUED"
  errorMessage : Option String := none
  chunks : List Chunk := []
  deriving DecidableEq, Repr

structure Gap where
  gapId : String
  datasetId : String
  status : String := "OPEN"
  deriving DecidableEq, Repr

def DatasetStatus : List String := ["INITIALIZED", "DOWNLOADING", "READY", "DEGRADED", "ERROR"]

def QualityStatus : List String := ["PASSED", "DEGRADED", "POISONED"]

def EventType : List String :=
  ["LOT_SIZE_CHANGE", "INDEX_REBALANCE", "EXPIRY_DAY_CHANGE", "TRADING_HOURS_CHANGE"]

def JobStatus : List String := ["QUEUED", "RUNNING", "PARTIAL", "COMPLETED", "FAILED", "CANCELLED"]

def ChunkStatus : List String := ["PENDING", "DOWNLOADING", "COMPLETED", "FAILED", "RETRYING"]

def GapStatus : List String :=
  ["OPEN", "REPAIRING", "RESOLVED", "UNREPAIRABLE_UPSTREAM_OMISSION", "EXCHANGE_HALT_VERIFIED"]

def Dataset.literals (d : Dataset) : Bool := d.status ∈ DatasetStatus

def Version.literals (v : Version) : Bool :=
  v.qualityStatus ∈ QualityStatus && v.methodologyEvents.all (· ∈ EventType)

def Chunk.literals (c : Chunk) : Bool := c.status ∈ ChunkStatus

def Job.literals (j : Job) : Bool := j.status ∈ JobStatus && j.chunks.all Chunk.literals

def Gap.literals (g : Gap) : Bool := g.status ∈ GapStatus

/-- A JSON entry as its model reads it: all fields present and of their types, or not. -/
inductive Raw (α : Type) where
  | fields (a : α)
  | malformed
  deriving DecidableEq, Repr

/-- Construction of a model from an entry, with the check of its literals. -/
def Raw.validate {α : Type} (literals : α → Bool) : Raw α → Option α
  | .fields a => if literals a then some a else none
  | .malformed => none

structure Repo where
  datasets : Dict String Dataset
  versions : Dict String (List Version)
  jobs : Dict String Job
  gaps : Dict String (List Gap)

def Repo.empty : Repo := ⟨.empty, .empty, .empty, .empty⟩

structure Manifest where
  datasets : Dict String (Raw Dataset)
  versions : Dict String (List (Raw Version))
  jobs : Dict String (Raw Job)
  gaps : Dict String (List (Raw Gap))

def save (r : Repo) : Manifest where
  datasets := r.datasets.mapValues fun _ d => .fields d
  versions := r.versions.mapValues fun _ vs => vs.map .fields
  jobs := r.jobs.mapValues fun _ j => .fields j
  gaps := r.gaps.mapValues fun _ gs => gs.map .fields

/-! Loading. -/

/-- One assignment of the load. -/
inductive Item where
  | dataset (key : String) (raw : Raw Dataset)
  | versions (key : String) (raws : List (Raw Version))
  | job (key : String) (raw : Raw Job)
  | gaps (key : String) (raws : List (Raw Gap))
  deriving DecidableEq, Repr

def Manifest.items (m : Manifest) : List Item :=
  m.datasets.entries.map (fun e => .dataset e.1 e.2) ++
    (m.versions.entries.map (fun e => .versions e.1 e.2) ++
      (m.jobs.entries.map (fun e => .job e.1 e.2) ++ m.gaps.entries.map fun e => .gaps e.1 e.2))

/-- A list is assigned when all its models are constructed. -/
def Item.loads : Item → Bool
  | .dataset _ raw => (raw.validate Dataset.literals).isSome
  | .versions _ raws => raws.all fun raw => (raw.validate Version.literals).isSome
  | .job _ raw => (raw.validate Job.literals).isSome
  | .gaps _ raws => raws.all fun raw => (raw.validate Gap.literals).isSome

def Repo.assign (r : Repo) : Item → Repo
  | .dataset key raw =>
    match raw.validate Dataset.literals with
    | some d => { r with datasets := r.datasets.insert key d }
    | none => r
  | .versions key raws =>
    { r with versions := r.versions.insert key (raws.filterMap (Raw.validate Version.literals)) }
  | .job key raw =>
    match raw.validate Job.literals with
    | some j => { r with jobs := r.jobs.insert key j }
    | none => r
  | .gaps key raws =>
    { r with gaps := r.gaps.insert key (raws.filterMap (Raw.validate Gap.literals)) }

/-- `_load_manifest`: one try block, which the first failing model leaves. -/
def load (m : Manifest) : Repo := (m.items.takeWhile Item.loads).foldl Repo.assign .empty

/-- A dataset directory as the scan of the disk reconstructs it. -/
structure Found where
  id : String
  dataset : Dataset
  versions : List Version

/-- `_sync_from_disk_internal`. -/
def hydrate (found : List Found) (r : Repo) : Repo :=
  found.foldl (fun r f =>
    { r with datasets := r.datasets.insert f.id f.dataset, versions := r.versions.insert f.id f.versions })
    r

def init (found : List Found) (m : Manifest) : Repo :=
  let r := load m
  if r.datasets.size = 0 then hydrate found r else r

/-! The operations that save. -/

def upsertDataset (r : Repo) (d : Dataset) : Repo := { r with datasets := r.datasets.insert d.id d }

def replaced {α κ : Type} [DecidableEq κ] (key : α → κ) (a : α) (xs : List α) : List α :=
  xs.eraseP (fun x => decide (key x = key a)) ++ [a]

def createVersion (r : Repo) (v : Version) : Repo :=
  let old := (r.versions.get? v.datasetId).getD []
  { r with versions := r.versions.insert v.datasetId (replaced Version.versionId v old) }

def saveJob (r : Repo) (j : Job) : Repo := { r with jobs := r.jobs.insert j.jobId j }

def deleteJob (r : Repo) (jobId : String) : Repo := { r with jobs := r.jobs.erase jobId }

def saveGap (r : Repo) (g : Gap) : Repo :=
  let old := (r.gaps.get? g.datasetId).getD []
  { r with gaps := r.gaps.insert g.datasetId (replaced Gap.gapId g old) }

def Job.cancel (j : Job) (reason : String) : Job :=
  { j with
    status := "CANCELLED"
    errorMessage := some reason
    chunks := j.chunks.map fun c =>
      if c.status ∈ ["PENDING", "DOWNLOADING"] then { c with status := "CANCELLED" } else c }

def cancelJob (r : Repo) (jobId : String) : Repo :=
  match r.jobs.get? jobId with
  | some j => saveJob r (j.cancel "Cancelled by user")
  | none => r

def reconcileOrphanedJobs (r : Repo) : Repo :=
  r.jobs.values.foldl (fun r j =>
    if j.status ∈ ["RUNNING", "QUEUED"] then saveJob r (j.cancel "Interrupted by server restart")
    else r) r

inductive Op where
  | upsertDataset (d : Dataset)
  | createVersion (v : Version)
  | saveJob (j : Job)
  | deleteJob (jobId : String)
  | saveGap (g : Gap)

def apply (r : Repo) : Op → Repo
  | .upsertDataset d => upsertDataset r d
  | .createVersion v => createVersion r v
  | .saveJob j => saveJob r j
  | .deleteJob jobId => deleteJob r jobId
  | .saveGap g => saveGap r g

/-- Deleting an unknown job saves nothing. -/
def saves (r : Repo) : Op → Bool
  | .deleteJob jobId => r.jobs.contains jobId
  | _ => true

end Droid.History.Catalog
