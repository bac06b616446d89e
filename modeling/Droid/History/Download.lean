import Droid.History.Candles
import Droid.Lib.Dict
import Droid.Lib.Rounding
import Droid.Lib.Run

/-! Download jobs: the service's requests and the pipelines of the jobs, each suspended where it waits and
resumed in any order. -/
namespace Droid.History.Download
open Lib Text

inductive JobStatus where
  | QUEUED | RUNNING | PARTIAL | COMPLETED | FAILED | CANCELLED
  deriving DecidableEq, Repr

/-- The statuses that are assigned; `CANCELLED` is assigned though the model of a chunk does not list it. -/
inductive ChunkStatus where
  | PENDING | DOWNLOADING | COMPLETED | FAILED | CANCELLED
  deriving DecidableEq, Repr

structure Chunk where
  rangeFrom : Int
  rangeTo : Int
  status : ChunkStatus := .PENDING
  rowsFetched : Nat := 0
  errorMessage : Option String := none
  deriving DecidableEq, Repr

structure Job where
  jobId : String
  datasetId : String
  symbol : String
  timeframe : String
  rangeFrom : Int
  rangeTo : Int
  status : JobStatus := .QUEUED
  progressPct : ℚ := 0
  totalChunks : Nat
  completedChunks : Nat := 0
  rowsDownloaded : Nat := 0
  errorMessage : Option String := none
  chunks : List Chunk
  deriving DecidableEq, Repr

inductive Task where
  /-- There is none: the job comes from the manifest. -/
  | loaded
  /-- `enqueue_download` waits for its `save_job`. -/
  | enqueuing
  /-- The task is made and has not begun. -/
  | created
  /-- It waits for a `save_job`; the chunk of the index is next. -/
  | resuming (i : Nat)
  /-- It waits for the `save_job` before the fetch of the chunk. -/
  | saving (i : Nat)
  | fetching (i : Nat)
  /-- The loop is over, with the errors of the failed chunks; gaps, versions and the catalogue follow. -/
  | merging (failed : List (Option String))
  /-- It waits for its last `save_job`, or derives the higher timeframes. -/
  | ending
  /-- It is done, or cancelled; the callback has not run. -/
  | finished
  | gone
  deriving DecidableEq, Repr

/-- A job, its coroutine, and the numbers of rows in `all_chunk_dfs`. -/
structure Slot where
  job : Job
  task : Task
  chunkRows : List Nat := []
  deriving DecidableEq, Repr

structure State where
  /-- Every job that was made, in order; one of the catalogue is known by its place. -/
  slots : List Slot
  memJobs : Dict String Nat
  activeTasks : Dict String Nat
  /-- The `delete_job` requests that wait for the end of `cancel_job`. -/
  deletes : List String
  /-- The reconciliations that wait for a `save_job`, with the jobs that they still have to look at. -/
  reconciles : List (List Nat)

/-- What a wait of the pipeline ends with: so many rows (or simply no exception), or an exception. -/
inductive Outcome where
  | rows (n : Nat)
  | error (message : String)
  deriving DecidableEq, Repr

/-! The pipeline, from one wait to the next. -/

def progress (completedChunks totalChunks : Nat) : ℚ :=
  roundTo 1 ((completedChunks : ℚ) / max 1 (totalChunks : ℚ) * 100)

def Job.setChunk (job : Job) (i : Nat) (f : Chunk → Chunk) : Job := { job with chunks := job.chunks.modify i f }

def orElse (a : Option String) (b : String) : String :=
  match a with
  | some text => if text = "" then b else text
  | none => b

def failedOf (failed : List (Option String)) (job : Job) : String :=
  failed.length.repr ++ "/" ++ job.totalChunks.repr ++ " chunk(s) failed"

/-- The pipeline after the last chunk, up to its first wait. -/
def Slot.combine (slot : Slot) : Slot :=
  let failed := (slot.job.chunks.filter fun c => c.status = .FAILED).map Chunk.errorMessage
  if slot.chunkRows.all fun n => n = 0 then
    match failed with
    | [] => { slot with
        job := { slot.job with
          status := .COMPLETED
          errorMessage := some "No data returned by provider for requested date range" }
        task := .ending }
    | first :: _ => { slot with
        job := { slot.job with
          status := .FAILED
          errorMessage := some (orElse first (failedOf failed slot.job)) }
        task := .ending }
  else { slot with task := .merging failed }

/-- `fetch_candles` returns, or raises. -/
def Slot.fetched (slot : Slot) (i : Nat) : Outcome → Slot
  | .rows n =>
    { job := { slot.job.setChunk i (fun c => { c with status := .COMPLETED, rowsFetched := n }) with
        completedChunks := slot.job.completedChunks + 1
        rowsDownloaded := slot.job.rowsDownloaded + n
        progressPct := progress (slot.job.completedChunks + 1) slot.job.totalChunks }
      task := .resuming (i + 1)
      chunkRows := slot.chunkRows ++ [n] }
  | .error message =>
    { slot with
      job := slot.job.setChunk i fun c => { c with status := .FAILED, errorMessage := some message }
      task := .resuming (i + 1) }

/-- The new version is in the catalogue, or one of the steps to it has raised. -/
def Slot.merged (slot : Slot) (failed : List (Option String)) : Outcome → Slot
  | .rows _ =>
    match failed with
    | [] => { slot with job := { slot.job with status := .COMPLETED }, task := .ending }
    | first :: _ => { slot with
        job := { slot.job with
          status := .PARTIAL
          errorMessage := some (failedOf failed slot.job ++ ": " ++ orElse first "unknown error") }
        task := .ending }
  | .error message => { slot with
      job := { slot.job with status := .FAILED, errorMessage := some message }
      task := .ending }

def Slot.advance (slot : Slot) (outcome : Outcome) : Slot :=
  match slot.task with
  | .created => { slot with job := { slot.job with status := .RUNNING }, task := .resuming 0 }
  | .resuming i =>
    if i < slot.job.chunks.length then
      { slot with job := slot.job.setChunk i fun c => { c with status := .DOWNLOADING }, task := .saving i }
    else slot.combine
  | .saving i => { slot with task := .fetching i }
  | .fetching i => slot.fetched i outcome
  | .merging failed => slot.merged failed outcome
  | .ending => { slot with task := .finished }
  | .loaded | .enqueuing | .finished | .gone => slot

def Slot.saves (slot : Slot) : Bool :=
  match slot.task with
  | .created | .fetching _ | .merging _ => true
  | .resuming i => decide (i < slot.job.chunks.length) || decide (slot.combine.task = .ending)
  | _ => false

/-! The other things that happen to a job. -/

def Slot.spawn (slot : Slot) : Slot := if slot.task = .enqueuing then { slot with task := .created } else slot

def Slot.callback (slot : Slot) : Slot := if slot.task = .finished then { slot with task := .gone } else slot

/-- `task.cancel()`, if it is not done: it never gets beyond its wait. -/
def Slot.kill (slot : Slot) : Slot := if slot.task = .gone then slot else { slot with task := .finished }

def Job.cancel (job : Job) (message : String) : Job :=
  { job with
    status := .CANCELLED
    errorMessage := some message
    chunks := job.chunks.map fun c =>
      if c.status = .PENDING ∨ c.status = .DOWNLOADING then { c with status := .CANCELLED } else c }

def Slot.cancel (slot : Slot) (message : String) : Slot := { slot with job := slot.job.cancel message }

/-! The service. -/

def jobIdOf (symbol timeframe : String) (second : Nat) : String :=
  "job_" ++ upper (strip symbol) ++ "_" ++ timeframe ++ "_" ++ second.repr

def newJob (symbol timeframe : String) (startDate endDate : Int) (second : Nat) (ranges : List (Int × Int)) : Job where
  jobId := jobIdOf symbol timeframe second
  datasetId := joined '_' (upper (strip symbol)) (upper timeframe)
  symbol := upper (strip symbol)
  timeframe := timeframe
  rangeFrom := startDate
  rangeTo := endDate
  totalChunks := ranges.length
  chunks := ranges.map fun r => { rangeFrom := r.1, rangeTo := r.2 }

namespace State

def saveJob (s : State) (n : Nat) : State :=
  match s.slots[n]? with
  | some slot => { s with memJobs := s.memJobs.insert slot.job.jobId n }
  | none => s

def modify (s : State) (n : Nat) (f : Slot → Slot) : State := { s with slots := s.slots.modify n f }

/-- `enqueue_download`, up to the wait for `save_job`; an empty range raises. -/
def enqueueDownload (s : State) (symbol timeframe : String) (startDate endDate : Int) (second : Nat) : State :=
  match splitDateRange startDate endDate with
  | none => s
  | some ranges =>
    let slot := { job := newJob symbol timeframe startDate endDate second ranges, task := .enqueuing }
    State.saveJob { s with slots := s.slots ++ [slot] } s.slots.length

def spawnTask (s : State) (n : Nat) : State :=
  match s.slots[n]? with
  | some slot =>
    if slot.task = .enqueuing then
      { s.modify n Slot.spawn with activeTasks := s.activeTasks.insert slot.job.jobId n }
    else s
  | none => s

def runJobPipeline (s : State) (n : Nat) (outcome : Outcome) : State :=
  match s.slots[n]? with
  | some slot =>
    let s' := s.modify n fun slot => slot.advance outcome
    if slot.saves then s'.saveJob n else s'
  | none => s

def doneCallback (s : State) (n : Nat) : State :=
  match s.slots[n]? with
  | some slot =>
    if slot.task = .finished then
      { s.modify n Slot.callback with activeTasks := s.activeTasks.erase slot.job.jobId }
    else s
  | none => s

def cancelTask (s : State) (jobId : String) : State :=
  match s.activeTasks.get? jobId with
  | some n => { s.modify n Slot.kill with activeTasks := s.activeTasks.erase jobId }
  | none => s

def cancelJob (s : State) (jobId : String) : State :=
  let s := s.cancelTask jobId
  match s.memJobs.get? jobId with
  | some n => (s.modify n fun slot => slot.cancel "Cancelled by user").saveJob n
  | none => s

/-- `delete_job` of the service, up to the wait in `cancel_job`; of an unknown job nothing is left to do. -/
def deleteJob (s : State) (jobId : String) : State :=
  if s.memJobs.contains jobId then { s.cancelJob jobId with deletes := s.deletes ++ [jobId] }
  else s.cancelJob jobId

def removeJob (s : State) (i : Nat) : State :=
  match s.deletes[i]? with
  | some jobId => { s with memJobs := s.memJobs.erase jobId, deletes := s.deletes.eraseIdx i }
  | none => s

def orphaned (s : State) (n : Nat) : Bool :=
  match s.slots[n]? with
  | some slot => slot.job.status = .RUNNING || slot.job.status = .QUEUED
  | none => false

/-- The loop of `reconcile_orphaned_jobs`, up to its next `save_job`. -/
def reconcileFrom (s : State) (jobs : List Nat) : State :=
  match jobs.dropWhile fun n => !s.orphaned n with
  | [] => s
  | n :: later =>
    { (s.modify n fun slot => slot.cancel "Interrupted by server restart").saveJob n with
      reconciles := s.reconciles ++ [later] }

def reconcileNext (s : State) (i : Nat) : State :=
  match s.reconciles[i]? with
  | some jobs => State.reconcileFrom { s with reconciles := s.reconciles.eraseIdx i } jobs
  | none => s

end State

inductive Event where
  | enqueue (symbol timeframe : String) (startDate endDate : Int) (second : Nat)
  | spawn (n : Nat)
  | advance (n : Nat) (outcome : Outcome)
  | callback (n : Nat)
  | cancel (jobId : String)
  | delete (jobId : String)
  | remove (i : Nat)
  | reconcile
  | reconcileNext (i : Nat)
  deriving DecidableEq, Repr

def step (s : State) : Event → State
  | .enqueue symbol timeframe startDate endDate second => s.enqueueDownload symbol timeframe startDate endDate second
  | .spawn n => s.spawnTask n
  | .advance n outcome => s.runJobPipeline n outcome
  | .callback n => s.doneCallback n
  | .cancel jobId => s.cancelJob jobId
  | .delete jobId => s.deleteJob jobId
  | .remove i => s.removeJob i
  | .reconcile => s.reconcileFrom s.memJobs.values
  | .reconcileNext i => s.reconcileNext i

/-! The law. -/

def JobStatus.Terminal (status : JobStatus) : Prop :=
  status = .COMPLETED ∨ status = .PARTIAL ∨ status = .FAILED ∨ status = .CANCELLED

instance (status : JobStatus) : Decidable status.Terminal := inferInstanceAs (Decidable (_ ∨ _))

def Job.downloaded (job : Job) : Nat := (job.chunks.filter fun c => c.status = .COMPLETED).length

/-- What holds of the jobs at any time. -/
structure Lawful (s : State) : Prop where
  ids : (s.slots.map fun slot => slot.job.jobId).Nodup
  counted : ∀ slot ∈ s.slots, slot.job.completedChunks = slot.job.downloaded
  unfailed : ∀ slot ∈ s.slots, slot.job.status = .COMPLETED → ∀ c ∈ slot.job.chunks, c.status ≠ .FAILED

structure Slot.Continues (slot slot' : Slot) : Prop where
  jobId : slot'.job.jobId = slot.job.jobId
  settled : slot.job.status.Terminal → slot'.job.status = slot.job.status
  progress : slot.job.progressPct ≤ slot'.job.progressPct

def Continues (s s' : State) : Prop :=
  ∀ (n : Nat) (slot : Slot), s.slots[n]? = some slot → ∃ slot', s'.slots[n]? = some slot' ∧ slot.Continues slot'

structure Lifecycle (s : State) (events : List Event) : Prop where
  lawful : Always step Lawful s events
  continues : ∀ before between, before ++ between <+: events →
    Continues (run step s before) (run step s (before ++ between))

/-! When it holds. -/

def Task.busy : Task → Bool
  | .loaded | .finished | .gone => false
  | _ => true

/-- The jobs as the manifest has them when the process starts. -/
structure Started (s : State) : Prop where
  loaded : ∀ slot ∈ s.slots, slot.task = .loaded
  lawful : Lawful s
  known : ∀ jobId n, s.memJobs.get? jobId = some n → ∃ slot, s.slots[n]? = some slot ∧ slot.job.jobId = jobId
  idle : s.activeTasks = .empty ∧ s.deletes = [] ∧ s.reconciles = []

/-- No coroutine works on the job that a reconciliation cancels next. -/
def OrphanIdle (s : State) (jobs : List Nat) : Prop :=
  ∀ n ∈ jobs.find? s.orphaned, ∀ slot ∈ s.slots[n]?, slot.task.busy = false

/-- The job of the id is not over, a cancelled one apart, and its task has been made. -/
def Cancellable (s : State) (jobId : String) : Prop :=
  ∀ n ∈ s.memJobs.get? jobId, ∀ slot ∈ s.slots[n]?,
    (slot.job.status.Terminal → slot.job.status = .CANCELLED) ∧ slot.task ≠ .enqueuing

/-- What the service does not check: that the second gives a new id, that a request to cancel or to delete
is about a job that is on its way, and that an orphan has no coroutine. -/
def Careful (s : State) : Event → Prop
  | .enqueue symbol timeframe startDate endDate second =>
    startDate ≤ endDate → ∀ slot ∈ s.slots, slot.job.jobId ≠ jobIdOf symbol timeframe second
  | .cancel jobId | .delete jobId => Cancellable s jobId
  | .reconcile => OrphanIdle s s.memJobs.values
  | .reconcileNext i => ∀ jobs ∈ s.reconciles[i]?, OrphanIdle s jobs
  | _ => True

instance (s : State) (jobs : List Nat) : Decidable (OrphanIdle s jobs) :=
  inferInstanceAs (Decidable (∀ n ∈ jobs.find? s.orphaned, ∀ slot ∈ s.slots[n]?, slot.task.busy = false))

instance (s : State) (jobId : String) : Decidable (Cancellable s jobId) :=
  inferInstanceAs (Decidable (∀ n ∈ s.memJobs.get? jobId, ∀ slot ∈ s.slots[n]?,
    (slot.job.status.Terminal → slot.job.status = .CANCELLED) ∧ slot.task ≠ .enqueuing))

instance (s : State) : (event : Event) → Decidable (Careful s event)
  | .enqueue _ _ startDate endDate _ => inferInstanceAs (Decidable (startDate ≤ endDate → ∀ slot ∈ s.slots, _ ≠ _))
  | .cancel jobId | .delete jobId => inferInstanceAs (Decidable (Cancellable s jobId))
  | .reconcile => inferInstanceAs (Decidable (OrphanIdle s s.memJobs.values))
  | .reconcileNext i => inferInstanceAs (Decidable (∀ jobs ∈ s.reconciles[i]?, OrphanIdle s jobs))
  | .spawn _ | .advance _ _ | .callback _ | .remove _ => inferInstanceAs (Decidable True)

end Droid.History.Download
