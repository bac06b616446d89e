import Droid.Feed.DataQuality

/-! The write pipeline: ticks are deduplicated and queued with the candles, a background task inserts them in
batches, and a stop flushes what is left. -/
namespace Droid.Feed
open Lib

structure CandleRecord where
  timestamp : Int
  symbol : String
  timeframe : String := "1m"
  openPrice : ℚ
  high : ℚ
  low : ℚ
  close : ℚ
  volume : Int
  deriving DecidableEq

/-! ### Deduplication -/

structure DeduplicationKey where
  symbol : String
  timestampSec : Int
  ltp : ℚ
  volume : Int
  seqNo : Option Int
  deriving DecidableEq

def TickEvent.deduplicationKey (tick : TickEvent) : DeduplicationKey where
  symbol := tick.symbol
  timestampSec := tick.timestamp.tdiv 1000000
  ltp := tick.ltp
  volume := tick.volume
  seqNo := tick.sequenceNumber

/-- The keys seen, oldest first, each with the time of the monotonic clock. -/
structure TickDeduplicator where
  maxHistory : Nat := 20000
  windowSeconds : ℚ := 10
  seen : Dict DeduplicationKey ℚ := Dict.empty
  duplicatesDropped : Nat := 0
  uniquePassed : Nat := 0

namespace TickDeduplicator

/-- `popitem(last=False)`. -/
def popOldest (seen : Dict DeduplicationKey ℚ) : Dict DeduplicationKey ℚ :=
  match seen.entries with
  | [] => seen
  | (key, _) :: _ => seen.erase key

/-- The key of the tick was seen within the window. -/
def recent (dedup : TickDeduplicator) (tick : TickEvent) (now : ℚ) : Bool :=
  (dedup.seen.get? tick.deduplicationKey).any (now - · ≤ dedup.windowSeconds)

def isDuplicate (dedup : TickDeduplicator) (tick : TickEvent) (now : ℚ) : TickDeduplicator × Bool :=
  if dedup.recent tick now then ({ dedup with duplicatesDropped := dedup.duplicatesDropped + 1 }, true)
  else
    let seen := dedup.seen.erase tick.deduplicationKey
    let seen := if dedup.maxHistory ≤ seen.size then popOldest seen else seen
    ({ dedup with
        seen := seen.insert tick.deduplicationKey now
        uniquePassed := dedup.uniquePassed + 1 }, false)

end TickDeduplicator

/-! ### The pipeline -/

/-- The flush in progress: of the ticks drained, how many are in the store, the one whose insert is awaited and the
rest; or the candles drained. -/
inductive Flush where
  | idle
  | ticks (done : Nat) (tick : TickEvent) (rest : List TickEvent)
  | candles (batch : List CandleRecord)
  deriving DecidableEq

inductive Flusher where
  | worker | stop
  deriving DecidableEq

structure BatchWritePipeline where
  batchSize : Nat := 200
  deduplicator : TickDeduplicator := {}
  tickQueue : List TickEvent := []
  candleQueue : List CandleRecord := []
  /-- The background task is there. -/
  running : Bool := true
  flush : Flush := .idle
  flusher : Flusher := .worker
  totalEnqueued : Nat := 0
  totalFlushed : Nat := 0
  totalBatches : Nat := 0
  /-- What the inserts of the store have taken. -/
  storedTicks : List TickEvent := []
  storedCandles : List CandleRecord := []
  /-- Ghost: what was accepted, and when, and what was refused, and after how many. -/
  acceptedTicks : List (TickEvent × ℚ) := []
  acceptedCandles : List CandleRecord := []
  refusedTicks : List (TickEvent × ℚ × Nat) := []
  /-- Ghost: how many ticks and candles had been accepted when the stop was called, and whether it has returned. -/
  atStop : Nat × Nat := (0, 0)
  stopped : Bool := false

inductive Turn where
  | enqueueTick (tick : TickEvent) (now : ℚ)
  | enqueueCandle (candle : CandleRecord)
  /-- The background task has slept its interval. -/
  | wake
  /-- The awaited insert returns. -/
  | inserted
  /-- It raises; of a batch of candles that many are in the store. -/
  | raised (taken : Nat)
  /-- The task that flushes is cancelled at it. -/
  | cancelled
  | stop

namespace BatchWritePipeline
variable (p : BatchWritePipeline)

def enqueueTick (tick : TickEvent) (now : ℚ) : BatchWritePipeline :=
  let (deduplicator, duplicate) := p.deduplicator.isDuplicate tick now
  if duplicate then { p with deduplicator, refusedTicks := p.refusedTicks ++ [(tick, now, p.acceptedTicks.length)] }
  else
    { p with
      deduplicator
      tickQueue := p.tickQueue ++ [tick]
      totalEnqueued := p.totalEnqueued + 1
      acceptedTicks := p.acceptedTicks ++ [(tick, now)] }

def enqueueCandle (candle : CandleRecord) : BatchWritePipeline :=
  { p with
    candleQueue := p.candleQueue ++ [candle]
    totalEnqueued := p.totalEnqueued + 1
    acceptedCandles := p.acceptedCandles ++ [candle] }

def endFlush : BatchWritePipeline :=
  { p with flush := .idle, stopped := p.stopped || decide (p.flusher = .stop) }

def drainCandles : BatchWritePipeline :=
  match p.candleQueue.take p.batchSize with
  | [] => p.endFlush
  | batch => { p with flush := .candles batch, candleQueue := p.candleQueue.drop p.batchSize }

/-- `_flush_all_pending` up to its first insert. -/
def drainTicks : BatchWritePipeline :=
  match p.tickQueue.take p.batchSize with
  | [] => p.drainCandles
  | tick :: rest => { p with flush := .ticks 0 tick rest, tickQueue := p.tickQueue.drop p.batchSize }

def inserted : BatchWritePipeline :=
  match p.flush with
  | .idle => p
  | .ticks done tick [] =>
    { p with
      storedTicks := p.storedTicks ++ [tick]
      totalFlushed := p.totalFlushed + (done + 1)
      totalBatches := p.totalBatches + 1 }.drainCandles
  | .ticks done tick (next :: rest) =>
    { p with storedTicks := p.storedTicks ++ [tick], flush := .ticks (done + 1) next rest }
  | .candles batch =>
    { p with
      storedCandles := p.storedCandles ++ batch
      totalFlushed := p.totalFlushed + batch.length
      totalBatches := p.totalBatches + 1 }.endFlush

/-- It raises: the loop logs the error and goes on, a stop does not return. -/
def raised (taken : Nat) : BatchWritePipeline :=
  match p.flush with
  | .candles batch => { p with flush := .idle, storedCandles := p.storedCandles ++ batch.take taken }
  | _ => { p with flush := .idle }

/-- The task that flushes is cancelled: the loop ends, a stop does not return. -/
def cancelled : BatchWritePipeline :=
  { p with flush := .idle, running := p.running && decide (p.flusher = .stop) }

/-- `stop`: the background task is cancelled, then what is queued is flushed once. -/
def stop : BatchWritePipeline :=
  { p with
    running := false
    flusher := .stop
    flush := .idle
    stopped := false
    atStop := (p.acceptedTicks.length, p.acceptedCandles.length) }.drainTicks

def step (p : BatchWritePipeline) : Turn → BatchWritePipeline
  | .enqueueTick tick now => p.enqueueTick tick now
  | .enqueueCandle candle => p.enqueueCandle candle
  | .wake => if p.running ∧ p.flush = .idle then { p with flusher := .worker }.drainTicks else p
  | .inserted => p.inserted
  | .raised taken => p.raised taken
  | .cancelled => p.cancelled
  -- it is not called once more while it flushes
  | .stop => if p.flush ≠ .idle ∧ p.flusher = .stop then p else p.stop

/-! ### What is kept -/

end BatchWritePipeline

namespace Flush

def pendingTicks : Flush → List TickEvent
  | .ticks _ tick rest => tick :: rest
  | _ => []

def pendingCandles : Flush → List CandleRecord
  | .candles batch => batch
  | _ => []

def done : Flush → Nat
  | .ticks done _ _ => done
  | _ => 0

end Flush

namespace BatchWritePipeline

def AcceptedWithin (accepted : List (TickEvent × ℚ)) (tick : TickEvent) (now window : ℚ) : Prop :=
  ∃ out ∈ accepted, out.1 = tick ∧ now - out.2 ≤ window

instance (accepted : List (TickEvent × ℚ)) (tick : TickEvent) (now window : ℚ) :
    Decidable (AcceptedWithin accepted tick now window) :=
  inferInstanceAs (Decidable (∃ out ∈ accepted, out.1 = tick ∧ now - out.2 ≤ window))

/-- Every item accepted is in the store once, or drained or queued; those flushed are counted; what was accepted before
a stop that has returned is in the store; what is refused was accepted within the window. -/
structure Kept (p : BatchWritePipeline) : Prop where
  ticks : p.acceptedTicks.map Prod.fst = p.storedTicks ++ p.flush.pendingTicks ++ p.tickQueue
  candles : p.acceptedCandles = p.storedCandles ++ p.flush.pendingCandles ++ p.candleQueue
  counted : p.totalFlushed + p.flush.done = p.storedTicks.length + p.storedCandles.length
  flushed : p.stopped = true →
    (p.acceptedTicks.take p.atStop.1).map Prod.fst <+: p.storedTicks ∧
      p.acceptedCandles.take p.atStop.2 <+: p.storedCandles
  refused : ∀ tick now before, (tick, now, before) ∈ p.refusedTicks →
    AcceptedWithin (p.acceptedTicks.take before) tick now p.deduplicator.windowSeconds

/-- The turn loses nothing: no insert fails or is cancelled, a stop finds no flush in progress and no more than a
batch in either queue, and a tick whose key was seen within the window was itself accepted within it. -/
def Lossless (p : BatchWritePipeline) : Turn → Prop
  | .enqueueTick tick now => p.deduplicator.recent tick now = true →
    AcceptedWithin p.acceptedTicks tick now p.deduplicator.windowSeconds
  | .raised _ => p.flush = .idle
  | .cancelled => p.flush = .idle
  | .stop => p.flush = .idle ∧ p.tickQueue.length ≤ p.batchSize ∧ p.candleQueue.length ≤ p.batchSize
  | _ => True

instance (p : BatchWritePipeline) (turn : Turn) : Decidable (p.Lossless turn) :=
  match turn with
  | .enqueueTick tick now => inferInstanceAs (Decidable (p.deduplicator.recent tick now = true →
      AcceptedWithin p.acceptedTicks tick now p.deduplicator.windowSeconds))
  | .raised _ => inferInstanceAs (Decidable (p.flush = .idle))
  | .cancelled => inferInstanceAs (Decidable (p.flush = .idle))
  | .stop => inferInstanceAs (Decidable
      (p.flush = .idle ∧ p.tickQueue.length ≤ p.batchSize ∧ p.candleQueue.length ≤ p.batchSize))
  | .enqueueCandle _ => inferInstanceAs (Decidable True)
  | .wake => inferInstanceAs (Decidable True)
  | .inserted => inferInstanceAs (Decidable True)

structure Ledger (p : BatchWritePipeline) (ticks : List TickEvent) (candles : List CandleRecord) (done : Nat) :
    Prop where
  ticks : p.acceptedTicks.map Prod.fst = p.storedTicks ++ ticks ++ p.tickQueue
  candles : p.acceptedCandles = p.storedCandles ++ candles ++ p.candleQueue
  counted : p.totalFlushed + done = p.storedTicks.length + p.storedCandles.length
  refused : ∀ tick now before, (tick, now, before) ∈ p.refusedTicks →
    AcceptedWithin (p.acceptedTicks.take before) tick now p.deduplicator.windowSeconds

section Steps
variable {p : BatchWritePipeline}

end Steps

end BatchWritePipeline
end Droid.Feed
