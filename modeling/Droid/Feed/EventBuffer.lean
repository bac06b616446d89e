import Droid.Lib.Classes
import Droid.Lib.Run
import Mathlib.Algebra.Order.Floor.Ring
import Mathlib.Data.Rat.Floor

/-! The market event buffer: three queues by priority, load shedding by the depth, and its ledger. -/
namespace Droid.Feed
open Lib

inductive EventPriority where
  | HIGH | MEDIUM | LOW
  deriving DecidableEq, Repr

def EventPriority.rank : EventPriority → Nat
  | .HIGH => 2
  | .MEDIUM => 1
  | .LOW => 0

structure MarketEventBuffer (α : Type) where
  maxCapacity : Int
  highWatermark : Int
  criticalWatermark : Int
  highQueue : List α := []
  mediumQueue : List α := []
  lowQueue : List α := []
  totalPublished : Nat := 0
  totalConsumed : Nat := 0
  droppedLow : Nat := 0
  droppedMedium : Nat := 0
  droppedHigh : Nat := 0

namespace MarketEventBuffer
variable {α : Type} (priority : α → EventPriority)

/-- `__init__`; `int` truncates the watermarks. -/
def init (maxCapacity : Nat) (highWatermark criticalWatermark : ℚ) : MarketEventBuffer α :=
  let int := fun x : ℚ => if 0 ≤ x then ⌊x⌋ else ⌈x⌉
  { maxCapacity
    highWatermark := int (maxCapacity * highWatermark)
    criticalWatermark := int (maxCapacity * criticalWatermark) }

def depth (b : MarketEventBuffer α) : Nat := b.highQueue.length + b.mediumQueue.length + b.lowQueue.length

/-- The end of `publish`: the event goes to the queue of its priority. -/
def enqueue (b : MarketEventBuffer α) (event : α) : MarketEventBuffer α :=
  match priority event with
  | .HIGH => { b with highQueue := b.highQueue ++ [event] }
  | .MEDIUM => { b with mediumQueue := b.mediumQueue ++ [event] }
  | .LOW => { b with lowQueue := b.lowQueue ++ [event] }

def publish (b : MarketEventBuffer α) (event : α) : MarketEventBuffer α × Bool :=
  let currentDepth : Int := b.depth
  let b := { b with totalPublished := b.totalPublished + 1 }
  if b.highWatermark ≤ currentDepth ∧ priority event = .LOW then ({ b with droppedLow := b.droppedLow + 1 }, false)
  else if b.criticalWatermark ≤ currentDepth ∧ priority event = .MEDIUM then
    ({ b with droppedMedium := b.droppedMedium + 1 }, false)
  else if b.maxCapacity ≤ currentDepth then
    match b.lowQueue, b.mediumQueue with
    | _ :: rest, _ => (enqueue priority { b with lowQueue := rest, droppedLow := b.droppedLow + 1 } event, true)
    | [], _ :: rest => (enqueue priority { b with mediumQueue := rest, droppedMedium := b.droppedMedium + 1 } event, true)
    | [], [] => ({ b with droppedHigh := b.droppedHigh + 1 }, false)
  else (enqueue priority b event, true)

def consume (b : MarketEventBuffer α) : MarketEventBuffer α × Option α :=
  match b.highQueue, b.mediumQueue, b.lowQueue with
  | event :: rest, _, _ => ({ b with totalConsumed := b.totalConsumed + 1, highQueue := rest }, some event)
  | [], event :: rest, _ => ({ b with totalConsumed := b.totalConsumed + 1, mediumQueue := rest }, some event)
  | [], [], event :: rest => ({ b with totalConsumed := b.totalConsumed + 1, lowQueue := rest }, some event)
  | [], [], [] => (b, none)

/-- The loop of `consume_batch`, with the number of events that the batch may still take. -/
def consumeBatch (b : MarketEventBuffer α) : Nat → MarketEventBuffer α × List α
  | 0 => (b, [])
  | n + 1 =>
    match b.consume with
    | (b', none) => (b', [])
    | (b', some event) => ((consumeBatch b' n).1, event :: (consumeBatch b' n).2)

/-! ### Runs -/

inductive Op (α : Type) where
  | publish (event : α)
  | consume
  | consumeBatch (maxBatchSize : Int)

structure Trace (α : Type) where
  buffer : MarketEventBuffer α
  published : List α := []
  consumed : List α := []

def returned (b : MarketEventBuffer α) : Op α → List α
  | .publish _ => []
  | .consume => b.consume.2.toList
  | .consumeBatch maxBatchSize => (b.consumeBatch maxBatchSize.toNat).2

def step (t : Trace α) (op : Op α) : Trace α :=
  match op with
  | .publish event =>
    { buffer := (publish priority t.buffer event).1, published := t.published ++ [event]
      consumed := t.consumed ++ returned t.buffer op }
  | .consume =>
    { buffer := t.buffer.consume.1, published := t.published, consumed := t.consumed ++ returned t.buffer op }
  | .consumeBatch maxBatchSize =>
    { buffer := (t.buffer.consumeBatch maxBatchSize.toNat).1, published := t.published
      consumed := t.consumed ++ returned t.buffer op }

def after (maxCapacity : Nat) (highWatermark criticalWatermark : ℚ) (ops : List (Op α)) : Trace α :=
  run (step priority) { buffer := init maxCapacity highWatermark criticalWatermark } ops

def queue (b : MarketEventBuffer α) : EventPriority → List α
  | .HIGH => b.highQueue
  | .MEDIUM => b.mediumQueue
  | .LOW => b.lowQueue

def dropped (b : MarketEventBuffer α) : EventPriority → Nat
  | .HIGH => b.droppedHigh
  | .MEDIUM => b.droppedMedium
  | .LOW => b.droppedLow

def queued (b : MarketEventBuffer α) : List α := b.highQueue ++ b.mediumQueue ++ b.lowQueue

/-- Each queue holds events of its priority, the watermarks and the depth are within the capacity, and the ledger
balances. -/
structure Sound (b : MarketEventBuffer α) : Prop where
  sorted : ∀ p, ∀ event ∈ b.queue p, priority event = p
  high : b.highWatermark ≤ b.maxCapacity
  critical : b.criticalWatermark ≤ b.maxCapacity
  bounded : (b.depth : Int) ≤ b.maxCapacity
  ledger : b.totalPublished = b.totalConsumed + (b.droppedLow + b.droppedMedium + b.droppedHigh) + b.depth

end MarketEventBuffer
end Droid.Feed
