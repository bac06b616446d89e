import Droid.Lib.Dict
import Droid.Lib.Run
import Mathlib.Algebra.Order.Field.Rat

/-! Frame delivery of the app stream hub. A step goes from one suspension to the next: only the put of a
P0 frame on a full queue suspends. -/
namespace Droid.Stream
open Lib

inductive Priority where
  | P0 | P1 | P2
  | other (name : String)
  deriving DecidableEq, Repr

def Priority.rank : Priority → Nat
  | .P0 => 0
  | .P1 => 1
  | .P2 => 2
  | .other _ => 1

def QUEUE_MAXSIZE : Nat := 50

/-- P1 and P2 frames only enter a queue below this size. -/
def LOW_PRIORITY_WATERMARK : Nat := 40

/-- Consecutive drops after which a slow consumer is evicted. -/
def MAX_CONSECUTIVE_DROPS : Nat := 50

/-- A frame, with its payload not serialized. -/
structure Frame (δ : Type) where
  eventType : String
  data : δ
  priority : Priority
  seq : Nat
  timestamp : Int
  deriving DecidableEq

def Frame.rank {δ : Type} (f : Frame δ) : Nat := f.priority.rank

inductive Item (δ : Type) where
  | frame (f : Frame δ)
  | EVICT
  deriving DecidableEq

def Item.frame? {δ : Type} : Item δ → Option (Frame δ)
  | .frame f => some f
  | .EVICT => none

def Item.below {δ : Type} (incomingRank : Nat) : Item δ → Bool
  | .frame f => decide (incomingRank < f.rank)
  | .EVICT => false

/-- A subscriber's queue, with the hub's entries for it. A sleeping or woken put is known by the number
of its frame. -/
structure Queue (δ : Type) where
  items : List (Item δ)
  putters : List Nat
  woken : List Nat
  subscribed : Bool
  dropCount : Nat
  /-- What the subscriber has read up to an eviction. -/
  read : List (Frame δ)
  ended : Bool
  evicted : Bool
  /-- The frames published before it subscribed. -/
  joined : Nat
  /-- Of each delivery, whether it dropped a frame. -/
  drops : List Bool
  deriving DecidableEq

namespace Queue
variable {δ : Type} (q : Queue δ)

def full : Bool := decide (QUEUE_MAXSIZE ≤ q.items.length)

def wakeNext : Queue δ :=
  match q.putters with
  | [] => q
  | n :: putters => { q with putters, woken := q.woken ++ [n] }

def popped : Queue δ := ({ q with items := q.items.tail } : Queue δ).wakeNext

def drained : Queue δ := q.items.foldl (fun q _ => q.popped) q

def entered (f : Frame δ) : Queue δ :=
  { q with items := q.items ++ [.frame f], dropCount := 0, drops := q.drops ++ [false] }

def evictQueue : Queue δ :=
  if q.subscribed then
    { q.drained with items := [.EVICT], subscribed := false, dropCount := 0, evicted := true }
  else q

def noteDrop : Queue δ :=
  let q := { q with drops := q.drops ++ [true] }
  let count := q.dropCount + 1
  if MAX_CONSECUTIVE_DROPS ≤ count then q.evictQueue else { q with dropCount := count }

/-- The oldest queued frame of lower priority is left out when the queue is rebuilt. -/
def dropOldestBelow (incomingRank : Nat) : Bool × Queue δ :=
  (q.items.any (Item.below incomingRank),
    { q.drained with items := q.items.eraseP (Item.below incomingRank) })

def deliverNowait (f : Frame δ) : Queue δ :=
  if f.rank = 0 then
    if q.full then q.noteDrop else q.entered f
  else if q.items.length < LOW_PRIORITY_WATERMARK then q.entered f
  else
    let (dropped, q) := q.dropOldestBelow f.rank
    let q := if dropped then { q with items := q.items ++ [.frame f] } else q
    q.noteDrop

/-- The put of a frame is over without it: a put that was woken hands the room on. -/
def cancelPut (n : Nat) : Queue δ :=
  if n ∈ q.woken then
    let q := { q with woken := q.woken.erase n }
    if q.full then q else q.wakeNext
  else { q with putters := q.putters.erase n }

/-- What the subscriber's next `get` does, where there is something to get. -/
def get : Queue δ :=
  if q.ended then q
  else
    match q.items with
    | [] => q
    | .frame f :: _ => { q.popped with read := q.read ++ [f] }
    | .EVICT :: _ => { q.popped with ended := true, subscribed := false, dropCount := 0 }

end Queue

/-- A publish of a P0 frame that waits at the first of the queues that remain. -/
structure Flight (δ : Type) where
  frame : Frame δ
  remaining : List Nat
  since : ℚ

structure AppStreamHub (δ : Type) where
  p0PutTimeout : ℚ
  now : ℚ
  seq : Nat
  queues : Dict Nat (Queue δ)
  /-- Queues are numbered as they are made. -/
  made : Nat
  /-- By the numbers of their frames. -/
  flights : Dict Nat (Flight δ)
  /-- Every frame that was made, in order. -/
  published : List (Frame δ)

/-- A publish visits the subscribers in the order of a set, which is any. -/
inductive StreamEvent (δ : Type) where
  | tick (time : ℚ)
  | subscribe
  | unsubscribe (k : Nat)
  | publish (order : List Nat) (eventType : String) (data : δ) (priority : Priority) (timestamp : Int)
  | publishNowait (eventType : String) (data : δ) (priority : Priority) (timestamp : Int)
  | get (k : Nat)
  | resume (n : Nat)
  | timeout (n : Nat)

namespace AppStreamHub
variable {δ : Type} (s : AppStreamHub δ)

def initial (p0PutTimeout : ℚ) : AppStreamHub δ := ⟨p0PutTimeout, 0, 0, .empty, 0, .empty, []⟩

def subscribers : List Nat := (s.queues.entries.filter fun e => e.2.subscribed).map Prod.fst

def setQueue (k : Nat) (q : Queue δ) : AppStreamHub δ := { s with queues := s.queues.insert k q }

def withQueue (k : Nat) (f : Queue δ → Queue δ) : AppStreamHub δ :=
  match s.queues.get? k with
  | some q => s.setQueue k (f q)
  | none => s

def subscribe : AppStreamHub δ :=
  { s with queues := s.queues.insert s.made ⟨[], [], [], true, 0, [], false, false, s.seq, []⟩
           made := s.made + 1 }

def makeFrame (eventType : String) (data : δ) (priority : Priority) (timestamp : Int) : Frame δ :=
  ⟨eventType, data, priority, s.seq + 1, timestamp⟩

def record (f : Frame δ) : AppStreamHub δ := { s with seq := f.seq, published := s.published ++ [f] }

/-- Every subscriber is served without suspending. -/
def deliverAll (f : Frame δ) : AppStreamHub δ :=
  { s with queues := s.queues.mapValues fun _ q => if q.subscribed then q.deliverNowait f else q }

/-- The frame's publish goes on to the queues that remain. -/
def onward (f : Frame δ) (remaining : List Nat) : AppStreamHub δ :=
  { s with flights := s.flights.insert f.seq ⟨f, remaining, s.now⟩ }

/-- A P0 frame goes from queue to queue until one is full: it sleeps there. -/
def deliver (s : AppStreamHub δ) (f : Frame δ) : List Nat → AppStreamHub δ
  | [] => { s with flights := s.flights.erase f.seq }
  | k :: remaining =>
    match s.queues.get? k with
    | some q =>
      if q.full then (s.setQueue k { q with putters := q.putters ++ [f.seq] }).onward f (k :: remaining)
      else ((s.setQueue k (q.entered f)).onward f remaining).deliver f remaining
    | none => (s.onward f remaining).deliver f remaining

def publish (order : List Nat) (eventType : String) (data : δ) (priority : Priority) (timestamp : Int) :
    AppStreamHub δ :=
  if s.subscribers.isEmpty then s
  else
    let f := s.makeFrame eventType data priority timestamp
    if f.rank ≠ 0 then (s.record f).deliverAll f
    else if order.Perm s.subscribers then ((s.record f).onward f order).deliver f order
    else s

def publishNowait (eventType : String) (data : δ) (priority : Priority) (timestamp : Int) :
    AppStreamHub δ :=
  if s.subscribers.isEmpty then s
  else
    let f := s.makeFrame eventType data priority timestamp
    (s.record f).deliverAll f

/-- A woken put looks again whether the queue is full. -/
def resume (n : Nat) : AppStreamHub δ :=
  match s.flights.get? n with
  | some ⟨f, k :: remaining, _⟩ =>
    match s.queues.get? k with
    | some q =>
      if n ∈ q.woken then
        let q := { q with woken := q.woken.erase n }
        if q.full then s.setQueue k { q with putters := q.putters ++ [n] }
        else ((s.setQueue k (q.entered f)).onward f remaining).deliver f remaining
      else s
    | none => s
  | _ => s

def timeout (n : Nat) : AppStreamHub δ :=
  match s.flights.get? n with
  | some ⟨f, k :: remaining, since⟩ =>
    if since + s.p0PutTimeout ≤ s.now then
      ((s.withQueue k fun q => (q.cancelPut n).evictQueue).onward f remaining).deliver f remaining
    else s
  | _ => s

def step : StreamEvent δ → AppStreamHub δ
  | .tick time => { s with now := max s.now time }
  | .subscribe => s.subscribe
  | .unsubscribe k => s.withQueue k fun q => { q with subscribed := false, dropCount := 0 }
  | .publish order eventType data priority timestamp => s.publish order eventType data priority timestamp
  | .publishNowait eventType data priority timestamp => s.publishNowait eventType data priority timestamp
  | .get k => s.withQueue k Queue.get
  | .resume n => s.resume n
  | .timeout n => s.timeout n

end AppStreamHub
end Droid.Stream
