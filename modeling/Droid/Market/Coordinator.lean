import Droid.Lib.Dict
import Droid.Lib.Run
import Mathlib.Algebra.Order.Field.Rat
import Mathlib.Data.Rat.Floor
import Mathlib.Tactic.Linarith

/-! The market data coordinator for one key, over its in-memory cache. A step goes from one suspension
to the next: the cache and the master lock never suspend, a shared future, the key's lock, the fetcher
and the back-off do. -/
namespace Droid.Market
open Lib

inductive Status where
  | FRESH | STALE | DEGRADED | UNAVAILABLE
  deriving DecidableEq, Repr

structure CachedValue (α : Type) where
  data : Option α
  updatedAt : Int
  source : String
  status : Status
  ageMs : Int := 0
  derivedFrom : Option (List (String × String)) := none
  deriving DecidableEq

structure Request where
  sourceName : String := "coordinator"
  forceRefresh : Bool := false
  ttl : ℚ
  fallbackStale : Bool := true
  maxRetries : Nat := 1
  derivedFrom : Option (List (String × String)) := none
  deriving DecidableEq

inductive FutureState (α : Type) where
  | pending
  | result (v : CachedValue α)
  | cancelled
  deriving DecidableEq

/-- Where a returned value comes from; a cached one was stored at a time. -/
inductive Origin where
  | cache (stored : ℚ)
  | joined
  | computed
  deriving DecidableEq

/-- Where a caller is suspended, or how it ended. A refresh has its future, its attempt and the cache
entry it found. -/
inductive Point (α : Type) where
  | joined (future : Nat)
  | locking
  | fetching (future attempt : Nat) (cachedEntry : Option (ℚ × CachedValue α))
  | sleeping (future attempt : Nat) (cachedEntry : Option (ℚ × CachedValue α))
  | returned (origin : Origin) (v : CachedValue α) (time : ℚ)
  | raised
  deriving DecidableEq

structure Caller (α : Type) where
  request : Request
  arrived : ℚ
  point : Point α
  /-- It was cancelled itself, or its own fetcher was. -/
  cancelled : Bool := false
  deriving DecidableEq

/-- Callers are numbered by arrival, futures by refresh. -/
structure Coordinator (α : Type) where
  now : ℚ
  cache : Option (ℚ × CachedValue α)
  lock : Option Nat
  inFlight : Option Nat
  futures : Dict Nat (FutureState α)
  refreshes : Nat
  callers : Dict Nat (Caller α)
  arrivals : Nat
  /-- The time of every fetch that succeeded, and how many callers had arrived by then. -/
  successes : List (ℚ × Nat)

inductive Outcome (α : Type) where
  | ok (data : α)
  | error
  | cancelled
  deriving DecidableEq

inductive Event (α : Type) where
  | tick (time : ℚ)
  | arrive (request : Request)
  | acquire (i : Nat)
  | fetched (i : Nat) (wallClock : Int) (outcome : Outcome α)
  | slept (i : Nat)
  | resume (i : Nat)
  | cancel (i : Nat)
  deriving DecidableEq

namespace Coordinator
variable {α : Type} (s : Coordinator α)

def initial : Coordinator α := ⟨0, none, none, none, .empty, 0, .empty, 0, []⟩

def lookup (request : Request) : Option (ℚ × CachedValue α) :=
  if request.forceRefresh then none
  else
    match s.cache with
    | none => none
    | some (stored, v) =>
      let age := s.now - stored
      if age < request.ttl then some (stored, { v with status := .FRESH, ageMs := ⌊age * 1000⌋ }) else none

def settle (i : Nat) (c : Caller α) (point : Point α) : Coordinator α :=
  { s with callers := s.callers.insert i { c with point } }

/-- Under the key's lock: the second look at the cache, and the refresh. -/
def enter (i : Nat) (c : Caller α) : Coordinator α :=
  match s.lookup c.request with
  | some (stored, v) => s.settle i c (.returned (.cache stored) v s.now)
  | none =>
    let future := s.refreshes
    { s with
      lock := some i
      inFlight := some future
      futures := s.futures.insert future .pending
      refreshes := future + 1
      callers := s.callers.insert i { c with point := .fetching future 0 s.cache } }

def arrive (request : Request) : Coordinator α :=
  let i := s.arrivals
  let s := { s with arrivals := i + 1 }
  match s.lookup request with
  | some (stored, v) => s.settle i ⟨request, s.now, .locking, false⟩ (.returned (.cache stored) v s.now)
  | none =>
    match s.inFlight with
    | some future => s.settle i ⟨request, s.now, .locking, false⟩ (.joined future)
    | none =>
      if s.lock.isNone then s.enter i ⟨request, s.now, .locking, false⟩
      else s.settle i ⟨request, s.now, .locking, false⟩ .locking

def resolve (future : Nat) (v : CachedValue α) : Coordinator α :=
  match s.futures.get? future with
  | some .pending => { s with futures := s.futures.insert future (.result v) }
  | _ => s

/-- The end of a refresh, by whatever way: its entry is removed and the lock released. -/
def leave : Coordinator α := { s with lock := none, inFlight := none }

/-- What a refresh falls back to when its last attempt failed. -/
def fallback (request : Request) (cachedEntry : Option (ℚ × CachedValue α)) (wallClock : Int) :
    CachedValue α :=
  match cachedEntry with
  | some (stored, last) => { last with status := .DEGRADED, ageMs := ⌊(s.now - stored) * 1000⌋ }
  | none =>
    { data := none, updatedAt := wallClock, source := request.sourceName, status := .UNAVAILABLE
      derivedFrom := request.derivedFrom }

def finish (i : Nat) (c : Caller α) (future : Nat) (v : CachedValue α) : Coordinator α :=
  ((s.resolve future v).leave).settle i c (.returned .computed v s.now)

def fetched (i : Nat) (c : Caller α) (wallClock : Int) (outcome : Outcome α) : Coordinator α :=
  match c.point with
  | .fetching future attempt cachedEntry =>
    match outcome with
    | .ok data =>
      let v := { data := some data, updatedAt := wallClock, source := c.request.sourceName
                 status := .FRESH, derivedFrom := c.request.derivedFrom }
      { s with
        cache := some (s.now, v)
        successes := s.successes ++ [(s.now, s.arrivals)] }.finish i c future v
    | .error =>
      if attempt + 1 ≤ c.request.maxRetries then s.settle i c (.sleeping future (attempt + 1) cachedEntry)
      else s.finish i c future (s.fallback c.request cachedEntry wallClock)
    | .cancelled => s.leave.settle i { c with cancelled := true } .raised
  | _ => s

def cancelFuture (future : Nat) : Coordinator α :=
  match s.futures.get? future with
  | some .pending => { s with futures := s.futures.insert future .cancelled }
  | _ => s

def cancel (i : Nat) (c : Caller α) : Coordinator α :=
  match c.point with
  | .joined future => (s.cancelFuture future).settle i { c with cancelled := true } .raised
  | .locking => s.settle i { c with cancelled := true } .raised
  | .fetching .. | .sleeping .. => s.leave.settle i { c with cancelled := true } .raised
  | .returned .. | .raised => s

def resume (i : Nat) (c : Caller α) : Coordinator α :=
  match c.point with
  | .joined future =>
    match s.futures.get? future with
    | some (.result v) => s.settle i c (.returned .joined v s.now)
    | some .cancelled => s.settle i c .raised
    | _ => s
  | _ => s

def acquire (i : Nat) (c : Caller α) : Coordinator α :=
  match c.point, s.lock with
  | .locking, none => s.enter i c
  | _, _ => s

def slept (i : Nat) (c : Caller α) : Coordinator α :=
  match c.point with
  | .sleeping future attempt cachedEntry => s.settle i c (.fetching future attempt cachedEntry)
  | _ => s

def withCaller (i : Nat) (f : Nat → Caller α → Coordinator α) : Coordinator α :=
  match s.callers.get? i with
  | some c => f i c
  | none => s

def step : Event α → Coordinator α
  | .tick time => { s with now := max s.now time }
  | .arrive request => s.arrive request
  | .acquire i => s.withCaller i s.acquire
  | .fetched i wallClock outcome => s.withCaller i fun i c => s.fetched i c wallClock outcome
  | .slept i => s.withCaller i s.slept
  | .resume i => s.withCaller i s.resume
  | .cancel i => s.withCaller i s.cancel

end Coordinator
end Droid.Market
