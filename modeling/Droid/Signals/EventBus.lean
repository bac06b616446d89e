import Droid.Lib.Run
import Mathlib.Logic.Function.Basic

/-! The in-memory signal event bus: its handlers, the three delivery paths on an event loop, and the failure log. -/
namespace Droid.Signals.EventBus
open Lib

inductive SignalEventType where
  | REGISTERED | TRANSITIONED | BREAKEVEN_ACTIVATED | EXPIRED | DELETED
  deriving DecidableEq, Repr

def SignalEventType.value : SignalEventType → String
  | .REGISTERED => "signal.registered"
  | .TRANSITIONED => "signal.transitioned"
  | .BREAKEVEN_ACTIVATED => "signal.breakeven_activated"
  | .EXPIRED => "signal.expired"
  | .DELETED => "signal.deleted"

/-- The fields of an event object that the bus reads; the number it writes is in the state. -/
structure SignalEvent where
  eventId : String
  eventType : SignalEventType
  signalId : String

/-- Event objects `ε`, handlers `η`, and what the bus asks of them. -/
structure Wiring (ε η : Type) where
  event : ε → SignalEvent
  isCoroutineFunction : η → Bool
  handlerName : η → String

def Wiring.key {ε η : Type} (env : Wiring ε η) (e : ε) : String := (env.event e).eventType.value

structure FailureRecord where
  eventId : String
  eventType : String
  signalId : String
  handler : String
  error : String
  deriving DecidableEq, Repr

def MAX_FAILURE_LOG_ENTRIES : Nat := 500

structure SignalEventBus (η : Type) where
  handlers : String → List η := fun _ => []
  failureLog : List FailureRecord := []
  seq : Nat := 0
  dropCount : Nat := 0

namespace SignalEventBus
variable {η : Type} [DecidableEq η]

def subscribe (b : SignalEventBus η) (key : String) (handler : η) : SignalEventBus η :=
  if handler ∈ b.handlers key then b
  else { b with handlers := Function.update b.handlers key (b.handlers key ++ [handler]) }

def unsubscribe (b : SignalEventBus η) (key : String) (handler : η) : SignalEventBus η :=
  if handler ∈ b.handlers key then
    { b with handlers := Function.update b.handlers key ((b.handlers key).erase handler) }
  else b

def recordFailure (b : SignalEventBus η) (record : FailureRecord) : SignalEventBus η :=
  let b :=
    if MAX_FAILURE_LOG_ENTRIES ≤ b.failureLog.length then
      { b with failureLog := b.failureLog.tail, dropCount := b.dropCount + 1 }
    else b
  { b with failureLog := b.failureLog ++ [record] }

end SignalEventBus

/-! ### Publications on an event loop -/

/-- Where a publication stands: a task not started, before the next handler, in a handler, or cancelled with its loop. -/
inductive Stage (η : Type) where
  | deferred
  | calling (next : List η)
  | running (handler : η) (next : List η)
  | cancelled
  deriving DecidableEq

/-- One call of `publish` or `publish_sync`; `awaited` where `publish` itself delivers, which awaits coroutines. -/
structure Publication (ε η : Type) where
  event : ε
  subscribed : List η
  awaited : Bool
  stage : Stage η
  received : List (η × Nat) := []

namespace Publication
variable {ε η : Type}

def isDeferred (d : Publication ε η) : Bool :=
  match d.stage with
  | .deferred => true
  | _ => false

def isFinished (d : Publication ε η) : Bool :=
  match d.stage with
  | .calling [] => true
  | _ => false

end Publication

/-- The running loop of the thread; `own i` is the one `asyncio.run` makes for publication `i`. -/
inductive EventLoop where
  | absent
  | outer
  | own (i : Nat)
  deriving DecidableEq

structure World (ε η : Type) where
  bus : SignalEventBus η := {}
  loop : EventLoop := .absent
  seqOf : ε → Nat := fun _ => 0
  publications : List (Publication ε η) := []
  failures : List (ε × η × String) := []

inductive Action (ε η : Type) where
  | subscribe (key : String) (handler : η)
  | unsubscribe (key : String) (handler : η)
  | enterLoop
  | endLoop
  | publish (e : ε)
  | publishSync (e : ε)
  /-- The loop starts the first task it has not started. -/
  | start
  /-- Publication `i` calls its next handler, which returns a coroutine or runs at once. -/
  | call (i : Nat) (coroutine : Bool)
  /-- The handler that publication `i` is in ends, with an exception or without. -/
  | settle (i : Nat) (error : Option String)

namespace World
variable {ε η : Type} [DecidableEq ε] [DecidableEq η] (env : Wiring ε η)

def assignSeq (w : World ε η) (e : ε) : World ε η :=
  let bus := { w.bus with seq := w.bus.seq + 1 }
  { w with bus, seqOf := Function.update w.seqOf e bus.seq }

/-- A new publication, with the handlers subscribed when it is made. -/
def made (w : World ε η) (e : ε) (awaited : Bool) (stage : Stage η) : Publication ε η :=
  { event := e, subscribed := w.bus.handlers (env.key e), awaited, stage }

def push (w : World ε η) (e : ε) (awaited : Bool) (stage : Stage η) : World ε η :=
  { w with publications := w.publications ++ [w.made env e awaited stage] }

def publish (w : World ε η) (e : ε) : World ε η :=
  let w := w.assignSeq e
  w.push env e true (.calling (w.bus.handlers (env.key e)))

/-- In a running loop a task is made; without one the handlers are called here, or in a loop of their own if one of
them is a coroutine function. -/
def publishSync (w : World ε η) (e : ε) : World ε η :=
  let w := w.assignSeq e
  match w.loop with
  | .absent =>
    let handlers := w.bus.handlers (env.key e)
    if handlers.any env.isCoroutineFunction then
      publish env { w with loop := .own w.publications.length } e
    else w.push env e false (.calling handlers)
  | _ => w.push env e true .deferred

/-- The tasks not started, from the first of them on. -/
def pending (w : World ε η) : List (Publication ε η) := w.publications.dropWhile fun d => !d.isDeferred

/-- `publish` in a task of its own: the number is assigned again and the handlers are read now. -/
def start (w : World ε η) : World ε η :=
  match w.pending with
  | [] => w
  | d :: rest =>
    let w' := w.assignSeq d.event
    let started := { d with stage := .calling (w'.bus.handlers (env.key d.event)) }
    { w' with publications := w.publications.takeWhile (fun d => !d.isDeferred) ++ started :: rest }

/-- A coroutine is awaited by `publish`; the direct calls of `publish_sync` leave it. -/
def call (w : World ε η) (i : Nat) (coroutine : Bool) : World ε η :=
  match w.publications[i]? with
  | none => w
  | some d =>
    match d.stage with
    | .calling (handler :: next) =>
      let d' :=
        if !d.awaited && coroutine then { d with stage := .calling next }
        else { d with stage := .running handler next, received := d.received ++ [(handler, w.seqOf d.event)] }
      { w with publications := w.publications.set i d' }
    | _ => w

def failure : ε × η × String → FailureRecord
  | (e, handler, error) =>
    { eventId := (env.event e).eventId, eventType := env.key e, signalId := (env.event e).signalId
      handler := env.handlerName handler, error := String.ofList (error.toList.take 250) }

def settle (w : World ε η) (i : Nat) (error : Option String) : World ε η :=
  match w.publications[i]? with
  | none => w
  | some d =>
    match d.stage with
    | .running handler next =>
      let w' := { w with publications := w.publications.set i { d with stage := .calling next } }
      match error with
      | none => w'
      | some message =>
        { w' with
          bus := w.bus.recordFailure (failure env (d.event, handler, message))
          failures := w.failures ++ [(d.event, handler, message)] }
    | _ => w

/-- A loop that ends cancels the tasks it has left. -/
def cancelAll (w : World ε η) : World ε η :=
  let cancel := fun d : Publication ε η => if d.awaited && !d.isFinished then { d with stage := .cancelled } else d
  { w with loop := .absent, publications := w.publications.map cancel }

/-- `asyncio.run` ends its loop with the publication it was made for. -/
def endLoop (w : World ε η) : World ε η :=
  match w.loop with
  | .absent => w
  | .outer => w.cancelAll
  | .own i => if (w.publications[i]?).all (·.isFinished) then w.cancelAll else w

def step (w : World ε η) : Action ε η → World ε η
  | .subscribe key handler => { w with bus := w.bus.subscribe key handler }
  | .unsubscribe key handler => { w with bus := w.bus.unsubscribe key handler }
  | .enterLoop => if w.loop = .absent then { w with loop := .outer } else w
  | .endLoop => w.endLoop
  | .publish e => if w.loop = .absent then w else w.publish env e
  | .publishSync e => w.publishSync env e
  | .start => w.start env
  | .call i coroutine => w.call i coroutine
  | .settle i error => w.settle env i error

def after (actions : List (Action ε η)) : World ε η := run (step env) {} actions

/-- What the bus promises in a state. -/
structure Delivers (w : World ε η) : Prop where
  once : ∀ d ∈ w.publications, d.isFinished = true → ∀ h ∈ d.subscribed, (d.received.map Prod.fst).count h = 1
  noTwice : ∀ d ∈ w.publications, (d.received.map Prod.fst).Nodup
  kept : ∀ d ∈ w.publications, d.stage ≠ .cancelled
  unique : w.publications.Pairwise fun d d' => w.seqOf d.event ≠ w.seqOf d'.event
  seen : ∀ d ∈ w.publications, ∀ c ∈ d.received, c.2 = w.seqOf d.event
  ordered : w.publications.Pairwise fun d d' => d'.isDeferred = false →
    d.isDeferred = false ∧ w.seqOf d.event < w.seqOf d'.event
  logged : w.bus.failureLog = (w.failures.map (failure env)).drop (w.failures.length - MAX_FAILURE_LOG_ENTRIES)
  counted : w.bus.dropCount = w.failures.length - MAX_FAILURE_LOG_ENTRIES

/-- The steps that stay clear of the defects: an event is published once, `publish` does not overtake a task that has
not started, a task finds the handlers it was made for, no direct call returns a coroutine, and a loop ends with nothing
unfinished. -/
def Orderly (w : World ε η) : Action ε η → Prop
  | .publish e => (∀ d ∈ w.publications, d.event ≠ e) ∧ ∀ d ∈ w.publications, d.isDeferred = false
  | .publishSync e => ∀ d ∈ w.publications, d.event ≠ e
  | .start => ∀ d ∈ w.pending.head?, ∀ h ∈ d.subscribed, h ∈ w.bus.handlers (env.key d.event)
  | .call i coroutine => ∀ d ∈ w.publications[i]?, d.awaited = false → coroutine = false
  | .endLoop => ∀ d ∈ w.publications, d.awaited = true → d.isFinished = true
  | _ => True

end World
end Droid.Signals.EventBus
