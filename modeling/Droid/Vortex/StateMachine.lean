import Droid.Vortex.Engine

/-! The lifecycle of a scalp candidate: the state machine, and all that one step of it can do. -/
namespace Droid.Vortex.StateMachine
open Lib

inductive CompressionZone where
  | UNCOMPRESSED | WATCH | ARMED | EXTREME
  deriving DecidableEq, Repr

inductive EventType where
  | CONTINUATION | ABSORPTION | VACUUM_TRAP
  deriving DecidableEq, Repr

inductive VortexState where
  | IDLE | COMPRESSION | ARMED | IGNITION | CLASSIFICATION | CONTINUATION | ABSORPTION | TRAP | CONFIRMATION
  | PRE_TRADE_VALIDATION | EXECUTABLE | ACTIVE | EXIT | COOLDOWN
  deriving DecidableEq, Repr

/-- An event, with the price of the level it interacted with. -/
structure ClassifiedEvent where
  eventType : EventType
  direction : Int
  confidence : ℚ
  interactedLevel : ℚ

structure ConfirmationResult where
  isConfirmed : Bool
  confirmationMechanism : Option String := none

structure FSMTransitionLog where
  fromState : VortexState
  toState : VortexState
  timestampMs : Int
  reason : String

/-- A snapshot and the candles up to it, with the answers of the classifier and of the confirmation engine to them. -/
structure Input where
  timestampMs : Int
  zone : CompressionZone
  isVacuumDetected : Bool
  rangeExpansion : ℚ
  candles1m : List Candle
  classified : Option ClassifiedEvent
  evaluate : ClassifiedEvent → Candle → ConfirmationResult

structure Timeouts where
  armedTimeoutBars : Int := 15
  confirmationTimeoutBars : Int := 3
  activeTimeoutBars : Int := 10

structure VortexSnapFSM where
  state : VortexState := .IDLE
  currentEvent : Option ClassifiedEvent := none
  triggerCandle : Option Candle := none
  entryPrice : Option ℚ := none
  stateEnterBarCount : Nat := 0
  transitionHistory : List FSMTransitionLog := []

def EventType.state : EventType → VortexState
  | .CONTINUATION => .CONTINUATION
  | .ABSORPTION => .ABSORPTION
  | .VACUUM_TRAP => .TRAP

def EventType.reason : EventType → String
  | .CONTINUATION => "Classified as CONTINUATION snap"
  | .ABSORPTION => "Classified as ABSORPTION snap"
  | .VACUUM_TRAP => "Classified as VACUUM_TRAP snap"

namespace VortexSnapFSM

def transitionTo (m : VortexSnapFSM) (newState : VortexState) (timestampMs : Int) (reason : String) : VortexSnapFSM :=
  let log := { fromState := m.state, toState := newState, timestampMs, reason }
  { m with transitionHistory := m.transitionHistory ++ [log], state := newState, stateEnterBarCount := 0 }

/-- The step of a machine with its bar counted, on a current candle. -/
def advance (t : Timeouts) (m : VortexSnapFSM) (input : Input) (currentCandle : Candle) : VortexSnapFSM :=
  let ts := input.timestampMs
  match m.state with
  | .IDLE =>
    match input.zone with
    | .WATCH => m.transitionTo .COMPRESSION ts "Compression score entered WATCH zone"
    | .ARMED | .EXTREME => m.transitionTo .ARMED ts "Compression score entered ARMED/EXTREME zone"
    | .UNCOMPRESSED => m
  | .COMPRESSION =>
    match input.zone with
    | .ARMED | .EXTREME => m.transitionTo .ARMED ts "Compression upgraded to ARMED"
    | .UNCOMPRESSED => m.transitionTo .IDLE ts "Compression dissolved without arming"
    | .WATCH => m
  | .ARMED =>
    if input.isVacuumDetected = true ∨ 3 / 2 ≤ input.rangeExpansion then
      m.transitionTo .IGNITION ts "Liquidity vacuum ignition detected"
    else if input.zone = .UNCOMPRESSED then m.transitionTo .IDLE ts "Armed state lost compression"
    else if t.armedTimeoutBars < m.stateEnterBarCount then m.transitionTo .IDLE ts "Armed state timed out"
    else m
  | .IGNITION =>
    match input.classified with
    | some event =>
      { m with currentEvent := some event, triggerCandle := some currentCandle }.transitionTo event.eventType.state ts
        event.eventType.reason
    | none => m.transitionTo .IDLE ts "Ignition without valid event classification"
  | .CONTINUATION | .ABSORPTION | .TRAP => m.transitionTo .CONFIRMATION ts "Awaiting event confirmation"
  | .CONFIRMATION =>
    match m.currentEvent, m.triggerCandle with
    | some event, some trigger =>
      let conf := input.evaluate event trigger
      if conf.isConfirmed = true then
        m.transitionTo .PRE_TRADE_VALIDATION ts ("Confirmed via " ++ conf.confirmationMechanism.getD "None")
      else if t.confirmationTimeoutBars ≤ m.stateEnterBarCount then
        m.transitionTo .COOLDOWN ts "Confirmation timed out"
      else m
    | _, _ => m.transitionTo .IDLE ts "Missing trigger context in confirmation"
  | .PRE_TRADE_VALIDATION => m.transitionTo .EXECUTABLE ts "Pre-trade risk and data gates passed"
  | .EXECUTABLE => { m with entryPrice := some currentCandle.close }.transitionTo .ACTIVE ts "Order placed / filled"
  | .ACTIVE =>
    if t.activeTimeoutBars ≤ m.stateEnterBarCount then
      m.transitionTo .EXIT ts "Trade reached maximum holding horizon"
    else m
  | .EXIT => m.transitionTo .COOLDOWN ts "Position closed, entering cooldown"
  | .COOLDOWN =>
    if 2 ≤ m.stateEnterBarCount then
      { m with currentEvent := none, triggerCandle := none, entryPrice := none }.transitionTo .IDLE ts
        "Cooldown completed"
    else m
  | .CLASSIFICATION => m

/-- `step`; without a candle it raises, with the bar counted. -/
def step (t : Timeouts) (m : VortexSnapFSM) (input : Input) : VortexSnapFSM :=
  let m := { m with stateEnterBarCount := m.stateEnterBarCount + 1 }
  match input.candles1m.getLast? with
  | none => m
  | some currentCandle => m.advance t input currentCandle

/-! ### What a step can do -/

/-- The machine stays in its state, within the timeout of it. -/
def Waits (t : Timeouts) (m : VortexSnapFSM) : Prop :=
  match m.state with
  | .IDLE | .COMPRESSION | .CLASSIFICATION => True
  | .ARMED => m.stateEnterBarCount ≤ t.armedTimeoutBars
  | .CONFIRMATION => m.stateEnterBarCount < t.confirmationTimeoutBars
  | .ACTIVE => m.stateEnterBarCount < t.activeTimeoutBars
  | .COOLDOWN => m.stateEnterBarCount < 2
  | _ => False

/-- The context that a transition leaves. -/
structure Context where
  event : Option ClassifiedEvent
  trigger : Option Candle
  entry : Option ℚ

def context (m : VortexSnapFSM) : Context := ⟨m.currentEvent, m.triggerCandle, m.entryPrice⟩

inductive Moves (m : VortexSnapFSM) (input : Input) (candle : Candle) : VortexState → Context → Prop
  | compress (h : m.state = .IDLE) : Moves m input candle .COMPRESSION m.context
  | arm (h : m.state = .IDLE ∨ m.state = .COMPRESSION) : Moves m input candle .ARMED m.context
  | dissolve (h : m.state = .COMPRESSION ∨ m.state = .ARMED ∨ m.state = .IGNITION) :
    Moves m input candle .IDLE m.context
  | ignite (h : m.state = .ARMED) : Moves m input candle .IGNITION m.context
  | classify (h : m.state = .IGNITION) (event : ClassifiedEvent) (hevent : input.classified = some event) :
    Moves m input candle event.eventType.state ⟨some event, some candle, m.entryPrice⟩
  | await (h : m.state = .CONTINUATION ∨ m.state = .ABSORPTION ∨ m.state = .TRAP) :
    Moves m input candle .CONFIRMATION m.context
  | confirm (h : m.state = .CONFIRMATION) (event : ClassifiedEvent) (trigger : Candle)
    (hevent : m.currentEvent = some event) (htrigger : m.triggerCandle = some trigger)
    (hverdict : (input.evaluate event trigger).isConfirmed = true) :
    Moves m input candle .PRE_TRADE_VALIDATION m.context
  | expire (h : m.state = .CONFIRMATION) : Moves m input candle .COOLDOWN m.context
  | abandon (h : m.state = .CONFIRMATION) (hmissing : m.currentEvent = none ∨ m.triggerCandle = none) :
    Moves m input candle .IDLE m.context
  | validate (h : m.state = .PRE_TRADE_VALIDATION) : Moves m input candle .EXECUTABLE m.context
  | fill (h : m.state = .EXECUTABLE) :
    Moves m input candle .ACTIVE ⟨m.currentEvent, m.triggerCandle, some candle.close⟩
  | exit (h : m.state = .ACTIVE) : Moves m input candle .EXIT m.context
  | close (h : m.state = .EXIT) : Moves m input candle .COOLDOWN m.context
  | finish (h : m.state = .COOLDOWN) : Moves m input candle .IDLE ⟨none, none, none⟩

/-- A machine that has moved: the log is one longer and the bars start again. -/
structure MovedTo (m m' : VortexSnapFSM) (target : VortexState) (c : Context) : Prop where
  state : m'.state = target
  context : m'.context = c
  count : m'.stateEnterBarCount = 0
  history : ∃ ts reason, m'.transitionHistory = m.transitionHistory ++ [⟨m.state, target, ts, reason⟩]

theorem movedTo_transitionTo (m : VortexSnapFSM) (target : VortexState) (ts : Int) (reason : String) :
    MovedTo m (m.transitionTo target ts reason) target m.context :=
  ⟨rfl, rfl, rfl, ts, reason, rfl⟩

theorem advance_cases (t : Timeouts) (m : VortexSnapFSM) (input : Input) (candle : Candle) :
    (m.advance t input candle = m ∧ Waits t m) ∨
      ∃ target c, Moves m input candle target c ∧ MovedTo m (m.advance t input candle) target c := by
  have hmove : ∀ {target : VortexState} {ts : Int} {reason : String}, Moves m input candle target m.context →
      ∃ target' c, Moves m input candle target' c ∧ MovedTo m (m.transitionTo target ts reason) target' c :=
    fun h => ⟨_, _, h, movedTo_transitionTo _ _ _ _⟩
  unfold advance Waits
  cases hstate : m.state with
  | IDLE =>
    dsimp only
    split
    · exact Or.inr (hmove (.compress hstate))
    · exact Or.inr (hmove (.arm (Or.inl hstate)))
    · exact Or.inr (hmove (.arm (Or.inl hstate)))
    · exact Or.inl ⟨rfl, trivial⟩
  | COMPRESSION =>
    dsimp only
    split
    · exact Or.inr (hmove (.arm (Or.inr hstate)))
    · exact Or.inr (hmove (.arm (Or.inr hstate)))
    · exact Or.inr (hmove (.dissolve (Or.inl hstate)))
    · exact Or.inl ⟨rfl, trivial⟩
  | ARMED =>
    dsimp only
    split_ifs with hvacuum hzone htimeout
    · exact Or.inr (hmove (.ignite hstate))
    · exact Or.inr (hmove (.dissolve (Or.inr (Or.inl hstate))))
    · exact Or.inr (hmove (.dissolve (Or.inr (Or.inl hstate))))
    · exact Or.inl ⟨rfl, not_lt.mp htimeout⟩
  | IGNITION =>
    dsimp only
    split
    · rename_i event hevent
      exact Or.inr ⟨_, _, .classify hstate event hevent, rfl, rfl, rfl, _, _, by rw [hstate]; rfl⟩
    · exact Or.inr (hmove (.dissolve (Or.inr (Or.inr hstate))))
  | CLASSIFICATION => exact Or.inl ⟨rfl, trivial⟩
  | CONTINUATION => exact Or.inr (hmove (.await (Or.inl hstate)))
  | ABSORPTION => exact Or.inr (hmove (.await (Or.inr (Or.inl hstate))))
  | TRAP => exact Or.inr (hmove (.await (Or.inr (Or.inr hstate))))
  | CONFIRMATION =>
    dsimp only
    split
    · rename_i event trigger hevent htrigger
      split_ifs with hverdict htimeout
      · exact Or.inr (hmove (.confirm hstate event trigger hevent htrigger hverdict))
      · exact Or.inr (hmove (.expire hstate))
      · exact Or.inl ⟨rfl, not_le.mp htimeout⟩
    · rename_i hmissing
      refine Or.inr (hmove (.abandon hstate ?_))
      cases hevent : m.currentEvent with
      | none => exact Or.inl rfl
      | some event =>
        cases htrigger : m.triggerCandle with
        | none => exact Or.inr rfl
        | some trigger => exact absurd htrigger (hmissing event trigger hevent)
  | PRE_TRADE_VALIDATION => exact Or.inr (hmove (.validate hstate))
  | EXECUTABLE => exact Or.inr ⟨_, _, .fill hstate, rfl, rfl, rfl, _, _, by rw [hstate]; rfl⟩
  | ACTIVE =>
    dsimp only
    split_ifs with htimeout
    · exact Or.inr (hmove (.exit hstate))
    · exact Or.inl ⟨rfl, not_le.mp htimeout⟩
  | EXIT => exact Or.inr (hmove (.close hstate))
  | COOLDOWN =>
    dsimp only
    split_ifs with htimeout
    · exact Or.inr ⟨_, _, .finish hstate, rfl, rfl, rfl, _, _, by rw [hstate]; rfl⟩
    · exact Or.inl ⟨rfl, not_le.mp htimeout⟩

end VortexSnapFSM
end Droid.Vortex.StateMachine
