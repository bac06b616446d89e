import Droid.Lib.Run
import Droid.Vortex.StateMachine

/-! The cycle from IDLE to IDLE: what came before each state, and how soon it ends. -/
namespace Droid.Vortex.StateMachine
open Lib VortexSnapFSM

/-! ### The transitions since the last IDLE -/

/-- A transition: the input it was made on, and the state it led to. -/
structure Visit where
  input : Input
  target : VortexState

/-- The machine, with its transitions since it was last in IDLE. -/
structure Observed where
  fsm : VortexSnapFSM := {}
  cycle : List Visit := []

def observe (t : Timeouts) (o : Observed) (input : Input) : Observed :=
  let fsm := o.fsm.step t input
  { fsm
    cycle :=
      if fsm.state = .IDLE then [] else if fsm.state = o.fsm.state then o.cycle else o.cycle ++ [⟨input, fsm.state⟩] }

def after (t : Timeouts) (inputs : List Input) : Observed := run (observe t) {} inputs

/-- One more transition, with `Q`, after those of `P`. -/
def Extends (P : List Visit → Prop) (Q : Visit → Prop) (l : List Visit) : Prop :=
  ∃ l' v, l = l' ++ [v] ∧ P l' ∧ Q v

/-- Nothing, or one transition to COMPRESSION. -/
def Lead (l : List Visit) : Prop := l = [] ∨ ∃ v, l = [v] ∧ v.target = .COMPRESSION

def Armed : List Visit → Prop := Extends Lead fun v => v.target = .ARMED

def Ignited : List Visit → Prop := Extends Armed fun v => v.target = .IGNITION

/-- The step from IGNITION, on which the classifier returned the event. -/
def Classified (e : ClassifiedEvent) (c : Candle) : List Visit → Prop :=
  Extends Ignited fun v =>
    v.input.classified = some e ∧ v.input.candles1m.getLast? = some c ∧ v.target = e.eventType.state

def Awaited (e : ClassifiedEvent) (c : Candle) : List Visit → Prop :=
  Extends (Classified e c) fun v => v.target = .CONFIRMATION

/-- The step from CONFIRMATION with a positive verdict on the event and its trigger. -/
def Confirmed (e : ClassifiedEvent) (c : Candle) : List Visit → Prop :=
  Extends (Awaited e c) fun v => (v.input.evaluate e c).isConfirmed = true ∧ v.target = .PRE_TRADE_VALIDATION

def Validated (e : ClassifiedEvent) (c : Candle) : List Visit → Prop :=
  Extends (Confirmed e c) fun v => v.target = .EXECUTABLE

def Filled (e : ClassifiedEvent) (c : Candle) : List Visit → Prop :=
  Extends (Validated e c) fun v => v.target = .ACTIVE

/-! ### The transition history -/

/-- Transitions that start in a state, each where the one before ended, and end in a state. -/
def Connected (s : VortexState) : List FSMTransitionLog → VortexState → Prop
  | [], t => s = t
  | log :: logs, t => log.fromState = s ∧ Connected log.toState logs t

theorem Connected.concat {s t : VortexState} {logs : List FSMTransitionLog} (h : Connected s logs t)
    {log : FSMTransitionLog} (hlog : log.fromState = t) : Connected s (logs ++ [log]) log.toState := by
  induction logs generalizing s with
  | nil => exact ⟨hlog.trans h.symm, rfl⟩
  | cons first logs ih => exact ⟨h.1, ih h.2⟩

/-! ### The return to IDLE -/

def confirmationBound (t : Timeouts) : Nat := max 1 t.confirmationTimeoutBars.toNat

def activeBound (t : Timeouts) : Nat := max 1 t.activeTimeoutBars.toNat

/-- The steps that are left at most until IDLE. -/
def remaining (t : Timeouts) (m : VortexSnapFSM) : Nat :=
  match m.state with
  | .IDLE | .COMPRESSION | .CLASSIFICATION => 0
  | .COOLDOWN => max 1 (2 - m.stateEnterBarCount)
  | .EXIT => 3
  | .ACTIVE => max 1 (t.activeTimeoutBars.toNat - m.stateEnterBarCount) + 3
  | .EXECUTABLE => activeBound t + 4
  | .PRE_TRADE_VALIDATION => activeBound t + 5
  | .CONFIRMATION => max 1 (t.confirmationTimeoutBars.toNat - m.stateEnterBarCount) + activeBound t + 5
  | .CONTINUATION | .ABSORPTION | .TRAP => confirmationBound t + activeBound t + 6
  | .IGNITION => confirmationBound t + activeBound t + 7
  | .ARMED => max 1 ((t.armedTimeoutBars + 1).toNat - m.stateEnterBarCount) + confirmationBound t + activeBound t + 7

/-- From every state of a cycle. -/
def returnBound (t : Timeouts) : Nat :=
  max 1 (t.armedTimeoutBars + 1).toNat + confirmationBound t + activeBound t + 7

/-- In a cycle, past COMPRESSION. -/
def Running (m : VortexSnapFSM) : Prop := m.state ≠ .IDLE ∧ m.state ≠ .COMPRESSION ∧ m.state ≠ .CLASSIFICATION

theorem remaining_le (t : Timeouts) (m : VortexSnapFSM) : remaining t m ≤ returnBound t := by
  unfold remaining returnBound activeBound confirmationBound
  split <;> omega

/-- The inputs on which a step does not raise. -/
def taken (inputs : List Input) : Nat := inputs.countP fun input => !input.candles1m.isEmpty

theorem remaining_tick (t : Timeouts) (m : VortexSnapFSM) :
    remaining t { m with stateEnterBarCount := m.stateEnterBarCount + 1 } ≤ remaining t m := by
  unfold remaining
  cases hstate : m.state <;> dsimp only <;> omega

theorem remaining_waits {t : Timeouts} {m : VortexSnapFSM} (hrunning : Running m)
    (h : Waits t { m with stateEnterBarCount := m.stateEnterBarCount + 1 }) :
    remaining t { m with stateEnterBarCount := m.stateEnterBarCount + 1 } < remaining t m := by
  obtain ⟨hidle, hcompression, hclassification⟩ := hrunning
  unfold Waits at h
  unfold remaining
  cases hstate : m.state <;> simp only [hstate] at h hidle hcompression hclassification ⊢ <;> first | omega | trivial

theorem remaining_moves {t : Timeouts} {m m' : VortexSnapFSM} {input : Input} {candle : Candle} {target : VortexState}
    {c : Context} (hrunning : Running m) (h : Moves m input candle target c) (hmoved : MovedTo m m' target c) :
    target = .IDLE ∨ Running m' ∧ remaining t m' < remaining t m := by
  obtain ⟨hidle, hcompression, hclassification⟩ := hrunning
  have hstate := hmoved.state
  have hcount := hmoved.count
  cases h with
  | compress h => exact absurd h hidle
  | arm h => exact (h.elim hidle hcompression).elim
  | dissolve h => exact Or.inl rfl
  | ignite h =>
    right
    simp [Running, remaining, hstate, h, activeBound, confirmationBound]
  | classify h event hevent =>
    right
    cases htype : event.eventType <;>
      simp [Running, remaining, hstate, h, htype, EventType.state]
  | await h =>
    right
    rcases h with h | h | h <;> simp [Running, remaining, hstate, hcount, h, confirmationBound]
  | confirm h event trigger hevent htrigger hverdict =>
    right
    simp [Running, remaining, hstate, h]
  | expire h =>
    right
    simp [Running, remaining, hstate, hcount, h]
  | abandon h hmissing => exact Or.inl rfl
  | validate h =>
    right
    simp [Running, remaining, hstate, h]
  | fill h =>
    right
    simp [Running, remaining, hstate, hcount, h, activeBound]
  | exit h =>
    right
    simp [Running, remaining, hstate, h]
  | close h =>
    right
    simp [Running, remaining, hstate, hcount, h]
  | finish h => exact Or.inl rfl

theorem returns {t : Timeouts} {m : VortexSnapFSM} (hrunning : Running m) {inputs : List Input}
    (henough : remaining t m ≤ taken inputs) : ∃ p, p <+: inputs ∧ (run (step t) m p).state = .IDLE := by
  induction inputs generalizing m with
  | nil =>
    -- a running machine has a step to go
    exfalso
    obtain ⟨hidle, hcompression, hclassification⟩ := hrunning
    simp only [taken, List.countP_nil, Nat.le_zero] at henough
    unfold remaining at henough
    cases hstate : m.state <;> simp only [hstate] at henough hidle hcompression hclassification <;>
      first | omega | trivial
  | cons input inputs ih =>
    cases hlast : input.candles1m.getLast? with
    | none =>
      have hstep : m.step t input = { m with stateEnterBarCount := m.stateEnterBarCount + 1 } := by
        rw [step, hlast]
      have hempty : input.candles1m = [] := List.getLast?_eq_none_iff.mp hlast
      have hsame : taken (input :: inputs) = taken inputs := by simp [taken, hempty]
      have hrunning' : Running (m.step t input) := by
        rw [hstep]
        exact hrunning
      have hless : remaining t (m.step t input) ≤ taken inputs := by
        rw [hstep]
        exact (remaining_tick t m).trans (henough.trans hsame.le)
      obtain ⟨p, hp, hidle⟩ := ih hrunning' hless
      exact ⟨input :: p, List.cons_prefix_cons.mpr ⟨rfl, hp⟩, hidle⟩
    | some candle =>
      obtain ⟨counted, hcounted⟩ : ∃ counted, counted = { m with stateEnterBarCount := m.stateEnterBarCount + 1 } := ⟨_, rfl⟩
      have hstep : m.step t input = counted.advance t input candle := by
        rw [step, hlast, hcounted]
      have hne : input.candles1m ≠ [] := by
        intro hempty
        rw [hempty] at hlast
        cases hlast
      have hmore : taken (input :: inputs) = taken inputs + 1 := by simp [taken, hne]
      have hcountedRunning : Running counted := hcounted ▸ hrunning
      have htick : remaining t counted ≤ remaining t m := hcounted ▸ remaining_tick t m
      have hnext : (m.step t input).state = .IDLE ∨
          Running (m.step t input) ∧ remaining t (m.step t input) < remaining t m := by
        rw [hstep]
        rcases advance_cases t counted input candle with ⟨hstay, hwaits⟩ | ⟨target, c, hmoves, hmoved⟩
        · rw [hstay]
          exact Or.inr ⟨hcountedRunning, hcounted ▸ remaining_waits hrunning (hcounted ▸ hwaits)⟩
        · rw [hmoved.state]
          rcases remaining_moves (t := t) hcountedRunning hmoves hmoved with hidle | ⟨hrun, hless⟩
          · exact Or.inl hidle
          · exact Or.inr ⟨hrun, hless.trans_le htick⟩
      rcases hnext with hidle | ⟨hrun, hless⟩
      · exact ⟨[input], List.cons_prefix_cons.mpr ⟨rfl, List.nil_prefix⟩, hidle⟩
      · obtain ⟨p, hp, hidle⟩ := ih hrun (by omega)
        exact ⟨input :: p, List.cons_prefix_cons.mpr ⟨rfl, hp⟩, hidle⟩

/-! ### The invariant -/

/-- The state of the machine against its cycle, its context and its history. -/
def Stands (o : Observed) : Prop :=
  match o.fsm.state with
  | .IDLE => o.cycle = [] ∧ o.fsm.entryPrice = none
  | .COMPRESSION => (∃ v, o.cycle = [v] ∧ v.target = .COMPRESSION) ∧ o.fsm.entryPrice = none
  | .ARMED => Armed o.cycle ∧ o.fsm.entryPrice = none
  | .IGNITION => Ignited o.cycle ∧ o.fsm.entryPrice = none
  | .CLASSIFICATION => False
  | .CONTINUATION | .ABSORPTION | .TRAP =>
    ∃ e c, Classified e c o.cycle ∧ o.fsm.context = ⟨some e, some c, none⟩
  | .CONFIRMATION => ∃ e c, Awaited e c o.cycle ∧ o.fsm.context = ⟨some e, some c, none⟩
  | .PRE_TRADE_VALIDATION => ∃ e c, Confirmed e c o.cycle ∧ o.fsm.entryPrice = none
  | .EXECUTABLE => ∃ e c, Validated e c o.cycle ∧ o.fsm.entryPrice = none
  | .ACTIVE => ∃ e c, Filled e c o.cycle ∧ o.fsm.entryPrice.isSome = true
  | .EXIT => o.fsm.entryPrice.isSome = true
  | .COOLDOWN =>
    ∃ log, o.fsm.transitionHistory.getLast? = some log ∧
      (log.fromState = .EXIT ∧ o.fsm.entryPrice.isSome = true ∨ log.fromState ≠ .EXIT ∧ o.fsm.entryPrice = none)

structure Sound (o : Observed) : Prop where
  connected : Connected .IDLE o.fsm.transitionHistory o.fsm.state
  stands : Stands o

theorem Stands.tick {o : Observed} (h : Stands o) :
    Stands { o with fsm := { o.fsm with stateEnterBarCount := o.fsm.stateEnterBarCount + 1 } } := h

theorem stands_move {o o' : Observed} {input : Input} {candle : Candle} {target : VortexState} {c : Context}
    (h : Stands o) (hlast : input.candles1m.getLast? = some candle) (hmoves : Moves o.fsm input candle target c)
    (hmoved : MovedTo o.fsm o'.fsm target c)
    (hcycle : o'.cycle = if target = .IDLE then [] else o.cycle ++ [⟨input, target⟩]) : Stands o' := by
  have hstate := hmoved.state
  have hcontext := hmoved.context
  have hentry : o'.fsm.entryPrice = c.entry := congrArg Context.entry hcontext
  obtain ⟨ts, reason, hhistory⟩ := hmoved.history
  have hlog : o'.fsm.transitionHistory.getLast? = some ⟨o.fsm.state, target, ts, reason⟩ := by
    rw [hhistory, List.getLast?_concat]
  rw [Stands, hstate]
  cases hmoves with
  | compress hfrom =>
    rw [Stands, hfrom] at h
    rw [if_neg (by decide), h.1] at hcycle
    exact ⟨⟨_, hcycle, rfl⟩, hentry.trans h.2⟩
  | arm hfrom =>
    rw [if_neg (by decide)] at hcycle
    rcases hfrom with hfrom | hfrom
    · rw [Stands, hfrom] at h
      exact ⟨⟨_, _, hcycle, Or.inl h.1, rfl⟩, hentry.trans h.2⟩
    · rw [Stands, hfrom] at h
      exact ⟨⟨_, _, hcycle, Or.inr h.1, rfl⟩, hentry.trans h.2⟩
  | dissolve hfrom =>
    rw [if_pos rfl] at hcycle
    rcases hfrom with hfrom | hfrom | hfrom
    · rw [Stands, hfrom] at h
      exact ⟨hcycle, hentry.trans h.2⟩
    · rw [Stands, hfrom] at h
      exact ⟨hcycle, hentry.trans h.2⟩
    · rw [Stands, hfrom] at h
      exact ⟨hcycle, hentry.trans h.2⟩
  | ignite hfrom =>
    rw [Stands, hfrom] at h
    rw [if_neg (by decide)] at hcycle
    exact ⟨⟨_, _, hcycle, h.1, rfl⟩, hentry.trans h.2⟩
  | classify hfrom event hevent =>
    rw [Stands, hfrom] at h
    have hne : event.eventType.state ≠ .IDLE := by
      cases event.eventType <;> decide
    rw [if_neg hne] at hcycle
    have hclassified : Classified event candle o'.cycle := ⟨_, _, hcycle, h.1, hevent, hlast, rfl⟩
    rw [h.2] at hcontext
    cases event.eventType <;> exact ⟨event, candle, hclassified, hcontext⟩
  | await hfrom =>
    rw [if_neg (by decide)] at hcycle
    obtain ⟨e, c, hclassified, hheld⟩ : ∃ e c, Classified e c o.cycle ∧ o.fsm.context = ⟨some e, some c, none⟩ := by
      rcases hfrom with hfrom | hfrom | hfrom
      · rw [Stands, hfrom] at h
        exact h
      · rw [Stands, hfrom] at h
        exact h
      · rw [Stands, hfrom] at h
        exact h
    exact ⟨e, c, ⟨_, _, hcycle, hclassified, rfl⟩, hcontext.trans hheld⟩
  | confirm hfrom event trigger hevent htrigger hverdict =>
    rw [Stands, hfrom] at h
    rw [if_neg (by decide)] at hcycle
    obtain ⟨e, c, hawaited, hheld⟩ := h
    have hsame : some event = some e := hevent.symm.trans (congrArg Context.event hheld)
    have hsame' : some trigger = some c := htrigger.symm.trans (congrArg Context.trigger hheld)
    obtain rfl := Option.some.inj hsame
    obtain rfl := Option.some.inj hsame'
    exact ⟨_, _, ⟨_, _, hcycle, hawaited, hverdict, rfl⟩, hentry.trans (congrArg Context.entry hheld)⟩
  | expire hfrom =>
    rw [Stands, hfrom] at h
    obtain ⟨e, c, -, hheld⟩ := h
    refine ⟨_, hlog, Or.inr ⟨?_, hentry.trans (congrArg Context.entry hheld)⟩⟩
    rw [hfrom]
    intro hexit
    cases hexit
  | abandon hfrom hmissing =>
    -- a machine in CONFIRMATION holds its event and its trigger
    rw [Stands, hfrom] at h
    obtain ⟨e, c, -, hheld⟩ := h
    rcases hmissing with hmissing | hmissing
    · cases hmissing.symm.trans (congrArg Context.event hheld)
    · cases hmissing.symm.trans (congrArg Context.trigger hheld)
  | validate hfrom =>
    rw [Stands, hfrom] at h
    rw [if_neg (by decide)] at hcycle
    obtain ⟨e, c, hconfirmed, hnone⟩ := h
    exact ⟨e, c, ⟨_, _, hcycle, hconfirmed, rfl⟩, hentry.trans hnone⟩
  | fill hfrom =>
    rw [Stands, hfrom] at h
    rw [if_neg (by decide)] at hcycle
    obtain ⟨e, c, hvalidated, -⟩ := h
    exact ⟨e, c, ⟨_, _, hcycle, hvalidated, rfl⟩, congrArg Option.isSome hentry⟩
  | exit hfrom =>
    rw [Stands, hfrom] at h
    obtain ⟨e, c, -, hsome⟩ := h
    exact (congrArg Option.isSome hentry).trans hsome
  | close hfrom =>
    rw [Stands, hfrom] at h
    exact ⟨_, hlog, Or.inl ⟨hfrom, (congrArg Option.isSome hentry).trans h⟩⟩
  | finish hfrom =>
    rw [if_pos rfl] at hcycle
    exact ⟨hcycle, hentry⟩

theorem VortexSnapFSM.Moves.target_ne {m : VortexSnapFSM} {input : Input} {candle : Candle} {target : VortexState} {c : Context}
    (h : Moves m input candle target c) : target ≠ m.state := by
  cases h with
  | classify hfrom event hevent => rw [hfrom]; cases event.eventType <;> decide
  | arm hfrom => rcases hfrom with hfrom | hfrom <;> rw [hfrom] <;> decide
  | dissolve hfrom => rcases hfrom with hfrom | hfrom | hfrom <;> rw [hfrom] <;> decide
  | await hfrom => rcases hfrom with hfrom | hfrom | hfrom <;> rw [hfrom] <;> decide
  | _ => simp_all

/-- The bar count decides no transition by itself. -/
theorem VortexSnapFSM.Moves.of_counted {m : VortexSnapFSM} {n : Nat} {input : Input} {candle : Candle} {target : VortexState}
    {c : Context} (h : Moves { m with stateEnterBarCount := n } input candle target c) :
    Moves m input candle target c := by
  cases h with
  | compress h => exact .compress h
  | arm h => exact .arm h
  | dissolve h => exact .dissolve h
  | ignite h => exact .ignite h
  | classify h event hevent => exact .classify (m := m) h event hevent
  | await h => exact .await h
  | confirm h event trigger hevent htrigger hverdict => exact .confirm h event trigger hevent htrigger hverdict
  | expire h => exact .expire h
  | abandon h hmissing => exact .abandon h hmissing
  | validate h => exact .validate h
  | fill h => exact .fill h
  | exit h => exact .exit h
  | close h => exact .close h
  | finish h => exact .finish h

theorem step_cases (t : Timeouts) (m : VortexSnapFSM) (input : Input) :
    m.step t input = { m with stateEnterBarCount := m.stateEnterBarCount + 1 } ∨
      ∃ candle target c, input.candles1m.getLast? = some candle ∧ Moves m input candle target c ∧
        MovedTo m (m.step t input) target c := by
  unfold step
  dsimp only
  split
  · exact Or.inl rfl
  · rename_i candle hlast
    rcases advance_cases t { m with stateEnterBarCount := m.stateEnterBarCount + 1 } input candle with
      ⟨hstay, -⟩ | ⟨target, c, hmoves, hmoved⟩
    · exact Or.inl hstay
    · exact Or.inr ⟨candle, target, c, hlast, Moves.of_counted hmoves, hmoved.state, hmoved.context, hmoved.count,
        hmoved.history⟩

theorem Sound.observe {t : Timeouts} {o : Observed} (h : Sound o) (input : Input) : Sound (observe t o input) := by
  rcases step_cases t o.fsm input with hstay | ⟨candle, target, c, hlast, hmoves, hmoved⟩
  · have hsame : StateMachine.observe t o input =
        { o with fsm := { o.fsm with stateEnterBarCount := o.fsm.stateEnterBarCount + 1 } } := by
      unfold StateMachine.observe
      rw [hstay]
      dsimp only
      rw [if_pos rfl]
      split_ifs with hidle
      · have hstands := h.stands
        rw [Stands, hidle] at hstands
        rw [hstands.1]
      · rfl
    rw [hsame]
    exact ⟨h.connected, h.stands.tick⟩
  · have hstate : (StateMachine.observe t o input).fsm.state = target := hmoved.state
    obtain ⟨ts, reason, hhistory⟩ := hmoved.history
    constructor
    · have hconnected : Connected .IDLE (o.fsm.transitionHistory ++ [⟨o.fsm.state, target, ts, reason⟩]) target :=
        h.connected.concat rfl
      rw [← hhistory] at hconnected
      rw [hstate]
      exact hconnected
    · refine stands_move h.stands hlast hmoves hmoved ?_
      unfold StateMachine.observe
      dsimp only
      rw [hmoved.state, if_neg (c := target = o.fsm.state) hmoves.target_ne]

theorem sound_after (t : Timeouts) (inputs : List Input) : Sound (after t inputs) :=
  run_of_always (always_of_step (fun _ input h => h.observe input) ⟨rfl, rfl, rfl⟩ inputs)

/-! ### The law -/

structure Lifecycle (t : Timeouts) (o : Observed) : Prop where
  connected : Connected .IDLE o.fsm.transitionHistory o.fsm.state
  active : o.fsm.state = .ACTIVE → ∃ e c, Filled e c o.cycle
  evaluated : o.fsm.state = .CONFIRMATION →
    ∃ e c, Awaited e c o.cycle ∧ o.fsm.currentEvent = some e ∧ o.fsm.triggerCandle = some c
  entry : o.fsm.entryPrice.isSome = true ↔ o.fsm.state = .ACTIVE ∨ o.fsm.state = .EXIT ∨
    o.fsm.state = .COOLDOWN ∧ ∃ log, o.fsm.transitionHistory.getLast? = some log ∧ log.fromState = .EXIT
  bounded : o.fsm.state ≠ .IDLE → o.fsm.state ≠ .COMPRESSION → ∀ inputs, returnBound t ≤ taken inputs →
    ∃ p, p <+: inputs ∧ (run (step t) o.fsm p).state = .IDLE

theorem Stands.entry {o : Observed} (h : Stands o) :
    o.fsm.entryPrice.isSome = true ↔ o.fsm.state = .ACTIVE ∨ o.fsm.state = .EXIT ∨
      o.fsm.state = .COOLDOWN ∧ ∃ log, o.fsm.transitionHistory.getLast? = some log ∧ log.fromState = .EXIT := by
  unfold Stands at h
  cases hstate : o.fsm.state <;> rw [hstate] at h <;> dsimp only at h
  case COOLDOWN =>
    obtain ⟨log, hlog, ⟨hexit, hsome⟩ | ⟨hother, hnone⟩⟩ := h
    · simp [hsome, hlog, hexit]
    · simp [hnone, hlog, hother]
  case ACTIVE =>
    obtain ⟨e, c, -, hsome⟩ := h
    simp [hsome]
  case EXIT => simp [h]
  case CONTINUATION | ABSORPTION | TRAP | CONFIRMATION =>
    obtain ⟨e, c, -, hheld⟩ := h
    have hnone : o.fsm.entryPrice = none := congrArg Context.entry hheld
    simp [hnone]
  case PRE_TRADE_VALIDATION | EXECUTABLE =>
    obtain ⟨e, c, -, hnone⟩ := h
    simp [hnone]
  case IDLE | COMPRESSION | ARMED | IGNITION => simp [h.2]

theorem lifecycle (t : Timeouts) (inputs : List Input) : Lifecycle t (after t inputs) := by
  obtain ⟨hconnected, hstands⟩ := sound_after t inputs
  refine ⟨hconnected, ?_, ?_, hstands.entry, ?_⟩
  · intro hstate
    rw [Stands, hstate] at hstands
    obtain ⟨e, c, hfilled, -⟩ := hstands
    exact ⟨e, c, hfilled⟩
  · intro hstate
    rw [Stands, hstate] at hstands
    obtain ⟨e, c, hawaited, hheld⟩ := hstands
    exact ⟨e, c, hawaited, congrArg Context.event hheld, congrArg Context.trigger hheld⟩
  · intro hidle hcompression later henough
    refine returns ⟨hidle, hcompression, ?_⟩ ((remaining_le t _).trans henough)
    intro hstate
    rw [Stands, hstate] at hstands
    exact hstands

end Droid.Vortex.StateMachine
