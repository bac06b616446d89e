import Droid.Algo.SignalFusion
import Droid.Lib.Run

/-! The trigger engine, and the gate at which the signal centre probes and marks it. -/
namespace Droid.Algo.Fusion
open Lib

structure TriggerConfig where
  minScore : ℚ := 50
  minConfidence : ℚ := 2 / 5
  cooldownSeconds : ℚ := 20

inductive TriggerReason where
  | marketClosed | duplicateSignalId | cooldownActive | noTradeSignal
  | scoreBelowThreshold (score minScore : ℚ)
  | confidenceBelowThreshold (confidence minConfidence : ℚ)
  | triggerApproved
  /-- The probe raised. -/
  | triggerProbeErrorContinue
  deriving DecidableEq

/-- When each signal id, and each strategy on a symbol, was marked last, in seconds. -/
structure TriggerEngine where
  recentTriggers : Dict String ℚ := Dict.empty
  lastTriggerTs : Dict String ℚ := Dict.empty

def Signal.triggerKey (signal : Signal) : String := signal.strategyId ++ ":" ++ signal.symbol

namespace TriggerEngine
variable (e : TriggerEngine)

/-- Nothing where a score or a confidence that is missing is compared. The type of the trigger is not used. -/
def shouldTrigger (marketOpen : Bool) (signalId : String) (signal : Signal) (config : TriggerConfig) (now : ℚ) :
    Option TriggerReason :=
  if !marketOpen then some .marketClosed
  else if (e.recentTriggers.get? signalId).isSome then some .duplicateSignalId
  else if (e.lastTriggerTs.get? signal.triggerKey).any fun last => now - last < config.cooldownSeconds then
    some .cooldownActive
  else if signal.direction = .noTrade then some .noTradeSignal
  else match signal.score, signal.confidence with
    | none, _ => none
    | some score, confidence =>
      if score < config.minScore then some (.scoreBelowThreshold score config.minScore)
      else confidence.map fun confidence =>
        if confidence < config.minConfidence then .confidenceBelowThreshold confidence config.minConfidence
        else .triggerApproved

/-- A call of `mark_triggered`, with its three readings of the clock. -/
structure Mark where
  signalId : String
  signal : Signal
  marked : ℚ
  stamped : ℚ
  pruned : ℚ

def markTriggered (m : Mark) : TriggerEngine where
  recentTriggers := (e.recentTriggers.insert m.signalId m.marked).filter fun _ ts => decide (m.pruned - 3600 < ts)
  lastTriggerTs := e.lastTriggerTs.insert m.signal.triggerKey m.stamped

theorem get?_recentTriggers (marks : List Mark) (signalId : String) (ts : ℚ) :
    (run markTriggered {} marks).recentTriggers.get? signalId = some ts ↔
      ∃ before m after, marks = before ++ m :: after ∧ m.signalId = signalId ∧ m.marked = ts ∧
        m.pruned - 3600 < ts ∧ ∀ later ∈ after, later.signalId ≠ signalId ∧ later.pruned - 3600 < ts := by
  -- the cell of one id: a mark of that id writes it, any other mark sweeps it
  have hcell : (run markTriggered {} marks).recentTriggers.get? signalId = marks.foldl (fun cell m =>
      (if m.signalId = signalId then some m.marked else cell).filter fun ts => decide (m.pruned - 3600 < ts)) none := by
    refine (List.foldl_hom (fun e : TriggerEngine => e.recentTriggers.get? signalId) ?_).symm
    intro e m
    simp only [markTriggered, Dict.get?_filter, Dict.get?_insert, eq_comm]
  rw [hcell, @foldl_eq_some_iff _ _ _ (fun m => if m.signalId = signalId then
    some ((some m.marked).filter fun ts => decide (m.pruned - 3600 < ts)) else none)
    (fun m ts => decide (m.pruned - 3600 < ts))]
  · constructor
    · rintro ⟨before, m, after, rfl, hm, hafter⟩
      split at hm
      · rename_i hid
        obtain ⟨hmarked, hpruned⟩ := Option.filter_eq_some_iff.mp (Option.some.inj hm)
        cases hmarked
        exact ⟨before, m, after, rfl, hid, rfl, of_decide_eq_true hpruned,
          fun later hlater => by simpa using hafter later hlater⟩
      · cases hm
    · rintro ⟨before, m, after, rfl, hid, rfl, hpruned, hafter⟩
      refine ⟨before, m, after, rfl, ?_, fun later hlater => by simpa using hafter later hlater⟩
      rw [if_pos hid]
      exact congrArg some (Option.filter_eq_some_iff.mpr ⟨rfl, decide_eq_true hpruned⟩)
  · intro m w cell h
    split at h
    · rename_i hid
      rw [if_pos hid]
      exact Option.some.inj h
    · cases h
  · intro m cell h
    split at h
    · cases h
    · rename_i hid
      rw [if_neg hid]

/-- An id is known from its last mark on, until a prune comes an hour after that mark. -/
theorem duplicate_iff (marks : List Mark) (signalId : String) (signal : Signal) (config : TriggerConfig) (now : ℚ) :
    (run markTriggered {} marks).shouldTrigger true signalId signal config now = some .duplicateSignalId ↔
      ∃ before m after, marks = before ++ m :: after ∧ m.signalId = signalId ∧ m.pruned - 3600 < m.marked ∧
        ∀ later ∈ after, later.signalId ≠ signalId ∧ later.pruned - 3600 < m.marked := by
  have hknown (e : TriggerEngine) : e.shouldTrigger true signalId signal config now = some .duplicateSignalId ↔
      ∃ ts, e.recentTriggers.get? signalId = some ts := by
    rw [← Option.isSome_iff_exists, shouldTrigger]
    cases (e.recentTriggers.get? signalId).isSome with
    | true => simp
    | false =>
      simp only [Bool.not_true, Bool.false_eq_true, if_false, iff_false]
      split_ifs
      · simp
      · simp
      · split
        · simp
        · split_ifs
          · simp
          · cases signal.confidence with
            | none => simp
            | some confidence =>
              rw [Option.map_some]
              split_ifs <;> simp
  rw [hknown]
  simp only [get?_recentTriggers]
  constructor
  · rintro ⟨ts, before, m, after, heq, hid, rfl, hrest⟩
    exact ⟨before, m, after, heq, hid, hrest⟩
  · rintro ⟨before, m, after, heq, hid, hrest⟩
    exact ⟨_, before, m, after, heq, hid, rfl, hrest⟩

end TriggerEngine

/-! ### The gate of the signal centre -/

/-- A turn of the signal centre on a setup that has no live signal. -/
structure Turn where
  marketOpen : Bool
  instrument : String
  direction : Direction
  breakoutPressure : Option ℚ
  shortConfidence : Option ℚ
  /-- What `uuid4` draws for the probe. -/
  signalId : String
  now : ℚ
  marked : ℚ
  stamped : ℚ
  pruned : ℚ

namespace Turn
variable (t : Turn)

def score : ℚ := t.breakoutPressure.getD 50

def confidence : ℚ :=
  let c := t.shortConfidence.getD 0
  if 1 < c then c / 100 else if c = 0 then 1 / 2 else c

def probe : Signal where
  strategyId := "BREAKOUT"
  instrumentId := some t.instrument
  symbol := t.instrument
  direction := t.direction
  score := some t.score
  confidence := some t.confidence

def mark : TriggerEngine.Mark := ⟨t.signalId, t.probe, t.marked, t.stamped, t.pruned⟩

end Turn

@[simp] theorem Turn.triggerKey_probe (t : Turn) : t.probe.triggerKey = "BREAKOUT:" ++ t.instrument := rfl

namespace TriggerEngine

def probeReason (e : TriggerEngine) (t : Turn) : TriggerReason :=
  (e.shouldTrigger t.marketOpen t.signalId t.probe {} t.now).getD .triggerProbeErrorContinue

/-- A signal is registered but for the first two reasons, and what is registered is marked, approved or not. -/
def gate (e : TriggerEngine) (t : Turn) : TriggerEngine × TriggerReason :=
  let reason := e.probeReason t
  if reason = .marketClosed ∨ reason = .duplicateSignalId then (e, reason)
  else (e.markTriggered t.mark, reason)

def turn (e : TriggerEngine) (t : Turn) : TriggerEngine := (e.gate t).1

theorem gate_closed (e : TriggerEngine) {t : Turn} (h : t.marketOpen = false) : e.gate t = (e, .marketClosed) := by
  simp [gate, probeReason, shouldTrigger, h]

/-- A probe that is new, in an open market. -/
theorem gate_open (e : TriggerEngine) {t : Turn} (hopen : t.marketOpen = true)
    (hnew : e.recentTriggers.get? t.signalId = none) :
    (e.gate t).1 = e.markTriggered t.mark ∧ ((e.gate t).2 = .triggerApproved ↔
      (∀ last ∈ e.lastTriggerTs.get? ("BREAKOUT:" ++ t.instrument), 20 ≤ t.now - last) ∧ t.direction ≠ .noTrade ∧
        50 ≤ t.score ∧ 2 / 5 ≤ t.confidence) := by
  have hreason : e.probeReason t =
      if (e.lastTriggerTs.get? ("BREAKOUT:" ++ t.instrument)).any fun last => t.now - last < 20 then .cooldownActive
      else if t.direction = .noTrade then .noTradeSignal
      else if t.score < 50 then .scoreBelowThreshold t.score 50
      else if t.confidence < 2 / 5 then .confidenceBelowThreshold t.confidence (2 / 5) else .triggerApproved := by
    simp only [probeReason, shouldTrigger, hopen, hnew, Turn.triggerKey_probe]
    simp only [Turn.probe]
    split_ifs <;> simp_all
    split_ifs <;> rfl
  have hcool : ((e.lastTriggerTs.get? ("BREAKOUT:" ++ t.instrument)).any fun last => t.now - last < 20) = false ↔
      ∀ last ∈ e.lastTriggerTs.get? ("BREAKOUT:" ++ t.instrument), 20 ≤ t.now - last := by
    cases e.lastTriggerTs.get? ("BREAKOUT:" ++ t.instrument) <;> simp
  rw [gate, hreason, ← hcool]
  split_ifs <;> simp_all

/-- The last turn before on the same instrument that found the market open. -/
def lastOpen (turns : List Turn) (instrument : String) : Option Turn :=
  turns.reverse.find? fun t => t.marketOpen && t.instrument = instrument

theorem run_turn (turns : List Turn) (hfresh : (turns.map Turn.signalId).Nodup) :
    (∀ id ∉ turns.map Turn.signalId, (run turn {} turns).recentTriggers.get? id = none) ∧
    ∀ instrument, (run turn {} turns).lastTriggerTs.get? ("BREAKOUT:" ++ instrument) =
      (lastOpen turns instrument).map Turn.stamped := by
  induction turns using List.reverseRecOn with
  | nil => exact ⟨fun _ _ => rfl, fun _ => rfl⟩
  | append_singleton turns t ih =>
    rw [List.map_append, List.nodup_append'] at hfresh
    obtain ⟨hids, hlast⟩ := ih hfresh.1
    have hnew : t.signalId ∉ turns.map Turn.signalId :=
      fun hmem => hfresh.2.2 hmem List.mem_cons_self
    rw [run_append, run_cons, run_nil]
    cases hopen : t.marketOpen with
    | false =>
      have hstep : turn (run turn {} turns) t = run turn {} turns := congrArg Prod.fst (gate_closed _ hopen)
      rw [hstep]
      refine ⟨fun id hid => hids id fun hmem => hid (by simp [hmem]), fun instrument => ?_⟩
      rw [hlast, lastOpen, lastOpen, List.reverse_append]
      simp [hopen]
    | true =>
      have hstep : turn (run turn {} turns) t = (run turn {} turns).markTriggered t.mark :=
        (gate_open _ hopen (hids _ hnew)).1
      rw [hstep]
      constructor
      · intro id hid
        rw [List.map_append, List.mem_append, not_or] at hid
        have hne : id ≠ t.signalId := fun heq => hid.2 (by simp [heq])
        simp [markTriggered, Turn.mark, hne, hids id hid.1]
      · intro instrument
        rw [lastOpen, List.reverse_append]
        by_cases hsame : t.instrument = instrument
        · simp [markTriggered, Turn.mark, hopen, hsame]
        · have hkey : "BREAKOUT:" ++ instrument ≠ "BREAKOUT:" ++ t.instrument := by
            simpa using Ne.symm hsame
          simp [markTriggered, Turn.mark, hopen, hsame, hkey, hlast, lastOpen]

/-- A setup is approved when the market is open, the last turn on its instrument in an open market, approved or not,
is a cooldown away, and its score and confidence reach their bars. -/
theorem triggerApproved_iff (turns : List Turn) (t : Turn) (hfresh : ((turns ++ [t]).map Turn.signalId).Nodup) :
    ((run turn {} turns).gate t).2 = .triggerApproved ↔
      t.marketOpen = true ∧ (∀ last ∈ lastOpen turns t.instrument, 20 ≤ t.now - last.stamped) ∧
        t.direction ≠ .noTrade ∧ 50 ≤ t.score ∧ 2 / 5 ≤ t.confidence := by
  rw [List.map_append, List.nodup_append'] at hfresh
  obtain ⟨hids, hlast⟩ := run_turn turns hfresh.1
  have hnew : t.signalId ∉ turns.map Turn.signalId := fun hmem => hfresh.2.2 hmem List.mem_cons_self
  cases hopen : t.marketOpen with
  | false =>
    rw [gate_closed _ hopen]
    simp
  | true =>
    rw [(gate_open _ hopen (hids _ hnew)).2, hlast]
    simp

/-- A strong setup in an open market. -/
def strongTurn (signalId : String) (now : ℚ) : Turn :=
  ⟨true, "NIFTY", .long, some 70, some 60, signalId, now, now, now, now⟩

theorem polled_not_approved :
    ((run turn {} [strongTurn "a" 0, strongTurn "b" 10]).gate (strongTurn "c" 25)).2 ≠ .triggerApproved := by
  rw [ne_eq, triggerApproved_iff _ _ (by decide)]
  rintro ⟨-, hcool, -⟩
  exact absurd (hcool (strongTurn "b" 10) rfl) (by norm_num [strongTurn])

end TriggerEngine
end Droid.Algo.Fusion
