import Droid.Safety.SequenceValidator
import Mathlib.Logic.Function.Basic

/-! The feed circuit breaker with the sequence validators that trip it and that it resets. -/
namespace Droid.Safety
open Lib

/-- An instrument id, upper-cased as every entry point does. -/
abbrev InstrumentId := String

inductive FeedHealth where
  | healthy | feedDegraded | unknown | recovering
  deriving DecidableEq, Repr

structure FeedState where
  health : FeedHealth := .healthy
  reason : Option String := none
  degradedAtMs : Option Int := none
  anomaly : Option String := none
  suppressCandidates : Bool := false
  needsResync : Bool := false
  lastSnapshotMs : Option Int := none
  degradedCount : Nat := 0
  escalated : Bool := false
  deriving DecidableEq, Repr

namespace FeedState

def degraded (st : FeedState) : Bool := st.health ∈ [.feedDegraded, .recovering]

/-- A repeated trip only counts, and escalates from the fifth on. -/
def trip (st : FeedState) (anomaly reason : String) (nowMs : Int) : FeedState :=
  let st := { st with degradedCount := st.degradedCount + 1 }
  if st.health = .feedDegraded then
    if 5 ≤ st.degradedCount ∧ ¬ st.escalated then { st with escalated := true } else st
  else
    { st with
      health := .feedDegraded, reason := some reason, anomaly := some anomaly
      degradedAtMs := some nowMs, suppressCandidates := true, needsResync := true }

def requestResync (st : FeedState) : FeedState :=
  if st.health ≠ .feedDegraded then st else { st with health := .recovering }

def snapshotFailed (st : FeedState) (reason : String) : FeedState :=
  { st with health := .feedDegraded, reason := some s!"snapshot validation failed: {reason}" }

def recovered (st : FeedState) (snapshotTimestampMs : Int) : FeedState :=
  { st with
    health := .healthy, reason := none, anomaly := none, suppressCandidates := false
    needsResync := false, lastSnapshotMs := some snapshotTimestampMs }

end FeedState

/-- A caller's `validate_fn`: its verdict with a reason, or `none` when it raises. -/
abbrev ValidateFn := Int → Int → Option (Bool × String)

/-- The validator that runs when the caller gives none. -/
def defaultValidate (nowMs : Int) : ValidateFn := fun timestampMs sequenceId =>
  if timestampMs - nowMs > 2000 then some (false, "snapshot timestamp in future")
  else if sequenceId < 0 then some (false, "negative sequence")
  else some (true, "default-ok")

/-- The breaker's states, and the validator of each instrument's broker feed. -/
structure FeedCircuitBreaker where
  states : InstrumentId → FeedState := fun _ => { }
  validators : InstrumentId → SequenceValidator

namespace FeedCircuitBreaker

def trip (b : FeedCircuitBreaker) (id : InstrumentId) (anomaly reason : String) (nowMs : Int) :
    FeedCircuitBreaker :=
  { b with states := Function.update b.states id ((b.states id).trip anomaly reason nowMs) }

def onSequenceResult (b : FeedCircuitBreaker) (id : InstrumentId) (res : SequenceCheckResult)
    (nowMs : Int) : FeedCircuitBreaker :=
  if res.isAnomaly then b.trip id res.anomaly.label res.message nowMs else b

/-- A check of the instrument's validator, which reports its anomalies to the breaker. -/
def check (b : FeedCircuitBreaker) (id : InstrumentId) (n : Option Int) (nowMs : Int) :
    FeedCircuitBreaker × SequenceCheckResult :=
  let (validator, res) := (b.validators id).check n
  (onSequenceResult { b with validators := Function.update b.validators id validator } id res nowMs, res)

def requestResync (b : FeedCircuitBreaker) (id : InstrumentId) : FeedCircuitBreaker :=
  { b with states := Function.update b.states id (b.states id).requestResync }

/-- A snapshot counts only while the feed is not healthy; a valid one also resets the validator. -/
def onAuthoritativeSnapshot (b : FeedCircuitBreaker) (id : InstrumentId)
    (snapshotTimestampMs sequenceId : Int) (validateFn : Option ValidateFn) (nowMs : Int) :
    FeedCircuitBreaker :=
  if ¬ (b.states id).degraded then b
  else
    match validateFn.getD (defaultValidate nowMs) snapshotTimestampMs sequenceId with
    | none => b
    | some (false, reason) =>
      { b with states := Function.update b.states id ((b.states id).snapshotFailed reason) }
    | some (true, _) =>
      { states := Function.update b.states id ((b.states id).recovered snapshotTimestampMs)
        validators := Function.update b.validators id ((b.validators id).reset (some sequenceId)) }

def isHealthy (b : FeedCircuitBreaker) (id : InstrumentId) : Bool := (b.states id).health = .healthy

def isDegraded (b : FeedCircuitBreaker) (id : InstrumentId) : Bool := (b.states id).degraded

def suppresses (b : FeedCircuitBreaker) (id : InstrumentId) : Bool := (b.states id).suppressCandidates

def crossMarketInvalid (b : FeedCircuitBreaker) (ids : List InstrumentId) : Bool := ids.any b.isDegraded

theorem check_validators (b : FeedCircuitBreaker) (id : InstrumentId) (n : Option Int) (nowMs : Int) :
    (b.check id n nowMs).1.validators =
      Function.update b.validators id ((b.validators id).check n).1 := by
  simp only [check, onSequenceResult]
  split
  · rfl
  · rfl

theorem check_states (b : FeedCircuitBreaker) (id : InstrumentId) (n : Option Int) (nowMs : Int) :
    (b.check id n nowMs).1.states =
      if ((b.validators id).check n).2.isAnomaly then
        Function.update b.states id ((b.states id).trip ((b.validators id).check n).2.anomaly.label
          ((b.validators id).check n).2.message nowMs)
      else b.states := by
  simp only [check, onSequenceResult]
  split
  · rfl
  · rfl

/-- A snapshot that is taken up and passes its validation. -/
def recovers (b : FeedCircuitBreaker) (id : InstrumentId) (snapshotTimestampMs sequenceId : Int)
    (validateFn : Option ValidateFn) (nowMs : Int) : Bool :=
  (b.states id).degraded &&
    (validateFn.getD (defaultValidate nowMs) snapshotTimestampMs sequenceId).any Prod.fst

theorem snapshot_cases (b : FeedCircuitBreaker) (id : InstrumentId) (timestampMs sequenceId : Int)
    (validateFn : Option ValidateFn) (nowMs : Int) :
    (b.recovers id timestampMs sequenceId validateFn nowMs = true ∧
      b.onAuthoritativeSnapshot id timestampMs sequenceId validateFn nowMs =
        { states := Function.update b.states id ((b.states id).recovered timestampMs)
          validators := Function.update b.validators id
            ((b.validators id).reset (some sequenceId)) }) ∨
    (b.recovers id timestampMs sequenceId validateFn nowMs = false ∧
      (b.onAuthoritativeSnapshot id timestampMs sequenceId validateFn nowMs = b ∨
        (b.states id).degraded = true ∧
          ∃ reason, b.onAuthoritativeSnapshot id timestampMs sequenceId validateFn nowMs =
            { b with states := Function.update b.states id ((b.states id).snapshotFailed reason) })) := by
  rw [onAuthoritativeSnapshot, recovers]
  cases hdeg : (b.states id).degraded with
  | false => exact .inr ⟨rfl, .inl rfl⟩
  | true =>
    rw [if_neg (by decide), Bool.true_and]
    cases validateFn.getD (defaultValidate nowMs) timestampMs sequenceId with
    | none => exact .inr ⟨rfl, .inl rfl⟩
    | some verdict =>
      obtain ⟨ok, reason⟩ := verdict
      cases ok with
      | true => exact .inl ⟨rfl, rfl⟩
      | false => exact .inr ⟨rfl, .inr ⟨rfl, reason, rfl⟩⟩

end FeedCircuitBreaker

/-! ### Runs -/

/-- The breaker under a run, with the sequence number of each instrument's last successful snapshot,
and whether a numbered tick came since. -/
structure FeedRun where
  breaker : FeedCircuitBreaker
  snapshot : InstrumentId → Option Int := fun _ => none
  ticked : InstrumentId → Bool := fun _ => false

inductive FeedEvent where
  | check (id : InstrumentId) (n : Option Int) (nowMs : Int)
  | trip (id : InstrumentId) (anomaly reason : String) (nowMs : Int)
  | requestResync (id : InstrumentId)
  | snapshot (id : InstrumentId) (timestampMs sequenceId : Int) (validateFn : Option ValidateFn)
      (nowMs : Int)

def FeedEvent.instrument : FeedEvent → InstrumentId
  | .check id _ _ | .trip id _ _ _ | .requestResync id | .snapshot id _ _ _ _ => id

namespace FeedRun

/-- Healthy feeds, with what the state file holds of each validator. -/
def start (stateFile : InstrumentId → Option Int) : FeedRun where
  breaker := { validators := fun id => .restored (stateFile id) }

def step (s : FeedRun) : FeedEvent → FeedRun
  | .check id n nowMs =>
    { s with
      breaker := (s.breaker.check id n nowMs).1
      ticked := if n.isSome then Function.update s.ticked id true else s.ticked }
  | .trip id anomaly reason nowMs => { s with breaker := s.breaker.trip id anomaly reason nowMs }
  | .requestResync id => { s with breaker := s.breaker.requestResync id }
  | .snapshot id timestampMs sequenceId validateFn nowMs =>
    let breaker := s.breaker.onAuthoritativeSnapshot id timestampMs sequenceId validateFn nowMs
    if s.breaker.recovers id timestampMs sequenceId validateFn nowMs then
      { breaker, snapshot := Function.update s.snapshot id (some sequenceId)
        ticked := Function.update s.ticked id false }
    else { s with breaker }

/-- The suppressing flags of a state say what its health says. -/
def Flagged (st : FeedState) : Prop :=
  st.suppressCandidates = st.degraded ∧ st.needsResync = st.degraded

/-- The trip of a state: one more count, and the feed is degraded. -/
def Tripped (st st' : FeedState) : Prop :=
  st'.degradedCount = st.degradedCount + 1 ∧ st'.health = .feedDegraded

/-- What an event does as it should: flags agree with the health, only a valid snapshot heals, other
instruments are left alone, the number after a snapshot passes and the numbers up to it trip. -/
structure Guards (s : FeedRun) (e : FeedEvent) : Prop where
  flagged : ∀ id, Flagged ((s.step e).breaker.states id)
  healed : ∀ id, (s.breaker.states id).health ≠ .healthy →
    ((s.step e).breaker.states id).health = .healthy →
      ∃ timestampMs sequenceId validateFn nowMs,
        e = .snapshot id timestampMs sequenceId validateFn nowMs ∧
          s.breaker.recovers id timestampMs sequenceId validateFn nowMs = true
  isolated : ∀ id, id ≠ e.instrument → (s.step e).breaker.states id = s.breaker.states id ∧
    (s.step e).breaker.validators id = s.breaker.validators id
  next : ∀ id n nowMs, e = .check id (some (n + 1)) nowMs → s.snapshot id = some n →
    s.ticked id = false → (s.step e).breaker.states id = s.breaker.states id
  replayed : ∀ id m nowMs, e = .check id (some m) nowMs → ∀ n, s.snapshot id = some n → m ≤ n →
    Tripped (s.breaker.states id) ((s.step e).breaker.states id)

/-- The tick does not repeat the snapshot's own number while it is the last one and not remembered. -/
def Fresh (s : FeedRun) : FeedEvent → Prop
  | .check id (some m) _ => s.snapshot id = some m → (s.breaker.validators id).lastSeq = some m →
      m ∈ (s.breaker.validators id).seen.items
  | _ => True

/-- Flags and health agree, validators are coherent, and no validator is behind its snapshot; it
stands at the snapshot until a tick comes. -/
structure Coherent (s : FeedRun) : Prop where
  flagged : ∀ id, Flagged (s.breaker.states id)
  validators : ∀ id, (s.breaker.validators id).Coherent
  ahead : ∀ id n, s.snapshot id = some n → ∃ last, (s.breaker.validators id).lastSeq = some last ∧ n ≤ last
  resting : ∀ id n, s.snapshot id = some n → s.ticked id = false →
    (s.breaker.validators id).lastSeq = some n

theorem start_coherent (stateFile : InstrumentId → Option Int) : Coherent (start stateFile) where
  flagged _ := ⟨rfl, rfl⟩
  validators id := SequenceValidator.restored_coherent (stateFile id)
  ahead := nofun
  resting := nofun

theorem trip_flagged {st : FeedState} (h : Flagged st) (anomaly reason : String) (nowMs : Int) :
    Flagged (st.trip anomaly reason nowMs) ∧ Tripped st (st.trip anomaly reason nowMs) := by
  simp only [FeedState.trip]
  split
  · rename_i hdeg
    split
    · exact ⟨h, rfl, hdeg⟩
    · exact ⟨h, rfl, hdeg⟩
  · exact ⟨⟨rfl, rfl⟩, rfl, rfl⟩

theorem requestResync_flagged {st : FeedState} (h : Flagged st) :
    Flagged st.requestResync ∧ (st.requestResync.health = .healthy → st.health = .healthy) := by
  rw [FeedState.requestResync]
  split
  · exact ⟨h, id⟩
  · rename_i hdeg
    rw [not_not] at hdeg
    have hflag : st.degraded = true := by
      rw [FeedState.degraded, hdeg]
      decide
    refine ⟨⟨h.1.trans hflag, h.2.trans hflag⟩, fun hhealthy => ?_⟩
    cases hhealthy

theorem snapshotFailed_flagged {st : FeedState} (h : Flagged st) (hdeg : st.degraded = true)
    (reason : String) : Flagged (st.snapshotFailed reason) :=
  ⟨h.1.trans hdeg, h.2.trans hdeg⟩

private theorem step_snapshot (s : FeedRun) (id : InstrumentId) (timestampMs sequenceId : Int)
    (validateFn : Option ValidateFn) (nowMs : Int) :
    (s.breaker.recovers id timestampMs sequenceId validateFn nowMs = true ∧
      s.step (.snapshot id timestampMs sequenceId validateFn nowMs) =
        { breaker :=
            { states := Function.update s.breaker.states id ((s.breaker.states id).recovered timestampMs)
              validators := Function.update s.breaker.validators id
                ((s.breaker.validators id).reset (some sequenceId)) }
          snapshot := Function.update s.snapshot id (some sequenceId)
          ticked := Function.update s.ticked id false }) ∨
    (s.breaker.recovers id timestampMs sequenceId validateFn nowMs = false ∧
      (s.step (.snapshot id timestampMs sequenceId validateFn nowMs) = s ∨
        (s.breaker.states id).degraded = true ∧
          ∃ reason, s.step (.snapshot id timestampMs sequenceId validateFn nowMs) =
            { s with breaker :=
                { states := Function.update s.breaker.states id
                    ((s.breaker.states id).snapshotFailed reason)
                  validators := s.breaker.validators } })) := by
  simp only [step]
  rcases s.breaker.snapshot_cases id timestampMs sequenceId validateFn nowMs with
    ⟨hrec, heq⟩ | ⟨hrec, heq | ⟨hdeg, reason, heq⟩⟩
  · rw [if_pos hrec, heq]
    exact .inl ⟨hrec, rfl⟩
  · rw [if_neg (Bool.not_eq_true _ ▸ hrec), heq]
    exact .inr ⟨hrec, .inl rfl⟩
  · rw [if_neg (Bool.not_eq_true _ ▸ hrec), heq]
    exact .inr ⟨hrec, .inr ⟨hdeg, reason, rfl⟩⟩

private theorem step_other (s : FeedRun) (e : FeedEvent) {id : InstrumentId} (hid : id ≠ e.instrument) :
    (s.step e).breaker.states id = s.breaker.states id ∧
      (s.step e).breaker.validators id = s.breaker.validators id ∧
      (s.step e).snapshot id = s.snapshot id ∧ (s.step e).ticked id = s.ticked id := by
  cases e with
  | check x n nowMs =>
    refine ⟨?_, ?_, rfl, ?_⟩
    · rw [step, FeedCircuitBreaker.check_states]
      split
      · exact Function.update_of_ne hid _ _
      · rfl
    · rw [step, FeedCircuitBreaker.check_validators]
      exact Function.update_of_ne hid _ _
    · rw [step]
      split
      · exact Function.update_of_ne hid _ _
      · rfl
  | trip x anomaly reason nowMs => exact ⟨Function.update_of_ne hid _ _, rfl, rfl, rfl⟩
  | requestResync x => exact ⟨Function.update_of_ne hid _ _, rfl, rfl, rfl⟩
  | snapshot x timestampMs sequenceId validateFn nowMs =>
    rcases s.step_snapshot x timestampMs sequenceId validateFn nowMs with
      ⟨-, heq⟩ | ⟨-, heq | ⟨-, reason, heq⟩⟩
    · rw [heq]
      exact ⟨Function.update_of_ne hid _ _, Function.update_of_ne hid _ _,
        Function.update_of_ne hid _ _, Function.update_of_ne hid _ _⟩
    · rw [heq]
      exact ⟨rfl, rfl, rfl, rfl⟩
    · rw [heq]
      exact ⟨Function.update_of_ne hid _ _, rfl, rfl, rfl⟩

private theorem check_own (s : FeedRun) (id : InstrumentId) (n : Option Int) (nowMs : Int) :
    (s.step (.check id n nowMs)).breaker.validators id = ((s.breaker.validators id).check n).1 ∧
      (((s.breaker.validators id).check n).2.isAnomaly = false ∧
          (s.step (.check id n nowMs)).breaker.states id = s.breaker.states id ∨
        ((s.breaker.validators id).check n).2.isAnomaly = true ∧
          ∃ anomaly reason, (s.step (.check id n nowMs)).breaker.states id =
            (s.breaker.states id).trip anomaly reason nowMs) := by
  have hstates : (s.step (.check id n nowMs)).breaker.states = (s.breaker.check id n nowMs).1.states := rfl
  have hvals : (s.step (.check id n nowMs)).breaker.validators =
      (s.breaker.check id n nowMs).1.validators := rfl
  rw [hstates, hvals, FeedCircuitBreaker.check_validators, FeedCircuitBreaker.check_states]
  refine ⟨Function.update_self _ _ _, ?_⟩
  cases hbad : ((s.breaker.validators id).check n).2.isAnomaly with
  | false => exact .inl ⟨rfl, rfl⟩
  | true => exact .inr ⟨rfl, _, _, Function.update_self _ _ _⟩

private theorem check_coherent {s : FeedRun} (h : Coherent s) (id : InstrumentId) (n : Option Int)
    (nowMs : Int) :
    Flagged ((s.step (.check id n nowMs)).breaker.states id) ∧
      ((s.step (.check id n nowMs)).breaker.validators id).Coherent ∧
      ∀ m, s.snapshot id = some m →
        (∃ last, ((s.step (.check id n nowMs)).breaker.validators id).lastSeq = some last ∧ m ≤ last) ∧
          ((s.step (.check id n nowMs)).ticked id = false →
            ((s.step (.check id n nowMs)).breaker.validators id).lastSeq = some m) := by
  obtain ⟨hval, hstate⟩ := check_own s id n nowMs
  rw [hval]
  refine ⟨?_, SequenceValidator.check_coherent (h.validators id) n, fun m hm => ⟨?_, fun hquiet => ?_⟩⟩
  · rcases hstate with ⟨-, hsame⟩ | ⟨-, anomaly, reason, htrip⟩
    · rw [hsame]
      exact h.flagged id
    · rw [htrip]
      exact (trip_flagged (h.flagged id) anomaly reason nowMs).1
  · obtain ⟨last, hlast, hle⟩ := h.ahead id m hm
    obtain ⟨last', hlast', hle'⟩ := SequenceValidator.check_kept n hlast
    exact ⟨last', hlast', hle.trans hle'⟩
  · cases n with
    | none => exact h.resting id m hm hquiet
    | some n =>
      have hticked : (s.step (.check id (some n) nowMs)).ticked id = true := Function.update_self _ _ _
      cases hquiet.symm.trans hticked

theorem step_coherent {s : FeedRun} (h : Coherent s) (e : FeedEvent) : Coherent (s.step e) := by
  have hown : Flagged ((s.step e).breaker.states e.instrument) ∧
      ((s.step e).breaker.validators e.instrument).Coherent ∧
      ∀ m, (s.step e).snapshot e.instrument = some m →
        (∃ last, ((s.step e).breaker.validators e.instrument).lastSeq = some last ∧ m ≤ last) ∧
          ((s.step e).ticked e.instrument = false →
            ((s.step e).breaker.validators e.instrument).lastSeq = some m) := by
    cases e with
    | check id n nowMs => exact check_coherent h id n nowMs
    | trip id anomaly reason nowMs =>
      refine ⟨?_, h.validators id, fun m hm => ⟨h.ahead id m hm, h.resting id m hm⟩⟩
      have hstate : (s.step (.trip id anomaly reason nowMs)).breaker.states id =
          (s.breaker.states id).trip anomaly reason nowMs := Function.update_self _ _ _
      rw [FeedEvent.instrument, hstate]
      exact (trip_flagged (h.flagged id) anomaly reason nowMs).1
    | requestResync id =>
      refine ⟨?_, h.validators id, fun m hm => ⟨h.ahead id m hm, h.resting id m hm⟩⟩
      have hstate : (s.step (.requestResync id)).breaker.states id =
          (s.breaker.states id).requestResync := Function.update_self _ _ _
      rw [FeedEvent.instrument, hstate]
      exact (requestResync_flagged (h.flagged id)).1
    | snapshot id timestampMs sequenceId validateFn nowMs =>
      rcases s.step_snapshot id timestampMs sequenceId validateFn nowMs with
        ⟨-, heq⟩ | ⟨-, heq | ⟨hdeg, reason, heq⟩⟩
      · simp only [heq, FeedEvent.instrument, Function.update_self]
        refine ⟨⟨rfl, rfl⟩, SequenceValidator.reset_coherent _ _, ?_⟩
        rintro _ ⟨⟩
        exact ⟨⟨sequenceId, rfl, le_rfl⟩, fun _ => rfl⟩
      · simp only [heq, FeedEvent.instrument]
        exact ⟨h.flagged id, h.validators id, fun m hm => ⟨h.ahead id m hm, h.resting id m hm⟩⟩
      · simp only [heq, FeedEvent.instrument, Function.update_self]
        exact ⟨snapshotFailed_flagged (h.flagged id) hdeg reason, h.validators id,
          fun m hm => ⟨h.ahead id m hm, h.resting id m hm⟩⟩
  have hcases : ∀ id, id = e.instrument ∨ id ≠ e.instrument := fun id => em _
  refine ⟨fun id => ?_, fun id => ?_, fun id m hm => ?_, fun id m hm hquiet => ?_⟩
  · rcases hcases id with rfl | hid
    · exact hown.1
    · rw [(step_other s e hid).1]
      exact h.flagged id
  · rcases hcases id with rfl | hid
    · exact hown.2.1
    · rw [(step_other s e hid).2.1]
      exact h.validators id
  · rcases hcases id with rfl | hid
    · exact (hown.2.2 m hm).1
    · rw [(step_other s e hid).2.2.1] at hm
      rw [(step_other s e hid).2.1]
      exact h.ahead id m hm
  · rcases hcases id with rfl | hid
    · exact (hown.2.2 m hm).2 hquiet
    · rw [(step_other s e hid).2.2.1] at hm
      rw [(step_other s e hid).2.2.2] at hquiet
      rw [(step_other s e hid).2.1]
      exact h.resting id m hm hquiet

private theorem step_healed {s : FeedRun} (h : Coherent s) (e : FeedEvent) (id : InstrumentId)
    (hill : (s.breaker.states id).health ≠ .healthy)
    (hwell : ((s.step e).breaker.states id).health = .healthy) :
    ∃ timestampMs sequenceId validateFn nowMs,
      e = .snapshot id timestampMs sequenceId validateFn nowMs ∧
        s.breaker.recovers id timestampMs sequenceId validateFn nowMs = true := by
  by_cases hid : id = e.instrument
  · subst hid
    cases e with
    | check id n nowMs =>
      obtain ⟨-, ⟨-, hsame⟩ | ⟨-, anomaly, reason, htrip⟩⟩ := check_own s id n nowMs
      · exact absurd ((congrArg FeedState.health hsame).symm.trans hwell) hill
      · have hdown := (trip_flagged (h.flagged id) anomaly reason nowMs).2.2
        rw [FeedEvent.instrument, htrip, hdown] at hwell
        cases hwell
    | trip id anomaly reason nowMs =>
      have hstate : (s.step (.trip id anomaly reason nowMs)).breaker.states id =
          (s.breaker.states id).trip anomaly reason nowMs := Function.update_self _ _ _
      have hdown := (trip_flagged (h.flagged id) anomaly reason nowMs).2.2
      rw [FeedEvent.instrument, hstate, hdown] at hwell
      cases hwell
    | requestResync id =>
      have hstate : (s.step (.requestResync id)).breaker.states id =
          (s.breaker.states id).requestResync := Function.update_self _ _ _
      rw [FeedEvent.instrument, hstate] at hwell
      exact absurd ((requestResync_flagged (h.flagged id)).2 hwell) hill
    | snapshot id timestampMs sequenceId validateFn nowMs =>
      rcases s.step_snapshot id timestampMs sequenceId validateFn nowMs with
        ⟨hrec, -⟩ | ⟨-, heq | ⟨-, reason, heq⟩⟩
      · exact ⟨timestampMs, sequenceId, validateFn, nowMs, rfl, hrec⟩
      · rw [heq] at hwell
        exact absurd hwell hill
      · simp only [heq, FeedEvent.instrument, Function.update_self] at hwell
        cases hwell
  · rw [(step_other s e hid).1] at hwell
    exact absurd hwell hill

/-- An event is guarded as it should be exactly when it is fresh. -/
theorem guards_iff {s : FeedRun} (h : Coherent s) (e : FeedEvent) : s.Guards e ↔ s.Fresh e := by
  have hflagged := (step_coherent h e).flagged
  have hisolated : ∀ id, id ≠ e.instrument → (s.step e).breaker.states id = s.breaker.states id ∧
      (s.step e).breaker.validators id = s.breaker.validators id := fun id hid =>
    ⟨(step_other s e hid).1, (step_other s e hid).2.1⟩
  cases e with
  | trip id anomaly reason nowMs =>
    exact iff_of_true ⟨hflagged, step_healed h _, hisolated, nofun, nofun⟩ trivial
  | requestResync id => exact iff_of_true ⟨hflagged, step_healed h _, hisolated, nofun, nofun⟩ trivial
  | snapshot id timestampMs sequenceId validateFn nowMs =>
    exact iff_of_true ⟨hflagged, step_healed h _, hisolated, nofun, nofun⟩ trivial
  | check id n nowMs =>
    obtain ⟨-, hstate⟩ := check_own s id n nowMs
    cases n with
    | none => exact iff_of_true ⟨hflagged, step_healed h _, hisolated, nofun, nofun⟩ trivial
    | some m =>
      obtain ⟨-, -, hquiet⟩ := SequenceValidator.receive_verdict (h.validators id) m
      constructor
      · intro hg hsnap hlast
        -- an unremembered last number passes, and the feed is not tripped
        by_contra hfresh
        have hgood := hquiet.mpr (.inr (.inr ⟨hlast, hfresh⟩))
        have htripped := hg.replayed id m nowMs rfl m hsnap le_rfl
        rcases hstate with ⟨-, hsame⟩ | ⟨hbad, -⟩
        · have hcount := htripped.1
          rw [hsame] at hcount
          omega
        · cases hgood.symm.trans hbad
      · intro hfresh
        refine ⟨hflagged, step_healed h _, hisolated, ?_, ?_⟩
        · rintro _ n _ ⟨⟩ hsnap hticked
          have hlast := h.resting id n hsnap hticked
          have hgood := hquiet.mpr (.inr (.inl (hlast.trans (congrArg some (by omega)))))
          rcases hstate with ⟨-, hsame⟩ | ⟨hbad, -⟩
          · exact hsame
          · cases hgood.symm.trans hbad
        · rintro _ _ _ ⟨⟩ n hsnap hle
          rcases hstate with ⟨hgood, -⟩ | ⟨-, anomaly, reason, htrip⟩
          · -- a number that passes is above the snapshot
            obtain ⟨last, hlast, hahead⟩ := h.ahead id n hsnap
            exfalso
            rcases hquiet.mp hgood with hfirst | hnext | ⟨hsame, hunseen⟩
            · cases hfirst.symm.trans hlast
            · cases hnext.symm.trans hlast
              omega
            · cases hsame.symm.trans hlast
              have hn : n = m := by omega
              subst hn
              exact hunseen (hfresh hsnap hlast)
          · rw [htrip]
            exact (trip_flagged (h.flagged id) anomaly reason nowMs).2

/-- Along a run every event is guarded as it should be exactly when no tick repeats its snapshot's
number. -/
theorem guarded_iff (stateFile : InstrumentId → Option Int) (events : List FeedEvent) :
    Guarded step Guards (start stateFile) events ↔ Guarded step Fresh (start stateFile) events :=
  guarded_congr (I := Coherent) (fun _ e h _ => step_coherent h e) (fun _ e h => guards_iff h e)
    (start_coherent stateFile) events

/-- A replay of the snapshot's own number does not trip the recovered feed. -/
theorem replay_untripped :
    ¬ Guarded step Guards (start fun _ => none)
      [.trip "NIFTY" "MISSING" "gap" 1, .snapshot "NIFTY" 2 100 none 2,
        .check "NIFTY" (some 100) 3] := by
  rintro ⟨-, -, h, -⟩
  have htripped := (h.replayed "NIFTY" 100 3 rfl 100 (by decide) le_rfl).1
  revert htripped
  decide

end FeedRun

end Droid.Safety
