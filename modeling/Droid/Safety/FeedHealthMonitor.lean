import Droid.Signals.Fsm
import Droid.Lib.Text

/-! The feed health monitor: the status of the pipeline, and the hysteresis its published status goes through. -/
namespace Droid.Safety
open Lib

inductive FeedStatus where
  | live | syncing | stale | chainUnavailable | down | closed | authRequired
  deriving DecidableEq, Repr

inductive ChainStatus where
  | fresh | stale | unavailable
  deriving DecidableEq, Repr

inductive ChainMarkStatus where
  | live | modelOnly | none
  deriving DecidableEq, Repr

/-- What `_compute_telemetry` reads from the calendar, the broker, the central feed, the chain and the marks. -/
structure PipelineReadings where
  marketOpen : Bool
  sessionReason : String
  usableToken : Bool
  isRunning : Bool := false
  tickAgeS : Option ℚ := none
  strikes : Int := 0
  chainAgeMs : Int := -1
  bidAskMarks : Int := 0
  ltpMarks : Int := 0
  modelMarks : Int := 0

namespace PipelineReadings

def chainStatus (r : PipelineReadings) : ChainStatus :=
  if r.strikes ≠ 0 ∧ 0 ≤ r.chainAgeMs ∧ r.chainAgeMs ≤ 180000 then .fresh
  else if r.strikes ≠ 0 then .stale else .unavailable

def chainMarkStatus (r : PipelineReadings) : ChainMarkStatus :=
  if 0 < r.bidAskMarks + r.ltpMarks then .live else if 0 < r.modelMarks then .modelOnly else .none

end PipelineReadings

/-- `str.title`: a letter after a letter is lower, any other is upper. -/
def title (s : String) : String :=
  String.ofList (go false s.toList)
where
  go : Bool → List Char → List Char
  | _, [] => []
  | inWord, c :: cs => (if inWord then c.toLower else c.toUpper) :: go c.isAlpha cs

structure FeedTelemetry where
  status : FeedStatus
  isHealthyForTrading : Bool
  displayLabel : String
  displayTone : String
  message : String
  hysteresisPending : Option FeedStatus := none

/-- A payload as it is computed: it is healthy when it is LIVE. -/
structure RawTelemetry where
  payload : FeedTelemetry
  healthy : payload.isHealthyForTrading = decide (payload.status = .live)

def RawTelemetry.of (status : FeedStatus) (message displayLabel displayTone : String) : RawTelemetry where
  payload := { status, isHealthyForTrading := status = .live, displayLabel, displayTone, message }
  healthy := rfl

/-- `_compute_telemetry`, without the sections that copy what was read. -/
def computeTelemetry (r : PipelineReadings) : RawTelemetry :=
  if ¬ r.marketOpen then
    let reason := title (r.sessionReason.replace "_" " ")
    .of .closed s!"Exchange closed ({r.sessionReason}). Regular trading hours 09:15 - 15:30 IST."
      s!"CLOSED · {reason}" "idle"
  else if ¬ r.usableToken then
    .of .authRequired "Market is open, but FYERS token is missing or expired. Re-authentication required."
      "AUTH REQUIRED · FYERS" "down"
  else if ¬ r.isRunning then
    .of .down "Central market data worker is stopped." "FEED DOWN · WORKER STOPPED" "down"
  else
    match r.tickAgeS.filter (· ≤ 60) with
    | none =>
      let age := (r.tickAgeS.map fun age => s!"{Signals.truncate age}s ago").getD "no ticks"
      .of .down s!"Market is open, but broker feed has produced no ticks ({age})."
        s!"FEED DOWN · {Text.upper age}" "down"
    | some age =>
      if 15 < age then
        .of .stale s!"Market feed delayed — last broker tick was {Signals.truncate age}s ago."
          s!"STALE · {Signals.truncate age}S AGO" "warn"
      else if r.chainStatus = .unavailable then
        .of .chainUnavailable "Spot feed is ticking, but option chain is unavailable. Options trading is halted."
          "NO OPTION CHAIN" "warn"
      else if r.chainStatus = .stale then
        .of .stale "Option chain quotes are older than 3 minutes." "CHAIN STALE" "warn"
      else if r.chainMarkStatus = .modelOnly then
        .of .stale "Option marks are model-only (no live chain bid/ask). Trading halted."
          "STALE · MODEL ONLY" "warn"
      else
        let age := max 0 (Signals.truncate age)
        .of .live s!"Live market feed active — broker ticks {age}s ago, {r.strikes} strikes priced."
          s!"LIVE · {age}S AGO" "on"

/-! ### The monitor -/

def telemetryTtlNs : Int := 1000000000

def hysteresisN : Nat := 3

structure FeedHealthMonitor where
  cachedAtNs : Int := 0
  cached : Option FeedTelemetry := none
  lastRaw : Option FeedStatus := none
  stableStatus : Option FeedStatus := none
  stableCount : Nat := 0

namespace FeedHealthMonitor

def fresh (m : FeedHealthMonitor) (useCache : Bool) (nowNs : Int) : Option FeedTelemetry :=
  m.cached.filter fun _ => useCache ∧ nowNs - m.cachedAtNs < telemetryTtlNs

/-- What a computed payload makes of the hysteresis, and what is published in its place. -/
def settle (m : FeedHealthMonitor) (payload : FeedTelemetry) : FeedHealthMonitor × FeedTelemetry :=
  let raw := payload.status
  match m.stableStatus with
  | none => ({ m with stableStatus := some raw, stableCount := 1, lastRaw := some raw }, payload)
  | some stable =>
    if m.lastRaw = some raw then
      let count := m.stableCount + 1
      ({ m with stableCount := count, stableStatus := if hysteresisN ≤ count then some raw else some stable },
        payload)
    else
      ({ m with lastRaw := some raw, stableCount := 1 },
        { payload with
          status := stable, isHealthyForTrading := stable = .live, hysteresisPending := some raw })

def getTelemetry (m : FeedHealthMonitor) (useCache : Bool) (nowNs : Int) (raw : RawTelemetry) :
    FeedHealthMonitor × FeedTelemetry :=
  match m.fresh useCache nowNs with
  | some payload => (m, payload)
  | none =>
    let (m, payload) := m.settle raw.payload
    ({ m with cachedAtNs := nowNs, cached := some payload }, payload)

end FeedHealthMonitor

/-- One poll: its arguments and the payload computed at its time. -/
structure Poll where
  useCache : Bool := true
  nowNs : Int
  raw : RawTelemetry

namespace FeedHealthMonitor

def poll (m : FeedHealthMonitor) (p : Poll) : FeedHealthMonitor × FeedTelemetry := m.getTelemetry p.useCache p.nowNs p.raw

/-- A poll that the cache does not answer. -/
def Uncached (m : FeedHealthMonitor) (p : Poll) : Prop := m.fresh p.useCache p.nowNs = none

end FeedHealthMonitor

section Sequence
variable (polls : ℕ → Poll)

def monitorAt : ℕ → FeedHealthMonitor
  | 0 => { }
  | k + 1 => ((monitorAt k).poll (polls k)).1

def published (k : ℕ) : FeedTelemetry := ((monitorAt polls k).poll (polls k)).2

def rawStatus (k : ℕ) : FeedStatus := (polls k).raw.payload.status

/-- Up to a poll, what is published changes only to a status that the last three polls agree on, and is healthy
when it is LIVE. -/
structure Hysteretic (n : ℕ) : Prop where
  confirmed : ∀ k < n, (published polls (k + 1)).status ≠ (published polls k).status →
    ∃ j, k = j + 1 ∧ rawStatus polls (k + 1) = rawStatus polls k ∧ rawStatus polls k = rawStatus polls j ∧
      (published polls (k + 1)).status = rawStatus polls (k + 1)
  healthy : ∀ k ≤ n, (published polls k).isHealthyForTrading = true ↔ (published polls k).status = .live

/-- No status but the first comes twice in a row. -/
def NoPair (n : ℕ) : Prop := ∀ k < n, rawStatus polls (k + 1) = rawStatus polls k → rawStatus polls k = rawStatus polls 0

end Sequence

/-! ### The hysteresis along a sequence of polls -/

/-- The state after a poll that left the stable status at the first one. -/
structure Steady (first raw : FeedStatus) (m : FeedHealthMonitor) : Prop where
  lastRaw : m.lastRaw = some raw
  stable : m.stableStatus = some first

theorem settle_first (m : FeedHealthMonitor) (h : m.stableStatus = none) (payload : FeedTelemetry) :
    Steady payload.status payload.status (m.settle payload).1 ∧ (m.settle payload).2 = payload := by
  rw [FeedHealthMonitor.settle, h]
  exact ⟨⟨rfl, rfl⟩, rfl⟩

theorem settle_changed {first raw : FeedStatus} {m : FeedHealthMonitor} (h : Steady first raw m)
    {payload : FeedTelemetry} (hraw : payload.status ≠ raw) :
    Steady first payload.status (m.settle payload).1 ∧ (m.settle payload).2.status = first := by
  have hne : ¬ m.lastRaw = some payload.status := by
    rw [h.lastRaw]
    exact fun heq => hraw (Option.some.inj heq).symm
  rw [FeedHealthMonitor.settle, h.stable]
  simp only [if_neg hne]
  exact ⟨⟨rfl, rfl⟩, trivial⟩

theorem settle_repeated {first : FeedStatus} {m : FeedHealthMonitor} {payload : FeedTelemetry}
    (h : Steady first payload.status m) : (m.settle payload).2 = payload := by
  rw [FeedHealthMonitor.settle, h.stable]
  simp only [if_pos h.lastRaw]

theorem settle_same {first : FeedStatus} {m : FeedHealthMonitor} (h : Steady first first m)
    {payload : FeedTelemetry} (hraw : payload.status = first) : Steady first first (m.settle payload).1 := by
  subst hraw
  rw [FeedHealthMonitor.settle, h.stable]
  simp only [if_pos h.lastRaw]
  exact ⟨h.lastRaw, ite_self _⟩

theorem settle_healthy (m : FeedHealthMonitor) (raw : RawTelemetry) :
    (m.settle raw.payload).2.isHealthyForTrading = true ↔ (m.settle raw.payload).2.status = .live := by
  have hraw : raw.payload.isHealthyForTrading = true ↔ raw.payload.status = .live := by
    rw [raw.healthy, decide_eq_true_eq]
  rw [FeedHealthMonitor.settle]
  split
  · exact hraw
  · split
    · exact hraw
    · exact decide_eq_true_iff

section Uncached
variable {polls : ℕ → Poll} {n : ℕ} (huncached : ∀ k ≤ n, (monitorAt polls k).Uncached (polls k))
include huncached

theorem published_eq {k : ℕ} (hk : k ≤ n) :
    published polls k = ((monitorAt polls k).settle (polls k).raw.payload).2 := by
  rw [published, FeedHealthMonitor.poll, FeedHealthMonitor.getTelemetry, huncached k hk]

/-- Writing the cache leaves the hysteresis as it is. -/
theorem steady_monitorAt {k : ℕ} (hk : k ≤ n) {first raw : FeedStatus}
    (h : Steady first raw ((monitorAt polls k).settle (polls k).raw.payload).1) :
    Steady first raw (monitorAt polls (k + 1)) := by
  rw [monitorAt, FeedHealthMonitor.poll, FeedHealthMonitor.getTelemetry, huncached k hk]
  exact ⟨h.lastRaw, h.stable⟩

/-- While no status but the first has come twice in a row, the first is published. -/
theorem steady_of_noPair {k : ℕ} (hk : k ≤ n) (hpair : NoPair polls k) :
    Steady (rawStatus polls 0) (rawStatus polls k) (monitorAt polls (k + 1)) ∧
      (published polls k).status = rawStatus polls 0 := by
  induction k with
  | zero =>
    obtain ⟨hsteady, hpayload⟩ := settle_first (monitorAt polls 0) rfl (polls 0).raw.payload
    refine ⟨steady_monitorAt huncached hk hsteady, ?_⟩
    rw [published_eq huncached hk, hpayload]
    rfl
  | succ k ih =>
    obtain ⟨hsteady, -⟩ := ih (Nat.le_of_succ_le hk) fun j hj => hpair j (Nat.lt_succ_of_lt hj)
    rw [published_eq huncached hk]
    by_cases hraw : rawStatus polls (k + 1) = rawStatus polls k
    · have hfirst := hpair k (Nat.lt_succ_self k) hraw
      rw [hfirst] at hraw hsteady
      have hnext := settle_same hsteady hraw
      refine ⟨steady_monitorAt huncached hk (hraw ▸ hnext), ?_⟩
      rw [← hraw] at hsteady
      rw [settle_repeated hsteady]
      exact hraw
    · obtain ⟨hnext, hstatus⟩ := settle_changed hsteady hraw
      exact ⟨steady_monitorAt huncached hk hnext, hstatus⟩

/-- The published status keeps to the hysteresis, over every sequence of polls that the cache does not answer,
exactly as long as no status but the first comes twice in a row: it then never changes. -/
theorem hysteretic_iff : Hysteretic polls n ↔ NoPair polls n := by
  constructor
  · intro h k hk
    induction k using Nat.strong_induction_on with
    | _ k ih =>
      intro hraw
      by_contra hother
      have hpair : NoPair polls k := fun j hj => ih j hj (hj.trans hk)
      obtain ⟨hsteady, hstatus⟩ := steady_of_noPair huncached hk.le hpair
      rw [← hraw] at hsteady
      -- the second of a pair is published although the one before it was not
      have hsecond : (published polls (k + 1)).status = rawStatus polls k := by
        rw [published_eq huncached hk, settle_repeated hsteady]
        exact hraw
      have hchanged : (published polls (k + 1)).status ≠ (published polls k).status := by
        rw [hsecond, hstatus]
        exact hother
      obtain ⟨j, rfl, -, hthird, -⟩ := h.confirmed k hk hchanged
      exact hother (hthird.trans (hpair j (Nat.lt_succ_self j) hthird))
  · intro hpair
    have hfirst : ∀ k ≤ n, (published polls k).status = rawStatus polls 0 := fun k hk =>
      (steady_of_noPair huncached hk fun j hj => hpair j (hj.trans_le hk)).2
    refine ⟨fun k hk hchanged => ?_, fun k hk => ?_⟩
    · exact absurd ((hfirst (k + 1) hk).trans (hfirst k hk.le).symm) hchanged
    · rw [published_eq huncached hk]
      exact settle_healthy _ _

end Uncached

theorem uncached_of_skipped {m : FeedHealthMonitor} {p : Poll} (h : p.useCache = false) : m.Uncached p := by
  rw [FeedHealthMonitor.Uncached, FeedHealthMonitor.fresh, h]
  simp

def tickedBefore (age : ℚ) : PipelineReadings where
  marketOpen := true
  sessionReason := "MARKET_OPEN"
  usableToken := true
  isRunning := true
  tickAgeS := some age
  strikes := 20
  chainAgeMs := 1000
  ltpMarks := 20

/-- Polls past the cache, once a second, at given tick ages. -/
def polledAt (age : ℕ → ℚ) (k : ℕ) : Poll where
  useCache := false
  nowNs := k * 1000000000
  raw := computeTelemetry (tickedBefore (age k))

/-- A feed that is stale at every second poll is published as live throughout. -/
theorem hysteretic_iff_flapping : Hysteretic (polledAt fun k => if k % 2 = 0 then 2 else 30) 3 := by
  refine (hysteretic_iff (fun _ _ => uncached_of_skipped rfl)).mpr ?_
  rw [NoPair]
  decide +kernel

/-- Two stale polls after a live one publish STALE, one poll early. -/
theorem stale_pair_published :
    ¬ ∀ (polls : ℕ → Poll) (n : ℕ), (∀ k ≤ n, (monitorAt polls k).Uncached (polls k)) → Hysteretic polls n := by
  intro hall
  have hrun := hall (polledAt fun k => if k = 0 then 2 else 30) 2 fun _ _ => uncached_of_skipped rfl
  have hchanged : (published (polledAt fun k => if k = 0 then 2 else 30) 2).status ≠
      (published (polledAt fun k => if k = 0 then 2 else 30) 1).status := by decide +kernel
  obtain ⟨j, hj, -, hthird, -⟩ := hrun.confirmed 1 (by decide) hchanged
  obtain rfl : j = 0 := (Nat.succ.inj hj).symm
  revert hthird
  decide +kernel

end Droid.Safety
