import Droid.Lib.Text
import Mathlib.Data.Rat.Defs
import Mathlib.Data.List.Sort
import Mathlib.Data.List.Dedup
import Mathlib.Data.List.Pairwise
import Mathlib.Algebra.Order.Ring.Rat

/-! Candle frames: what the provider's answer becomes, how frames are merged, and how one-minute
candles are resampled. -/
namespace Droid.History
open Lib Text

/-- One row of the canonical schema; the timestamp is in milliseconds, UTC. -/
structure Candle where
  timestamp : Int
  symbol : String
  exchange : String
  assetType : String
  timeframe : String
  openPrice : ℚ
  high : ℚ
  low : ℚ
  close : ℚ
  volume : ℚ
  provider : String
  ingestionJobId : String
  dataVersion : String
  deriving DecidableEq, Repr

abbrev Frame : Type := List Candle

/-- The columns that `unique` compares. -/
def Candle.key (c : Candle) : String × String × Int := (c.symbol, c.timeframe, c.timestamp)

def stamps (df : Frame) : List Int := df.map Candle.timestamp

/-- The library that frames are computed and written with. Which row of a key `unique` keeps, and in
what order, is not specified; nor is the order of equal timestamps after `sort`. -/
structure Polars where
  unique : Frame → Frame
  mem_unique : ∀ {df : Frame} {c : Candle}, c ∈ unique df → c ∈ df
  unique_nodup : ∀ df : Frame, ((unique df).map Candle.key).Nodup
  unique_covers : ∀ {df : Frame} {c : Candle}, c ∈ df → ∃ d ∈ unique df, d.key = c.key
  sort : Frame → Frame
  sort_perm : ∀ df : Frame, (sort df).Perm df
  sort_ordered : ∀ df : Frame, (sort df).Pairwise fun a b => a.timestamp ≤ b.timestamp
  /-- `write_parquet_atomic`: the digest of the file that is written. -/
  checksum : Frame → String

/-- `.unique(subset=["symbol", "timeframe", "timestamp"]).sort("timestamp")`. -/
def Polars.tidy (pl : Polars) (df : Frame) : Frame := pl.sort (pl.unique df)

/-! The provider. -/

def symbolMap : List (String × String) := [
  ("SENSEX", "BSE:SENSEX-INDEX"),
  ("BSE:SENSEX", "BSE:SENSEX-INDEX"),
  ("BSE:SENSEX-INDEX", "BSE:SENSEX-INDEX"),
  ("NIFTY", "NSE:NIFTY50-INDEX"),
  ("NIFTY 50", "NSE:NIFTY50-INDEX"),
  ("NSE:NIFTY", "NSE:NIFTY50-INDEX"),
  ("NSE:NIFTY50-INDEX", "NSE:NIFTY50-INDEX"),
  ("BANKNIFTY", "NSE:NIFTYBANK-INDEX"),
  ("NSE:BANKNIFTY", "NSE:NIFTYBANK-INDEX"),
  ("NSE:NIFTYBANK-INDEX", "NSE:NIFTYBANK-INDEX"),
  ("FINNIFTY", "NSE:FINNIFTY-INDEX"),
  ("NSE:FINNIFTY", "NSE:FINNIFTY-INDEX"),
  ("NSE:FINNIFTY-INDEX", "NSE:FINNIFTY-INDEX"),
  ("INDIA VIX", "NSE:INDIAVIX-INDEX"),
  ("INDIAVIX", "NSE:INDIAVIX-INDEX"),
  ("NSE:INDIAVIX-INDEX", "NSE:INDIAVIX-INDEX")]

def timeframeMap : List String :=
  ["1m", "1", "1min", "2m", "3m", "5m", "5", "10m", "15m", "15", "30m", "30", "60m", "1h", "60",
    "1d", "d", "daily"]

def resolveProviderSymbol (canonicalSymbol : String) : String :=
  let symClean := upper (strip canonicalSymbol)
  (symbolMap.lookup symClean).getD symClean

def supported (timeframe : String) : Bool := decide (lower (strip timeframe) ∈ timeframeMap)

def oneMinute (timeframe : String) : Bool := decide (lower timeframe ∈ ["1m", "1", "1min"])

/-- A candle as the broker sends it, its time in seconds. -/
structure RawCandle where
  epoch : Int
  openPrice : ℚ
  high : ℚ
  low : ℚ
  close : ℚ
  volume : Option ℚ := none
  deriving DecidableEq, Repr

abbrev Answer : Type := Option (List RawCandle)

def normalize (symbol timeframe jobId : String) (raw : RawCandle) : Candle :=
  let resolved := resolveProviderSymbol symbol
  { timestamp := raw.epoch * 1000
    symbol
    exchange := if hasText resolved "BSE" then "BSE" else "NSE"
    assetType :=
      if hasText resolved "INDEX" ∨ symbol ∈ ["SENSEX", "NIFTY", "BANKNIFTY"] then "INDEX" else "EQUITY"
    timeframe
    openPrice := raw.openPrice, high := raw.high, low := raw.low, close := raw.close
    volume := raw.volume.getD 0
    provider := "fyers"
    ingestionJobId := jobId
    dataVersion := "v1" }

/-- `fetch_candles` over a range of one chunk; none is an exception. -/
def fetchCandles (pl : Polars) (symbol timeframe jobId : String) (answer : Answer) : Option Frame :=
  if supported timeframe then
    answer.map fun raws => if raws = [] then [] else pl.tidy (raws.map (normalize symbol timeframe jobId))
  else none

def maxChunkDays : Int := 95

def chunksFrom : Nat → Int → Int → List (Int × Int)
  | 0, _, _ => []
  | fuel + 1, currStart, endDate =>
    if currStart ≤ endDate then
      let currEnd := min (currStart + (maxChunkDays - 1)) endDate
      (currStart, currEnd) :: chunksFrom fuel (currEnd + 1) endDate
    else []

def splitDateRange (startDate endDate : Int) : Option (List (Int × Int)) :=
  if endDate < startDate then none
  else some (chunksFrom ((endDate - startDate).toNat + 1) startDate endDate)

/-! Resampling. -/

def minuteMs : Int := 60000

def timeframeDeltas : List (String × Int) := [
  ("5m", 5 * minuteMs), ("15m", 15 * minuteMs), ("30m", 30 * minuteMs),
  ("60m", 60 * minuteMs), ("1h", 60 * minuteMs),
  ("1d", 1440 * minuteMs), ("d", 1440 * minuteMs)]

def windowStart (every t : Int) : Int := t - t % every

def aggregate (targetTimeframe : String) (start : Int) : Frame → Option Candle
  | [] => none
  | c :: cs => some { c with
      timestamp := start
      timeframe := targetTimeframe
      high := cs.foldl (fun x d => max x d.high) c.high
      low := cs.foldl (fun x d => min x d.low) c.low
      close := (cs.getLast?.getD c).close
      volume := ((c :: cs).map Candle.volume).sum }

/-- `resample_1m_candles`; none is the error for an unsupported timeframe. -/
def resample1mCandles (pl : Polars) (df : Frame) (targetTimeframe : String) : Option Frame :=
  if df = [] ∨ oneMinute targetTimeframe then some df
  else
    (timeframeDeltas.lookup (lower targetTimeframe)).map fun every =>
      let df := pl.sort df
      let starts := (df.map fun c => windowStart every c.timestamp).dedup
      pl.sort (starts.filterMap fun start =>
        aggregate targetTimeframe start
          (df.filter fun c => decide (windowStart every c.timestamp = start)))

namespace Polars
variable (pl : Polars)

/-- A merge loses no timestamp and makes none up. -/
@[simp] theorem mem_stamps_tidy (df : Frame) (t : Int) : t ∈ stamps (pl.tidy df) ↔ t ∈ stamps df := by
  have hsort : t ∈ stamps (pl.tidy df) ↔ t ∈ stamps (pl.unique df) :=
    ((pl.sort_perm (pl.unique df)).map _).mem_iff
  rw [hsort, stamps, stamps, List.mem_map, List.mem_map]
  constructor
  · rintro ⟨c, hc, rfl⟩
    exact ⟨c, pl.mem_unique hc, rfl⟩
  · rintro ⟨c, hc, rfl⟩
    obtain ⟨d, hd, hkey⟩ := pl.unique_covers hc
    exact ⟨d, hd, congrArg (fun k => k.2.2) hkey⟩

theorem mem_tidy {df : Frame} {c : Candle} (h : c ∈ pl.tidy df) : c ∈ df :=
  pl.mem_unique ((pl.sort_perm _).mem_iff.mp h)

theorem tidy_eq_nil {df : Frame} : pl.tidy df = [] ↔ df = [] := by
  have hstamps (f : Frame) : f = [] ↔ ∀ t, t ∉ stamps f := by
    rw [← List.eq_nil_iff_forall_not_mem, stamps, List.map_eq_nil_iff]
  rw [hstamps, hstamps]
  simp only [mem_stamps_tidy]

/-- Rows of one spelling have each timestamp once. -/
theorem stamps_tidy_nodup {df : Frame}
    (h : ∀ a ∈ df, ∀ b ∈ df, a.timestamp = b.timestamp → a.key = b.key) :
    (stamps (pl.tidy df)).Nodup := by
  have hperm : (stamps (pl.tidy df)).Perm (stamps (pl.unique df)) := (pl.sort_perm _).map _
  rw [hperm.nodup_iff]
  have hpair := List.pairwise_map.mp (pl.unique_nodup df)
  apply List.pairwise_map.mpr
  refine List.Pairwise.imp_of_mem ?_ hpair
  intro a b ha hb hab ht
  exact hab (h a (pl.mem_unique ha) b (pl.mem_unique hb) ht)

end Polars

/-- A library that keeps the last row of each key, sorts by insertion and has the timestamps for a
digest. -/
def plainPolars : Polars where
  unique := List.pwFilter fun a b => a.key ≠ b.key
  mem_unique := fun h => (List.pwFilter_sublist _).subset h
  unique_nodup := fun df => List.pairwise_map.mpr (List.pairwise_pwFilter df)
  unique_covers := by
    intro df c hc
    by_contra hnone
    push Not at hnone
    have hkeys : ∀ d ∈ df, c.key ≠ d.key := by
      apply (List.forall_mem_pwFilter (R := fun a b : Candle => a.key ≠ b.key) _ c df).mp
      · intro d hd
        exact (hnone d hd).symm
      · intro x y z hxz
        by_contra hxy
        rw [not_or, not_not, not_not] at hxy
        exact hxz (hxy.1.trans hxy.2)
    exact hkeys c hc rfl
  sort := List.insertionSort fun a b => a.timestamp ≤ b.timestamp
  sort_perm := List.perm_insertionSort _
  sort_ordered := by
    have : Std.Total fun a b : Candle => a.timestamp ≤ b.timestamp := ⟨fun a b => Int.le_total _ _⟩
    have : IsTrans Candle fun a b => a.timestamp ≤ b.timestamp := ⟨fun _ _ _ => Int.le_trans⟩
    exact List.pairwise_insertionSort _
  checksum := fun df => String.intercalate "," (df.map fun c => toString c.timestamp)

theorem fetchCandles_spelled {pl : Polars} {symbol timeframe jobId : String} {answer : Answer}
    {df : Frame} (h : fetchCandles pl symbol timeframe jobId answer = some df) :
    ∀ c ∈ df, c.symbol = symbol ∧ c.timeframe = timeframe := by
  rw [fetchCandles] at h
  split at h
  · obtain ⟨raws, -, rfl⟩ := Option.map_eq_some_iff.mp h
    intro c hc
    split at hc
    · cases hc
    · obtain ⟨raw, -, rfl⟩ := List.mem_map.mp (pl.mem_tidy hc)
      exact ⟨rfl, rfl⟩
  · cases h

theorem supported_of_fetchCandles {pl : Polars} {symbol timeframe jobId : String} {answer : Answer}
    {df : Frame} (h : fetchCandles pl symbol timeframe jobId answer = some df) :
    supported timeframe = true := by
  by_contra hs
  rw [fetchCandles, if_neg hs] at h
  cases h

theorem underscore_notMem_of_supported {timeframe : String} (h : supported timeframe = true) :
    '_' ∉ timeframe.toList := by
  intro hmem
  have hstripped := (mem_lower (by decide) _).mpr (mem_strip (by decide) hmem)
  have hmap : ∀ tf ∈ timeframeMap, '_' ∉ tf.toList := by decide
  exact hmap _ (of_decide_eq_true h) hstripped

theorem underscore_notMem_of_delta {timeframe : String} {every : Int}
    (h : timeframeDeltas.lookup (lower timeframe) = some every) : '_' ∉ timeframe.toList := by
  intro hmem
  have hlower := (mem_lower (by decide) _).mpr hmem
  have hmap : ∀ e ∈ timeframeDeltas, '_' ∉ e.1.toList := by decide
  obtain ⟨e, he, hkey⟩ : ∃ e ∈ timeframeDeltas, e.1 = lower timeframe := by
    by_contra hnone
    push Not at hnone
    rw [List.lookup_eq_none_iff.mpr fun e he => bne_iff_ne.mpr (hnone e he).symm] at h
    cases h
  exact hmap e he (hkey ▸ hlower)

end Droid.History
