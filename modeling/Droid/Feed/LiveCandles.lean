import Droid.Feed.DataQuality
import Droid.Lib.Adjacent
import Droid.Lib.Text
import Droid.Lib.Rounding

/-! Live one-minute candles: ticks that the data quality engine accepts are folded into the bucket of their minute,
which the first tick of a later minute closes. -/
namespace Droid.Feed
open Lib

def SYMBOL_ALIASES : List (String × String) :=
  [("NIFTY", "NIFTY 50"), ("NIFTY50", "NIFTY 50"), ("NIFTY 50", "NIFTY 50"), ("BANKNIFTY", "BANKNIFTY"),
    ("BANK NIFTY", "BANKNIFTY"), ("SENSEX", "SENSEX"), ("BSE:SENSEX", "SENSEX"), ("FINNIFTY", "FINNIFTY"),
    ("INDIA VIX", "INDIA VIX")]

def canonicalSymbol (symbol : String) : String :=
  let key := Text.upper (Text.strip symbol)
  (SYMBOL_ALIASES.lookup key).getD key

def minuteStart (ts : Int) : Int := ts - ts % 60000000

def minuteStartMs (ts : Int) : Int := minuteStart ts / 1000

structure Candle where
  timestamp : Int
  openPrice : ℚ
  high : ℚ
  low : ℚ
  close : ℚ
  volume : ℚ
  deriving DecidableEq

/-- The minute in progress; the last counter is the one its volume was counted from. -/
structure Bucket where
  minute : Int
  openPrice : ℚ
  high : ℚ
  low : ℚ
  close : ℚ
  volume : Int := 0
  ticks : Nat := 1
  lastCum : Option Int := none
  deriving DecidableEq

namespace Bucket

def addVolume (bucket : Bucket) (tick : TickEvent) : Bucket :=
  if tick.volume ≤ 0 then bucket
  else
    let delta :=
      match bucket.lastCum with
      | none => 0
      | some last => if last ≤ tick.volume then tick.volume - last else tick.volume
    { bucket with volume := bucket.volume + max 0 delta, lastCum := some tick.volume }

def newBucket (minute : Int) (price : ℚ) (tick : TickEvent) : Bucket :=
  addVolume { minute, openPrice := price, high := price, low := price, close := price } tick

/-- A further tick of the same minute. -/
def extend (bucket : Bucket) (price : ℚ) (tick : TickEvent) : Bucket :=
  addVolume
    { bucket with
      high := if bucket.high < price then price else bucket.high
      low := if price < bucket.low then price else bucket.low
      close := price
      ticks := bucket.ticks + 1 } tick

def candle (bucket : Bucket) : Candle where
  timestamp := minuteStartMs bucket.minute
  openPrice := roundTo 4 bucket.openPrice
  high := roundTo 4 bucket.high
  low := roundTo 4 bucket.low
  close := roundTo 4 bucket.close
  volume := roundTo 2 bucket.volume

end Bucket

structure LiveCandleAggregator where
  maxBars : Nat := 600
  bars : Dict String (List Candle) := Dict.empty
  partials : Dict String Bucket := Dict.empty
  lastTickAt : Dict String Int := Dict.empty
  totalTicks : Nat := 0
  totalBarsClosed : Nat := 0

namespace LiveCandleAggregator

/-- A deque of bounded length lets its oldest candles go. -/
def pushBounded (maxBars : Nat) (bars : List Candle) (candle : Candle) : List Candle :=
  (bars ++ [candle]).drop (bars.length + 1 - maxBars)

def closeBucket (agg : LiveCandleAggregator) (key : String) (bucket : Bucket) : LiveCandleAggregator :=
  { agg with
    bars := agg.bars.insert key (pushBounded agg.maxBars ((agg.bars.get? key).getD []) bucket.candle)
    totalBarsClosed := agg.totalBarsClosed + 1 }

def onTick (agg : LiveCandleAggregator) (tick : TickEvent) : LiveCandleAggregator × Option Candle :=
  if tick.ltp ≤ 0 then (agg, none)
  else
    let key := canonicalSymbol tick.symbol
    let minute := minuteStart tick.timestamp
    let agg :=
      { agg with
        lastTickAt :=
          if (agg.lastTickAt.get? key).all (· < tick.timestamp) then agg.lastTickAt.insert key tick.timestamp
          else agg.lastTickAt
        totalTicks := agg.totalTicks + 1 }
    match agg.partials.get? key with
    | none =>
      ({ agg with partials := agg.partials.insert key (Bucket.newBucket minute tick.ltp tick) }, none)
    | some bucket =>
      if bucket.minute < minute then
        let closed := agg.closeBucket key bucket
        ({ closed with partials := closed.partials.insert key (Bucket.newBucket minute tick.ltp tick) },
          some bucket.candle)
      else if minute < bucket.minute then (agg, none)
      else ({ agg with partials := agg.partials.insert key (bucket.extend tick.ltp tick) }, none)

end LiveCandleAggregator

/-- The feed: what it validates its ticks with, and what it folds them into. -/
structure CentralMarketDataFeed where
  quality : DataQualityEngine := {}
  candles : LiveCandleAggregator := {}
  latestTicks : Dict String TickEvent := Dict.empty
  totalIngestedTicks : Nat := 0

/-- `ingest_tick` up to the write pipeline and the event buffer: the verdict, and the candle that is closed. -/
def CentralMarketDataFeed.ingestTick (feed : CentralMarketDataFeed) (tick : TickEvent) :
    CentralMarketDataFeed × Bool × Option Candle :=
  let (quality, validation) := feed.quality.validateTick tick
  if validation.isValid then
    let (candles, closed) := feed.candles.onTick tick
    ({ quality, candles
       latestTicks := feed.latestTicks.insert tick.symbol tick
       totalIngestedTicks := feed.totalIngestedTicks + 1 }, true, closed)
  else ({ feed with quality }, false, none)

/-! ### What a candle stands for -/

/-- The candle has the open, high, low and close of the ticks. -/
structure OhlcOf (candle : Candle) (ticks : List TickEvent) : Prop where
  first : ∃ tick, ticks.head? = some tick ∧ candle.openPrice = tick.ltp
  last : ∃ tick, ticks.getLast? = some tick ∧ candle.close = tick.ltp
  high : (∃ tick ∈ ticks, candle.high = tick.ltp) ∧ ∀ tick ∈ ticks, tick.ltp ≤ candle.high
  low : (∃ tick ∈ ticks, candle.low = tick.ltp) ∧ ∀ tick ∈ ticks, candle.low ≤ tick.ltp

def minuteTicks (ticks : List TickEvent) (ms : Int) : List TickEvent :=
  ticks.filter fun tick => minuteStartMs tick.timestamp = ms

/-- The last counter minus the first positive one. -/
def tradedVolume (ticks : List TickEvent) : Int :=
  match ticks.find? (0 < ·.volume), ticks.getLast? with
  | some first, some last => last.volume - first.volume
  | _, _ => 0

/-- What the counter rises by from a tick to the next, once it counts. -/
def counterRise (a b : TickEvent) : Int := if 0 < a.volume then b.volume - a.volume else 0

/-! ### Buckets -/

namespace Bucket

structure HoldsOf (bucket : Bucket) (ticks : List TickEvent) : Prop where
  first : ∃ tick, ticks.head? = some tick ∧ bucket.openPrice = tick.ltp
  last : ∃ tick, ticks.getLast? = some tick ∧ bucket.close = tick.ltp
  high : (∃ tick ∈ ticks, bucket.high = tick.ltp) ∧ ∀ tick ∈ ticks, tick.ltp ≤ bucket.high
  low : (∃ tick ∈ ticks, bucket.low = tick.ltp) ∧ ∀ tick ∈ ticks, bucket.low ≤ tick.ltp

section Facts
variable (bucket : Bucket) (tick : TickEvent)

theorem addVolume_fields :
    (bucket.addVolume tick).minute = bucket.minute ∧ (bucket.addVolume tick).openPrice = bucket.openPrice ∧
      (bucket.addVolume tick).high = bucket.high ∧ (bucket.addVolume tick).low = bucket.low ∧
      (bucket.addVolume tick).close = bucket.close := by
  rw [addVolume]
  split <;> exact ⟨rfl, rfl, rfl, rfl, rfl⟩

theorem candle_volume : bucket.candle.volume = bucket.volume :=
  IsDecimal.roundTo_eq ⟨bucket.volume * 10 ^ 2, by push_cast; ring⟩

theorem newBucket_holds (minute : Int) : (newBucket minute tick.ltp tick).HoldsOf [tick] := by
  obtain ⟨-, hopen, hhigh, hlow, hclose⟩ := addVolume_fields
    { minute, openPrice := tick.ltp, high := tick.ltp, low := tick.ltp, close := tick.ltp } tick
  refine ⟨⟨tick, rfl, hopen⟩, ⟨tick, rfl, hclose⟩, ⟨⟨tick, List.mem_cons_self, hhigh⟩, ?_⟩,
    ⟨⟨tick, List.mem_cons_self, hlow⟩, ?_⟩⟩
  · intro other hother
    rw [List.mem_singleton.mp hother]
    exact hhigh.ge
  · intro other hother
    rw [List.mem_singleton.mp hother]
    exact hlow.le

variable {bucket}

theorem extend_holds {ticks : List TickEvent} (h : bucket.HoldsOf ticks) :
    (bucket.extend tick.ltp tick).HoldsOf (ticks ++ [tick]) := by
  obtain ⟨⟨first, hfirst, hopen⟩, -, ⟨⟨top, htop, hhigh⟩, hle⟩, ⟨bottom, hbottom, hlow⟩, hge⟩ := h
  obtain ⟨-, hopen', hhigh', hlow', hclose'⟩ := addVolume_fields
    { bucket with
      high := if bucket.high < tick.ltp then tick.ltp else bucket.high
      low := if tick.ltp < bucket.low then tick.ltp else bucket.low
      close := tick.ltp
      ticks := bucket.ticks + 1 } tick
  have hmem : tick ∈ ticks ++ [tick] := List.mem_append_right ticks List.mem_cons_self
  refine ⟨⟨first, ?_, hopen'.trans hopen⟩, ⟨tick, List.getLast?_concat, hclose'⟩, ⟨?_, ?_⟩, ⟨?_, ?_⟩⟩
  · rw [List.head?_append, hfirst, Option.some_or]
  · rw [extend, hhigh']
    dsimp only
    split
    · exact ⟨tick, hmem, rfl⟩
    · exact ⟨top, List.mem_append_left _ htop, hhigh⟩
  · rw [extend, hhigh']
    dsimp only
    intro other hother
    split
    · rename_i hlt
      rcases List.mem_append.mp hother with hold | hnew
      · exact le_trans (hle other hold) hlt.le
      · rw [List.mem_singleton.mp hnew]
    · rename_i hge'
      rcases List.mem_append.mp hother with hold | hnew
      · exact hle other hold
      · rw [List.mem_singleton.mp hnew]
        exact not_lt.mp hge'
  · rw [extend, hlow']
    dsimp only
    split
    · exact ⟨tick, hmem, rfl⟩
    · exact ⟨bottom, List.mem_append_left _ hbottom, hlow⟩
  · rw [extend, hlow']
    dsimp only
    intro other hother
    split
    · rename_i hlt
      rcases List.mem_append.mp hother with hold | hnew
      · exact le_trans hlt.le (hge other hold)
      · rw [List.mem_singleton.mp hnew]
    · rename_i hle'
      rcases List.mem_append.mp hother with hold | hnew
      · exact hge other hold
      · rw [List.mem_singleton.mp hnew]
        exact not_lt.mp hle'

/-- The counter that a bucket counts from is that of the last tick, once it is positive. -/
def Counted (bucket : Bucket) (tick : TickEvent) : Prop :=
  bucket.lastCum = if 0 < tick.volume then some tick.volume else none

theorem newBucket_counted (minute : Int) (price : ℚ) :
    (newBucket minute price tick).Counted tick ∧ (newBucket minute price tick).volume = 0 ∧
      (newBucket minute price tick).minute = minute := by
  rw [Counted, newBucket, addVolume]
  by_cases hpos : 0 < tick.volume
  · rw [if_neg (not_le.mpr hpos), if_pos hpos]
    exact ⟨rfl, rfl, rfl⟩
  · rw [if_pos (not_lt.mp hpos), if_neg hpos]
    exact ⟨rfl, rfl, rfl⟩

theorem extend_counted (price : ℚ) {last : TickEvent} (h : bucket.Counted last) (hle : last.volume ≤ tick.volume) :
    (bucket.extend price tick).Counted tick ∧
      (bucket.extend price tick).volume = bucket.volume + counterRise last tick ∧
      (bucket.extend price tick).minute = bucket.minute := by
  rw [Counted, extend, addVolume, counterRise]
  rw [Counted] at h
  dsimp only
  by_cases hpos : 0 < tick.volume
  · rw [if_neg (not_le.mpr hpos), if_pos hpos]
    refine ⟨rfl, ?_, rfl⟩
    dsimp only
    rw [h]
    by_cases hlast : 0 < last.volume
    · rw [if_pos hlast, if_pos hlast]
      dsimp only
      rw [if_pos hle, max_eq_right (by omega)]
    · rw [if_neg hlast, if_neg hlast]
      rfl
  · have hlast : ¬0 < last.volume := fun h => hpos (by omega)
    rw [if_neg hlast] at h
    rw [if_pos (not_lt.mp hpos), if_neg hpos, if_neg hlast]
    exact ⟨h, (add_zero _).symm, rfl⟩

end Facts
end Bucket

/-! ### Minutes -/

theorem minuteStartMs_minuteStart (ts : Int) : minuteStartMs (minuteStart ts) = minuteStartMs ts := by
  rw [minuteStartMs, minuteStartMs, minuteStart, minuteStart]
  omega

theorem minuteStart_lt_iff (a b : Int) : minuteStart a < minuteStart b ↔ minuteStartMs a < minuteStartMs b := by
  rw [minuteStartMs, minuteStartMs, minuteStart, minuteStart]
  omega

theorem minuteStart_eq {a b : Int} (h : minuteStartMs a = minuteStartMs b) : minuteStart a = minuteStart b := by
  rw [minuteStartMs, minuteStartMs, minuteStart, minuteStart] at h
  rw [minuteStart, minuteStart]
  omega

theorem minuteStartMs_mono {a b : Int} (h : a ≤ b) : minuteStartMs a ≤ minuteStartMs b := by
  rw [minuteStartMs, minuteStartMs, minuteStart, minuteStart]
  omega

theorem minuteTicks_snoc (ticks : List TickEvent) (tick : TickEvent) (ms : Int) :
    minuteTicks (ticks ++ [tick]) ms =
      minuteTicks ticks ms ++ if minuteStartMs tick.timestamp = ms then [tick] else [] := by
  rw [minuteTicks, List.filter_append]
  refine congrArg _ ?_
  by_cases h : minuteStartMs tick.timestamp = ms
  · rw [if_pos h, List.filter_cons, if_pos (decide_eq_true h), List.filter_nil]
  · rw [if_neg h, List.filter_cons, if_neg (mt of_decide_eq_true h), List.filter_nil]

/-! ### Runs of the aggregator -/

namespace LiveCandleAggregator

/-- The candles that a run closes, in their order. -/
def closedCandles (agg : LiveCandleAggregator) (ticks : List TickEvent) : List Candle :=
  (outputs onTick agg ticks).filterMap Prod.snd

/-- The rise of the counter within a minute. -/
def riseWithin (a b : TickEvent) : Int :=
  if minuteStartMs a.timestamp = minuteStartMs b.timestamp then counterRise a b else 0

/-- The rise of the counter from a minute to a later one. -/
def riseAcross (a b : TickEvent) : Int :=
  if minuteStartMs a.timestamp = minuteStartMs b.timestamp then 0 else counterRise a b

structure Built (ticks : List TickEvent) (last : TickEvent) (closed : List Candle) (bucket : Bucket) : Prop where
  minute : bucket.minute = minuteStart last.timestamp
  holds : bucket.HoldsOf (minuteTicks ticks (minuteStartMs last.timestamp))
  counted : bucket.Counted last
  increasing : closed.Pairwise fun a b => a.timestamp < b.timestamp
  earlier : ∀ candle ∈ closed, candle.timestamp < minuteStartMs last.timestamp
  candles : ∀ candle ∈ closed, ∃ b : Bucket, candle = b.candle ∧ b.HoldsOf (minuteTicks ticks candle.timestamp)
  covered : ∀ tick ∈ ticks, minuteStartMs tick.timestamp < minuteStartMs last.timestamp →
    ∃ candle ∈ closed, candle.timestamp = minuteStartMs tick.timestamp
  none_later : ∀ tick ∈ ticks, minuteStartMs tick.timestamp ≤ minuteStartMs last.timestamp
  volume : (closed.map Candle.volume).sum + bucket.volume = sumAdjacent riseWithin ticks

section Steps
variable {agg : LiveCandleAggregator} {tick last : TickEvent} {bucket : Bucket} {closed : List Candle}
  {ticks : List TickEvent}

theorem onTick_first (hprice : 0 < tick.ltp) (h : agg.partials.get? (canonicalSymbol tick.symbol) = none) :
    (agg.onTick tick).2 = none ∧
      (agg.onTick tick).1.partials.get? (canonicalSymbol tick.symbol) =
        some (Bucket.newBucket (minuteStart tick.timestamp) tick.ltp tick) ∧
      (agg.onTick tick).1.bars = agg.bars ∧ (agg.onTick tick).1.maxBars = agg.maxBars := by
  rw [onTick, if_neg (not_le.mpr hprice)]
  dsimp only
  rw [h]
  refine ⟨rfl, ?_, rfl, rfl⟩
  rw [Dict.get?_insert, if_pos rfl]

theorem onTick_roll (hprice : 0 < tick.ltp) (h : agg.partials.get? (canonicalSymbol tick.symbol) = some bucket)
    (hlt : bucket.minute < minuteStart tick.timestamp) :
    (agg.onTick tick).2 = some bucket.candle ∧
      (agg.onTick tick).1.partials.get? (canonicalSymbol tick.symbol) =
        some (Bucket.newBucket (minuteStart tick.timestamp) tick.ltp tick) ∧
      (agg.onTick tick).1.bars.get? (canonicalSymbol tick.symbol) =
        some (pushBounded agg.maxBars ((agg.bars.get? (canonicalSymbol tick.symbol)).getD []) bucket.candle) ∧
      (agg.onTick tick).1.maxBars = agg.maxBars := by
  rw [onTick, if_neg (not_le.mpr hprice)]
  dsimp only
  rw [h]
  dsimp only
  rw [if_pos hlt, closeBucket]
  refine ⟨rfl, ?_, ?_, rfl⟩
  · rw [Dict.get?_insert, if_pos rfl]
  · rw [Dict.get?_insert, if_pos rfl]

theorem onTick_same (hprice : 0 < tick.ltp) (h : agg.partials.get? (canonicalSymbol tick.symbol) = some bucket)
    (heq : bucket.minute = minuteStart tick.timestamp) :
    (agg.onTick tick).2 = none ∧
      (agg.onTick tick).1.partials.get? (canonicalSymbol tick.symbol) = some (bucket.extend tick.ltp tick) ∧
      (agg.onTick tick).1.bars = agg.bars ∧ (agg.onTick tick).1.maxBars = agg.maxBars := by
  rw [onTick, if_neg (not_le.mpr hprice)]
  dsimp only
  rw [h]
  dsimp only
  rw [if_neg heq.not_lt, if_neg heq.not_gt]
  refine ⟨rfl, ?_, rfl, rfl⟩
  rw [Dict.get?_insert, if_pos rfl]

theorem built_first (tick : TickEvent) :
    Built [tick] tick [] (Bucket.newBucket (minuteStart tick.timestamp) tick.ltp tick) := by
  obtain ⟨hcounted, hvolume, hminute⟩ := Bucket.newBucket_counted tick (minuteStart tick.timestamp) tick.ltp
  have hticks : minuteTicks [tick] (minuteStartMs tick.timestamp) = [tick] := by simp [minuteTicks]
  refine ⟨hminute, ?_, hcounted, List.Pairwise.nil, List.forall_mem_nil _, List.forall_mem_nil _, ?_, ?_, ?_⟩
  · rw [hticks]
    exact Bucket.newBucket_holds tick _
  · intro other hother hlt
    rw [List.mem_singleton.mp hother] at hlt
    exact absurd hlt (lt_irrefl _)
  · intro other hother
    rw [List.mem_singleton.mp hother]
  · simp [hvolume, sumAdjacent]

theorem Built.extend (h : Built (ticks ++ [last]) last closed bucket)
    (hsame : minuteStartMs tick.timestamp = minuteStartMs last.timestamp) (hvolume : last.volume ≤ tick.volume) :
    Built (ticks ++ [last] ++ [tick]) tick closed (bucket.extend tick.ltp tick) := by
  obtain ⟨hcounted, hrise, hminute⟩ := Bucket.extend_counted tick tick.ltp h.counted hvolume
  refine ⟨?_, ?_, hcounted, h.increasing, ?_, ?_, ?_, ?_, ?_⟩
  · rw [hminute, h.minute]
    exact minuteStart_eq hsame.symm
  · rw [hsame, minuteTicks_snoc, if_pos hsame]
    exact Bucket.extend_holds tick h.holds
  · rw [hsame]
    exact h.earlier
  · intro candle hcandle
    obtain ⟨b, hb, hholds⟩ := h.candles candle hcandle
    refine ⟨b, hb, ?_⟩
    rw [minuteTicks_snoc, if_neg, List.append_nil]
    · exact hholds
    · rw [hsame]
      exact (h.earlier candle hcandle).ne'
  · intro other hother hlt
    rw [hsame] at hlt
    rcases List.mem_append.mp hother with hold | hnew
    · exact h.covered other hold hlt
    · rw [List.mem_singleton.mp hnew, hsame] at hlt
      exact absurd hlt (lt_irrefl _)
  · intro other hother
    rw [hsame]
    rcases List.mem_append.mp hother with hold | hnew
    · exact h.none_later other hold
    · rw [List.mem_singleton.mp hnew, hsame]
  · rw [hrise, sumAdjacent_snoc, Int.cast_add, Int.cast_add, ← h.volume, riseWithin, if_pos hsame.symm]
    exact (add_assoc _ _ _).symm

theorem Built.roll (h : Built (ticks ++ [last]) last closed bucket)
    (hlater : minuteStartMs last.timestamp < minuteStartMs tick.timestamp) :
    Built (ticks ++ [last] ++ [tick]) tick (closed ++ [bucket.candle])
      (Bucket.newBucket (minuteStart tick.timestamp) tick.ltp tick) := by
  obtain ⟨hcounted, hzero, hminute⟩ := Bucket.newBucket_counted tick (minuteStart tick.timestamp) tick.ltp
  have hstamp : bucket.candle.timestamp = minuteStartMs last.timestamp := by
    rw [Bucket.candle, h.minute]
    exact minuteStartMs_minuteStart last.timestamp
  have hnone : minuteTicks (ticks ++ [last]) (minuteStartMs tick.timestamp) = [] := by
    rw [minuteTicks, List.filter_eq_nil_iff]
    intro other hother
    rw [decide_eq_true_eq]
    exact (lt_of_le_of_lt (h.none_later other hother) hlater).ne
  refine ⟨hminute, ?_, hcounted, ?_, ?_, ?_, ?_, ?_, ?_⟩
  · rw [minuteTicks_snoc, if_pos rfl, hnone, List.nil_append]
    exact Bucket.newBucket_holds tick _
  · rw [List.pairwise_append]
    refine ⟨h.increasing, List.pairwise_singleton _ _, ?_⟩
    intro candle hcandle other hother
    rw [List.mem_singleton.mp hother, hstamp]
    exact h.earlier candle hcandle
  · intro candle hcandle
    rcases List.mem_append.mp hcandle with hold | hnew
    · exact (h.earlier candle hold).trans hlater
    · rw [List.mem_singleton.mp hnew, hstamp]
      exact hlater
  · intro candle hcandle
    rcases List.mem_append.mp hcandle with hold | hnew
    · obtain ⟨b, hb, hholds⟩ := h.candles candle hold
      refine ⟨b, hb, ?_⟩
      rw [minuteTicks_snoc, if_neg, List.append_nil]
      · exact hholds
      · exact ((h.earlier candle hold).trans hlater).ne'
    · rw [List.mem_singleton.mp hnew, hstamp]
      refine ⟨bucket, rfl, ?_⟩
      rw [minuteTicks_snoc, if_neg hlater.ne', List.append_nil]
      exact h.holds
  · intro other hother hlt
    rcases List.mem_append.mp hother with hold | hnew
    · rcases (h.none_later other hold).lt_or_eq with hbefore | hsame
      · obtain ⟨candle, hcandle, hequal⟩ := h.covered other hold hbefore
        exact ⟨candle, List.mem_append_left _ hcandle, hequal⟩
      · exact ⟨bucket.candle, List.mem_append_right _ List.mem_cons_self, hstamp.trans hsame.symm⟩
    · rw [List.mem_singleton.mp hnew] at hlt
      exact absurd hlt (lt_irrefl _)
  · intro other hother
    rcases List.mem_append.mp hother with hold | hnew
    · exact (h.none_later other hold).trans hlater.le
    · rw [List.mem_singleton.mp hnew]
  · rw [hzero, sumAdjacent_snoc, riseWithin, if_neg hlater.ne, add_zero, ← h.volume, List.map_append, List.sum_append,
      List.map_singleton, List.sum_singleton, Bucket.candle_volume, Int.cast_zero, add_zero]

end Steps

/-! ### Runs -/

theorem pushBounded_drop (maxBars : Nat) (closed : List Candle) (candle : Candle) :
    pushBounded maxBars (closed.drop (closed.length - maxBars)) candle =
      (closed ++ [candle]).drop (closed.length + 1 - maxBars) := by
  rw [pushBounded, List.length_drop]
  rcases le_or_gt closed.length maxBars with hle | hgt
  · rw [Nat.sub_eq_zero_of_le hle, List.drop_zero, Nat.sub_zero]
  · have hkept : closed.length - (closed.length - maxBars) + 1 - maxBars = 1 := by omega
    have hdropped : closed.length + 1 - maxBars = closed.length - maxBars + 1 := by omega
    have happend : (closed ++ [candle]).drop (closed.length - maxBars) =
        closed.drop (closed.length - maxBars) ++ [candle] :=
      List.drop_append_of_le_length (Nat.sub_le _ _)
    rw [hkept, hdropped, ← List.drop_drop, happend]

/-- Ticks of one symbol that can follow each other: sound prices, in time, and under a counter that never falls. -/
structure Orderly (symbol : String) (ticks : List TickEvent) : Prop where
  symbol : ∀ tick ∈ ticks, tick.symbol = symbol
  price : ∀ tick ∈ ticks, 0 < tick.ltp
  inTime : ticks.IsChain fun a b => a.timestamp ≤ b.timestamp
  counter : ticks.IsChain fun a b => a.volume ≤ b.volume

theorem Orderly.of_append {symbol : String} {ticks more : List TickEvent} (h : Orderly symbol (ticks ++ more)) :
    Orderly symbol ticks where
  symbol := fun tick htick => h.symbol tick (List.mem_append_left _ htick)
  price := fun tick htick => h.price tick (List.mem_append_left _ htick)
  inTime := h.inTime.left_of_append
  counter := h.counter.left_of_append

theorem final_snoc (agg : LiveCandleAggregator) (ticks : List TickEvent) (tick : TickEvent) :
    final onTick agg (ticks ++ [tick]) = ((final onTick agg ticks).onTick tick).1 := final_append onTick agg ticks [tick]

theorem closedCandles_snoc (agg : LiveCandleAggregator) (ticks : List TickEvent) (tick : TickEvent) :
    closedCandles agg (ticks ++ [tick]) =
      closedCandles agg ticks ++ ((final onTick agg ticks).onTick tick).2.toList := by
  rw [closedCandles, outputs_append, List.filterMap_append]
  refine congrArg _ ?_
  rw [outputs_cons, outputs_nil, List.filterMap_cons]
  cases ((final onTick agg ticks).onTick tick).2 with
  | none => rfl
  | some candle => rfl

/-- What the aggregator has after orderly ticks: the bucket in progress, and of its candles the last ones. -/
structure After (agg : LiveCandleAggregator) (symbol : String) (maxBars : Nat) (ticks : List TickEvent)
    (last : TickEvent) (closed : List Candle) : Prop where
  built : ∃ bucket, agg.partials.get? (canonicalSymbol symbol) = some bucket ∧ Built ticks last closed bucket
  bars : (agg.bars.get? (canonicalSymbol symbol)).getD [] = closed.drop (closed.length - maxBars)
  maxBars : agg.maxBars = maxBars

theorem after_run {symbol : String} (maxBars : Nat) {ticks : List TickEvent} {last : TickEvent}
    (h : Orderly symbol (ticks ++ [last])) :
    After (final onTick { maxBars } (ticks ++ [last])) symbol maxBars (ticks ++ [last]) last
      (closedCandles { maxBars } (ticks ++ [last])) := by
  have hlast := h.symbol last (List.mem_append_right _ List.mem_cons_self)
  have hprice := h.price last (List.mem_append_right _ List.mem_cons_self)
  induction ticks using List.reverseRecOn generalizing last with
  | nil =>
    have hfresh : ({ maxBars } : LiveCandleAggregator).partials.get? (canonicalSymbol last.symbol) = none := rfl
    obtain ⟨houtput, hpartial, hbars, hmax⟩ := onTick_first hprice hfresh
    rw [final_snoc, closedCandles_snoc, final_nil, houtput]
    rw [hlast] at hpartial
    refine ⟨⟨_, hpartial, built_first last⟩, ?_, hmax⟩
    rw [hbars]
    simp [closedCandles, Dict.get?, Dict.empty]
  | append_singleton ticks tick ih =>
    have hticks := h.of_append
    obtain ⟨⟨bucket, hbucket, hbuilt⟩, hbars, hmax⟩ := ih hticks
      (hticks.symbol tick (List.mem_append_right _ List.mem_cons_self))
      (hticks.price tick (List.mem_append_right _ List.mem_cons_self))
    have htime : tick.timestamp ≤ last.timestamp := by
      have hchain := h.inTime
      rw [List.append_assoc] at hchain
      exact (List.isChain_cons_cons.mp hchain.right_of_append).1
    have hvolume : tick.volume ≤ last.volume := by
      have hchain := h.counter
      rw [List.append_assoc] at hchain
      exact (List.isChain_cons_cons.mp hchain.right_of_append).1
    rw [← hlast] at hbucket hbars ⊢
    rw [final_snoc, closedCandles_snoc]
    rcases (minuteStartMs_mono htime).lt_or_eq with hlater | hsame
    · have hlt : bucket.minute < minuteStart last.timestamp := by
        rw [hbuilt.minute]
        exact (minuteStart_lt_iff _ _).mpr hlater
      obtain ⟨houtput, hpartial, hbars', hmax'⟩ := onTick_roll hprice hbucket hlt
      rw [houtput]
      refine ⟨⟨_, hpartial, hbuilt.roll hlater⟩, ?_, hmax'.trans hmax⟩
      rw [hbars', Option.getD_some, hmax, hbars, pushBounded_drop, Option.toList_some, List.length_append]
      rfl
    · have heq : bucket.minute = minuteStart last.timestamp := by
        rw [hbuilt.minute]
        exact minuteStart_eq hsame
      obtain ⟨houtput, hpartial, hbars', hmax'⟩ := onTick_same hprice hbucket heq
      rw [houtput, Option.toList_none, List.append_nil]
      refine ⟨⟨_, hpartial, hbuilt.extend hsame.symm hvolume⟩, ?_, hmax'.trans hmax⟩
      rw [hbars', hbars]

end LiveCandleAggregator

/-! ### Exactness -/

/-- The rises of a counter that never falls add up to what it rose by. -/
theorem sumAdjacent_counterRise {ticks : List TickEvent} (h : ticks.IsChain fun a b => a.volume ≤ b.volume) :
    sumAdjacent counterRise ticks = tradedVolume ticks := by
  induction ticks with
  | nil => rfl
  | cons a ticks ih =>
    cases ticks with
    | nil =>
      by_cases ha : 0 < a.volume
      · simp [sumAdjacent, tradedVolume, ha]
      · simp [sumAdjacent, tradedVolume, ha]
    | cons b ticks =>
      obtain ⟨hab, htail⟩ := List.isChain_cons_cons.mp h
      rw [sumAdjacent, ih htail, tradedVolume, tradedVolume, counterRise, List.getLast?_cons_cons,
        List.find?_cons (a := a)]
      by_cases ha : 0 < a.volume
      · have hb : 0 < b.volume := lt_of_lt_of_le ha hab
        obtain ⟨last, hlast⟩ : ∃ last, (b :: ticks).getLast? = some last := by simp [List.getLast?_cons]
        rw [if_pos ha, decide_eq_true ha, List.find?_cons, decide_eq_true hb, hlast]
        dsimp only
        omega
      · rw [if_neg ha, decide_eq_false ha, zero_add]

/-- The tick's price is the open, high, low or close of the ticks. -/
def Shown (ticks : List TickEvent) (tick : TickEvent) : Prop :=
  ticks.head? = some tick ∨ ticks.getLast? = some tick ∨
    tick ∈ ticks ∧ ((∀ other ∈ ticks, other.ltp ≤ tick.ltp) ∨ ∀ other ∈ ticks, tick.ltp ≤ other.ltp)

/-- A candle shows the prices rounded to four places. -/
theorem ohlcOf_candle_iff {bucket : Bucket} {ticks : List TickEvent} (h : bucket.HoldsOf ticks) :
    OhlcOf bucket.candle ticks ↔ ∀ tick, Shown ticks tick → IsDecimal 4 tick.ltp := by
  obtain ⟨⟨first, hfirst, hopen⟩, ⟨last, hlast, hclose⟩, ⟨⟨top, htop, hhigh⟩, hle⟩, ⟨bottom, hbottom, hlow⟩, hge⟩ := h
  have hdecimal : ∀ {x y : ℚ}, roundTo 4 x = y → IsDecimal 4 y := fun h => h ▸ isDecimal_roundTo _ _
  constructor
  · rintro ⟨⟨f, hf, hopen'⟩, ⟨l, hl, hclose'⟩, ⟨⟨t, ht, hhigh'⟩, hle'⟩, ⟨b, hb, hlow'⟩, hge'⟩ tick hshown
    rcases hshown with hhead | hback | ⟨hmem, hmost | hleast⟩
    · rw [hhead] at hf
      cases hf
      exact hdecimal hopen'
    · rw [hback] at hl
      cases hl
      exact hdecimal hclose'
    · rw [le_antisymm (hle' tick hmem) (hhigh' ▸ hmost t ht)]
      exact hdecimal rfl
    · rw [le_antisymm (hlow' ▸ hleast b hb) (hge' tick hmem)]
      exact hdecimal rfl
  · intro hshown
    have hround : ∀ {x : ℚ} {tick : TickEvent}, x = tick.ltp → Shown ticks tick → roundTo 4 x = x := by
      rintro x tick rfl ht
      exact (hshown tick ht).roundTo_eq
    have hopen' := hround hopen (.inl hfirst)
    have hclose' := hround hclose (.inr (.inl hlast))
    have hhigh' := hround hhigh (.inr (.inr ⟨htop, .inl (hhigh ▸ hle)⟩))
    have hlow' := hround hlow (.inr (.inr ⟨hbottom, .inr (hlow ▸ hge)⟩))
    refine ⟨⟨first, hfirst, hopen'.trans hopen⟩, ⟨last, hlast, hclose'.trans hclose⟩, ⟨⟨top, htop, hhigh'.trans hhigh⟩, ?_⟩,
      ⟨⟨bottom, hbottom, hlow'.trans hlow⟩, ?_⟩⟩
    · exact fun tick htick => (hle tick htick).trans_eq hhigh'.symm
    · exact fun tick htick => hlow'.trans_le (hge tick htick)

namespace CentralMarketDataFeed

def closedCandles (feed : CentralMarketDataFeed) (ticks : List TickEvent) : List Candle :=
  (outputs ingestTick feed ticks).filterMap fun out => out.2.2

def partialVolume (feed : CentralMarketDataFeed) (key : String) : Int :=
  ((feed.candles.partials.get? key).map Bucket.volume).getD 0

theorem ingest_run (feed : CentralMarketDataFeed) (ticks : List TickEvent) :
    (final ingestTick feed ticks).candles =
        final LiveCandleAggregator.onTick feed.candles (feed.quality.acceptedTicks ticks) ∧
      feed.closedCandles ticks = feed.candles.closedCandles (feed.quality.acceptedTicks ticks) := by
  induction ticks generalizing feed with
  | nil => exact ⟨rfl, rfl⟩
  | cons tick ticks ih =>
    obtain ⟨hcandles, hclosed⟩ := ih (feed.ingestTick tick).1
    rw [closedCandles] at hclosed ⊢
    rw [DataQualityEngine.acceptedTicks, keptLabels, outputs_cons, outputs_cons, final_cons, hcandles,
      List.filterMap_cons, hclosed, List.filter_cons]
    cases hvalid : (feed.quality.validateTick tick).2.isValid with
    | false =>
      have hingest : feed.ingestTick tick =
          ({ feed with quality := (feed.quality.validateTick tick).1 }, false, none) := by
        rw [ingestTick]
        dsimp only
        rw [hvalid, if_neg Bool.false_ne_true]
      rw [hingest, if_neg Bool.false_ne_true]
      exact ⟨rfl, rfl⟩
    | true =>
      have hingest : (feed.ingestTick tick).1.quality = (feed.quality.validateTick tick).1 ∧
          (feed.ingestTick tick).1.candles = (feed.candles.onTick tick).1 ∧
          (feed.ingestTick tick).2.2 = (feed.candles.onTick tick).2 := by
        rw [ingestTick]
        dsimp only
        rw [if_pos hvalid]
        exact ⟨rfl, rfl, rfl⟩
      rw [hingest.1, hingest.2.1, hingest.2.2, if_pos rfl, List.map_cons, final_cons,
        LiveCandleAggregator.closedCandles, LiveCandleAggregator.closedCandles, outputs_cons, List.filterMap_cons]
      exact ⟨rfl, rfl⟩

theorem closedCandles_prefix (feed : CentralMarketDataFeed) {pre ticks : List TickEvent} (h : pre <+: ticks) :
    feed.closedCandles pre <+: feed.closedCandles ticks := by
  obtain ⟨rest, rfl⟩ := h
  rw [closedCandles, closedCandles, outputs_append, List.filterMap_append]
  exact List.prefix_append _ _

theorem orderly_acceptedTicks {symbol : String} {quality : DataQualityEngine} {ticks : List TickEvent}
    (hsymbol : ∀ tick ∈ ticks, tick.symbol = symbol)
    (hcounter : (quality.acceptedTicks ticks).IsChain fun a b => a.volume ≤ b.volume) :
    LiveCandleAggregator.Orderly symbol (quality.acceptedTicks ticks) := by
  have hmem : ∀ tick ∈ quality.acceptedTicks ticks, tick.symbol = symbol := by
    intro tick htick
    rw [DataQualityEngine.acceptedTicks, keptLabels, List.mem_map] at htick
    obtain ⟨out, hout, rfl⟩ := htick
    apply hsymbol
    rw [← map_fst_outputs DataQualityEngine.validateTick quality ticks]
    exact List.mem_map_of_mem (List.mem_of_mem_filter hout)
  refine ⟨hmem, ?_, ?_, hcounter⟩
  · intro tick htick
    exact DataQualityEngine.acceptedTicks_ltp htick
  · have hordered := quality.acceptedTicks_ordered ticks
    refine List.Pairwise.isChain (hordered.imp_of_mem ?_)
    intro a b ha hb h
    exact (h ((hmem a ha).trans (hmem b hb).symm)).1

structure ExactCandles (feed : CentralMarketDataFeed) (symbol : String) (ticks : List TickEvent) : Prop where
  increasing : (feed.closedCandles ticks).Pairwise fun a b => a.timestamp < b.timestamp
  kept : ∀ pre, pre <+: ticks → feed.closedCandles pre <+: feed.closedCandles ticks
  bars : ((final ingestTick feed ticks).candles.bars.get? (canonicalSymbol symbol)).getD [] =
    (feed.closedCandles ticks).drop ((feed.closedCandles ticks).length - feed.candles.maxBars)
  prices : ∀ candle ∈ feed.closedCandles ticks,
    OhlcOf candle (minuteTicks (feed.quality.acceptedTicks ticks) candle.timestamp)
  complete : ∀ tick ∈ feed.quality.acceptedTicks ticks, ∀ later ∈ feed.quality.acceptedTicks ticks,
    minuteStartMs tick.timestamp < minuteStartMs later.timestamp →
      ∃ candle ∈ feed.closedCandles ticks, candle.timestamp = minuteStartMs tick.timestamp
  volume : ((feed.closedCandles ticks).map Candle.volume).sum +
      (final ingestTick feed ticks).partialVolume (canonicalSymbol symbol) =
    tradedVolume (feed.quality.acceptedTicks ticks)

/-- No counter moves from a minute to the next, and no finished minute shows a price of more than four places. -/
structure Undisturbed (accepted : List TickEvent) : Prop where
  prices : ∀ tick ∈ accepted, ∀ later ∈ accepted, minuteStartMs tick.timestamp < minuteStartMs later.timestamp →
    ∀ shown, Shown (minuteTicks accepted (minuteStartMs tick.timestamp)) shown → IsDecimal 4 shown.ltp
  boundary : accepted.IsChain fun a b =>
    minuteStartMs a.timestamp = minuteStartMs b.timestamp ∨ a.volume ≤ 0 ∨ b.volume = a.volume

/-- Under a counter that never falls, the part of its rise that is booked is that within the minutes. -/
theorem booked_eq_iff {accepted : List TickEvent} (h : accepted.IsChain fun a b => a.volume ≤ b.volume) :
    sumAdjacent LiveCandleAggregator.riseWithin accepted = tradedVolume accepted ↔
      accepted.IsChain fun a b =>
        minuteStartMs a.timestamp = minuteStartMs b.timestamp ∨ a.volume ≤ 0 ∨ b.volume = a.volume := by
  have hsplit : counterRise = fun a b =>
      LiveCandleAggregator.riseWithin a b + LiveCandleAggregator.riseAcross a b := by
    funext a b
    rw [LiveCandleAggregator.riseWithin, LiveCandleAggregator.riseAcross]
    split
    · exact (add_zero _).symm
    · exact (zero_add _).symm
  have hnonneg : accepted.IsChain fun a b => 0 ≤ LiveCandleAggregator.riseAcross a b := by
    refine h.imp fun a b hab => ?_
    rw [LiveCandleAggregator.riseAcross, counterRise]
    split_ifs <;> omega
  have hzero : ∀ a b : TickEvent, LiveCandleAggregator.riseAcross a b = 0 ↔
      minuteStartMs a.timestamp = minuteStartMs b.timestamp ∨ a.volume ≤ 0 ∨ b.volume = a.volume := by
    intro a b
    rw [LiveCandleAggregator.riseAcross, counterRise]
    split_ifs with hminute hpos
    · exact iff_of_true rfl (.inl hminute)
    · rw [sub_eq_zero]
      exact ⟨fun h => .inr (.inr h), fun h => (h.resolve_left hminute).resolve_left (not_le.mpr hpos)⟩
    · exact iff_of_true rfl (.inr (.inl (not_lt.mp hpos)))
  rw [← sumAdjacent_counterRise h, hsplit, sumAdjacent_add, left_eq_add, sumAdjacent_eq_zero_iff hnonneg]
  exact ⟨fun h => h.imp fun a b => (hzero a b).mp, fun h => h.imp fun a b => (hzero a b).mpr⟩

section Built
variable {last : TickEvent} {accepted : List TickEvent} {closed : List Candle} {bucket : Bucket}

theorem prices_iff (hbuilt : LiveCandleAggregator.Built accepted last closed bucket) (hlast : last ∈ accepted) :
    (∀ candle ∈ closed, OhlcOf candle (minuteTicks accepted candle.timestamp)) ↔
      ∀ tick ∈ accepted, ∀ later ∈ accepted, minuteStartMs tick.timestamp < minuteStartMs later.timestamp →
        ∀ shown, Shown (minuteTicks accepted (minuteStartMs tick.timestamp)) shown → IsDecimal 4 shown.ltp := by
  constructor
  · intro hprices tick htick later hlater hlt
    obtain ⟨candle, hcandle, hstamp⟩ := hbuilt.covered tick htick (hlt.trans_le (hbuilt.none_later later hlater))
    obtain ⟨b, hb, hholds⟩ := hbuilt.candles candle hcandle
    have hohlc := hprices candle hcandle
    rw [hstamp] at hholds hohlc
    rw [hb] at hohlc
    exact (ohlcOf_candle_iff hholds).mp hohlc
  · intro hdecimal candle hcandle
    obtain ⟨b, hb, hholds⟩ := hbuilt.candles candle hcandle
    obtain ⟨tick, htick, -⟩ := hholds.first
    have hmem : tick ∈ minuteTicks accepted candle.timestamp := List.mem_of_head? htick
    obtain ⟨htick, hstamp⟩ := List.mem_filter.mp hmem
    have hstamp : minuteStartMs tick.timestamp = candle.timestamp := of_decide_eq_true hstamp
    have hbefore : minuteStartMs tick.timestamp < minuteStartMs last.timestamp := by
      rw [hstamp]
      exact hbuilt.earlier candle hcandle
    have hshown := hdecimal tick htick last hlast hbefore
    rw [hstamp] at hshown
    have hohlc := (ohlcOf_candle_iff hholds).mpr hshown
    rwa [← hb] at hohlc

end Built

/-- Under a counter that never falls, the candles are exactly the accepted ticks just where no minute is disturbed. -/
theorem exactCandles_iff (maxBars : Nat) {symbol : String} {ticks : List TickEvent}
    (hsymbol : ∀ tick ∈ ticks, tick.symbol = symbol)
    (hcounter : (({} : DataQualityEngine).acceptedTicks ticks).IsChain fun a b => a.volume ≤ b.volume) :
    ExactCandles { candles := { maxBars } } symbol ticks ↔
      Undisturbed (({} : DataQualityEngine).acceptedTicks ticks) := by
  obtain ⟨hfinal, hclosed⟩ := ingest_run { candles := { maxBars } } ticks
  have horderly := orderly_acceptedTicks hsymbol hcounter
  obtain ⟨accepted, haccepted⟩ : ∃ accepted, accepted = ({} : DataQualityEngine).acceptedTicks ticks := ⟨_, rfl⟩
  have hkept := fun pre (hpre : pre <+: ticks) =>
    closedCandles_prefix ({ candles := { maxBars } } : CentralMarketDataFeed) hpre
  rw [← haccepted] at hcounter horderly
  rcases accepted.eq_nil_or_concat with hnil | ⟨init, last, hconcat⟩
  · rw [← haccepted, hnil] at hfinal hclosed
    have hnone : ({ candles := { maxBars } } : CentralMarketDataFeed).closedCandles ticks = [] := hclosed
    refine iff_of_true ⟨?_, hkept, ?_, ?_, ?_, ?_⟩ ⟨?_, ?_⟩
    · rw [hnone]
      exact List.Pairwise.nil
    · rw [hnone, hfinal, List.drop_nil]
      rfl
    · rw [hnone]
      exact List.forall_mem_nil _
    · rw [← haccepted, hnil]
      exact List.forall_mem_nil _
    · rw [hnone, partialVolume, hfinal, ← haccepted, hnil]
      simp [Dict.get?, Dict.empty, tradedVolume]
    · rw [← haccepted, hnil]
      exact List.forall_mem_nil _
    · rw [← haccepted, hnil]
      exact List.IsChain.nil
  · rw [List.concat_eq_append] at hconcat
    rw [hconcat] at horderly
    obtain ⟨⟨bucket, hbucket, hbuilt⟩, hbars, -⟩ := LiveCandleAggregator.after_run maxBars horderly
    rw [← hconcat, haccepted] at hbucket hbuilt hbars
    have hlast : last ∈ ({} : DataQualityEngine).acceptedTicks ticks := by
      rw [← haccepted, hconcat]
      exact List.mem_append_right _ List.mem_cons_self
    rw [haccepted] at hcounter
    have hvolume : (final ingestTick { candles := { maxBars } } ticks).partialVolume (canonicalSymbol symbol) =
        bucket.volume := by
      rw [partialVolume, hfinal, hbucket, Option.map_some, Option.getD_some]
    rw [← hclosed] at hbuilt hbars
    rw [← hfinal] at hbars
    constructor
    · intro hexact
      refine ⟨(prices_iff hbuilt hlast).mp hexact.prices, (booked_eq_iff hcounter).mp ?_⟩
      have hbooked := hexact.volume
      rw [hvolume, hbuilt.volume] at hbooked
      exact Int.cast_inj.mp hbooked
    · intro hundisturbed
      refine ⟨hbuilt.increasing, hkept, hbars, (prices_iff hbuilt hlast).mpr hundisturbed.prices, ?_, ?_⟩
      · intro tick htick later hlater hlt
        exact hbuilt.covered tick htick (hlt.trans_le (hbuilt.none_later later hlater))
      · rw [hvolume, hbuilt.volume]
        exact congrArg _ ((booked_eq_iff hcounter).mpr hundisturbed.boundary)

/-- Two minutes of a counter that moves within the first alone. -/
def quietRoll : List TickEvent :=
  [{ timestamp := 0, symbol := "NIFTY", ltp := 24000, volume := 100 },
    { timestamp := 20000000, symbol := "NIFTY", ltp := 24010, volume := 150 },
    { timestamp := 61000000, symbol := "NIFTY", ltp := 24005, volume := 150 }]

theorem exactCandles_quietRoll :
    ExactCandles { candles := { maxBars := 600 } } "NIFTY" quietRoll ↔
      Undisturbed (({} : DataQualityEngine).acceptedTicks quietRoll) :=
  have hsymbol : ∀ tick ∈ quietRoll, tick.symbol = "NIFTY" := by decide
  have hcounter : (({} : DataQualityEngine).acceptedTicks quietRoll).IsChain fun a b => a.volume ≤ b.volume := by
    decide +kernel
  exactCandles_iff 600 hsymbol hcounter

/-- The fifty that are traded between the last tick of a minute and the first of the next are in no candle. -/
theorem traded_at_roll_lost :
    ¬ExactCandles { candles := { maxBars := 600 } } "NIFTY"
      [{ timestamp := 0, symbol := "NIFTY", ltp := 24000, volume := 100 },
        { timestamp := 61000000, symbol := "NIFTY", ltp := 24005, volume := 150 }] := by
  intro h
  have hvolume := h.volume
  revert hvolume
  decide +kernel

end CentralMarketDataFeed
end Droid.Feed
