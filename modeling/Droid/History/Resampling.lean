import Droid.History.Calendar
import Droid.Lib.Buckets
import Droid.Lib.Rounding

/-! Resampled days against the calendar: the bars that a day's one-minute candles give, and the bars that
the quality engine expects of it. -/
namespace Droid.History
open Lib Text

namespace MarketCalendar
variable (cal : MarketCalendar)

/-- The length of the sessions of a day; one that ends before it starts has none. -/
def totalMinutes (day : Int) : Nat :=
  ((cal.sessionIntervals day).map fun session => session.2 - session.1).sum

def expectedCandles (day : Int) (timeframe : String) : Nat :=
  if cal.isTradingDay day then
    let tf := lower timeframe
    let total := cal.totalMinutes day
    if tf ∈ ["1d", "d", "daily"] then 1
    else if tf ∈ ["1m", "1", "1min"] then total
    else if tf ∈ ["5m", "5", "5min"] then total / 5
    else if tf ∈ ["15m", "15", "15min"] then total / 15
    else if tf ∈ ["30m", "30", "30min"] then (total + 29) / 30
    else if tf ∈ ["1h", "60m", "60"] then (total + 59) / 60
    else total
  else 0

end MarketCalendar

/-! The scores of the quality engine. -/

structure DimensionalScores where
  completenessScore : ℚ
  temporalContinuityScore : ℚ
  sanityScore : ℚ
  compositeScore : ℚ
  deriving DecidableEq

/-- `calculate_dimensional_scores`: the scores, the expected bars and the missing ones. -/
def calculateDimensionalScores (cal : MarketCalendar) (df : Frame) (timeframe assetType : String)
    (startDate endDate : Int) : DimensionalScores × Nat × Nat :=
  let expectedBars := ((cal.tradingDays startDate endDate).map fun d => cal.expectedCandles d timeframe).sum
  let actualBars := df.length
  let completeness : ℚ :=
    if 0 < expectedBars then min 100 (max 0 ((actualBars : ℚ) / expectedBars * 100)) else 100
  let missingBars := expectedBars - actualBars
  let continuity : ℚ := max 0 (100 - (missingBars : ℚ) / max 1 (expectedBars : ℚ) * 80)
  let zeroVol := (df.filter fun c => c.volume = 0).length
  let sanity : ℚ :=
    if upper assetType ∈ ["EQUITY", "FUTURES", "OPTIONS"] ∧ 0 < zeroVol then
      max 0 (100 - (zeroVol : ℚ) / df.length * 100)
    else 100
  let composite := 1 / 2 * completeness + 3 / 10 * continuity + 1 / 5 * sanity
  ({ completenessScore := roundTo 2 completeness, temporalContinuityScore := roundTo 2 continuity
     sanityScore := roundTo 2 sanity, compositeScore := roundTo 2 composite }, expectedBars, missingBars)

/-! Complete days, and what their resampled bars should be. -/

/-- The minutes of the day that are traded, once for each session that has them. -/
def MarketCalendar.traded (cal : MarketCalendar) (day : Int) : List Nat :=
  (cal.sessionIntervals day).flatMap fun session => List.range' session.1 (session.2 - session.1)

/-- One candle of one symbol for every expected minute of the day. -/
structure CompleteData (cal : MarketCalendar) (day : Int) (df : Frame) : Prop where
  nodup : (stamps df).Nodup
  minutes : ∀ t, t ∈ stamps df ↔ t ∈ cal.expected1mTimestamps day
  symbol : ∃ symbol, ∀ c ∈ df, c.symbol = symbol

def barLength (timeframe : String) : Option Int :=
  if oneMinute timeframe then some minuteMs else timeframeDeltas.lookup (lower timeframe)

/-- The rows that go into the bar of a label, in the order of time. -/
def contributors (pl : Polars) (every : Int) (df : Frame) (label : Int) : Frame :=
  bucket (fun c => windowStart every c.timestamp) (pl.sort df) label

structure AgreesWithCalendar (pl : Polars) (cal : MarketCalendar) (day : Int) (df : Frame)
    (timeframe : String) (every : Int) (bars : Frame) : Prop where
  once : ∀ c ∈ df, (bars.filter fun bar => bar.timestamp = windowStart every c.timestamp).length = 1
  volume : (bars.map Candle.volume).sum = (df.map Candle.volume).sum
  prices : ∀ bar ∈ bars, ∃ first rest, contributors pl every df bar.timestamp = first :: rest ∧
    bar.openPrice = first.openPrice ∧ bar.close = ((first :: rest).getLast (List.cons_ne_nil _ _)).close ∧
    (∀ c ∈ first :: rest, c.high ≤ bar.high ∧ bar.low ≤ c.low) ∧
    (∃ c ∈ first :: rest, bar.high = c.high) ∧ ∃ c ∈ first :: rest, bar.low = c.low
  label : ∀ bar ∈ bars,
    (contributors pl every df bar.timestamp).head?.map Candle.timestamp = some bar.timestamp
  session : ∀ bar ∈ bars, ∃ session ∈ cal.sessionIntervals day,
    MarketCalendar.istMinute day session.1 ≤ bar.timestamp ∧
      bar.timestamp < MarketCalendar.istMinute day session.2
  count : bars.length = cal.expectedCandles day timeframe
  complete : ∀ assetType,
    (calculateDimensionalScores cal bars timeframe assetType day day).1.completenessScore = 100

def ResamplesAsExpected (pl : Polars) (cal : MarketCalendar) (day : Int) (df : Frame)
    (timeframe : String) : Prop :=
  ∃ every bars, barLength timeframe = some every ∧ resample1mCandles pl df timeframe = some bars ∧
    AgreesWithCalendar pl cal day df timeframe every bars

/-! When they are. -/

/-- The first minute of the window of a minute: windows start with the epoch, at 5:30 in the morning. -/
def windowMinute (length m : Int) : Int := m - (m - 330) % length

/-- The bars of a number of minutes: rounded up for the half hours and the hours, one for the day. -/
def wholeBars (length total : Nat) : Nat :=
  if length = 1440 then 1
  else if length = 30 ∨ length = 60 then (total + (length - 1)) / length
  else total / length

/-- The traded minutes with which a window starts. -/
def MarketCalendar.gridMinutes (cal : MarketCalendar) (day : Int) (length : Nat) : List Nat :=
  (cal.traded day).dedup.filter fun m : Nat => ((m : Int) - 330) % length = 0

/-- The windows in which the sessions open start with a traded minute, and the minutes that are traded and
start a window are as many as the day's total comes to. -/
structure OnGrid (cal : MarketCalendar) (day : Int) (length : Nat) : Prop where
  opens : ∀ session ∈ cal.sessionIntervals day, session.1 < session.2 →
    ∃ m ∈ cal.traded day, (m : Int) = windowMinute length session.1
  count : (cal.gridMinutes day length).length = wholeBars length (cal.totalMinutes day)

/-! Windows, in minutes of the day. -/

def instant (day m : Int) : Int := day * 86400000 - 19800000 + m * minuteMs

theorem istMinute_eq (day : Int) (m : Nat) : MarketCalendar.istMinute day m = instant day m := rfl

theorem instant_injective (day : Int) {m n : Int} (h : instant day m = instant day n) : m = n := by
  unfold instant minuteMs at h
  omega

theorem windowStart_instant {length : Nat} (hdvd : length ∣ 1440) (day m : Int) :
    windowStart (length * minuteMs) (instant day m) = instant day (windowMinute length m) := by
  obtain ⟨k, hk⟩ := hdvd
  have hk' : (length : Int) * k = 1440 := by exact_mod_cast hk.symm
  have hinstant : instant day m = minuteMs * (m - 330 + length * (k * day)) := by
    rw [← mul_assoc, hk']
    unfold instant minuteMs
    ring
  have hmod : instant day m % (length * minuteMs) = (m - 330) % length * minuteMs := by
    rw [hinstant, mul_comm (length : Int) minuteMs, Int.mul_emod_mul_of_pos _ _ (by decide),
      Int.add_mul_emod_self_left, mul_comm]
  rw [windowStart, hmod, instant, instant, windowMinute]
  ring

theorem windowMinute_le {length : Nat} (hpos : 0 < length) (m : Int) : windowMinute length m ≤ m := by
  have := Int.emod_nonneg (m - 330) (show (length : Int) ≠ 0 by omega)
  unfold windowMinute
  omega

theorem windowMinute_of_mem {length : Nat} {w m : Int}
    (hw : (w - 330) % length = 0) (hle : w ≤ m) (hlt : m < w + length) : windowMinute length m = w := by
  have hm : (m - 330) % length = m - w := by
    have hsplit : m - 330 = m - w + (w - 330) := by ring
    rw [hsplit, Int.add_emod, hw, add_zero, Int.emod_emod_of_dvd _ (dvd_refl _),
      Int.emod_eq_of_lt (by omega) (by omega)]
  rw [windowMinute, hm]
  ring

theorem windowMinute_emod (length m : Int) : (windowMinute length m - 330) % length = 0 := by
  have hw : windowMinute length m - 330 = m - 330 - (m - 330) % length := by
    unfold windowMinute
    ring
  rw [hw]
  exact Int.emod_eq_zero_of_dvd (Int.dvd_self_sub_emod)

theorem lt_windowMinute_add {length : Nat} (hpos : 0 < length) (m : Int) : m < windowMinute length m + length := by
  have := Int.emod_lt_of_pos (m - 330) (show (0 : Int) < length by omega)
  unfold windowMinute
  omega

theorem windowMinute_between {length : Nat} (hpos : 0 < length) {o m : Int} (hle : o ≤ m)
    (hw : windowMinute length m ≤ o) : windowMinute length o = windowMinute length m :=
  windowMinute_of_mem (windowMinute_emod length m) hw
    (lt_of_le_of_lt hle (lt_windowMinute_add hpos m))

/-! What a resampled frame is: a bar for each window that has rows, made of these rows. -/

structure Resampled (pl : Polars) (every : Int) (df bars : Frame) : Prop where
  starts : (stamps bars).Perm (df.map fun c => windowStart every c.timestamp).dedup
  rows : ∀ bar ∈ bars, ∃ first rest, contributors pl every df bar.timestamp = first :: rest ∧
    bar.openPrice = first.openPrice ∧ bar.close = ((first :: rest).getLast (List.cons_ne_nil _ _)).close ∧
    (∀ c ∈ first :: rest, c.high ≤ bar.high ∧ bar.low ≤ c.low) ∧
    (∃ c ∈ first :: rest, bar.high = c.high) ∧ (∃ c ∈ first :: rest, bar.low = c.low) ∧
    bar.volume = ((first :: rest).map Candle.volume).sum

section
variable {pl : Polars} {every : Int} {df bars : Frame}

/-- A fold that keeps one of its two sides ends at one of the values, and none is beyond it. -/
theorem foldl_extreme (op : ℚ → ℚ → ℚ) (le : ℚ → ℚ → Prop) (htrans : ∀ a b c, le a b → le b c → le a c)
    (hrefl : ∀ a, le a a) (hop : ∀ a b, le a (op a b) ∧ le b (op a b) ∧ (op a b = a ∨ op a b = b))
    (value : Candle → ℚ) (c : Candle) (cs : Frame) :
    (∀ d ∈ c :: cs, le (value d) (cs.foldl (fun x d => op x (value d)) (value c))) ∧
      ∃ d ∈ c :: cs, cs.foldl (fun x d => op x (value d)) (value c) = value d := by
  suffices hfold : ∀ x, let y := cs.foldl (fun x d => op x (value d)) x
      le x y ∧ (∀ d ∈ cs, le (value d) y) ∧ (y = x ∨ ∃ d ∈ cs, y = value d) by
    obtain ⟨hx, hall, hone⟩ := hfold (value c)
    refine ⟨List.forall_mem_cons.mpr ⟨hx, hall⟩, ?_⟩
    rcases hone with hone | ⟨d, hd, hone⟩
    · exact ⟨c, List.mem_cons_self, hone⟩
    · exact ⟨d, List.mem_cons_of_mem _ hd, hone⟩
  induction cs with
  | nil => exact fun x => ⟨hrefl x, fun d hd => absurd hd List.not_mem_nil, Or.inl rfl⟩
  | cons d ds ih =>
    intro x
    obtain ⟨hleft, hright, hpick⟩ := hop x (value d)
    obtain ⟨hstart, hall, hone⟩ := ih (op x (value d))
    refine ⟨htrans _ _ _ hleft hstart, List.forall_mem_cons.mpr ⟨htrans _ _ _ hright hstart, hall⟩, ?_⟩
    rcases hone with hone | ⟨e, he, hone⟩
    · rcases hpick with hpick | hpick
      · exact Or.inl (hone.trans hpick)
      · exact Or.inr ⟨d, List.mem_cons_self, hone.trans hpick⟩
    · exact Or.inr ⟨e, List.mem_cons_of_mem _ he, hone⟩

theorem aggregate_cons (timeframe : String) (start : Int) (c : Candle) (cs : Frame) :
    ∃ bar, aggregate timeframe start (c :: cs) = some bar ∧ bar.timestamp = start ∧
      bar.openPrice = c.openPrice ∧ bar.close = ((c :: cs).getLast (List.cons_ne_nil _ _)).close ∧
      (∀ d ∈ c :: cs, d.high ≤ bar.high ∧ bar.low ≤ d.low) ∧ (∃ d ∈ c :: cs, bar.high = d.high) ∧
      (∃ d ∈ c :: cs, bar.low = d.low) ∧ bar.volume = ((c :: cs).map Candle.volume).sum := by
  have hhigh := foldl_extreme max (· ≤ ·) (fun a b c hab hbc => le_trans hab hbc) le_refl
    (fun a b => ⟨le_max_left a b, le_max_right a b, max_choice a b⟩) Candle.high c cs
  have hlow := foldl_extreme min (· ≥ ·) (fun a b c hab hbc => ge_trans hab hbc) le_refl
    (fun a b => ⟨min_le_left a b, min_le_right a b, min_choice a b⟩) Candle.low c cs
  refine ⟨_, rfl, rfl, rfl, ?_, fun d hd => ⟨hhigh.1 d hd, hlow.1 d hd⟩, hhigh.2, hlow.2, rfl⟩
  rw [List.getLast_eq_getLastD, List.getLastD_eq_getLast?]

theorem windowStart_le (hpos : 0 < every) (t : Int) : windowStart every t ≤ t := by
  have := Int.emod_nonneg t hpos.ne'
  unfold windowStart
  omega

theorem windowStart_idem (every t : Int) : windowStart every (windowStart every t) = windowStart every t := by
  have hstart : windowStart every t % every = 0 := Int.emod_eq_zero_of_dvd Int.dvd_self_sub_emod
  rw [windowStart, hstart, sub_zero]

theorem mem_contributors {label : Int} {c : Candle} :
    c ∈ contributors pl every df label ↔ c ∈ df ∧ windowStart every c.timestamp = label := by
  rw [contributors, mem_bucket, (pl.sort_perm df).mem_iff]

theorem stamps_filterMap_aggregate (timeframe : String) {starts : List Int}
    (hstarts : ∀ start ∈ starts, ∃ first rest, contributors pl every df start = first :: rest) :
    stamps (starts.filterMap fun start => aggregate timeframe start (contributors pl every df start)) =
      starts := by
  induction starts with
  | nil => rfl
  | cons start later ih =>
    obtain ⟨⟨first, rest, hrows⟩, hlater⟩ := List.forall_mem_cons.mp hstarts
    obtain ⟨bar, hbar, htime, -⟩ := aggregate_cons timeframe start first rest
    rw [List.filterMap_cons_some (hrows ▸ hbar), stamps, List.map_cons, htime]
    exact congrArg _ (ih hlater)

theorem Resampled.windows {timeframe : String} (hne : df ≠ []) (hminute : oneMinute timeframe = false)
    (hdelta : timeframeDeltas.lookup (lower timeframe) = some every)
    (h : resample1mCandles pl df timeframe = some bars) : Resampled pl every df bars := by
  rw [resample1mCandles, if_neg (by simp [hne, hminute]), hdelta, Option.map_some] at h
  cases h
  have hwindow : ∀ start ∈ ((pl.sort df).map fun c => windowStart every c.timestamp).dedup,
      ∃ first rest, contributors pl every df start = first :: rest := by
    intro start hstart
    obtain ⟨c, hc, rfl⟩ := List.mem_map.mp (List.mem_dedup.mp hstart)
    exact List.exists_cons_of_ne_nil
      (List.ne_nil_of_mem (mem_contributors.mpr ⟨(pl.sort_perm df).mem_iff.mp hc, rfl⟩))
  constructor
  · refine ((pl.sort_perm _).map Candle.timestamp).trans ?_
    exact (List.Perm.of_eq (stamps_filterMap_aggregate timeframe hwindow)).trans ((pl.sort_perm df).map _).dedup
  · intro bar hbar
    obtain ⟨start, hstart, hagg⟩ := List.mem_filterMap.mp ((pl.sort_perm _).mem_iff.mp hbar)
    obtain ⟨first, rest, hrows⟩ := hwindow start hstart
    obtain ⟨bar', hbar', htime, hmade⟩ := aggregate_cons timeframe start first rest
    obtain rfl : bar' = bar := Option.some.inj (hbar'.symm.trans (hrows ▸ hagg))
    exact ⟨first, rest, htime ▸ hrows, hmade⟩

/-- Whole minutes that are all different resample to themselves. -/
theorem Resampled.minutes (hnodup : (stamps df).Nodup)
    (hwhole : ∀ c ∈ df, windowStart every c.timestamp = c.timestamp) : Resampled pl every df df := by
  have hsame : (df.map fun c => windowStart every c.timestamp) = stamps df :=
    List.map_congr_left hwhole
  constructor
  · rw [hsame, hnodup.dedup]
  · intro bar hbar
    have hsorted : ((pl.sort df).map fun c => windowStart every c.timestamp).Nodup :=
      ((pl.sort_perm df).map _).nodup_iff.mpr (hsame ▸ hnodup)
    have hone : contributors pl every df bar.timestamp = [bar] := by
      conv_lhs => rw [← hwhole bar hbar]
      exact bucket_of_nodup _ hsorted ((pl.sort_perm df).mem_iff.mpr hbar)
    have hself : ∀ c ∈ [bar], c = bar := fun c hc => List.mem_singleton.mp hc
    refine ⟨bar, [], hone, rfl, rfl, ?_, ⟨bar, List.mem_cons_self, rfl⟩, ⟨bar, List.mem_cons_self, rfl⟩, ?_⟩
    · intro c hc
      rw [hself c hc]
      exact ⟨le_refl _, le_refl _⟩
    · rw [List.map_singleton, List.sum_singleton]

namespace Resampled
variable (h : Resampled pl every df bars)
include h

theorem nodup : (stamps bars).Nodup := h.starts.nodup_iff.mpr (List.nodup_dedup _)

theorem mem_stamps {label : Int} :
    label ∈ stamps bars ↔ ∃ c ∈ df, windowStart every c.timestamp = label := by
  rw [h.starts.mem_iff, List.mem_dedup, List.mem_map]

theorem once (c : Candle) (hc : c ∈ df) :
    (bars.filter fun bar => bar.timestamp = windowStart every c.timestamp).length = 1 := by
  obtain ⟨bar, hbar, htime⟩ := List.mem_map.mp (h.mem_stamps.mpr ⟨c, hc, rfl⟩)
  have hone := bucket_of_nodup Candle.timestamp h.nodup hbar
  rw [htime] at hone
  exact congrArg List.length hone

theorem volume : (bars.map Candle.volume).sum = (df.map Candle.volume).sum := by
  have hrows : bars.map Candle.volume =
      (stamps bars).map fun k => ((contributors pl every df k).map Candle.volume).sum := by
    rw [stamps, List.map_map]
    apply List.map_congr_left
    intro bar hbar
    obtain ⟨first, rest, hrows, -, -, -, -, -, hvolume⟩ := h.rows bar hbar
    rw [Function.comp_apply, hrows, hvolume]
  rw [hrows]
  refine (sum_buckets _ Candle.volume h.nodup ?_).trans ((pl.sort_perm df).map _).sum_eq
  intro c hc
  exact h.mem_stamps.mpr ⟨c, (pl.sort_perm df).mem_iff.mp hc, rfl⟩

theorem label_iff (hpos : 0 < every) :
    (∀ bar ∈ bars, (contributors pl every df bar.timestamp).head?.map Candle.timestamp = some bar.timestamp) ↔
      ∀ t ∈ stamps df, windowStart every t ∈ stamps df := by
  constructor
  · intro hlabel t ht
    obtain ⟨c, hc, rfl⟩ := List.mem_map.mp ht
    obtain ⟨bar, hbar, htime⟩ := List.mem_map.mp (h.mem_stamps.mpr ⟨c, hc, rfl⟩)
    obtain ⟨first, hfirst, hstart⟩ := Option.map_eq_some_iff.mp (hlabel bar hbar)
    have hmem := mem_contributors.mp (List.mem_of_mem_head? hfirst)
    rw [← htime, ← hstart]
    exact List.mem_map_of_mem hmem.1
  · intro hclosed bar hbar
    obtain ⟨first, rest, hrows, -⟩ := h.rows bar hbar
    have hfirst := mem_contributors.mp (hrows ▸ List.mem_cons_self)
    obtain ⟨c, hc, hlabel⟩ := List.mem_map.mp
      (hfirst.2 ▸ hclosed _ (List.mem_map_of_mem hfirst.1))
    have hmem : c ∈ first :: rest :=
      hrows ▸ mem_contributors.mpr ⟨hc, by rw [hlabel, ← hfirst.2, windowStart_idem]⟩
    have hle : first.timestamp ≤ c.timestamp := by
      have hsorted := (pl.sort_ordered df).sublist (List.filter_sublist (p := fun c =>
        decide (windowStart every c.timestamp = bar.timestamp)))
      change (contributors pl every df bar.timestamp).Pairwise _ at hsorted
      rw [hrows, List.pairwise_cons] at hsorted
      rcases List.mem_cons.mp hmem with rfl | hrest
      · exact le_refl _
      · exact hsorted.1 c hrest
    have hge := windowStart_le hpos first.timestamp
    rw [hfirst.2] at hge
    rw [hrows, List.head?_cons, Option.map_some, le_antisymm (hle.trans_eq hlabel) hge]

end Resampled

end

/-! The calendar's side. -/

section
variable {cal : MarketCalendar} {day : Int} {df : Frame} {timeframe : String} {length : Nat}

theorem MarketCalendar.mem_traded {m : Nat} :
    m ∈ cal.traded day ↔ ∃ session ∈ cal.sessionIntervals day, session.1 ≤ m ∧ m < session.2 := by
  rw [MarketCalendar.traded, List.mem_flatMap]
  refine exists_congr fun session => and_congr_right fun _ => ?_
  rw [List.mem_range'_1]
  omega

theorem CompleteData.mem_stamps (hdf : CompleteData cal day df) (hday : cal.isTradingDay day = true) {t : Int} :
    t ∈ stamps df ↔ ∃ m ∈ cal.traded day, instant day m = t := by
  rw [hdf.minutes, MarketCalendar.expected1mTimestamps, if_pos hday, MarketCalendar.traded]
  simp only [List.mem_flatMap, List.mem_map, istMinute_eq]
  constructor
  · rintro ⟨session, hsession, m, hm, ht⟩
    exact ⟨m, ⟨session, hsession, hm⟩, ht⟩
  · rintro ⟨m, ⟨session, hsession, hm⟩, ht⟩
    exact ⟨session, hsession, m, hm, ht⟩

theorem opens_iff (hpos : 0 < length) :
    (∀ session ∈ cal.sessionIntervals day, session.1 < session.2 →
      ∃ m ∈ cal.traded day, (m : Int) = windowMinute length session.1) ↔
    ∀ m ∈ cal.traded day, ∃ n ∈ cal.traded day, (n : Int) = windowMinute length m := by
  constructor
  · intro hopens m hm
    obtain ⟨session, hsession, hopen, hclose⟩ := MarketCalendar.mem_traded.mp hm
    have hle := windowMinute_le hpos (m : Int)
    by_cases hin : (session.1 : Int) ≤ windowMinute length m
    · refine ⟨(windowMinute length m).toNat, ?_, by omega⟩
      exact MarketCalendar.mem_traded.mpr ⟨session, hsession, by omega, by omega⟩
    · have hsame := windowMinute_between hpos (o := session.1) (m := m) (by omega) (by omega)
      rw [← hsame]
      exact hopens session hsession (lt_of_le_of_lt hopen hclose)
  · intro hclosed session hsession hlt
    exact hclosed session.1 (MarketCalendar.mem_traded.mpr ⟨session, hsession, le_refl _, hlt⟩)

theorem closed_iff_opens (hdf : CompleteData cal day df) (hday : cal.isTradingDay day = true)
    (hpos : 0 < length) (hdvd : length ∣ 1440) :
    (∀ t ∈ stamps df, windowStart (length * minuteMs) t ∈ stamps df) ↔
      ∀ session ∈ cal.sessionIntervals day, session.1 < session.2 →
        ∃ m ∈ cal.traded day, (m : Int) = windowMinute length session.1 := by
  rw [opens_iff hpos]
  simp only [hdf.mem_stamps hday]
  constructor
  · intro hclosed m hm
    obtain ⟨n, hn, hstart⟩ := hclosed _ ⟨m, hm, rfl⟩
    rw [windowStart_instant hdvd] at hstart
    exact ⟨n, hn, instant_injective day hstart⟩
  · rintro hclosed t ⟨m, hm, rfl⟩
    obtain ⟨n, hn, hstart⟩ := hclosed m hm
    exact ⟨n, hn, by rw [windowStart_instant hdvd, hstart]⟩

theorem windows_length (hdf : CompleteData cal day df) (hday : cal.isTradingDay day = true)
    (hdvd : length ∣ 1440)
    (hclosed : ∀ t ∈ stamps df, windowStart (length * minuteMs) t ∈ stamps df) :
    (df.map fun c => windowStart (length * minuteMs) c.timestamp).dedup.length =
      (cal.gridMinutes day length).length := by
  have hnodup : ((cal.gridMinutes day length).map fun m : Nat => instant day m).Nodup := by
    refine List.Nodup.map ?_ ((List.nodup_dedup _).filter _)
    intro m n hmn
    exact Int.ofNat_inj.mp (instant_injective day hmn)
  rw [← List.length_map (fun m : Nat => instant day m)]
  refine List.Perm.length_eq ((List.perm_ext_iff_of_nodup (List.nodup_dedup _) hnodup).mpr ?_)
  intro t
  simp only [MarketCalendar.gridMinutes, List.mem_dedup, List.mem_map, List.mem_filter, decide_eq_true_eq]
  constructor
  · rintro ⟨c, hc, rfl⟩
    have hc' : c.timestamp ∈ stamps df := List.mem_map_of_mem hc
    obtain ⟨m, -, hm⟩ := (hdf.mem_stamps hday).mp hc'
    obtain ⟨n, hn, hstart⟩ := (hdf.mem_stamps hday).mp (hclosed _ hc')
    refine ⟨n, ⟨hn, ?_⟩, hstart⟩
    rw [← hm, windowStart_instant hdvd] at hstart
    rw [instant_injective day hstart]
    exact windowMinute_emod length m
  · rintro ⟨m, ⟨hm, hgrid⟩, rfl⟩
    obtain ⟨c, hc, htime⟩ := List.mem_map.mp ((hdf.mem_stamps hday).mpr ⟨m, hm, rfl⟩)
    refine ⟨c, hc, ?_⟩
    rw [htime, windowStart_instant hdvd, windowMinute, hgrid, sub_zero]

theorem barLength_spec (cal : MarketCalendar) (day : Int) (hlength : barLength timeframe = some (length * minuteMs)) :
    0 < length ∧ length ∣ 1440 ∧
      (cal.isTradingDay day = true →
        cal.expectedCandles day timeframe = wholeBars length (cal.totalMinutes day)) := by
  have hscale : ∀ n : Nat, length * minuteMs = n * minuteMs → length = n := by
    intro n hn
    unfold minuteMs at hn
    omega
  rw [barLength] at hlength
  split at hlength
  · rename_i hminute
    obtain rfl := hscale 1 (Option.some.inj hlength).symm
    refine ⟨by decide, by decide, fun hday => ?_⟩
    rw [oneMinute, decide_eq_true_eq] at hminute
    simp only [List.mem_cons, List.not_mem_nil, or_false] at hminute
    rcases hminute with htf | htf | htf <;>
      simp [MarketCalendar.expectedCandles, hday, htf, wholeBars]
  · obtain ⟨before, after, hsplit, -⟩ := List.lookup_eq_some_iff.mp hlength
    have hmem : (lower timeframe, (length : Int) * minuteMs) ∈ timeframeDeltas :=
      hsplit ▸ List.mem_append_right before List.mem_cons_self
    have hdone (n : Nat) (hn : length * minuteMs = n * minuteMs) (hpos : 0 < n) (hdvd : n ∣ 1440)
        (hbars : cal.isTradingDay day = true →
          cal.expectedCandles day timeframe = wholeBars n (cal.totalMinutes day)) :
        0 < length ∧ length ∣ 1440 ∧ (cal.isTradingDay day = true →
          cal.expectedCandles day timeframe = wholeBars length (cal.totalMinutes day)) := by
      obtain rfl := hscale n hn
      exact ⟨hpos, hdvd, hbars⟩
    simp only [timeframeDeltas, List.mem_cons, List.not_mem_nil, or_false, Prod.mk.injEq] at hmem
    rcases hmem with ⟨htf, hn⟩ | ⟨htf, hn⟩ | ⟨htf, hn⟩ | ⟨htf, hn⟩ | ⟨htf, hn⟩ | ⟨htf, hn⟩ | ⟨htf, hn⟩
    · apply hdone 5 hn (by decide) (by decide)
      simp +contextual [MarketCalendar.expectedCandles, htf, wholeBars]
    · apply hdone 15 hn (by decide) (by decide)
      simp +contextual [MarketCalendar.expectedCandles, htf, wholeBars]
    · apply hdone 30 hn (by decide) (by decide)
      simp +contextual [MarketCalendar.expectedCandles, htf, wholeBars]
    · apply hdone 60 hn (by decide) (by decide)
      simp +contextual [MarketCalendar.expectedCandles, htf, wholeBars]
    · apply hdone 60 hn (by decide) (by decide)
      simp +contextual [MarketCalendar.expectedCandles, htf, wholeBars]
    · apply hdone 1440 hn (by decide) (by decide)
      simp +contextual [MarketCalendar.expectedCandles, htf, wholeBars]
    · apply hdone 1440 hn (by decide) (by decide)
      simp +contextual [MarketCalendar.expectedCandles, htf, wholeBars]

theorem exists_resampled (pl : Polars) (hdf : CompleteData cal day df) (hday : cal.isTradingDay day = true)
    {every : Int} (hlength : barLength timeframe = some every) :
    ∃ bars, resample1mCandles pl df timeframe = some bars ∧ Resampled pl every df bars := by
  rw [barLength] at hlength
  by_cases hminute : oneMinute timeframe = true
  · rw [if_pos hminute] at hlength
    refine ⟨df, by rw [resample1mCandles, if_pos (Or.inr hminute)], Resampled.minutes hdf.nodup ?_⟩
    intro c hc
    obtain ⟨m, -, hm⟩ := (hdf.mem_stamps hday).mp (List.mem_map_of_mem hc)
    obtain rfl := Option.some.inj hlength
    have hone := windowStart_instant (one_dvd 1440) day m
    rwa [windowMinute, Nat.cast_one, one_mul, Int.emod_one, sub_zero, hm] at hone
  · rw [if_neg hminute] at hlength
    by_cases hne : df = []
    · subst hne
      refine ⟨[], by rw [resample1mCandles, if_pos (Or.inl rfl)], Resampled.minutes hdf.nodup ?_⟩
      intro c hc
      exact absurd hc List.not_mem_nil
    · obtain ⟨bars, hbars⟩ : ∃ bars, resample1mCandles pl df timeframe = some bars := by
        rw [resample1mCandles, if_neg (by simp [hne, hminute]), hlength]
        exact ⟨_, rfl⟩
      exact ⟨bars, hbars, Resampled.windows hne (Bool.eq_false_iff.mpr hminute) hlength hbars⟩

theorem completenessScore_of_count (hday : cal.isTradingDay day = true) {bars : Frame}
    (hcount : bars.length = cal.expectedCandles day timeframe) (assetType : String) :
    (calculateDimensionalScores cal bars timeframe assetType day day).1.completenessScore = 100 := by
  have hdays : cal.tradingDays day day = [day] := by
    have hrange : (day + 1 - day).toNat = 1 := by omega
    rw [MarketCalendar.tradingDays, hrange]
    simp [hday]
  have hround : roundTo 2 100 = 100 := by decide +kernel
  unfold calculateDimensionalScores
  simp only [hdays, List.map_singleton, List.sum_singleton, ← hcount]
  split
  · rename_i hpos
    have hne : (bars.length : ℚ) ≠ 0 := by exact_mod_cast hpos.ne'
    rw [div_self hne, one_mul, max_eq_right (by norm_num), min_self, hround]
  · exact hround

theorem onGrid_of_resamplesAsExpected {pl : Polars} (hday : cal.isTradingDay day = true)
    (hdf : CompleteData cal day df) (hlength : barLength timeframe = some (length * minuteMs))
    (h : ResamplesAsExpected pl cal day df timeframe) : OnGrid cal day length := by
  obtain ⟨hpos, hdvd, hexpected⟩ := barLength_spec cal day hlength
  obtain ⟨every, bars, hevery, hbars, hagree⟩ := h
  obtain rfl := Option.some.inj (hlength.symm.trans hevery)
  obtain ⟨bars', hbars', hres⟩ := exists_resampled pl hdf hday hlength
  obtain rfl := Option.some.inj (hbars'.symm.trans hbars)
  have hclosed := (hres.label_iff (by unfold minuteMs; omega)).mp hagree.label
  refine ⟨(closed_iff_opens hdf hday hpos hdvd).mp hclosed, ?_⟩
  rw [← windows_length hdf hday hdvd hclosed, ← hres.starts.length_eq, stamps, List.length_map, hagree.count,
    hexpected hday]

theorem resamplesAsExpected_of_onGrid (pl : Polars) (hday : cal.isTradingDay day = true)
    (hdf : CompleteData cal day df) (hlength : barLength timeframe = some (length * minuteMs))
    (hgrid : OnGrid cal day length) : ResamplesAsExpected pl cal day df timeframe := by
  obtain ⟨hpos, hdvd, hexpected⟩ := barLength_spec cal day hlength
  obtain ⟨bars, hbars, hres⟩ := exists_resampled pl hdf hday hlength
  have hclosed := (closed_iff_opens hdf hday hpos hdvd).mpr hgrid.opens
  have hcount : bars.length = cal.expectedCandles day timeframe := by
    rw [hexpected hday, ← hgrid.count, ← windows_length hdf hday hdvd hclosed, ← hres.starts.length_eq, stamps,
      List.length_map]
  refine ⟨_, bars, hlength, hbars, hres.once, hres.volume, ?_,
    (hres.label_iff (by unfold minuteMs; omega)).mpr hclosed, ?_, hcount, completenessScore_of_count hday hcount⟩
  · intro bar hbar
    obtain ⟨first, rest, hrows, hopen, hclose, hwithin, hhigh, hlow, -⟩ := hres.rows bar hbar
    exact ⟨first, rest, hrows, hopen, hclose, hwithin, hhigh, hlow⟩
  · intro bar hbar
    obtain ⟨c, hc, hlabel⟩ := hres.mem_stamps.mp (List.mem_map_of_mem hbar)
    obtain ⟨m, hm, ht⟩ := (hdf.mem_stamps hday).mp (hlabel ▸ hclosed _ (List.mem_map_of_mem hc))
    obtain ⟨session, hsession, hopen, hend⟩ := MarketCalendar.mem_traded.mp hm
    refine ⟨session, hsession, ?_⟩
    rw [← ht, istMinute_eq, istMinute_eq]
    unfold instant minuteMs
    omega

/-- The resampled day is what the calendar expects where its sessions open with a window and its minutes on
the grid are as many as the calendar rounds to. -/
theorem resamplesAsExpected_iff (pl : Polars) (hday : cal.isTradingDay day = true) (hdf : CompleteData cal day df)
    (hlength : barLength timeframe = some (length * minuteMs)) :
    ResamplesAsExpected pl cal day df timeframe ↔ OnGrid cal day length :=
  ⟨onGrid_of_resamplesAsExpected hday hdf hlength, resamplesAsExpected_of_onGrid pl hday hdf hlength⟩

def flatDay (cal : MarketCalendar) (day : Int) : Frame :=
  (cal.expected1mTimestamps day).map fun timestamp =>
    { timestamp, symbol := "SENSEX", exchange := "BSE", assetType := "INDEX", timeframe := "1m"
      openPrice := 100, high := 100, low := 100, close := 100, volume := 1
      provider := "fyers", ingestionJobId := "job", dataVersion := "v1" }

theorem flatDay_complete (hday : cal.isTradingDay day = true) (hn : (cal.traded day).Nodup) :
    CompleteData cal day (flatDay cal day) := by
  have hstamps : stamps (flatDay cal day) = cal.expected1mTimestamps day := by
    rw [stamps, flatDay, List.map_map]
    exact List.map_id _
  constructor
  · rw [hstamps, MarketCalendar.expected1mTimestamps, if_pos hday, ← List.map_flatMap]
    exact hn.map fun m n hmn => Int.ofNat_inj.mp (instant_injective day hmn)
  · exact fun t => by rw [hstamps]
  · refine ⟨"SENSEX", fun c hc => ?_⟩
    obtain ⟨t, -, rfl⟩ := List.mem_map.mp hc
    rfl

end

/-- An evening session of an hour opens on the quarter: its four bars are the four expected. -/
theorem evening_resamplesAsExpected :
    ResamplesAsExpected plainPolars indianCalendar evening (flatDay indianCalendar evening) "15m" := by
  have hday : indianCalendar.isTradingDay evening = true := by decide +kernel
  have hlength : barLength "15m" = some ((15 : Nat) * minuteMs) := by decide +kernel
  exact (resamplesAsExpected_iff plainPolars hday (flatDay_complete hday (by decide +kernel)) hlength).mpr
    ⟨by decide +kernel, by decide +kernel⟩

/-- The first half hour of a regular day is labelled 9:00, a quarter before the open. -/
theorem halfHours_not_asExpected :
    ¬ ResamplesAsExpected plainPolars indianCalendar (evening + 1) (flatDay indianCalendar (evening + 1)) "30m" := by
  intro h
  have hday : indianCalendar.isTradingDay (evening + 1) = true := by decide +kernel
  have hlength : barLength "30m" = some ((30 : Nat) * minuteMs) := by decide +kernel
  have hgrid := onGrid_of_resamplesAsExpected hday (flatDay_complete hday (by decide +kernel)) hlength h
  exact absurd hgrid.opens (by decide +kernel)

end Droid.History
