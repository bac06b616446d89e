import Droid.History.Candles
import Mathlib.Algebra.Order.Group.Int

/-! The exchange calendar, and the gaps a frame has against it. Dates are counted in days. -/
namespace Droid.History
open Lib Text

def date (year month day : Int) : Int :=
  let y := if month ≤ 2 then year - 1 else year
  let dayOfYear := (153 * ((month + 9) % 12) + 2) / 5 + (day - 1)
  y * 365 + y / 4 - y / 100 + y / 400 + dayOfYear - 719468

def weekday (day : Int) : Int := (day + 3) % 7

/-- `MarketCalendar`, as far as the detector asks it. A session is from its opening minute of the day
to its closing minute, exclusive. -/
structure MarketCalendar where
  isTradingDay : Int → Bool
  sessionIntervals : Int → List (Nat × Nat)

def time (hour minute : Nat) : Nat := hour * 60 + minute

def holidays : List Int := [
  date 2023 1 26, date 2023 3 7, date 2023 3 30, date 2023 4 4, date 2023 4 7, date 2023 4 14,
  date 2023 4 21, date 2023 5 1, date 2023 6 28, date 2023 8 15, date 2023 9 19, date 2023 10 2,
  date 2023 10 24, date 2023 11 14, date 2023 11 27, date 2023 12 25,
  date 2024 1 22, date 2024 1 26, date 2024 3 8, date 2024 3 25, date 2024 3 29, date 2024 4 11,
  date 2024 4 17, date 2024 5 1, date 2024 5 20, date 2024 6 17, date 2024 7 17, date 2024 8 15,
  date 2024 10 2, date 2024 11 1, date 2024 11 15, date 2024 11 20, date 2024 12 25,
  date 2025 2 26, date 2025 3 14, date 2025 3 31, date 2025 4 10, date 2025 4 14, date 2025 4 18,
  date 2025 5 1, date 2025 8 15, date 2025 8 27, date 2025 10 2, date 2025 10 21, date 2025 10 22,
  date 2025 11 5, date 2025 12 25,
  date 2026 1 26, date 2026 3 3, date 2026 3 20, date 2026 4 3, date 2026 4 14, date 2026 5 1,
  date 2026 8 15, date 2026 10 2, date 2026 10 20, date 2026 11 8, date 2026 11 24,
  date 2026 12 25,
  date 2027 1 26, date 2027 3 22, date 2027 3 26, date 2027 4 14, date 2027 5 1, date 2027 8 15,
  date 2027 10 2, date 2027 12 25]

def specialSessions : List (Int × List (Nat × Nat)) := [
  (date 2023 11 12, [(time 18 15, time 19 15)]),
  (date 2024 1 20, [(time 9 15, time 10 0), (time 11 30, time 12 30)]),
  (date 2024 5 18, [(time 9 15, time 10 0), (time 11 30, time 12 30)]),
  (date 2024 11 1, [(time 18 0, time 19 0)]),
  (date 2025 10 21, [(time 18 15, time 19 15)]),
  (date 2026 11 8, [(time 18 15, time 19 15)])]

def indianCalendar : MarketCalendar where
  isTradingDay day := (specialSessions.lookup day).isSome || !(5 ≤ weekday day || holidays.contains day)
  sessionIntervals day := (specialSessions.lookup day).getD [(time 9 15, time 15 30)]

/-- An evening session of an hour, and its candle of a minute. -/
def evening : Int := date 2026 11 8

def eveningCandle (minute : Int) : RawCandle :=
  { epoch := evening * 86400 + 45900 + 60 * minute, openPrice := 100, high := 100, low := 100, close := 100 }

namespace MarketCalendar
variable (cal : MarketCalendar)

def tradingDays (startDate endDate : Int) : List Int :=
  ((List.range (endDate + 1 - startDate).toNat).map fun i : Nat => startDate + (i : Int)).filter cal.isTradingDay

/-- The timestamp of a minute of the day in Asia/Kolkata. -/
def istMinute (day : Int) (minute : Nat) : Int :=
  day * 86400000 - 19800000 + minute * minuteMs

/-- `get_expected_1m_timestamps`. -/
def expected1mTimestamps (day : Int) : List Int :=
  if cal.isTradingDay day then
    (cal.sessionIntervals day).flatMap fun session =>
      (List.range' session.1 (session.2 - session.1)).map (istMinute day)
  else []

def minutes (df : Frame) : List Int := (stamps df).map (windowStart minuteMs)

def missing (day : Int) (df : Frame) : List Int :=
  (cal.expected1mTimestamps day).filter fun t => decide (t ∉ minutes df)

end MarketCalendar

inductive GapStatus where
  | OPEN | REPAIRING | RESOLVED | UNREPAIRABLE_UPSTREAM_OMISSION | EXCHANGE_HALT_VERIFIED
  deriving DecidableEq, Repr

structure DataGap where
  datasetId : String
  tradingDate : Int
  expectedCandles : Nat
  actualCandles : Nat
  missingCandles : Nat
  firstMissingTs : Option Int
  lastMissingTs : Option Int
  status : GapStatus := .OPEN
  repairAttempts : Nat := 0
  deriving DecidableEq, Repr

/-- `gap_{dataset_id}_{date}`, as the two fields it is made of. -/
structure GapId where
  datasetId : String
  tradingDate : Int
  deriving DecidableEq, Repr

def DataGap.gapId (g : DataGap) : GapId := ⟨g.datasetId, g.tradingDate⟩

/-- The gap of one trading day, if a minute is missing. -/
def gapOf (cal : MarketCalendar) (df : Frame) (datasetId : String) (day : Int) : Option DataGap :=
  let expectedTimestamps := cal.expected1mTimestamps day
  let missingTs := cal.missing day df
  if missingTs = [] then none
  else some
    { datasetId
      tradingDate := day
      expectedCandles := expectedTimestamps.length
      actualCandles := expectedTimestamps.length - missingTs.length
      missingCandles := missingTs.length
      firstMissingTs := missingTs.min?
      lastMissingTs := missingTs.max? }

def detectGaps (cal : MarketCalendar) (df : Frame) (datasetId : String) (startDate endDate : Int)
    (timeframe : String) : List DataGap :=
  if oneMinute timeframe then
    (cal.tradingDays startDate endDate).filterMap (gapOf cal df datasetId)
  else []

/-! The detector finds the trading days of the range with a missing minute, and no others. -/

section
variable (cal : MarketCalendar)

theorem mem_tradingDays {startDate endDate day : Int} :
    day ∈ cal.tradingDays startDate endDate ↔
      (startDate ≤ day ∧ day ≤ endDate) ∧ cal.isTradingDay day = true := by
  rw [MarketCalendar.tradingDays, List.mem_filter, List.mem_map]
  apply and_congr_left
  intro _
  constructor
  · rintro ⟨i, hi, rfl⟩
    rw [List.mem_range] at hi
    omega
  · rintro ⟨hs, he⟩
    exact ⟨(day - startDate).toNat, List.mem_range.mpr (by omega), by omega⟩

theorem isTradingDay_of_missing {day : Int} {df : Frame} (h : cal.missing day df ≠ []) :
    cal.isTradingDay day = true := by
  by_contra hd
  apply h
  rw [MarketCalendar.missing, MarketCalendar.expected1mTimestamps, if_neg hd]
  rfl

theorem gapOf_eq_some {df : Frame} {datasetId : String} {day : Int} {g : DataGap}
    (h : gapOf cal df datasetId day = some g) :
    g.gapId = ⟨datasetId, day⟩ ∧ g.status = .OPEN ∧ cal.missing day df ≠ [] := by
  rw [gapOf] at h
  split at h
  · cases h
  · rename_i hne
    cases h
    exact ⟨rfl, rfl, hne⟩

theorem gapOf_isSome {df : Frame} (datasetId : String) {day : Int}
    (h : cal.missing day df ≠ []) : ∃ g, gapOf cal df datasetId day = some g := by
  rw [gapOf, if_neg h]
  exact ⟨_, rfl⟩

theorem mem_detectGaps {df : Frame} {datasetId : String} {startDate endDate : Int}
    {timeframe : String} {g : DataGap}
    (h : g ∈ detectGaps cal df datasetId startDate endDate timeframe) :
    oneMinute timeframe = true ∧ g.datasetId = datasetId ∧ g.status = .OPEN ∧
      cal.missing g.tradingDate df ≠ [] ∧ startDate ≤ g.tradingDate ∧ g.tradingDate ≤ endDate := by
  rw [detectGaps] at h
  split at h
  · rename_i hm
    obtain ⟨day, hday, hg⟩ := List.mem_filterMap.mp h
    obtain ⟨hid, hopen, hmiss⟩ := gapOf_eq_some cal hg
    have hdataset : g.datasetId = datasetId := congrArg GapId.datasetId hid
    have hdate : g.tradingDate = day := congrArg GapId.tradingDate hid
    rw [hdate]
    exact ⟨hm, hdataset, hopen, hmiss, ((mem_tradingDays cal).mp hday).1⟩
  · cases h

theorem detectGaps_covers {df : Frame} (datasetId : String) {startDate endDate day : Int}
    {timeframe : String} (hm : oneMinute timeframe = true) (hs : startDate ≤ day) (he : day ≤ endDate)
    (hmiss : cal.missing day df ≠ []) :
    ∃ g ∈ detectGaps cal df datasetId startDate endDate timeframe, g.gapId = ⟨datasetId, day⟩ := by
  obtain ⟨g, hg⟩ := gapOf_isSome cal datasetId hmiss
  refine ⟨g, ?_, (gapOf_eq_some cal hg).1⟩
  rw [detectGaps, if_pos hm]
  exact List.mem_filterMap.mpr
    ⟨day, (mem_tradingDays cal).mpr ⟨⟨hs, he⟩, isTradingDay_of_missing cal hmiss⟩, hg⟩

theorem missing_congr {df df' : Frame} (h : ∀ t, t ∈ MarketCalendar.minutes df ↔ t ∈ MarketCalendar.minutes df')
    (day : Int) : cal.missing day df = cal.missing day df' := by
  rw [MarketCalendar.missing, MarketCalendar.missing]
  apply List.filter_congr
  intro t _
  rw [decide_eq_decide, h]

end

end Droid.History
