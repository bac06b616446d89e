import Droid.Lib.Text
import Mathlib.Algebra.Order.Field.Rat

/-! Session-aware horizon windows: whether a forward window is settleable, and the spot at its end. Times
are in microseconds. -/
namespace Droid.Outcomes
open Lib Text

/-- A candle as a pair of time and close, or as a record; what is missing or no number is none. -/
inductive Candle where
  | tuple (timestamp : Option Int) (close : Option ℚ)
  | record (timestamp : Option Int) (close high low : Option ℚ)
  deriving DecidableEq

def Candle.timestamp : Candle → Option Int
  | .tuple timestamp _ => timestamp
  | .record timestamp _ _ _ => timestamp

def Candle.close : Candle → Option ℚ
  | .tuple _ close => close
  | .record _ close _ _ => close

def minutes (n : Int) : Int := n * 60000000

def isCryptoSymbol (symbol : String) : Bool :=
  let s := strip (upper symbol)
  hasText s "USDT" || ["BTC", "ETH", "SOL", "BTCUSD", "ETHUSD"].contains s

def SUPPORTED_HORIZONS : List Int := [5, 15, 30, 60, 90, 120]

structure TradingSessionInfo where
  isTradingDay : Bool
  holidayName : Option String := none
  isSpecialSession : Bool := false
  marketOpen : Option Int := none
  marketClose : Option Int := none
  deriving DecidableEq

/-- The sessions by IST day, counted from 1970-01-01. -/
abbrev Calendar := Int → TradingSessionInfo

def istDay (t : Int) : Int := (t + minutes 330) / minutes 1440

structure Window where
  settleable : Bool
  reason : String
  tPlusH : Int
  deriving DecidableEq

/-- `classify_window`; none where the horizon is not supported. -/
def classifyWindow (calendar : Calendar) (symbol : String) (t horizonMinutes : Int) : Option Window :=
  if horizonMinutes ∉ SUPPORTED_HORIZONS then none
  else
    let tPlusH := t + minutes horizonMinutes
    if isCryptoSymbol symbol then some ⟨true, "crypto-24/7", tPlusH⟩
    else
      let info := calendar (istDay t)
      if !info.isTradingDay then
        some ⟨false, "observation-on-non-trading-day (" ++ info.holidayName.getD "weekend" ++ ")", tPlusH⟩
      else
        match info.marketOpen, info.marketClose with
        | some marketOpen, some marketClose =>
          if !(marketOpen ≤ t ∧ t < marketClose) then
            some ⟨false, "observation-outside-session", tPlusH⟩
          else if info.isSpecialSession then
            some ⟨false, "special-session-involved", tPlusH⟩
          else if istDay tPlusH ≠ istDay t ∨ marketClose ≤ tPlusH then
            some ⟨false, "crosses-session-close", tPlusH⟩
          else some ⟨true, "same-regular-session", tPlusH⟩
        | _, _ => some ⟨false, "session-times-unavailable", tPlusH⟩

theorem classifyWindow_end {calendar : Calendar} {symbol : String} {t horizonMinutes : Int} {window : Window}
    (h : classifyWindow calendar symbol t horizonMinutes = some window) :
    window.tPlusH = t + minutes horizonMinutes := by
  rw [classifyWindow] at h
  split at h
  · cases h
  · dsimp only at h
    split at h
    · cases h
      rfl
    · split at h
      · cases h
        rfl
      · split at h
        · split_ifs at h <;> cases h <;> rfl
        · cases h
          rfl

/-- A candle's time and price, where they count for the window. -/
def Candle.inWindow (t h : Int) (c : Candle) : Option (Int × ℚ) :=
  match c.timestamp, c.close with
  | some timestamp, some px =>
    if timestamp < t ∨ h < timestamp then none else if px ≤ 0 then none else some (timestamp, px)
  | _, _ => none

/-- A later candle, or one of the same time, replaces the best one so far. -/
def pick (t h : Int) (best : Option (Int × ℚ)) (c : Candle) : Option (Int × ℚ) :=
  match c.inWindow t h with
  | none => best
  | some (timestamp, px) =>
    match best with
    | none => some (timestamp, px)
    | some (bestTs, bestClose) => if bestTs ≤ timestamp then some (timestamp, px) else some (bestTs, bestClose)

def resolveForwardSpot (candles : List Candle) (t h : Int) : Option ℚ :=
  (candles.foldl (pick t h) none).map Prod.snd

def IsLatest (t h : Int) (candles : List Candle) (timestamp : Int) (px : ℚ) : Prop :=
  (∃ c ∈ candles, c.inWindow t h = some (timestamp, px)) ∧
    ∀ c ∈ candles, ∀ timestamp' px', c.inWindow t h = some (timestamp', px') → timestamp' ≤ timestamp

theorem mem_pick {t h : Int} {best : Option (Int × ℚ)} {c : Candle} {found : Int × ℚ}
    (hfound : found ∈ pick t h best c) : found ∈ best ∨ c.inWindow t h = some found := by
  rw [pick] at hfound
  split at hfound
  · exact .inl hfound
  · rename_i timestamp px hc
    split at hfound
    · exact .inr (hc.trans hfound)
    · split at hfound
      · exact .inr (hc.trans hfound)
      · exact .inl hfound

theorem pick_keeps (t h : Int) {best : Option (Int × ℚ)} (c : Candle) {found : Int × ℚ}
    (hfound : found ∈ best) : ∃ found' ∈ pick t h best c, found.1 ≤ found'.1 := by
  cases hfound
  rw [pick]
  split
  · exact ⟨found, rfl, le_refl _⟩
  · dsimp only
    split
    · rename_i hle
      exact ⟨_, rfl, hle⟩
    · exact ⟨found, rfl, le_refl _⟩

theorem pick_covers {t h : Int} (best : Option (Int × ℚ)) {c : Candle} {found : Int × ℚ}
    (hc : c.inWindow t h = some found) : ∃ found' ∈ pick t h best c, found.1 ≤ found'.1 := by
  rw [pick, hc]
  cases best with
  | none => exact ⟨found, rfl, le_refl _⟩
  | some old =>
    dsimp only
    split
    · exact ⟨found, rfl, le_refl _⟩
    · rename_i hlt
      exact ⟨old, rfl, le_of_lt (not_le.mp hlt)⟩

theorem foldl_pick_keeps (t h : Int) (candles : List Candle) {best : Option (Int × ℚ)} {found : Int × ℚ}
    (hfound : found ∈ best) : ∃ found' ∈ candles.foldl (pick t h) best, found.1 ≤ found'.1 := by
  induction candles generalizing best found with
  | nil => exact ⟨found, hfound, le_refl _⟩
  | cons c candles ih =>
    obtain ⟨next, hnext, hle⟩ := pick_keeps t h c hfound
    obtain ⟨last, hlast, hle'⟩ := ih hnext
    exact ⟨last, hlast, le_trans hle hle'⟩

theorem mem_foldl_pick {t h : Int} {candles : List Candle} {best : Option (Int × ℚ)} {found : Int × ℚ}
    (hfound : found ∈ candles.foldl (pick t h) best) :
    found ∈ best ∨ ∃ c ∈ candles, c.inWindow t h = some found := by
  induction candles generalizing best with
  | nil => exact .inl hfound
  | cons c candles ih =>
    rcases ih hfound with hpick | ⟨c', hc', hwindow⟩
    · rcases mem_pick hpick with hbest | hwindow
      · exact .inl hbest
      · exact .inr ⟨c, List.mem_cons_self, hwindow⟩
    · exact .inr ⟨c', List.mem_cons_of_mem _ hc', hwindow⟩

theorem foldl_pick_covers {t h : Int} {candles : List Candle} (best : Option (Int × ℚ)) {c : Candle}
    (hc : c ∈ candles) {found : Int × ℚ} (hwindow : c.inWindow t h = some found) :
    ∃ found' ∈ candles.foldl (pick t h) best, found.1 ≤ found'.1 := by
  induction candles generalizing best with
  | nil => cases hc
  | cons c' candles ih =>
    rcases List.mem_cons.mp hc with rfl | hrest
    · obtain ⟨next, hnext, hle⟩ := pick_covers best hwindow
      obtain ⟨last, hlast, hle'⟩ := foldl_pick_keeps t h candles hnext
      exact ⟨last, hlast, le_trans hle hle'⟩
    · exact ih (pick t h best c') hrest

/-- The forward spot is the close of the latest candle that counts, in whatever order they come. -/
theorem resolveForwardSpot_latest {candles : List Candle} {t h : Int} {px : ℚ}
    (hspot : resolveForwardSpot candles t h = some px) : ∃ timestamp, IsLatest t h candles timestamp px := by
  obtain ⟨⟨timestamp, px'⟩, hfound, rfl⟩ := Option.map_eq_some_iff.mp hspot
  refine ⟨timestamp, ?_, ?_⟩
  · exact (mem_foldl_pick hfound).resolve_left nofun
  · intro c hc timestamp' px' hwindow
    obtain ⟨found, hfound', hle⟩ := foldl_pick_covers none hc hwindow
    cases hfound.symm.trans hfound'
    exact hle

theorem resolveForwardSpot_append {candles extra : List Candle} {t h : Int}
    (hextra : ∀ c ∈ extra, c.inWindow t h = none) :
    resolveForwardSpot (candles ++ extra) t h = resolveForwardSpot candles t h := by
  have hfold : ∀ best, extra.foldl (pick t h) best = best := by
    intro best
    induction extra generalizing best with
    | nil => rfl
    | cons c extra ih =>
      obtain ⟨hc, hrest⟩ := List.forall_mem_cons.mp hextra
      rw [List.foldl_cons, ih hrest, pick, hc]
  rw [resolveForwardSpot, resolveForwardSpot, List.foldl_append, hfold]

end Droid.Outcomes
