import Droid.Algo.PositionManager
import Mathlib.Data.List.Induction
import Mathlib.Algebra.Order.Group.MinMax
import Mathlib.Algebra.Order.Ring.Rat

/-! The trailing stop over a run of prices, and the exits at it. -/
namespace Droid.Algo
open Lib

/-- For the holder of a side, the price a is no better than b. -/
def NoBetter (side : String) (a b : ℚ) : Prop := if side = "LONG" then a ≤ b else b ≤ a

instance (side : String) (a b : ℚ) : Decidable (NoBetter side a b) :=
  inferInstanceAs (Decidable (if side = "LONG" then a ≤ b else b ≤ a))

/-- The better of two prices, for the holder of a side. -/
def better (side : String) (a b : ℚ) : ℚ := if side = "LONG" then max a b else min a b

/-- The running maximum of a long position's prices, the running minimum of a short one's. -/
def bestPrice (side : String) (prices : List ℚ) : Option ℚ := if side = "LONG" then prices.max? else prices.min?

def trailLevel (side : String) (distance price : ℚ) : ℚ :=
  if side = "LONG" then price - distance else price + distance

/-- The better of the stop a position had and the level of the best price so far. -/
def ManagedPosition.trailed (pos : ManagedPosition) (distance : ℚ) (prices : List ℚ) : Option ℚ :=
  Option.merge (better pos.side) pos.stopPrice ((bestPrice pos.side prices).map (trailLevel pos.side distance))

namespace PositionManager

/-- The prices fed, each at its time. -/
def feed (m : PositionManager) (accountId : AccountId) (positionId : String) (ticks : List (Int × ℚ)) :
    PositionManager :=
  ticks.foldl (fun m tick => m.updatePrice tick.1 accountId positionId tick.2) m

/-- After each price the stop is the trailed one and never looser than before, and at a price at or through it the
engine exits, at any time and in any context. -/
structure TrailsBest (m : PositionManager) (accountId : AccountId) (positionId : String) (pos : ManagedPosition)
    (distance : ℚ) (ticks : List (Int × ℚ)) : Prop where
  best : ∀ seen, seen ≠ [] → seen <+: ticks → ∃ after, (m.feed accountId positionId seen).find accountId positionId =
    some after ∧ after.stopPrice = pos.trailed distance (seen.map Prod.snd)
  tightens : ∀ seen tick, seen ++ [tick] <+: ticks →
    ∀ before ∈ (m.feed accountId positionId seen).find accountId positionId,
    ∀ after ∈ (m.feed accountId positionId (seen ++ [tick])).find accountId positionId,
    ∀ stop ∈ before.stopPrice, ∃ stop' ∈ after.stopPrice, NoBetter pos.side stop stop'
  exits : ∀ seen tick, seen ++ [tick] <+: ticks →
    ∀ after ∈ (m.feed accountId positionId (seen ++ [tick])).find accountId positionId,
    ∀ stop ∈ after.stopPrice, NoBetter pos.side tick.2 stop →
    ∀ now context, (evaluate now after context).shouldExit = true

end PositionManager

namespace ManagedPosition

/-- A stop of zero that a price reaches, with no other exit that every context makes. -/
structure UnseenStop (pos : ManagedPosition) (distance : ℚ) (prices : List ℚ) (price : ℚ) : Prop where
  zero : pos.trailed distance prices = some 0
  reached : NoBetter pos.side price 0
  kept : pos.exitState ≠ .orphanedAlert
  untargeted : ∀ target ∈ pos.targetPrice, target ≠ 0 → ¬ NoBetter pos.side target price

/-- What a position is after prices, in terms of what it was: its entries but the stop, the price, the P&L and
the time of change stay. -/
structure TrailedFrom (pos : ManagedPosition) (distance : ℚ) (prices : List ℚ) (after : ManagedPosition) : Prop where
  side : after.side = pos.side
  isOpen : after.isOpen = true
  exitState : after.exitState = pos.exitState
  targetPrice : after.targetPrice = pos.targetPrice
  trailingStop : after.trailingStop = some distance
  currentPrice : ∀ price ∈ prices.getLast?, after.currentPrice = price
  stopPrice : after.stopPrice = pos.trailed distance prices

end ManagedPosition

theorem max?_concat (xs : List ℚ) (price : ℚ) : (xs ++ [price]).max? = Option.merge max xs.max? (some price) := by
  cases xs with
  | nil => rfl
  | cons x xs => simp only [List.cons_append, List.max?_cons', List.foldl_append, List.foldl_cons, List.foldl_nil,
      Option.merge_some_some]

theorem min?_concat (xs : List ℚ) (price : ℚ) : (xs ++ [price]).min? = Option.merge min xs.min? (some price) := by
  cases xs with
  | nil => rfl
  | cons x xs => simp only [List.cons_append, List.min?_cons', List.foldl_append, List.foldl_cons, List.foldl_nil,
      Option.merge_some_some]

theorem better_assoc (side : String) (a b c : ℚ) : better side (better side a b) c = better side a (better side b c) := by
  rw [better, better, better, better]
  split
  · exact max_assoc a b c
  · exact min_assoc a b c

theorem noBetter_better (side : String) (a b : ℚ) : NoBetter side a (better side a b) := by
  rw [NoBetter, better]
  split
  · exact le_max_left a b
  · exact min_le_left a b

theorem trailLevel_better (side : String) (distance a b : ℚ) :
    trailLevel side distance (better side a b) = better side (trailLevel side distance a) (trailLevel side distance b) := by
  simp only [trailLevel, better]
  split
  · exact (max_sub_sub_right a b distance).symm
  · exact (min_add_add_right a b distance).symm

theorem better_long {side : String} (hside : side = "LONG") : better side = max := by
  funext a b
  exact if_pos hside

theorem better_short {side : String} (hside : side ≠ "LONG") : better side = min := by
  funext a b
  exact if_neg hside

theorem bestPrice_concat (side : String) (prices : List ℚ) (price : ℚ) :
    bestPrice side (prices ++ [price]) = Option.merge (better side) (bestPrice side prices) (some price) := by
  rw [bestPrice, bestPrice]
  split
  · rename_i hside
    rw [better_long hside]
    exact max?_concat prices price
  · rename_i hside
    rw [better_short hside]
    exact min?_concat prices price

namespace ManagedPosition
variable {pos after : ManagedPosition} {distance price : ℚ} {prices : List ℚ} {now : Int}

theorem trailed_concat :
    pos.trailed distance (prices ++ [price]) =
      Option.merge (better pos.side) (pos.trailed distance prices) (some (trailLevel pos.side distance price)) := by
  rw [trailed, trailed, bestPrice_concat]
  cases bestPrice pos.side prices with
  | none => simp
  | some best =>
    cases pos.stopPrice with
    | none => simp [trailLevel_better]
    | some stop => simp [trailLevel_better, better_assoc]

theorem trailed_nil : pos.trailed distance [] = pos.stopPrice := by
  simp [trailed, bestPrice]

/-- The comparison in the code takes the better of the two. -/
theorem trail_eq : pos.trail distance price =
    Option.merge (better pos.side) pos.stopPrice (some (trailLevel pos.side distance price)) := by
  rw [trail, trailLevel]
  by_cases hside : pos.side = "LONG"
  · rw [better_long hside, if_pos hside, if_pos hside]
    cases hstop : pos.stopPrice with
    | none => simp
    | some stop =>
      simp only [Option.all_some, Option.merge_some_some, decide_eq_true_eq, max_def_lt]
      split <;> rfl
  · rw [better_short hside, if_neg hside, if_neg hside]
    cases hstop : pos.stopPrice with
    | none => simp
    | some stop =>
      simp only [Option.all_some, Option.merge_some_some, decide_eq_true_eq]
      split
      · rename_i hlt
        rw [min_eq_right hlt.le]
      · rename_i hlt
        rw [min_eq_left (not_lt.mp hlt)]

theorem TrailedFrom.refl (hopen : pos.isOpen = true) (htrail : pos.trailingStop = some distance) :
    pos.TrailedFrom distance [] pos where
  side := rfl
  isOpen := hopen
  exitState := rfl
  targetPrice := rfl
  trailingStop := htrail
  currentPrice := by simp
  stopPrice := trailed_nil.symm

theorem TrailedFrom.updatePrice (h : pos.TrailedFrom distance prices after) :
    pos.TrailedFrom distance (prices ++ [price]) (after.updatePrice now price) := by
  have heq : after.updatePrice now price =
      { { after with currentPrice := price }.refreshPnl now with
        stopPrice := ({ after with currentPrice := price }.refreshPnl now).trail distance price } := by
    simp only [ManagedPosition.updatePrice, refreshPnl, h.isOpen, h.trailingStop, if_true]
  have htrail : (({ after with currentPrice := price }.refreshPnl now).trail distance price) =
      after.trail distance price := by
    simp only [refreshPnl, h.isOpen, if_true]
    rfl
  rw [heq, htrail]
  simp only [refreshPnl, h.isOpen, if_true]
  exact ⟨h.side, rfl, h.exitState, h.targetPrice, h.trailingStop, by simp,
    by rw [trail_eq, trailed_concat, h.side, h.stopPrice]⟩

theorem isStopHit_iff : after.isStopHit = true ↔
    after.isOpen = true ∧ ∃ stop ∈ after.stopPrice, stop ≠ 0 ∧ NoBetter after.side after.currentPrice stop := by
  cases hstop : after.stopPrice with
  | none => simp [isStopHit, hstop]
  | some stop =>
    by_cases hzero : stop = 0
    · simp [isStopHit, hstop, hzero]
    · by_cases hside : after.side = "LONG" <;> simp [isStopHit, hstop, hzero, against, NoBetter, hside]

theorem isTargetHit_iff : after.isTargetHit = true ↔
    after.isOpen = true ∧ ∃ target ∈ after.targetPrice, target ≠ 0 ∧ NoBetter after.side target after.currentPrice := by
  cases htarget : after.targetPrice with
  | none => simp [isTargetHit, htarget]
  | some target =>
    by_cases hzero : target = 0
    · simp [isTargetHit, htarget, hzero]
    · by_cases hside : after.side = "LONG" <;> simp [isTargetHit, htarget, hzero, infavor, NoBetter, hside]

theorem everyContext_exits_iff : (∀ now context, (evaluate now after context).shouldExit = true) ↔
    after.isOpen = true ∧ (after.orphaned = true ∨ after.isStopHit = true ∨ after.isTargetHit = true) := by
  constructor
  · intro h
    have hquiet := h 0 { hasCircuit := true }
    by_contra hnot
    by_cases hopen : after.isOpen = true
    · simp only [hopen, true_and, not_or, Bool.not_eq_true] at hnot
      obtain ⟨horphaned, hstop, htarget⟩ := hnot
      simp [evaluate, hopen, horphaned, hstop, htarget] at hquiet
    · simp [evaluate, hopen] at hquiet
  · rintro ⟨hopen, horphaned | hstop | htarget⟩ now context
    · simp [evaluate, hopen, horphaned, exitFor]
    · simp only [evaluate, hopen, hstop, not_true, if_false, if_true]
      repeat' split
      all_goals rfl
    · simp only [evaluate, hopen, htarget, not_true, if_false, if_true]
      repeat' split
      all_goals rfl

theorem TrailedFrom.exits_iff (h : pos.TrailedFrom distance prices after) (hprice : prices.getLast? = some price) :
    (∀ stop ∈ after.stopPrice, NoBetter pos.side price stop →
        ∀ now context, (evaluate now after context).shouldExit = true) ↔
      ¬ pos.UnseenStop distance prices price := by
  have hcurrent : after.currentPrice = price := h.currentPrice price hprice
  have horphaned : after.orphaned = true ↔ pos.exitState = .orphanedAlert := by
    rw [orphaned, h.exitState, decide_eq_true_eq]
  simp only [everyContext_exits_iff, isStopHit_iff, isTargetHit_iff, h.isOpen, h.side, h.targetPrice, hcurrent, horphaned, true_and]
  constructor
  · intro hexit hunseen
    have hzero : after.stopPrice = some 0 := h.stopPrice.trans hunseen.zero
    rcases hexit 0 hzero hunseen.reached with hkept | ⟨stop, hstop, hne, -⟩ | ⟨target, htarget, hne, hhit⟩
    · exact hunseen.kept hkept
    · exact hne (Option.some.inj (hstop.symm.trans hzero))
    · exact hunseen.untargeted target htarget hne hhit
  · intro hseen stop hstop hreached
    by_contra hnot
    push Not at hnot
    obtain ⟨hkept, hunhit, huntargeted⟩ := hnot
    have hzero : stop = 0 := by
      by_contra hne
      exact hunhit stop hstop hne hreached
    subst hzero
    exact hseen ⟨h.stopPrice.symm.trans hstop, hreached, hkept, huntargeted⟩

/-- The position after the prices fed, by induction on them from the last. -/
theorem TrailedFrom.run (hopen : pos.isOpen = true) (htrail : pos.trailingStop = some distance)
    (ticks : List (Int × ℚ)) :
    pos.TrailedFrom distance (ticks.map Prod.snd) (ticks.foldl (fun p tick => p.updatePrice tick.1 tick.2) pos) := by
  induction ticks using List.reverseRecOn with
  | nil => exact .refl hopen htrail
  | append_singleton ticks tick ih =>
    rw [List.foldl_append, List.map_append]
    exact ih.updatePrice

end ManagedPosition

namespace PositionManager
variable {m : PositionManager} {accountId : AccountId} {positionId : String} {pos : ManagedPosition} {distance : ℚ}
  {ticks : List (Int × ℚ)}

theorem find_updatePrice (now : Int) (price : ℚ) (h : m.find accountId positionId = some pos) :
    (m.updatePrice now accountId positionId price).find accountId positionId = some (pos.updatePrice now price) := by
  rw [updatePrice, modify, h]
  exact (Dict.get?_insert ..).trans (if_pos rfl)

theorem find_feed (h : m.find accountId positionId = some pos) (ticks : List (Int × ℚ)) :
    (m.feed accountId positionId ticks).find accountId positionId =
      some (ticks.foldl (fun p tick => p.updatePrice tick.1 tick.2) pos) := by
  induction ticks generalizing m pos with
  | nil => exact h
  | cons tick ticks ih => exact ih (find_updatePrice tick.1 tick.2 h)

/-- The stop trails the best price and every price at it makes an exit, exactly when after no price the trailed stop
is an unseen zero. -/
theorem trailsBest_iff (hfind : m.find accountId positionId = some pos) (hopen : pos.isOpen = true)
    (htrail : pos.trailingStop = some distance) :
    m.TrailsBest accountId positionId pos distance ticks ↔
      ∀ seen tick, seen ++ [tick] <+: ticks →
        ¬ pos.UnseenStop distance ((seen ++ [tick]).map Prod.snd) tick.2 := by
  have hlast : ∀ (seen : List (Int × ℚ)) (tick : Int × ℚ), ((seen ++ [tick]).map Prod.snd).getLast? = some tick.2 := by
    simp
  constructor
  · intro h seen tick hseen
    have hexits := h.exits seen tick hseen _ (find_feed hfind _)
    exact ((ManagedPosition.TrailedFrom.run hopen htrail _).exits_iff (hlast seen tick)).mp hexits
  · intro h
    refine ⟨fun seen _ _ => ⟨_, find_feed hfind seen, (ManagedPosition.TrailedFrom.run hopen htrail seen).stopPrice⟩,
      fun seen tick hseen before hbefore after hafter stop hstop => ?_, fun seen tick hseen after hafter => ?_⟩
    · have hthen := ManagedPosition.TrailedFrom.run hopen htrail seen
      have hnow := ManagedPosition.TrailedFrom.run hopen htrail (seen ++ [tick])
      rw [← Option.some.inj ((find_feed hfind _).symm.trans hbefore)] at hstop
      rw [← Option.some.inj ((find_feed hfind _).symm.trans hafter), hnow.stopPrice, List.map_append]
      have htrailed : pos.trailed distance (seen.map Prod.snd) = some stop := hthen.stopPrice.symm.trans hstop
      refine ⟨better pos.side stop (trailLevel pos.side distance tick.2), ?_, noBetter_better ..⟩
      exact ManagedPosition.trailed_concat.trans (congrArg (Option.merge _ · _) htrailed)
    · rw [← Option.some.inj ((find_feed hfind _).symm.trans hafter)]
      exact ((ManagedPosition.TrailedFrom.run hopen htrail _).exits_iff (hlast seen tick)).mpr (h seen tick hseen)

/-- A long position that trails 5 behind a rise to 110, and leaves at 104. -/
theorem trailsBest_iff_rise :
    PositionManager.TrailsBest
      (Dict.empty.insert "A:P1"
        { accountId := "A", positionId := "P1", symbol := "NIFTY", side := "LONG", quantity := 50
          trailingStop := some 5, entryTimestamp := 0, updatedAt := 0 }) "A" "P1"
      { accountId := "A", positionId := "P1", symbol := "NIFTY", side := "LONG", quantity := 50
        trailingStop := some 5, entryTimestamp := 0, updatedAt := 0 } 5 [(1, 100), (2, 110), (3, 104)] := by
  refine (trailsBest_iff (by decide +kernel) rfl rfl).mpr fun seen tick hseen hunseen => ?_
  have hpositive : ∀ tick ∈ [((1 : Int), (100 : ℚ)), (2, 110), (3, 104)], ¬ NoBetter "LONG" tick.2 0 := by
    decide +kernel
  exact hpositive tick (hseen.subset (List.mem_concat_self ..)) hunseen.reached

/-- A long position trails 5 behind a price of 5, to a stop of zero, which a price of zero does not hit. -/
theorem zero_stop_unseen :
    ¬ ∀ (m : PositionManager) (accountId : AccountId) (positionId : String) (pos : ManagedPosition) (distance : ℚ)
      (ticks : List (Int × ℚ)), m.find accountId positionId = some pos → pos.isOpen = true →
      pos.trailingStop = some distance → 0 < distance → m.TrailsBest accountId positionId pos distance ticks := by
  intro h
  have hfirst := h
    (Dict.empty.insert "A:P1"
      { accountId := "A", positionId := "P1", symbol := "NIFTY", side := "LONG", quantity := 50
        trailingStop := some 5, entryTimestamp := 0, updatedAt := 0 }) "A" "P1" _ 5 [(1, 5), (2, 0)]
    rfl rfl rfl (by decide +kernel)
  have hexit := hfirst.exits [(1, 5)] (2, 0) (List.prefix_refl _) _ (find_feed rfl _) 0 (by decide +kernel)
    (by decide +kernel) 9 { hasCircuit := true }
  exact absurd hexit (by decide +kernel)

end PositionManager

end Droid.Algo
