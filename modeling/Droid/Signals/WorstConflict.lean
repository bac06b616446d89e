import Droid.Signals.CrossDeskArbiter
import Droid.Lib.Least
import Mathlib.Tactic.Linarith

/-! The worst conflict of a book: what it makes of a candidate, and which trades of the book are seen. -/
namespace Droid.Signals.CrossDeskArbiter
open Lib Positions

/-! ### What a single trade imposes -/

namespace Candidate
variable (c : Candidate)

/-- An intraday trade on the underlying of a scalp. -/
def Faces (t : Trade) : Prop := c.isScalp = true ∧ t.underlying.getD "" = c.underlying ∧ isScalpTrade t = false

def Suppresses (t : Trade) : Prop := c.Faces t ∧ t.direction ≠ some c.direction ∧ tradeRMultiple t < 1

def Harvests (t : Trade) : Prop := c.Faces t ∧ t.direction ≠ some c.direction ∧ 1 ≤ tradeRMultiple t

def Drags (t : Trade) : Prop := c.Faces t ∧ t.direction = some c.direction ∧ tradeRMultiple t < -1 / 2

/-- Another way on a sibling index. -/
def OpposesSibling (t : Trade) : Prop :=
  c.underlying ∈ indexFamily ∧ t.underlying.getD "" ∈ indexFamily ∧ t.underlying.getD "" ≠ c.underlying ∧
    t.direction.getD "" ≠ c.direction

instance (t : Trade) : Decidable (c.Faces t) := inferInstanceAs (Decidable (_ ∧ _ ∧ _))

instance (t : Trade) : Decidable (c.Suppresses t) := inferInstanceAs (Decidable (_ ∧ _ ∧ _))

instance (t : Trade) : Decidable (c.Harvests t) := inferInstanceAs (Decidable (_ ∧ _ ∧ _))

instance (t : Trade) : Decidable (c.Drags t) := inferInstanceAs (Decidable (_ ∧ _ ∧ _))

instance (t : Trade) : Decidable (c.OpposesSibling t) := inferInstanceAs (Decidable (_ ∧ _ ∧ _ ∧ _))

def factor (t : Trade) : ℚ := if c.Harvests t then 1 / 2 else if c.Drags t then 3 / 4 else 1

def leastFactor (book : List Trade) : ℚ := leastOf c.factor 1 book

def haircut (book : List Trade) : ℚ := if ∃ t ∈ book, c.OpposesSibling t then crossIndexBetaHaircut else 1

end Candidate

/-- What a decision rules, without its texts. -/
structure Ruling where
  action : ArbiterAction
  passed : Bool
  sizingMultiplier : ℚ
  deriving DecidableEq, Repr

def ArbiterDecision.ruling (d : ArbiterDecision) : Ruling := ⟨d.action, d.passed, d.sizingMultiplier⟩

namespace Candidate
variable (c : Candidate)

def worst (book : List Trade) : Ruling :=
  if c.veto.isSome then ⟨.suppress, false, 0⟩
  else if ∃ t ∈ book, c.Suppresses t then ⟨.suppress, false, 1⟩
  else
    { action :=
        if ∃ t ∈ book, c.Harvests t then .harvestWarning
        else if ∃ t ∈ book, c.OpposesSibling t then .reduceSize else .allow
      passed := true
      sizingMultiplier := roundTo 2 (c.leastFactor book * c.haircut book) }

/-! ### The loop -/

/-- What the loop keeps of the intraday trades it has looked at. -/
structure Surveyed (looked : List Trade) (s : Survey) : Prop where
  suppress : s.suppressReasons ≠ [] ↔ ∃ t ∈ looked, c.Suppresses t
  harvest : s.harvest ≠ none ↔ ∃ t ∈ looked, c.Harvests t
  warning : ∀ d, s.harvest = some d → d.ruling = ⟨.harvestWarning, true, 1 / 2⟩
  sizing : s.sizingNote = if ∃ t ∈ looked, c.Drags t then 3 / 4 else 1

variable {c}

/-- The warning of a trade that is up. -/
def harvestOf (r : ℚ) : ArbiterDecision where
  action := .harvestWarning
  reason := .counterTrend r
  suggestedIntradayAction := some "TIGHTEN_STOP_TO_BE"
  sizingMultiplier := 1 / 2

/-- What the loop does on a trade, by the conflict that the trade is in. -/
theorem look_cases (s : Survey) {t : Trade} (ht : c.Faces t) :
    (c.Suppresses t ∧ ¬ c.Harvests t ∧ ¬ c.Drags t ∧
      ∃ conflict, c.look s t = { s with suppressReasons := s.suppressReasons ++ [conflict] }) ∨
    (c.Harvests t ∧ ¬ c.Suppresses t ∧ ¬ c.Drags t ∧
      c.look s t = if s.harvest = none then { s with harvest := some (harvestOf (tradeRMultiple t)) } else s) ∨
    (c.Drags t ∧ ¬ c.Suppresses t ∧ ¬ c.Harvests t ∧
      c.look s t = { s with sizingNote := min s.sizingNote (3 / 4) }) ∨
    (¬ c.Suppresses t ∧ ¬ c.Harvests t ∧ ¬ c.Drags t ∧ c.look s t = s) := by
  simp only [Suppresses, Harvests, Drags, ht, true_and, look]
  by_cases hdir : t.direction = some c.direction
  · simp only [hdir, ne_eq, not_true_eq_false, false_and, not_false_eq_true, true_and, if_false]
    by_cases hdrag : tradeRMultiple t < -1 / 2
    · have hneg : tradeRMultiple t < 0 := by linarith
      simp [hdrag, hneg]
    · simp [hdrag]
  · simp only [hdir, ne_eq, not_false_eq_true, true_and, false_and, if_true]
    by_cases hup : 1 ≤ tradeRMultiple t
    · have hpos : ¬ tradeRMultiple t < 0 := by linarith
      have hone : ¬ tradeRMultiple t < 1 := not_lt.mpr hup
      simp [hup, hpos, hone, harvestOf]
    · have hone : tradeRMultiple t < 1 := not_le.mp hup
      by_cases hneg : tradeRMultiple t < 0
      · simp [hup, hneg, hone]
      · simp [hup, hneg, hone]

theorem exists_concat_iff {P : Trade → Prop} {looked : List Trade} {t : Trade} (h : ¬ P t) :
    (∃ u ∈ looked ++ [t], P u) ↔ ∃ u ∈ looked, P u := by
  constructor
  · rintro ⟨u, hu, hp⟩
    rcases List.mem_append.mp hu with hold | hnew
    · exact ⟨u, hold, hp⟩
    · rw [List.mem_singleton.mp hnew] at hp
      exact absurd hp h
  · rintro ⟨u, hu, hp⟩
    exact ⟨u, List.mem_append_left _ hu, hp⟩

theorem Surveyed.look {looked : List Trade} {s : Survey} (h : c.Surveyed looked s) {t : Trade} (ht : c.Faces t) :
    c.Surveyed (looked ++ [t]) (c.look s t) := by
  have hlast : t ∈ looked ++ [t] := List.mem_append_right _ (List.mem_singleton.mpr rfl)
  rcases look_cases s ht with ⟨hs, hh, hd, conflict, heq⟩ | ⟨hh, hs, hd, heq⟩ | ⟨hd, hs, hh, heq⟩ | ⟨hs, hh, hd, heq⟩
  · rw [heq]
    constructor
    · exact iff_of_true (List.append_ne_nil_of_right_ne_nil _ (List.cons_ne_nil _ _)) ⟨t, hlast, hs⟩
    · rw [exists_concat_iff hh]
      exact h.harvest
    · exact h.warning
    · simp only [exists_concat_iff hd]
      exact h.sizing
  · rw [heq]
    by_cases hnone : s.harvest = none
    · rw [if_pos hnone]
      constructor
      · rw [exists_concat_iff hs]
        exact h.suppress
      · exact iff_of_true (Option.some_ne_none _) ⟨t, hlast, hh⟩
      · intro d hsome
        cases hsome
        rfl
      · simp only [exists_concat_iff hd]
        exact h.sizing
    · rw [if_neg hnone]
      constructor
      · rw [exists_concat_iff hs]
        exact h.suppress
      · exact iff_of_true hnone ⟨t, hlast, hh⟩
      · exact h.warning
      · simp only [exists_concat_iff hd]
        exact h.sizing
  · rw [heq]
    constructor
    · rw [exists_concat_iff hs]
      exact h.suppress
    · rw [exists_concat_iff hh]
      exact h.harvest
    · exact h.warning
    · rw [if_pos ⟨t, hlast, hd⟩]
      dsimp only
      rw [h.sizing]
      split_ifs <;> norm_num
  · rw [heq]
    constructor
    · rw [exists_concat_iff hs]
      exact h.suppress
    · rw [exists_concat_iff hh]
      exact h.harvest
    · exact h.warning
    · simp only [exists_concat_iff hd]
      exact h.sizing

theorem surveyed {intraday : List Trade} (h : ∀ t ∈ intraday, c.Faces t) {looked : List Trade} {s : Survey}
    (hs : c.Surveyed looked s) : c.Surveyed (looked ++ intraday) (intraday.foldl c.look s) := by
  induction intraday generalizing looked s with
  | nil => rwa [List.append_nil]
  | cons t intraday ih =>
    rw [List.append_cons]
    exact ih (fun u hu => h u (List.mem_cons_of_mem _ hu)) (hs.look (h t List.mem_cons_self))

/-! ### The decision -/

theorem faced_iff {trades : List Trade} {t : Trade} (hscalp : c.isScalp = true) :
    t ∈ (c.underlyingTrades trades).filter (fun t => !isScalpTrade t) ↔
      t ∈ trades.filter isActiveTrade ∧ c.Faces t := by
  simp only [underlyingTrades, List.mem_filter, Faces, hscalp, true_and, Bool.and_eq_true, decide_eq_true_eq,
    Bool.not_eq_true']
  tauto

theorem sibOpposing_iff {trades : List Trade} :
    c.sibOpposing trades ≠ [] ↔ ∃ t ∈ trades.filter isActiveTrade, c.OpposesSibling t := by
  unfold sibOpposing
  split_ifs with hfamily
  · simp only [OpposesSibling, hfamily, true_and, ne_eq, List.filter_eq_nil_iff, not_forall, List.mem_filter,
      Bool.and_eq_true, decide_eq_true_eq, not_not, exists_prop]
    constructor
    · rintro ⟨t, ht, ⟨⟨hin, hother⟩, hactive⟩, hdir⟩
      exact ⟨t, ⟨ht, hactive⟩, hin, hother, hdir⟩
    · rintro ⟨t, ⟨ht, hactive⟩, hin, hother, hdir⟩
      exact ⟨t, ht, ⟨⟨hin, hother⟩, hactive⟩, hdir⟩
  · simp [OpposesSibling, hfamily]

/-- The least factor is that of a warning, of a pullback, or of neither. -/
theorem leastFactor_eq (book : List Trade) :
    c.leastFactor book =
      if ∃ t ∈ book, c.Harvests t then 1 / 2 else if ∃ t ∈ book, c.Drags t then 3 / 4 else 1 := by
  have hfactor : ∀ t, 1 / 2 ≤ c.factor t := by
    intro t
    rw [factor]
    split_ifs <;> norm_num
  split_ifs with hh hd
  · obtain ⟨t, ht, hharvest⟩ := hh
    apply le_antisymm
    · have hle : c.leastFactor book ≤ c.factor t := leastOf_le ht
      rwa [factor, if_pos hharvest] at hle
    · exact le_leastOf_iff.mpr ⟨by norm_num, fun u _ => hfactor u⟩
  · obtain ⟨t, ht, hdrag⟩ := hd
    apply le_antisymm
    · have hle : c.leastFactor book ≤ c.factor t := leastOf_le ht
      rwa [factor, if_neg fun h => hh ⟨t, ht, h⟩, if_pos hdrag] at hle
    · apply le_leastOf_iff.mpr
      refine ⟨by norm_num, fun u hu => ?_⟩
      rw [factor, if_neg fun h => hh ⟨u, hu, h⟩]
      split_ifs <;> norm_num
  · apply le_antisymm (leastOf_le_top book)
    apply le_leastOf_iff.mpr
    refine ⟨le_rfl, fun u hu => ?_⟩
    rw [factor, if_neg fun h => hh ⟨u, hu, h⟩, if_neg fun h => hd ⟨u, hu, h⟩]

theorem withBeta_ruling {siblings : List Trade} {d : ArbiterDecision} {action : ArbiterAction} {m : ℚ}
    (hm : m = 1 / 2 ∨ m = 3 / 4 ∨ m = 1) (hd : d.ruling = ⟨action, true, m⟩) :
    (withBeta siblings d).ruling =
      { action := if action = .allow ∧ siblings ≠ [] then .reduceSize else action
        passed := true
        sizingMultiplier := roundTo 2 (m * if siblings ≠ [] then crossIndexBetaHaircut else 1) } := by
  have hsized : roundTo 2 (m * crossIndexBetaHaircut) < 1 := by
    rcases hm with rfl | rfl | rfl <;> decide +kernel
  have hplain : roundTo 2 m = m := by
    rcases hm with rfl | rfl | rfl <;> decide +kernel
  obtain ⟨rfl, hpassed, rfl⟩ : d.action = action ∧ d.passed = true ∧ d.sizingMultiplier = m := by
    simpa [ArbiterDecision.ruling] using hd
  unfold withBeta
  by_cases hsib : siblings ≠ []
  · rw [if_pos ⟨hsib, hpassed⟩, if_pos hsib]
    simp [ArbiterDecision.ruling, hpassed, hsized, hsib]
  · rw [if_neg fun h => hsib h.1, if_neg hsib, mul_one, hplain, if_neg fun h => hsib h.2]
    exact hd

theorem ofSurvey_ruling {siblings looked : List Trade} {s : Survey} (h : c.Surveyed looked s) :
    (ofSurvey siblings s).ruling =
      if ∃ t ∈ looked, c.Suppresses t then ⟨.suppress, false, 1⟩
      else
        { action :=
            if ∃ t ∈ looked, c.Harvests t then .harvestWarning else if siblings ≠ [] then .reduceSize else .allow
          passed := true
          sizingMultiplier := roundTo 2 (c.leastFactor looked * if siblings ≠ [] then crossIndexBetaHaircut else 1) } := by
  rw [leastFactor_eq]
  unfold ofSurvey
  by_cases hs : s.suppressReasons ≠ []
  · rw [if_pos hs, if_pos (h.suppress.mp hs)]
    rfl
  rw [if_neg hs, if_neg (h.suppress.not.mp hs)]
  cases hharvest : s.harvest with
  | some d =>
    have hh : ∃ t ∈ looked, c.Harvests t := h.harvest.mp (by simp [hharvest])
    dsimp only
    rw [if_pos hh, if_pos hh, withBeta_ruling (Or.inl rfl) (h.warning d hharvest)]
    simp
  | none =>
    have hh : ¬ ∃ t ∈ looked, c.Harvests t := fun hex => h.harvest.mpr hex hharvest
    dsimp only
    rw [if_neg hh, if_neg hh, h.sizing]
    by_cases hd : ∃ t ∈ looked, c.Drags t
    · rw [if_pos hd, if_pos (by norm_num), withBeta_ruling (Or.inr (Or.inl rfl)) rfl]
      simp
    · rw [if_neg hd, if_neg (by norm_num), withBeta_ruling (Or.inr (Or.inr rfl)) rfl]
      simp

/-- Without an intraday trade to face, a candidate is at most cut by the siblings. -/
theorem worst_of_unfaced (hveto : c.veto = none) {book : List Trade} (h : ¬ ∃ t ∈ book, c.Faces t) :
    c.worst book =
      { action := if ∃ t ∈ book, c.OpposesSibling t then .reduceSize else .allow
        passed := true
        sizingMultiplier := roundTo 2 (1 * c.haircut book) } := by
  have hs : ¬ ∃ t ∈ book, c.Suppresses t := fun ⟨t, ht, hp⟩ => h ⟨t, ht, hp.1⟩
  have hh : ¬ ∃ t ∈ book, c.Harvests t := fun ⟨t, ht, hp⟩ => h ⟨t, ht, hp.1⟩
  have hd : ¬ ∃ t ∈ book, c.Drags t := fun ⟨t, ht, hp⟩ => h ⟨t, ht, hp.1⟩
  simp only [worst, hveto, leastFactor_eq, if_neg hs, if_neg hh, if_neg hd, Option.isSome_none, Bool.false_eq_true,
    if_false]

theorem arbitrate_ruling_of_unfaced (hveto : c.veto = none) {trades : List Trade}
    (h : ¬ ∃ t ∈ trades.filter isActiveTrade, c.Faces t) :
    (c.arbitrate trades).ruling = c.worst (trades.filter isActiveTrade) := by
  rw [worst_of_unfaced hveto h, haircut]
  simp only [← sibOpposing_iff]
  unfold arbitrate
  rw [hveto]
  dsimp only
  have hallowed : ∀ d : ArbiterDecision, d.ruling = ⟨.allow, true, 1⟩ →
      (withBeta (c.sibOpposing trades) d).ruling =
        { action := if c.sibOpposing trades ≠ [] then .reduceSize else .allow
          passed := true
          sizingMultiplier := roundTo 2 (1 * if c.sibOpposing trades ≠ [] then crossIndexBetaHaircut else 1) } := by
    intro d hd
    rw [withBeta_ruling (Or.inr (Or.inr rfl)) hd]
    simp
  by_cases hempty : c.underlyingTrades trades = []
  · rw [if_pos hempty]
    by_cases hsib : c.sibOpposing trades ≠ []
    · have hsized : roundTo 2 (1 * crossIndexBetaHaircut) = crossIndexBetaHaircut := by decide +kernel
      rw [if_pos hsib, if_pos hsib, if_pos hsib, hsized]
      rfl
    · have hsized : roundTo 2 (1 * 1) = 1 := by decide +kernel
      rw [if_neg hsib, if_neg hsib, if_neg hsib, hsized]
      rfl
  rw [if_neg hempty]
  by_cases hscalp : c.isScalp = true
  · have hintraday : (c.underlyingTrades trades).filter (fun t => !isScalpTrade t) = [] := by
      apply List.eq_nil_iff_forall_not_mem.mpr
      intro t ht
      exact h ⟨t, (faced_iff hscalp).mp ht⟩
    rw [if_pos hscalp, if_pos hintraday]
    exact hallowed _ rfl
  · rw [if_neg hscalp]
    split
    · exact hallowed _ rfl
    · exact hallowed _ rfl

/-- The decision is the ruling of the worst conflict among the trades that are seen. -/
theorem arbitrate_ruling (c : Candidate) (trades : List Trade) :
    (c.arbitrate trades).ruling = c.worst (trades.filter isActiveTrade) := by
  cases hveto : c.veto with
  | some rejection => simp [arbitrate, worst, hveto, ArbiterDecision.ruling]
  | none =>
    by_cases hfaced : ∃ t ∈ trades.filter isActiveTrade, c.Faces t
    · obtain ⟨t, ht, hface⟩ := hfaced
      have hmem := (faced_iff hface.1).mpr ⟨ht, hface⟩
      have hintraday := List.ne_nil_of_mem hmem
      have hunderlying := List.ne_nil_of_mem (List.mem_of_mem_filter hmem)
      -- the conflicts are among the trades that the loop runs over
      have hsame : ∀ P : Trade → Prop, (∀ u, P u → c.Faces u) →
          ((∃ u ∈ (c.underlyingTrades trades).filter (fun t => !isScalpTrade t), P u) ↔
            ∃ u ∈ trades.filter isActiveTrade, P u) := by
        intro P hP
        constructor
        · rintro ⟨u, hu, hp⟩
          exact ⟨u, ((faced_iff hface.1).mp hu).1, hp⟩
        · rintro ⟨u, hu, hp⟩
          exact ⟨u, (faced_iff hface.1).mpr ⟨hu, hP u hp⟩, hp⟩
      have hstart : c.Surveyed [] {} := by
        constructor <;> simp
      have hfaces : ∀ u ∈ (c.underlyingTrades trades).filter (fun t => !isScalpTrade t), c.Faces u :=
        fun u hu => ((faced_iff hface.1).mp hu).2
      have hsurvey := surveyed hfaces hstart
      rw [List.nil_append] at hsurvey
      unfold arbitrate
      rw [hveto]
      dsimp only
      rw [if_neg hunderlying, if_pos hface.1, if_neg hintraday, ofSurvey_ruling hsurvey, leastFactor_eq, worst,
        leastFactor_eq, haircut]
      simp only [hsame c.Suppresses fun u hu => hu.1, hsame c.Harvests fun u hu => hu.1,
        hsame c.Drags fun u hu => hu.1, sibOpposing_iff, hveto, Option.isSome_none, Bool.false_eq_true, if_false]
    · exact arbitrate_ruling_of_unfaced hveto hfaced

end Candidate
end Droid.Signals.CrossDeskArbiter
