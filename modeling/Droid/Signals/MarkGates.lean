import Droid.Signals.OptionMarks

/-! Which marks the registry serves after a run of puts, and which marks a record is given. -/
namespace Droid.Signals
open Lib

namespace OptionMark

/-- The spread, where it is known, is within the limit. -/
def SpreadFits (m : OptionMark) : Prop := ∀ pct, m.spreadPct = some pct → pct ≤ MAX_SPREAD_PCT

instance (m : OptionMark) : Decidable m.SpreadFits :=
  match h : m.spreadPct with
  | none => isTrue fun pct hpct => by rw [h] at hpct; cases hpct
  | some sp =>
    if hle : sp ≤ MAX_SPREAD_PCT then isTrue fun pct hpct => by rw [h] at hpct; cases hpct; exact hle
    else isFalse fun hfits => hle (hfits sp h)

/-- The gates of freshness, of the spread and of a stale implied volatility. -/
structure Passes (m : OptionMark) (now : Int) : Prop where
  fresh : m.ageMs now ≤ m.ttlMs
  spread : m.SpreadFits
  iv : m.isStaleIv = false

/-- A broker mark that prices. -/
structure Sound (m : OptionMark) : Prop where
  chain : m.isChain = true
  priced : m.price.isSome = true
  spread : m.SpreadFits

/-- Provenance before time. -/
def provenance (m : OptionMark) : Nat ×ₗ Int := toLex (sourceRank m.source, m.asOfUtc)

theorem isChain_iff (m : OptionMark) : m.isChain = true ↔ 2 ≤ sourceRank m.source := by
  have hdiffer : MODEL_BLACK76 ∉ [CHAIN_BIDASK, CHAIN_LTP] := by decide
  unfold isChain isChainSource sourceRank
  split_ifs with hbook hltp hmodel
  · simp [hbook]
  · simp [hltp]
  · rw [hmodel]
    simpa using hdiffer
  · simp [hbook, hltp]

theorem isModel_of_isChain {m : OptionMark} (h : m.isChain = true) : m.isModel = false := by
  have hdiffer : MODEL_BLACK76 ∉ [CHAIN_BIDASK, CHAIN_LTP] := by decide
  simp only [isChain, isChainSource, decide_eq_true_eq] at h
  simp only [isModel, decide_eq_false_iff_not]
  intro hmodel
  rw [hmodel] at h
  exact hdiffer h

theorem isStaleIv_of_isChain {m : OptionMark} (h : m.isChain = true) : m.isStaleIv = false := by
  rw [isStaleIv, isModel_of_isChain h, Bool.false_and]

theorem available_of_isChain {m : OptionMark} (h : m.isChain = true) : Text.upper m.source ≠ UNAVAILABLE := by
  have hdiffer : UNAVAILABLE ∉ [CHAIN_BIDASK, CHAIN_LTP] := by decide
  simp only [isChain, isChainSource, decide_eq_true_eq] at h
  intro hsource
  rw [hsource] at h
  exact hdiffer h

theorem spreadFits_iff (m : OptionMark) : m.SpreadFits ↔ m.spreadPct.any (MAX_SPREAD_PCT < ·) = false := by
  unfold SpreadFits
  cases m.spreadPct <;> simp

end OptionMark

namespace OptionMarkRegistry
variable {registry : OptionMarkRegistry} {now : Int}

theorem effectiveTtl_plain (mark : OptionMark) : effectiveTtl { allowModel := false } mark = mark.ttlMs := by
  have hblank : Text.upper "" = "" := by decide +kernel
  simp [effectiveTtl, hblank]

theorem veto_behind_gates {mark : OptionMark} (hspread : mark.SpreadFits) (hiv : mark.isStaleIv = false) :
    (match mark.usabilityVeto with
      | some (.wideSpread _) => none
      | some .staleIv => none
      | _ => some mark) = some mark := by
  have hfilter : mark.spreadPct.filter (MAX_SPREAD_PCT < ·) = none := by
    rw [OptionMark.spreadFits_iff] at hspread
    cases hsp : mark.spreadPct with
    | none => rfl
    | some sp =>
      rw [hsp, Option.any_some] at hspread
      rw [Option.filter_some, hspread]
      rfl
  unfold OptionMark.usabilityVeto
  rw [hfilter, hiv]
  dsimp only
  cases mark.oi.filter (· < MIN_OI_CONTRACTS) with
  | some oi => rfl
  | none =>
    dsimp only
    cases mark.volume.any (· < 0) <;> rfl

theorem getUsable_eq_some_iff {sym : String} {mark : OptionMark} :
    registry.getUsable now sym { allowModel := false } = some mark ↔
      registry.get sym = some mark ∧ mark.isUsable = true ∧ mark.isModel = false ∧ mark.Passes now := by
  unfold getUsable
  cases hget : registry.get sym with
  | none => simp
  | some found =>
    dsimp only
    rw [effectiveTtl_plain]
    simp only [Option.any_some, Option.any_none, Bool.not_false, Bool.true_and, Bool.not_eq_true', Bool.false_eq_true,
      if_false]
    constructor
    · intro h
      split_ifs at h with husable hmodel hage hspread hiv
      split at h
      · cases h
      · cases h
      cases h
      rw [Bool.not_eq_false] at husable
      rw [Bool.not_eq_true] at hmodel hspread hiv
      exact ⟨rfl, husable, hmodel, not_lt.mp hage, (OptionMark.spreadFits_iff _).mpr hspread, hiv⟩
    · rintro ⟨hsome, husable, hmodel, hpasses⟩
      cases hsome
      have hspread := (OptionMark.spreadFits_iff mark).mp hpasses.spread
      rw [if_neg (by simp [husable]), if_neg (by simp [hmodel]), if_neg (not_lt.mpr hpasses.fresh),
        if_neg (by simp [hspread]), if_neg (by simp [hpasses.iv])]
      exact veto_behind_gates hpasses.spread hpasses.iv

/-- A broker mark that is served prices, is within its window, and within the limit of the spread. -/
theorem getUsable_chain_iff {sym : String} {mark : OptionMark} (hget : registry.get sym = some mark)
    (hchain : mark.isChain = true) :
    (registry.getUsable now sym { allowModel := false }).isSome = true ↔ mark.Sound ∧ mark.ageMs now ≤ CHAIN_TTL_MS := by
  have httl : mark.ttlMs = CHAIN_TTL_MS := by rw [OptionMark.ttlMs, hchain, if_pos rfl]
  rw [Option.isSome_iff_exists]
  constructor
  · rintro ⟨served, hserved⟩
    obtain ⟨hsame, husable, -, hpasses⟩ := getUsable_eq_some_iff.mp hserved
    rw [hget] at hsame
    cases hsame
    rw [OptionMark.isUsable, Bool.and_eq_true] at husable
    exact ⟨⟨hchain, husable.2, hpasses.spread⟩, httl ▸ hpasses.fresh⟩
  · rintro ⟨hsound, hage⟩
    refine ⟨mark, getUsable_eq_some_iff.mpr ⟨hget, ?_, OptionMark.isModel_of_isChain hchain, ?_, hsound.spread,
      OptionMark.isStaleIv_of_isChain hchain⟩⟩
    · rw [OptionMark.isUsable, hsound.priced, decide_eq_true (OptionMark.available_of_isChain hchain)]
      rfl
    · rw [httl]
      exact hage

/-! ### Runs of puts -/

/-- A call that may store a mark. -/
inductive Call where
  | put (mark : Option OptionMark)
  | registerChainStrike (info : LiveStrikeInfo) (now : Int)

def settled (mark : OptionMark) : OptionMark := { mark with brokerSymbol := Text.strip mark.brokerSymbol }

def Call.mark : Call → Option OptionMark
  | .put mark => (mark.filter (·.brokerSymbol ≠ "")).map settled
  | .registerChainStrike info now => chainMark now info

def step (registry : OptionMarkRegistry) : Call → OptionMarkRegistry
  | .put mark => (registry.put mark).1
  | .registerChainStrike info now => (registerChainStrike registry now info).1

def after (calls : List Call) : OptionMarkRegistry := run step Dict.empty calls

def putMarks (calls : List Call) (sym : String) : List OptionMark :=
  (calls.filterMap Call.mark).filter fun mark => decide (mark.brokerSymbol = sym)

theorem get?_put {mark : OptionMark} (hsym : mark.brokerSymbol ≠ "") (sym : String) :
    (registry.put (some mark)).1.get? sym =
      if sym = Text.strip mark.brokerSymbol then upgrade OptionMark.provenance (registry.get? sym) (settled mark)
      else registry.get? sym := by
  unfold put
  dsimp only
  rw [if_neg hsym]
  by_cases hother : sym = Text.strip mark.brokerSymbol
  · subst hother
    rw [if_pos rfl]
    cases hget : registry.get? (Text.strip mark.brokerSymbol) with
    | none => simp [upgrade, settled]
    | some cur =>
      dsimp only [upgrade]
      have hless : OptionMark.provenance (settled mark) < OptionMark.provenance cur ↔
          sourceRank mark.source < sourceRank cur.source ∨
            sourceRank mark.source = sourceRank cur.source ∧ mark.asOfUtc < cur.asOfUtc := Prod.Lex.toLex_lt_toLex
      by_cases hrank : sourceRank mark.source < sourceRank cur.source
      · rw [if_pos hrank, if_pos (hless.mpr (Or.inl hrank))]
        exact hget
      rw [if_neg hrank]
      by_cases htime : sourceRank mark.source = sourceRank cur.source ∧ mark.asOfUtc < cur.asOfUtc
      · rw [if_pos htime, if_pos (hless.mpr (Or.inr htime))]
        exact hget
      · rw [if_neg htime, if_neg fun h => (hless.mp h).elim hrank htime]
        simp [settled]
  · rw [if_neg hother]
    cases registry.get? (Text.strip mark.brokerSymbol) with
    | none => simp [hother]
    | some cur =>
      dsimp only
      split_ifs <;> simp [hother]

theorem chainMark_eq_some_iff {info : LiveStrikeInfo} {mark : OptionMark} :
    chainMark now info = some mark ↔
      Text.strip info.brokerSymbol ≠ "" ∧ (rowMark now info).price.isSome = true ∧ rowMark now info = mark := by
  unfold chainMark
  split_ifs with hsym hprice
  · simp [hsym]
  · simp [hprice]
  · simp [hsym, Option.isSome_iff_ne_none, hprice]

theorem get?_step (registry : OptionMarkRegistry) (call : Call) (sym : String) :
    (registry.step call).get? sym =
      ((call.mark.filter fun mark => decide (mark.brokerSymbol = sym)).map
        (upgrade OptionMark.provenance (registry.get? sym))).getD (registry.get? sym) := by
  have hput : ∀ mark : OptionMark, mark.brokerSymbol ≠ "" →
      (registry.put (some mark)).1.get? sym =
        (((some (settled mark)).filter fun mark => decide (mark.brokerSymbol = sym)).map
          (upgrade OptionMark.provenance (registry.get? sym))).getD (registry.get? sym) := by
    intro mark hsym
    rw [get?_put hsym]
    by_cases hother : sym = Text.strip mark.brokerSymbol
    · simp [settled, hother, Option.filter_some]
    · simp [settled, hother, Ne.symm hother, Option.filter_some]
  cases call with
  | put mark =>
    cases mark with
    | none => rfl
    | some mark =>
      by_cases hsym : mark.brokerSymbol = ""
      · simp [step, put, Call.mark, hsym, Option.filter_some]
      · rw [step, hput mark hsym]
        simp [Call.mark, hsym, Option.filter_some]
  | registerChainStrike info now =>
    rw [step, registerChainStrike, Call.mark]
    cases hmark : chainMark now info with
    | none => rfl
    | some mark =>
      obtain ⟨hsym, -, rfl⟩ := chainMark_eq_some_iff.mp hmark
      have hsettled : settled (rowMark now info) = rowMark now info := by
        simp [settled, rowMark]
      have hcall := hput (rowMark now info) hsym
      rw [hsettled] at hcall
      exact hcall

/-- The registry holds for each symbol what its marks have left in the order in which they were put. -/
theorem get?_after (calls : List Call) (sym : String) :
    (after calls).get? sym = upgraded OptionMark.provenance (putMarks calls sym) := by
  induction calls using List.reverseRecOn with
  | nil => rfl
  | append_singleton calls call ih =>
    rw [after, run_append, run_cons, run_nil, get?_step, ← after, ih, putMarks, putMarks, List.filterMap_append,
      List.filter_append]
    cases hmark : call.mark with
    | none => simp [hmark]
    | some mark =>
      by_cases hsym : mark.brokerSymbol = sym
      · simp [hmark, hsym, upgraded_concat, Option.filter_some]
      · simp [hmark, hsym, Option.filter_some]

end OptionMarkRegistry
end Droid.Signals
