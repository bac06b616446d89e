import Droid.Signals.CacheReads
import Droid.Signals.MarkGates

/-! The law of the marks: a good broker mark is never hidden, the order of the puts does not count, and a record is
given no bad mark. -/
namespace Droid.Signals.OptionMarkRegistry
open Lib

/-- Marks never go dark and never go bad. -/
structure MarksHold (cache : LiveContractCache) (calls : List Call) : Prop where
  lit : ∀ s now, s ≠ "" → (∃ mark ∈ putMarks calls (Text.strip s), mark.Sound ∧ mark.ageMs now ≤ CHAIN_TTL_MS) →
    ((after calls).getUsable now s { allowModel := false }).isSome = true
  ordered : ∀ other, calls.Perm other → ∀ s mark, (after calls).get? s = some mark →
    ∃ mark', (after other).get? s = some mark' ∧ sourceRank mark'.source = sourceRank mark.source ∧
      mark'.asOfUtc = mark.asOfUtc
  recorded : ∀ now modelMark record spot registerModel,
    let mark := (markForRecord (after calls) cache now modelMark record spot false registerModel).2
    Text.upper mark.source = UNAVAILABLE ∨ mark.Passes now

/-- Of the marks of a symbol, the last one of the best provenance and the latest time is sound and no older than any
sound mark, if there is one. -/
def Unhidden (calls : List Call) : Prop :=
  ∀ s, ∀ mark ∈ putMarks calls s, mark.Sound →
    ∀ best, upgraded OptionMark.provenance (putMarks calls s) = some best → best.Sound ∧ mark.asOfUtc ≤ best.asOfUtc

/-- The mark that the puts of a symbol have left may be served. -/
def Serves (calls : List Call) (now : Int) (s : String) : Prop :=
  ∃ best, upgraded OptionMark.provenance (putMarks calls (Text.strip s)) = some best ∧ best.isUsable = true ∧
    best.isModel = false ∧ best.Passes now

/-- A priced row of the cache, for a symbol without a mark to serve, is within the window and the limit of a mark. -/
def RowsFit (cache : LiveContractCache) (calls : List Call) : Prop :=
  ∀ now s info, ¬ Serves calls now s → cache.findBySymbol now s = some info → (rowMark now info).price.isSome = true →
    (rowMark now info).ageMs now ≤ CHAIN_TTL_MS ∧ (rowMark now info).SpreadFits

/-! ### The marks of the registry -/

theorem settled_symbol {calls : List Call} {s : String} {mark : OptionMark} (h : mark ∈ putMarks calls s) :
    ∃ given, given ≠ "" ∧ Text.strip given = s := by
  obtain ⟨hmem, hsym⟩ := List.mem_filter.mp h
  obtain ⟨call, -, hcall⟩ := List.mem_filterMap.mp hmem
  rw [decide_eq_true_eq] at hsym
  cases call with
  | put given =>
    rw [Call.mark, Option.map_eq_some_iff] at hcall
    obtain ⟨given, hgiven, rfl⟩ := hcall
    have hne := Option.mem_filter_iff.mp hgiven
    exact ⟨given.brokerSymbol, of_decide_eq_true hne.2, hsym⟩
  | registerChainStrike info now =>
    obtain ⟨hne, -, rfl⟩ := chainMark_eq_some_iff.mp hcall
    refine ⟨info.brokerSymbol, ?_, hsym⟩
    intro hblank
    rw [hblank] at hne
    exact hne (by decide +kernel)

theorem get_of_ne {registry : OptionMarkRegistry} {s : String} (h : s ≠ "") :
    registry.get s = registry.get? (Text.strip s) := if_neg h

theorem serves_iff {calls : List Call} {now : Int} {s : String} (hs : s ≠ "") :
    Serves calls now s ↔ ∃ mark, (after calls).getUsable now s { allowModel := false } = some mark := by
  simp only [Serves, getUsable_eq_some_iff, get_of_ne hs, get?_after]

theorem provenance_le_iff {a b : OptionMark} :
    OptionMark.provenance a ≤ OptionMark.provenance b ↔
      sourceRank a.source < sourceRank b.source ∨
        sourceRank a.source = sourceRank b.source ∧ a.asOfUtc ≤ b.asOfUtc := Prod.Lex.toLex_le_toLex

theorem isChain_best {marks : List OptionMark} {mark best : OptionMark} (hmark : mark ∈ marks) (hchain : mark.isChain = true)
    (hbest : upgraded OptionMark.provenance marks = some best) : best.isChain = true := by
  rw [OptionMark.isChain_iff] at hchain ⊢
  rcases provenance_le_iff.mp (key_le_upgraded hbest mark hmark) with hlt | ⟨heq, -⟩
  · exact hchain.trans hlt.le
  · exact heq ▸ hchain

theorem Unhidden.lit {calls : List Call} (h : Unhidden calls) {s : String} {now : Int} (hs : s ≠ "")
    (hmark : ∃ mark ∈ putMarks calls (Text.strip s), mark.Sound ∧ mark.ageMs now ≤ CHAIN_TTL_MS) :
    ((after calls).getUsable now s { allowModel := false }).isSome = true := by
  obtain ⟨mark, hmem, hsound, hage⟩ := hmark
  obtain ⟨best, hbest⟩ := exists_upgraded OptionMark.provenance hmem
  obtain ⟨hbestSound, htime⟩ := h _ mark hmem hsound best hbest
  have hget : (after calls).get s = some best := by
    rw [get_of_ne hs, get?_after, hbest]
  refine (getUsable_chain_iff hget hbestSound.chain).mpr ⟨hbestSound, ?_⟩
  unfold OptionMark.ageMs at hage ⊢
  omega

/-- At the time of a sound mark, and at the end of its window, the mark that is left has to stand in for it. -/
theorem MarksHold.unhidden {cache : LiveContractCache} {calls : List Call} (h : MarksHold cache calls) :
    Unhidden calls := by
  intro s mark hmem hsound best hbest
  obtain ⟨given, hgiven, hs⟩ := settled_symbol hmem
  have hget : (after calls).get given = some best := by
    rw [get_of_ne hgiven, hs, get?_after, hbest]
  have hserved : ∀ now, mark.ageMs now ≤ CHAIN_TTL_MS → best.Sound ∧ best.ageMs now ≤ CHAIN_TTL_MS := by
    intro now hage
    have hlit := h.lit given now hgiven ⟨mark, hs.symm ▸ hmem, hsound, hage⟩
    exact (getUsable_chain_iff hget (isChain_best hmem hsound.chain hbest)).mp hlit
  have hnow : mark.ageMs mark.asOfUtc ≤ CHAIN_TTL_MS := by
    simp [OptionMark.ageMs, CHAIN_TTL_MS]
  have hend : mark.ageMs (mark.asOfUtc + CHAIN_TTL_MS) ≤ CHAIN_TTL_MS := by
    simp [OptionMark.ageMs, CHAIN_TTL_MS]
  refine ⟨(hserved _ hnow).1, ?_⟩
  have hage := (hserved _ hend).2
  unfold OptionMark.ageMs at hage
  omega

theorem after_perm {calls other : List Call} (hp : calls.Perm other) {s : String} {mark : OptionMark}
    (h : (after calls).get? s = some mark) :
    ∃ mark', (after other).get? s = some mark' ∧ sourceRank mark'.source = sourceRank mark.source ∧
      mark'.asOfUtc = mark.asOfUtc := by
  rw [get?_after] at h
  have hmarks : (putMarks calls s).Perm (putMarks other s) := (hp.filterMap Call.mark).filter _
  obtain ⟨mark', hmark', hkey⟩ := upgraded_perm hmarks h
  obtain ⟨hrank, htime⟩ := Prod.mk.inj (toLex_inj.mp hkey)
  refine ⟨mark', ?_, hrank, htime⟩
  rw [get?_after, hmark']

/-! ### The mark of a record -/

theorem isChain_rowMark (now : Int) (info : LiveStrikeInfo) : (rowMark now info).isChain = true := by
  unfold OptionMark.isChain rowMark
  dsimp only
  split_ifs <;> decide +kernel

theorem passes_rowMark_iff {now : Int} {info : LiveStrikeInfo} :
    (rowMark now info).Passes now ↔
      (rowMark now info).ageMs now ≤ CHAIN_TTL_MS ∧ (rowMark now info).SpreadFits := by
  have hchain := isChain_rowMark now info
  have httl : (rowMark now info).ttlMs = CHAIN_TTL_MS := by rw [OptionMark.ttlMs, hchain, if_pos rfl]
  constructor
  · intro h
    exact ⟨httl ▸ h.fresh, h.spread⟩
  · rintro ⟨hage, hspread⟩
    exact ⟨httl.symm ▸ hage, hspread, OptionMark.isStaleIv_of_isChain hchain⟩

theorem fallback_eq {registry : OptionMarkRegistry} {now : Int} {info : LiveStrikeInfo} :
    (registerChainStrike registry now info).2.filter OptionMark.isUsable =
      if Text.strip info.brokerSymbol ≠ "" ∧ (rowMark now info).price.isSome = true then some (rowMark now info)
      else none := by
  unfold registerChainStrike
  cases hmark : chainMark now info with
  | none =>
    rw [if_neg]
    · rfl
    · rintro ⟨hsym, hprice⟩
      rw [chainMark_eq_some_iff.mpr ⟨hsym, hprice, rfl⟩] at hmark
      cases hmark
  | some mark =>
    obtain ⟨hsym, hprice, rfl⟩ := chainMark_eq_some_iff.mp hmark
    have husable : (rowMark now info).isUsable = true := by
      rw [OptionMark.isUsable, hprice, decide_eq_true (OptionMark.available_of_isChain (isChain_rowMark now info))]
      rfl
    rw [if_pos ⟨hsym, hprice⟩, Option.filter_some, husable, if_pos rfl]

theorem upper_unavailable : Text.upper UNAVAILABLE = UNAVAILABLE := by decide +kernel

theorem modelForRecord_unavailable (registry : OptionMarkRegistry) (now : Int)
    (modelMark : String → ℚ → MarkRecord → OptionMark) (sym : String) (record : MarkRecord) (spot : Option ℚ)
    (registerModel : Bool) :
    Text.upper (modelForRecord registry now modelMark sym record spot false registerModel).2.source = UNAVAILABLE :=
  upper_unavailable

theorem RowsFit.recorded {cache : LiveContractCache} {calls : List Call} (h : RowsFit cache calls) (now : Int)
    (modelMark : String → ℚ → MarkRecord → OptionMark) (record : MarkRecord) (spot : Option ℚ) (registerModel : Bool) :
    Text.upper (markForRecord (after calls) cache now modelMark record spot false registerModel).2.source = UNAVAILABLE ∨
      (markForRecord (after calls) cache now modelMark record spot false registerModel).2.Passes now := by
  unfold markForRecord
  dsimp only
  by_cases hsym : recordSymbol cache now record = ""
  · rw [if_pos hsym]
    exact Or.inl upper_unavailable
  rw [if_neg hsym]
  cases husable : (after calls).getUsable now (recordSymbol cache now record) { allowModel := false } with
  | some chain => exact Or.inr (getUsable_eq_some_iff.mp husable).2.2.2
  | none =>
    dsimp only
    cases hfind : cache.findBySymbol now (recordSymbol cache now record) with
    | none => exact Or.inl (modelForRecord_unavailable _ _ _ _ _ _ _)
    | some info =>
      dsimp only
      rw [fallback_eq]
      have hunserved : ¬ Serves calls now (recordSymbol cache now record) := by
        rw [serves_iff hsym, husable]
        simp
      by_cases hrow : Text.strip info.brokerSymbol ≠ "" ∧ (rowMark now info).price.isSome = true
      · rw [if_pos hrow]
        exact Or.inr (passes_rowMark_iff.mpr (h now _ info hunserved hfind hrow.2))
      · rw [if_neg hrow]
        exact Or.inl (modelForRecord_unavailable _ _ _ _ _ _ _)

theorem markForRecord_row {cache : LiveContractCache} {calls : List Call} {now : Int} {s : String} {info : LiveStrikeInfo}
    (hunserved : ¬ Serves calls now s) (hfind : cache.findBySymbol now s = some info)
    (hprice : (rowMark now info).price.isSome = true) (modelMark : String → ℚ → MarkRecord → OptionMark) :
    (markForRecord (after calls) cache now modelMark { optionSymbol := s } none false false).2 = rowMark now info := by
  obtain ⟨hnamed, hscan, hread⟩ := LiveContractCache.findBySymbol_eq_some_iff.mp hfind
  obtain ⟨-, -, -, -, hsym⟩ := LiveContractCache.found_of_findBySymbol hfind
  have hrecord : recordSymbol cache now { optionSymbol := s } = Text.strip s := if_pos hnamed
  have hnone : (after calls).getUsable now (Text.strip s) { allowModel := false } = none := by
    apply Option.eq_none_iff_forall_not_mem.mpr
    intro mark hmark
    have hstripped := (serves_iff hnamed).mpr ⟨mark, hmark⟩
    rw [Serves, Text.strip_strip] at hstripped
    exact hunserved hstripped
  have hfound : cache.findBySymbol now (Text.strip s) = some info := by
    rw [LiveContractCache.findBySymbol_eq_some_iff, Text.strip_strip]
    exact ⟨hnamed, hscan, hread⟩
  have hrow : Text.strip info.brokerSymbol ≠ "" := by
    rw [hsym, Text.strip_strip]
    exact hnamed
  unfold markForRecord
  rw [hrecord]
  dsimp only
  rw [if_neg hnamed, hnone, hfound]
  dsimp only
  rw [fallback_eq, if_pos ⟨hrow, hprice⟩]

theorem MarksHold.rowsFit {cache : LiveContractCache} {calls : List Call} (h : MarksHold cache calls) :
    RowsFit cache calls := by
  intro now s info hunserved hfind hprice
  let modelMark : String → ℚ → MarkRecord → OptionMark := fun sym _ _ => unavailable now sym ""
  have hgiven := markForRecord_row hunserved hfind hprice modelMark
  have hrecorded := h.recorded now modelMark { optionSymbol := s } none false
  dsimp only at hrecorded
  rw [hgiven] at hrecorded
  rcases hrecorded with hdark | hpasses
  · exact absurd hdark (OptionMark.available_of_isChain (isChain_rowMark now info))
  · exact passes_rowMark_iff.mp hpasses

/-- Marks hold for the sequences of puts in which no sound mark is hidden, over a cache whose rows fit. -/
theorem marksHold_iff (cache : LiveContractCache) (calls : List Call) :
    MarksHold cache calls ↔ Unhidden calls ∧ RowsFit cache calls := by
  constructor
  · intro h
    exact ⟨h.unhidden, h.rowsFit⟩
  · rintro ⟨hunhidden, hrows⟩
    refine ⟨fun s now hs hmark => hunhidden.lit hs hmark, fun other hp s mark hmark => after_perm hp hmark, ?_⟩
    intro now modelMark record spot registerModel
    exact hrows.recorded now modelMark record spot registerModel

def quietBook : OptionMark where
  brokerSymbol := "NSE:NIFTY2592325000CE"
  bid := some 100
  ask := some 101
  source := CHAIN_BIDASK
  asOfUtc := 0

def lastTrade : OptionMark where
  brokerSymbol := "NSE:NIFTY2592325000CE"
  ltp := some 140
  source := CHAIN_LTP
  asOfUtc := 100000

/-- A trade is hidden by a book of 100 seconds before it, which is not served any more. -/
theorem trade_hidden : ¬ MarksHold Dict.empty [.put (some quietBook), .put (some lastTrade)] := by
  intro h
  have hdark : ((after [.put (some quietBook), .put (some lastTrade)]).getUsable 100000 "NSE:NIFTY2592325000CE"
      { allowModel := false }).isSome = false := by decide +kernel
  have hput : lastTrade ∈ putMarks [.put (some quietBook), .put (some lastTrade)]
      (Text.strip "NSE:NIFTY2592325000CE") := by decide +kernel
  have hsound : lastTrade.Sound := by
    constructor <;> decide +kernel
  have hlit := h.lit "NSE:NIFTY2592325000CE" 100000 (by decide) ⟨lastTrade, hput, hsound, by decide +kernel⟩
  rw [hdark] at hlit
  cases hlit

end Droid.Signals.OptionMarkRegistry
