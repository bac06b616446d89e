import Droid.Divergence.Detect

/-! Divergences never repaint: truncation keeps the confirmed ones, and mirroring exchanges the two
sides. -/
namespace Droid.Divergence
open Lib

/-! ### What is stated -/

/-- The first bars of every series. -/
def Series.take (s : Series) (m : Nat) : Series where
  bars := s.bars.take m
  atr := s.atr.take m
  timestamps := s.timestamps.map (·.take m)

def DivergenceType.isBearish : DivergenceType → Bool
  | .regularBearish | .hiddenBearish => true
  | .regularBullish | .hiddenBullish => false

def DivergenceType.pivots (t : DivergenceType) : PivotType := if t.isBearish then .high else .low

/-- An extremum with its indicator: strict to the left of its window, unbeaten to the right. -/
structure IsExtremum (cfg : Settings) (s : Series) (kind : PivotType) (i : Nat) (price indicator : ℚ) : Prop where
  bar : ∃ bar, s.bars[i]? = some bar ∧ kind.price bar = price ∧ bar.indicator = some indicator
  window : cfg.pivotLeftBars ≤ i ∧ i + cfg.pivotRightBars < s.bars.length
  left : ∀ j bar, i ≤ j + cfg.pivotLeftBars → j < i → s.bars[j]? = some bar →
    kind.beyond price (kind.price bar) = true
  right : ∀ j bar, i < j → j ≤ i + cfg.pivotRightBars → s.bars[j]? = some bar →
    kind.notWithin price (kind.price bar) = true

/-- Price and indicator move apart, the way the type says. -/
def DivergenceEvent.Diverges (e : DivergenceEvent) : Prop :=
  match e.divergenceType with
  | .regularBearish | .hiddenBullish => e.prevPrice < e.currPrice ∧ e.currIndicator < e.prevIndicator
  | .regularBullish | .hiddenBearish => e.currPrice < e.prevPrice ∧ e.prevIndicator < e.currIndicator

/-- Both pivots of an event are extrema, at an admissible distance, that diverge. -/
structure WellFormed (cfg : Settings) (s : Series) (e : DivergenceEvent) : Prop where
  curr : IsExtremum cfg s e.divergenceType.pivots e.currPivotIndex e.currPrice e.currIndicator
  prev : IsExtremum cfg s e.divergenceType.pivots e.prevPivotIndex e.prevPrice e.prevIndicator
  confirmed : e.confirmationIndex = e.currPivotIndex + cfg.pivotRightBars
  earlier : e.prevPivotIndex < e.currPivotIndex
  separation : cfg.minPivotSeparation ≤ (e.currPivotIndex : Int) - e.prevPivotIndex ∧
    (e.currPivotIndex : Int) - e.prevPivotIndex ≤ cfg.maxPivotSeparation
  diverges : e.Diverges

/-! ### The mirror -/

def Bar.mirror (bar : Bar) : Bar where
  high := -bar.low
  low := -bar.high
  indicator := bar.indicator.map (- ·)

/-- Prices and indicator negated, so that highs and lows change places. -/
def Series.mirror (s : Series) : Series := { s with bars := s.bars.map Bar.mirror }

def PivotType.mirror : PivotType → PivotType
  | .high => .low
  | .low => .high

def Pivot.mirror (p : Pivot) : Pivot :=
  { p with
    pivotType := p.pivotType.mirror
    price := -p.price
    indicatorValue := -p.indicatorValue }

def DivergenceType.mirror : DivergenceType → DivergenceType
  | .regularBullish => .regularBearish
  | .regularBearish => .regularBullish
  | .hiddenBullish => .hiddenBearish
  | .hiddenBearish => .hiddenBullish

def DivergenceEvent.mirror (e : DivergenceEvent) : DivergenceEvent :=
  { e with
    divergenceType := e.divergenceType.mirror
    currPrice := -e.currPrice
    prevPrice := -e.prevPrice
    currIndicator := -e.currIndicator
    prevIndicator := -e.prevIndicator
    priceDelta := -e.priceDelta
    priceDeltaAtr := -e.priceDeltaAtr
    indicatorDelta := -e.indicatorDelta }

/-- Everything the detector promises of a series. -/
structure NeverRepaints (cfg : Settings) (s : Series) : Prop where
  prefixes : ∀ m, detectDivergences cfg (s.take m) =
    (detectDivergences cfg s).filter (·.confirmationIndex < m)
  active : ∀ (b : Nat) (s' : Series), s'.take (b + 1) = s.take (b + 1) → ∀ maxRecencyBars,
    getActiveDivergenceAtBar b (detectDivergences cfg s') maxRecencyBars =
      getActiveDivergenceAtBar b (detectDivergences cfg s) maxRecencyBars
  wellFormed : ∀ e ∈ detectDivergences cfg s, WellFormed cfg s e
  bearish : (detectDivergences cfg s.mirror).filter (·.divergenceType.isBearish) =
    ((detectDivergences cfg s).filter (! ·.divergenceType.isBearish)).map DivergenceEvent.mirror
  bullish : (detectDivergences cfg s.mirror).filter (! ·.divergenceType.isBearish) =
    ((detectDivergences cfg s).filter (·.divergenceType.isBearish)).map DivergenceEvent.mirror

variable {cfg : Settings} {s : Series} {kind : PivotType}

/-! ### Pivots -/

/-- Without the guard on the length: the range is empty where that holds. -/
theorem detectPivots_eq (cfg : Settings) (s : Series) (kind : PivotType) : detectPivots cfg s kind =
    (List.range' cfg.pivotLeftBars (s.bars.length - cfg.pivotRightBars - cfg.pivotLeftBars)).filterMap
      (pivotAt cfg s kind) := by
  rw [detectPivots]
  split
  · rw [show s.bars.length - cfg.pivotRightBars - cfg.pivotLeftBars = 0 by omega]
    rfl
  · rfl

theorem pivotAt_some {i : Nat} {p : Pivot} (h : pivotAt cfg s kind i = some p) :
    ∃ bar indVal, s.bars[i]? = some bar ∧ bar.indicator = some indVal ∧
      kind.isPivot cfg.pivotLeftBars cfg.pivotRightBars s.bars i bar = true ∧
      p = { pivotType := kind
            pivotIndex := i
            confirmationIndex := i + cfg.pivotRightBars
            price := kind.price bar
            indicatorValue := indVal
            timestamp := s.timestampAt (i + cfg.pivotRightBars) } := by
  rw [pivotAt] at h
  simp only [Option.bind_eq_bind, Option.bind_eq_some_iff, Option.ite_none_right_eq_some,
    Option.some.injEq] at h
  obtain ⟨bar, hbar, indVal, hind, hpivot, rfl⟩ := h
  exact ⟨bar, indVal, hbar, hind, hpivot, rfl⟩

theorem PivotType.isPivot_extremum {i : Nat} {bar : Bar} {indVal : ℚ} (hleft : cfg.pivotLeftBars ≤ i)
    (hright : i + cfg.pivotRightBars < s.bars.length) (hbar : s.bars[i]? = some bar)
    (hind : bar.indicator = some indVal)
    (hpivot : kind.isPivot cfg.pivotLeftBars cfg.pivotRightBars s.bars i bar = true) :
    IsExtremum cfg s kind i (kind.price bar) indVal := by
  rw [PivotType.isPivot, Bool.and_eq_true, List.all_eq_true, List.all_eq_true] at hpivot
  obtain ⟨hbefore, hafter⟩ := hpivot
  refine ⟨⟨bar, hbar, rfl, hind⟩, ⟨hleft, hright⟩, fun j other hj hlt hother => ?_,
    fun j other hlt hj hother => ?_⟩
  · have htest := hbefore j (List.mem_range'_1.mpr ⟨by omega, by omega⟩)
    rw [hother] at htest
    exact htest
  · have htest := hafter j (List.mem_range'_1.mpr ⟨by omega, by omega⟩)
    rw [hother] at htest
    exact htest

/-- What a confirmed pivot is. -/
theorem detectPivots_spec {p : Pivot} (h : p ∈ detectPivots cfg s kind) :
    IsExtremum cfg s kind p.pivotIndex p.price p.indicatorValue ∧
      p.confirmationIndex = p.pivotIndex + cfg.pivotRightBars := by
  rw [detectPivots_eq, List.mem_filterMap] at h
  obtain ⟨i, hi, hp⟩ := h
  obtain ⟨hleft, hlast⟩ := List.mem_range'_1.mp hi
  have hright : i + cfg.pivotRightBars < s.bars.length := by omega
  obtain ⟨bar, indVal, hbar, hind, hpivot, rfl⟩ := pivotAt_some hp
  exact ⟨PivotType.isPivot_extremum hleft hright hbar hind hpivot, rfl⟩

theorem detectPivots_sorted (cfg : Settings) (s : Series) (kind : PivotType) :
    (detectPivots cfg s kind).Pairwise fun p q =>
      p.pivotIndex < q.pivotIndex ∧ p.confirmationIndex < q.confirmationIndex := by
  rw [detectPivots_eq, List.pairwise_filterMap]
  refine List.Pairwise.imp ?_ (List.pairwise_lt_range' (s := cfg.pivotLeftBars))
  intro i j hij p hp q hq
  obtain ⟨-, -, -, -, -, rfl⟩ := pivotAt_some hp
  obtain ⟨-, -, -, -, -, rfl⟩ := pivotAt_some hq
  exact ⟨hij, Nat.add_lt_add_right hij _⟩

/-! ### Truncation -/

theorem Series.timestampAt_take {m i : Nat} (s : Series) (h : i < m) :
    (s.take m).timestampAt i = s.timestampAt i := by
  rw [timestampAt, timestampAt, take]
  cases s.timestamps with
  | none => rfl
  | some timestamps => exact List.getElem?_take_of_lt h

theorem Series.atrAt_take {m i : Nat} (s : Series) (h : i < m) : (s.take m).atrAt i = s.atrAt i := by
  rw [atrAt, atrAt, take, List.getElem?_take_of_lt h]

theorem PivotType.isPivot_take {bars : List Bar} {leftBars rightBars i m : Nat} {curr : Bar}
    (hleft : leftBars ≤ i) (h : i + rightBars < m) :
    kind.isPivot leftBars rightBars (bars.take m) i curr = kind.isPivot leftBars rightBars bars i curr := by
  have hsame : ∀ j, j < m → (bars.take m)[j]? = bars[j]? := fun j hj => List.getElem?_take_of_lt hj
  rw [isPivot, isPivot]
  congr 1
  · rw [Bool.eq_iff_iff, List.all_eq_true, List.all_eq_true]
    refine forall_congr' fun j => imp_congr_right fun hj => ?_
    rw [hsame j (by have := List.mem_range'_1.mp hj; omega)]
  · rw [Bool.eq_iff_iff, List.all_eq_true, List.all_eq_true]
    refine forall_congr' fun j => imp_congr_right fun hj => ?_
    rw [hsame j (by have := List.mem_range'_1.mp hj; omega)]

/-- A pivot confirmed within the first bars is seen in them. -/
theorem pivotAt_take {i m : Nat} (hleft : cfg.pivotLeftBars ≤ i) (h : i + cfg.pivotRightBars < m) :
    pivotAt cfg (s.take m) kind i = pivotAt cfg s kind i := by
  have hbar : (s.take m).bars[i]? = s.bars[i]? := List.getElem?_take_of_lt (by omega)
  have hpivot : ∀ curr, kind.isPivot cfg.pivotLeftBars cfg.pivotRightBars (s.take m).bars i curr =
      kind.isPivot cfg.pivotLeftBars cfg.pivotRightBars s.bars i curr :=
    fun curr => PivotType.isPivot_take hleft h
  rw [pivotAt, pivotAt, hbar, s.timestampAt_take h]
  simp only [hpivot]

theorem detectPivots_take (cfg : Settings) (s : Series) (kind : PivotType) (m : Nat) :
    detectPivots cfg (s.take m) kind = (detectPivots cfg s kind).filter (·.confirmationIndex < m) := by
  have hlength : (s.take m).bars.length = min m s.bars.length := List.length_take
  rw [detectPivots_eq, detectPivots_eq, hlength]
  -- the range of the truncated series, and what follows it in the full one
  obtain ⟨more, hmore⟩ : ∃ more, s.bars.length - cfg.pivotRightBars - cfg.pivotLeftBars =
      (min m s.bars.length - cfg.pivotRightBars - cfg.pivotLeftBars) + more :=
    ⟨_, (Nat.add_sub_of_le (by omega)).symm⟩
  rw [hmore, ← List.range'_append_1, List.filterMap_append, List.filter_append]
  have hkept : ∀ i ∈ List.range' cfg.pivotLeftBars
      (min m s.bars.length - cfg.pivotRightBars - cfg.pivotLeftBars),
      cfg.pivotLeftBars ≤ i ∧ i + cfg.pivotRightBars < m := by
    intro i hi
    obtain ⟨hleft, hlast⟩ := List.mem_range'_1.mp hi
    exact ⟨hleft, by omega⟩
  have hafter : ∀ p ∈ (List.range' (cfg.pivotLeftBars +
      (min m s.bars.length - cfg.pivotRightBars - cfg.pivotLeftBars)) more).filterMap (pivotAt cfg s kind),
      ¬ p.confirmationIndex < m := by
    intro p hp
    obtain ⟨i, hi, hp⟩ := List.mem_filterMap.mp hp
    obtain ⟨hfirst, hlast⟩ := List.mem_range'_1.mp hi
    obtain ⟨-, -, -, -, -, rfl⟩ := pivotAt_some hp
    have : m ≤ i + cfg.pivotRightBars := by omega
    exact this.not_gt
  have hbefore : ∀ p ∈ (List.range' cfg.pivotLeftBars
      (min m s.bars.length - cfg.pivotRightBars - cfg.pivotLeftBars)).filterMap (pivotAt cfg s kind),
      p.confirmationIndex < m := by
    intro p hp
    obtain ⟨i, hi, hp⟩ := List.mem_filterMap.mp hp
    obtain ⟨-, -, -, -, -, rfl⟩ := pivotAt_some hp
    exact (hkept i hi).2
  rw [List.filter_eq_self.mpr fun p hp => decide_eq_true (hbefore p hp),
    List.filter_eq_nil_iff.mpr fun p hp => by simpa using hafter p hp, List.append_nil]
  exact List.filterMap_congr fun i hi => pivotAt_take (hkept i hi).1 (hkept i hi).2

/-! ### Pairs -/

theorem eventOf_some {curr prev : Pivot} {e : DivergenceEvent} (h : eventOf cfg s kind curr prev = some e) :
    kind.divergence curr.price prev.price curr.indicatorValue prev.indicatorValue = some e.divergenceType ∧
      e.confirmationIndex = curr.confirmationIndex := by
  rw [eventOf, Option.map_eq_some_iff] at h
  obtain ⟨type, htype, rfl⟩ := h
  exact ⟨htype, rfl⟩

theorem eventOf_take {m : Nat} {curr : Pivot} (h : curr.confirmationIndex < m) (prev : Pivot) :
    eventOf cfg (s.take m) kind curr prev = eventOf cfg s kind curr prev := by
  rw [eventOf, eventOf]
  simp only [s.atrAt_take h, s.timestampAt_take h]

theorem mem_selected {curr prev : Pivot} {earlier : List Pivot} (h : prev ∈ selected cfg curr earlier) :
    prev ∈ earlier ∧ cfg.minPivotSeparation ≤ (curr.pivotIndex : Int) - prev.pivotIndex ∧
      (curr.pivotIndex : Int) - prev.pivotIndex ≤ cfg.maxPivotSeparation := by
  have hcandidate : prev ∈ candidates cfg curr earlier := by
    rw [selected] at h
    split at h
    · exact h
    · exact List.mem_of_mem_take h
  rw [candidates, List.mem_filter] at hcandidate
  exact ⟨hcandidate.1, of_decide_eq_true hcandidate.2⟩

theorem mem_divergencesOn {earlier pivots : List Pivot} {e : DivergenceEvent}
    (h : e ∈ divergencesOn cfg s kind earlier pivots) :
    ∃ before curr after prev, pivots = before ++ curr :: after ∧
      prev ∈ selected cfg curr (before.reverse ++ earlier) ∧ eventOf cfg s kind curr prev = some e := by
  induction pivots generalizing earlier with
  | nil => cases h
  | cons curr rest ih =>
    rw [divergencesOn, List.mem_append] at h
    rcases h with hhere | hlater
    · obtain ⟨prev, hprev, he⟩ := List.mem_filterMap.mp hhere
      exact ⟨[], curr, rest, prev, rfl, hprev, he⟩
    · obtain ⟨before, curr', after, prev, rfl, hprev, he⟩ := ih hlater
      refine ⟨curr :: before, curr', after, prev, rfl, ?_, he⟩
      rw [List.reverse_cons, List.append_assoc]
      exact hprev

theorem divergencesOn_take (m : Nat) (earlier : List Pivot) {pivots : List Pivot}
    (hsorted : pivots.Pairwise fun p q => p.confirmationIndex < q.confirmationIndex) :
    divergencesOn cfg (s.take m) kind earlier (pivots.filter (·.confirmationIndex < m)) =
      (divergencesOn cfg s kind earlier pivots).filter (·.confirmationIndex < m) := by
  induction pivots generalizing earlier with
  | nil => rfl
  | cons curr rest ih =>
    obtain ⟨hfirst, hrest⟩ := List.pairwise_cons.mp hsorted
    by_cases hcurr : curr.confirmationIndex < m
    · have hall : ∀ e ∈ (selected cfg curr earlier).filterMap (eventOf cfg s kind curr),
          decide (e.confirmationIndex < m) = true := by
        intro e he
        obtain ⟨prev, -, he⟩ := List.mem_filterMap.mp he
        exact decide_eq_true ((eventOf_some he).2 ▸ hcurr)
      rw [List.filter_cons_of_pos (by simpa using hcurr), divergencesOn, divergencesOn, List.filter_append,
        List.filter_eq_self.mpr hall, ih _ hrest]
      congr 1
      exact List.filterMap_congr fun prev _ => eventOf_take hcurr prev
    · have hlate : ∀ p ∈ curr :: rest, m ≤ p.confirmationIndex := by
        intro p hp
        rcases List.mem_cons.mp hp with rfl | hp
        · exact not_lt.mp hcurr
        · exact (not_lt.mp hcurr).trans (hfirst p hp).le
      have hnone : (curr :: rest).filter (·.confirmationIndex < m) = [] :=
        List.filter_eq_nil_iff.mpr fun p hp => by simpa using hlate p hp
      rw [hnone, eq_comm]
      refine List.filter_eq_nil_iff.mpr fun e he => ?_
      obtain ⟨before, p, after, prev, hsplit, -, he⟩ := mem_divergencesOn he
      have hp := hlate p (hsplit ▸ List.mem_append_right before List.mem_cons_self)
      simpa [(eventOf_some he).2] using hp

instance : Std.Total confirmedFirst := ⟨fun a b => Nat.le_total a.confirmationIndex b.confirmationIndex⟩

instance : IsTrans DivergenceEvent confirmedFirst := ⟨fun _ _ _ => Nat.le_trans⟩

/-- The events of a truncated series are those of the full one confirmed before its end. -/
theorem detectDivergences_take (cfg : Settings) (s : Series) (m : Nat) :
    detectDivergences cfg (s.take m) = (detectDivergences cfg s).filter (·.confirmationIndex < m) := by
  have hside : ∀ kind, divergencesOn cfg (s.take m) kind [] (detectPivots cfg (s.take m) kind) =
      (divergencesOn cfg s kind [] (detectPivots cfg s kind)).filter (·.confirmationIndex < m) := by
    intro kind
    rw [detectPivots_take]
    exact divergencesOn_take m [] ((detectPivots_sorted cfg s kind).imp And.right)
  rw [detectDivergences, detectDivergences, filter_insertionSort, List.filter_append]
  exact congrArg₂ (fun a b => (a ++ b).insertionSort confirmedFirst) (hside .high) (hside .low)

theorem getActive_take (cfg : Settings) (s : Series) (b : Nat) (maxRecencyBars : Int) :
    getActiveDivergenceAtBar b (detectDivergences cfg s) maxRecencyBars =
      getActiveDivergenceAtBar b (detectDivergences cfg (s.take (b + 1))) maxRecencyBars := by
  rw [getActiveDivergenceAtBar, getActiveDivergenceAtBar, detectDivergences_take, List.filter_filter]
  congr 1
  refine List.filter_congr fun e _ => ?_
  rw [Bool.eq_iff_iff, Bool.and_eq_true, decide_eq_true_eq, decide_eq_true_eq]
  omega

/-! ### Well-formed events -/

theorem PivotType.divergence_pivots {pCurr pPrev indCurr indPrev : ℚ} {t : DivergenceType}
    (h : kind.divergence pCurr pPrev indCurr indPrev = some t) : t.pivots = kind := by
  revert h
  cases kind <;> simp only [divergence] <;> split_ifs <;> rintro ⟨⟩ <;> rfl

theorem eventOf_diverges {curr prev : Pivot} {e : DivergenceEvent} (h : eventOf cfg s kind curr prev = some e) :
    e.Diverges := by
  rw [eventOf, Option.map_eq_some_iff] at h
  obtain ⟨type, htype, rfl⟩ := h
  revert htype
  cases kind <;> simp only [PivotType.divergence] <;> split_ifs <;> rintro ⟨⟩ <;> assumption

theorem divergencesOn_wellFormed {e : DivergenceEvent}
    (h : e ∈ divergencesOn cfg s kind [] (detectPivots cfg s kind)) :
    WellFormed cfg s e ∧ e.divergenceType.pivots = kind := by
  obtain ⟨before, curr, after, prev, hsplit, hprev, he⟩ := mem_divergencesOn h
  obtain ⟨hbefore, hseparation⟩ := mem_selected hprev
  rw [List.append_nil, List.mem_reverse] at hbefore
  have hcurrMem : curr ∈ detectPivots cfg s kind := hsplit ▸ List.mem_append_right before List.mem_cons_self
  have hprevMem : prev ∈ detectPivots cfg s kind := hsplit ▸ List.mem_append_left _ hbefore
  have hsorted := detectPivots_sorted cfg s kind
  rw [hsplit, List.pairwise_append] at hsorted
  have hearlier := (hsorted.2.2 prev hbefore curr List.mem_cons_self).1
  obtain ⟨hcurr, hconfirmed⟩ := detectPivots_spec hcurrMem
  obtain ⟨hprevious, -⟩ := detectPivots_spec hprevMem
  have hdiverges := eventOf_diverges he
  have hkind := PivotType.divergence_pivots (eventOf_some he).1
  rw [eventOf, Option.map_eq_some_iff] at he
  obtain ⟨type, -, rfl⟩ := he
  refine ⟨⟨?_, ?_, hconfirmed, hearlier, hseparation, hdiverges⟩, hkind⟩
  · rw [hkind]
    exact hcurr
  · rw [hkind]
    exact hprevious

/-! ### The mirrored series -/

theorem PivotType.price_mirror (kind : PivotType) (bar : Bar) :
    kind.mirror.price bar.mirror = -kind.price bar := by
  cases kind <;> rfl

theorem PivotType.beyond_mirror (kind : PivotType) (a b : ℚ) :
    kind.mirror.beyond (-a) (-b) = kind.beyond a b := by
  cases kind <;> simp [mirror, beyond]

theorem PivotType.notWithin_mirror (kind : PivotType) (a b : ℚ) :
    kind.mirror.notWithin (-a) (-b) = kind.notWithin a b := by
  cases kind <;> simp [mirror, notWithin]

theorem PivotType.isPivot_mirror (kind : PivotType) (leftBars rightBars : Nat) (bars : List Bar) (i : Nat)
    (curr : Bar) : kind.mirror.isPivot leftBars rightBars (bars.map Bar.mirror) i curr.mirror =
      kind.isPivot leftBars rightBars bars i curr := by
  rw [isPivot, isPivot]
  simp only [List.getElem?_map, Option.all_map, price_mirror, beyond_mirror,
    notWithin_mirror]

theorem pivotAt_mirror (cfg : Settings) (s : Series) (kind : PivotType) (i : Nat) :
    pivotAt cfg s.mirror kind.mirror i = (pivotAt cfg s kind i).map Pivot.mirror := by
  have hbar : s.mirror.bars[i]? = (s.bars[i]?).map Bar.mirror := List.getElem?_map
  rw [pivotAt, pivotAt, hbar]
  cases s.bars[i]? with
  | none => rfl
  | some bar =>
    have hpivot : kind.mirror.isPivot cfg.pivotLeftBars cfg.pivotRightBars s.mirror.bars i bar.mirror =
        kind.isPivot cfg.pivotLeftBars cfg.pivotRightBars s.bars i bar := kind.isPivot_mirror _ _ _ _ _
    simp only [Option.map_some, Option.bind_eq_bind, Option.bind_some]
    cases hind : bar.indicator with
    | none => simp [Bar.mirror, hind]
    | some indVal =>
      have hindicator : bar.mirror.indicator = some (-indVal) := by rw [Bar.mirror, hind, Option.map_some]
      rw [hindicator, Option.bind_some, Option.bind_some, hpivot, kind.price_mirror]
      split
      · rfl
      · rfl

theorem detectPivots_mirror (cfg : Settings) (s : Series) (kind : PivotType) :
    detectPivots cfg s.mirror kind.mirror = (detectPivots cfg s kind).map Pivot.mirror := by
  have hlength : s.mirror.bars.length = s.bars.length := List.length_map _
  rw [detectPivots_eq, detectPivots_eq, hlength, List.map_filterMap]
  exact List.filterMap_congr fun i _ => pivotAt_mirror cfg s kind i

theorem PivotType.divergence_mirror (kind : PivotType) (pCurr pPrev indCurr indPrev : ℚ) :
    kind.mirror.divergence (-pCurr) (-pPrev) (-indCurr) (-indPrev) =
      (kind.divergence pCurr pPrev indCurr indPrev).map DivergenceType.mirror := by
  cases kind <;> simp only [mirror, divergence, neg_lt_neg_iff] <;> split_ifs <;> rfl

theorem eventOf_mirror (cfg : Settings) (s : Series) (kind : PivotType) (curr prev : Pivot) :
    eventOf cfg s.mirror kind.mirror curr.mirror prev.mirror =
      (eventOf cfg s kind curr prev).map DivergenceEvent.mirror := by
  have hatr : ∀ i, s.mirror.atrAt i = s.atrAt i := fun i => rfl
  have htime : ∀ i, s.mirror.timestampAt i = s.timestampAt i := fun i => rfl
  rw [eventOf, eventOf]
  simp only [Pivot.mirror, kind.divergence_mirror, Option.map_map, hatr, htime, ← neg_sub', neg_div,
    roundTo_neg]
  rfl

theorem selected_mirror (cfg : Settings) (curr : Pivot) (earlier : List Pivot) :
    selected cfg curr.mirror (earlier.map Pivot.mirror) = (selected cfg curr earlier).map Pivot.mirror := by
  have hcandidates : candidates cfg curr.mirror (earlier.map Pivot.mirror) =
      (candidates cfg curr earlier).map Pivot.mirror := by
    rw [candidates, candidates, List.filter_map]
    rfl
  rw [selected, selected, hcandidates]
  split
  · rfl
  · exact (List.map_take).symm

theorem divergencesOn_mirror (cfg : Settings) (s : Series) (kind : PivotType) (earlier pivots : List Pivot) :
    divergencesOn cfg s.mirror kind.mirror (earlier.map Pivot.mirror) (pivots.map Pivot.mirror) =
      (divergencesOn cfg s kind earlier pivots).map DivergenceEvent.mirror := by
  induction pivots generalizing earlier with
  | nil => rfl
  | cons curr rest ih =>
    have hrest := ih (curr :: earlier)
    rw [List.map_cons] at hrest
    rw [List.map_cons, divergencesOn, divergencesOn, hrest, selected_mirror, List.map_append,
      List.filterMap_map, List.map_filterMap]
    congr 1
    exact List.filterMap_congr fun prev _ => eventOf_mirror cfg s kind curr prev

theorem side_mirror (cfg : Settings) (s : Series) (kind : PivotType) :
    divergencesOn cfg s.mirror kind.mirror [] (detectPivots cfg s.mirror kind.mirror) =
      (divergencesOn cfg s kind [] (detectPivots cfg s kind)).map DivergenceEvent.mirror := by
  rw [detectPivots_mirror]
  exact divergencesOn_mirror cfg s kind [] _

theorem detectDivergences_bearish (cfg : Settings) (s : Series) :
    (detectDivergences cfg s).filter (·.divergenceType.isBearish) =
        (bearishDivergences cfg s).insertionSort confirmedFirst ∧
      (detectDivergences cfg s).filter (! ·.divergenceType.isBearish) =
        (bullishDivergences cfg s).insertionSort confirmedFirst := by
  have hhigh : ∀ e ∈ bearishDivergences cfg s, e.divergenceType.isBearish = true := by
    intro e he
    have hkind := (divergencesOn_wellFormed he).2
    rw [DivergenceType.pivots] at hkind
    by_contra hnot
    rw [if_neg hnot] at hkind
    cases hkind
  have hlow : ∀ e ∈ bullishDivergences cfg s, e.divergenceType.isBearish = false := by
    intro e he
    have hkind := (divergencesOn_wellFormed he).2
    rw [DivergenceType.pivots] at hkind
    by_contra hnot
    rw [if_pos (by simpa using hnot)] at hkind
    cases hkind
  rw [detectDivergences, filter_insertionSort, filter_insertionSort, List.filter_append, List.filter_append,
    List.filter_eq_self.mpr hhigh, List.filter_eq_nil_iff.mpr fun e he => by simp [hlow e he],
    List.filter_eq_nil_iff.mpr fun e he => by simp [hhigh e he],
    List.filter_eq_self.mpr fun e he => by simp [hlow e he], List.append_nil, List.nil_append]
  exact ⟨rfl, rfl⟩

theorem map_mirror_sort (es : List DivergenceEvent) :
    (es.map DivergenceEvent.mirror).insertionSort confirmedFirst =
      (es.insertionSort confirmedFirst).map DivergenceEvent.mirror :=
  (List.map_insertionSort confirmedFirst confirmedFirst DivergenceEvent.mirror es
    fun _ _ _ _ => Iff.rfl).symm

theorem divergences_neverRepaint (cfg : Settings) (s : Series) : NeverRepaints cfg s := by
  obtain ⟨hbearish, hbullish⟩ := detectDivergences_bearish cfg s
  obtain ⟨hbearish', hbullish'⟩ := detectDivergences_bearish cfg s.mirror
  refine
    { prefixes := detectDivergences_take cfg s
      active := fun b s' hagree maxRecencyBars => ?_
      wellFormed := fun e he => ?_
      bearish := ?_
      bullish := ?_ }
  · rw [getActive_take cfg s', getActive_take cfg s, hagree]
  · rw [detectDivergences, List.mem_insertionSort, List.mem_append] at he
    rcases he with hhigh | hlow
    · exact (divergencesOn_wellFormed hhigh).1
    · exact (divergencesOn_wellFormed hlow).1
  · rw [hbearish', hbullish, ← map_mirror_sort]
    exact congrArg _ (side_mirror cfg s .low)
  · rw [hbullish', hbearish, ← map_mirror_sort]
    exact congrArg _ (side_mirror cfg s .high)

end Droid.Divergence
