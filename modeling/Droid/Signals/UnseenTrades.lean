import Droid.Signals.WorstConflict

/-! The trades of a book that are not seen, and what the arbitration owes to them. -/
namespace Droid.Signals.CrossDeskArbiter
open Lib Positions

/-! ### Which trades are seen -/

/-- The state that a trade is in: that of its signal, or else that of its position. -/
def stateOf (t : Trade) : String :=
  if t.fsmState.getD "" = "" then
    match t.positionState with
    | .member state => Text.upper state.value
    | other => Text.upper other.str
  else Text.upper (t.fsmState.getD "")

def Active (t : Trade) : Prop := stateOf t ∈ activeSignalStates ∨ stateOf t ∈ activePositionStates

instance (t : Trade) : Decidable (Active t) := inferInstanceAs (Decidable (_ ∨ _))

def StateAttr.isMember : StateAttr → Bool
  | .member _ => true
  | _ => false

/-- A trade whose only state is a member of the enumeration. -/
def Unread (t : Trade) : Prop := t.fsmState.getD "" = "" ∧ t.positionState.isMember = true

instance (t : Trade) : Decidable (Unread t) := inferInstanceAs (Decidable (_ ∧ _))

theorem upper_eq_empty_iff {s : String} : Text.upper s = "" ↔ s = "" := by
  constructor
  · intro h
    have hlist := congrArg String.toList h
    rw [Text.upper, String.toList_ofList] at hlist
    exact String.toList_eq_nil_iff.mp (List.map_eq_nil_iff.mp hlist)
  · rintro rfl
    decide +kernel

/-- A member shows its class, which is in neither set. -/
theorem member_not_active (state : PositionState) :
    Text.upper (StateAttr.member state).str ≠ "" ∧ Text.upper (StateAttr.member state).str ∉ activeSignalStates ∧
      Text.upper (StateAttr.member state).str ∉ activePositionStates := by
  cases state <;> decide +kernel

theorem isActiveTrade_iff (t : Trade) : isActiveTrade t = true ↔ Active t ∧ ¬ Unread t := by
  unfold isActiveTrade Active Unread stateOf
  by_cases hfsm : t.fsmState.getD "" = ""
  · cases hps : t.positionState with
    | absent => simp [hfsm, StateAttr.isMember]
    | text s => simp [hfsm, StateAttr.isMember]
    | member state =>
      obtain ⟨hne, hsignal, hposition⟩ := member_not_active state
      simp [hfsm, StateAttr.isMember, hne, hsignal, hposition]
  · have hne : ¬ Text.upper (t.fsmState.getD "") = "" := upper_eq_empty_iff.not.mpr hfsm
    simp [hfsm, hne]

theorem mem_seen {trades : List Trade} {t : Trade} :
    t ∈ trades.filter isActiveTrade ↔ t ∈ trades ∧ Active t ∧ ¬ Unread t := by
  rw [List.mem_filter, isActiveTrade_iff]

theorem mem_book {trades : List Trade} {t : Trade} : t ∈ trades.filter Active ↔ t ∈ trades ∧ Active t := by
  rw [List.mem_filter, decide_eq_true_eq]

theorem seen_subset (trades : List Trade) : trades.filter isActiveTrade ⊆ trades.filter Active := by
  intro t ht
  obtain ⟨hmem, hactive, -⟩ := mem_seen.mp ht
  exact mem_book.mpr ⟨hmem, hactive⟩

/-! ### Rulings over larger books -/

namespace Candidate
variable {c : Candidate} {book larger : List Trade}

theorem worst_suppresses_iff : (c.worst book).action = .suppress ↔ c.veto.isSome = true ∨ ∃ t ∈ book, c.Suppresses t := by
  unfold worst
  split_ifs with hveto hs hh ho <;> simp [*]

theorem worst_passed_iff : (c.worst book).passed = true ↔ c.veto = none ∧ ¬ ∃ t ∈ book, c.Suppresses t := by
  unfold worst
  cases hveto : c.veto with
  | some rejection => simp
  | none =>
    by_cases hs : ∃ t ∈ book, c.Suppresses t
    · simp [hs]
    · rw [if_neg (by simp), if_neg hs]
      exact iff_of_true rfl ⟨rfl, hs⟩

theorem worst_sized (h : (c.worst book).passed = true) :
    (c.worst book).sizingMultiplier = roundTo 2 (c.leastFactor book * c.haircut book) := by
  obtain ⟨hveto, hs⟩ := worst_passed_iff.mp h
  unfold worst
  rw [hveto, if_neg (by simp), if_neg hs]

theorem worst_congr (h : ∀ t, t ∈ book ↔ t ∈ larger) : c.worst book = c.worst larger := by
  unfold worst haircut
  simp only [leastFactor_eq, h]

theorem haircut_bounds (book : List Trade) : 0 ≤ c.haircut book ∧ c.haircut book ≤ 1 := by
  unfold haircut crossIndexBetaHaircut
  split_ifs <;> norm_num

theorem leastFactor_bounds (book : List Trade) : 0 ≤ c.leastFactor book ∧ c.leastFactor book ≤ 1 := by
  rw [leastFactor_eq]
  split_ifs <;> norm_num

theorem haircut_subset (h : book ⊆ larger) : c.haircut larger ≤ c.haircut book := by
  unfold haircut
  by_cases hs : ∃ t ∈ book, c.OpposesSibling t
  · obtain ⟨t, ht, hp⟩ := hs
    rw [if_pos ⟨t, h ht, hp⟩, if_pos ⟨t, ht, hp⟩]
  · rw [if_neg hs]
    exact (haircut_bounds larger).2

/-- A larger book lets nothing more pass, and nothing at a larger size. -/
theorem worst_subset (h : book ⊆ larger) (hp : (c.worst larger).passed = true) :
    (c.worst book).passed = true ∧ (c.worst larger).sizingMultiplier ≤ (c.worst book).sizingMultiplier := by
  obtain ⟨hveto, hs⟩ := worst_passed_iff.mp hp
  have hpassed : (c.worst book).passed = true :=
    worst_passed_iff.mpr ⟨hveto, fun ⟨t, ht, hsup⟩ => hs ⟨t, h ht, hsup⟩⟩
  refine ⟨hpassed, ?_⟩
  rw [worst_sized hp, worst_sized hpassed]
  apply roundTo_mono 2
  exact mul_le_mul (leastOf_subset h) (haircut_subset h) (haircut_bounds larger).1 (leastFactor_bounds book).1

theorem leastFactor_values (book : List Trade) :
    c.leastFactor book = 1 / 2 ∨ c.leastFactor book = 3 / 4 ∨ c.leastFactor book = 1 := by
  rw [leastFactor_eq]
  split_ifs <;> simp

theorem haircut_values (book : List Trade) : c.haircut book = crossIndexBetaHaircut ∨ c.haircut book = 1 := by
  unfold haircut
  split_ifs <;> simp

theorem sizes_injective {m m' b b' : ℚ} (hm : m = 1 / 2 ∨ m = 3 / 4 ∨ m = 1) (hm' : m' = 1 / 2 ∨ m' = 3 / 4 ∨ m' = 1)
    (hb : b = crossIndexBetaHaircut ∨ b = 1) (hb' : b' = crossIndexBetaHaircut ∨ b' = 1)
    (h : roundTo 2 (m * b) = roundTo 2 (m' * b')) : m = m' ∧ b = b' := by
  rcases hm with rfl | rfl | rfl <;> rcases hm' with rfl | rfl | rfl <;> rcases hb with rfl | rfl <;>
    rcases hb' with rfl | rfl <;>
    first
      | exact ⟨rfl, rfl⟩
      | exact absurd h (by decide +kernel)

/-! ### The law -/

/-- The worst conflict of the active trades wins. -/
structure WorstWins (c : Candidate) (trades : List Trade) : Prop where
  suppressed : (c.arbitrate trades).action = .suppress ↔
    c.veto.isSome = true ∨ ∃ t ∈ trades, Active t ∧ c.Suppresses t
  refused : (c.arbitrate trades).passed = false ↔ (c.arbitrate trades).action = .suppress
  sized : (c.arbitrate trades).passed = true →
    (c.arbitrate trades).sizingMultiplier =
        roundTo 2 (c.leastFactor (trades.filter Active) * c.haircut (trades.filter Active)) ∧
      0 ≤ (c.arbitrate trades).sizingMultiplier ∧ (c.arbitrate trades).sizingMultiplier ≤ 1
  orderless : ∀ other, trades.Perm other → (c.arbitrate other).ruling = (c.arbitrate trades).ruling
  monotone : ∀ t, Active t → ∀ larger, larger.Perm (t :: trades) → (c.arbitrate larger).passed = true →
    (c.arbitrate trades).passed = true ∧
      (c.arbitrate larger).sizingMultiplier ≤ (c.arbitrate trades).sizingMultiplier

/-- What an unread trade imposes, a trade that is seen imposes as well. -/
structure Covered (c : Candidate) (trades : List Trade) : Prop where
  suppress : ∀ t ∈ trades, Active t → Unread t → c.Suppresses t →
    c.veto.isSome = true ∨ ∃ u ∈ trades.filter isActiveTrade, c.Suppresses u
  cut : c.veto = none → (¬ ∃ u ∈ trades.filter isActiveTrade, c.Suppresses u) →
    ∀ t ∈ trades, Active t → Unread t →
      (c.OpposesSibling t → ∃ u ∈ trades.filter isActiveTrade, c.OpposesSibling u) ∧
      (c.Harvests t → ∃ u ∈ trades.filter isActiveTrade, c.Harvests u) ∧
      (c.Drags t → ∃ u ∈ trades.filter isActiveTrade, c.Harvests u ∨ c.Drags u)

variable {trades : List Trade}

theorem action_eq (c : Candidate) (trades : List Trade) :
    (c.arbitrate trades).action = (c.worst (trades.filter isActiveTrade)).action :=
  congrArg Ruling.action (arbitrate_ruling c trades)

theorem passed_eq (c : Candidate) (trades : List Trade) :
    (c.arbitrate trades).passed = (c.worst (trades.filter isActiveTrade)).passed :=
  congrArg Ruling.passed (arbitrate_ruling c trades)

theorem sizingMultiplier_eq (c : Candidate) (trades : List Trade) :
    (c.arbitrate trades).sizingMultiplier = (c.worst (trades.filter isActiveTrade)).sizingMultiplier :=
  congrArg Ruling.sizingMultiplier (arbitrate_ruling c trades)

theorem sized_of_passed (h : (c.arbitrate trades).passed = true) :
    (c.arbitrate trades).sizingMultiplier =
      roundTo 2 (c.leastFactor (trades.filter isActiveTrade) * c.haircut (trades.filter isActiveTrade)) := by
  rw [sizingMultiplier_eq]
  rw [passed_eq] at h
  exact worst_sized h

theorem sizingMultiplier_bounds (h : (c.arbitrate trades).passed = true) :
    0 ≤ (c.arbitrate trades).sizingMultiplier ∧ (c.arbitrate trades).sizingMultiplier ≤ 1 := by
  rw [sized_of_passed h]
  rcases leastFactor_values (c := c) (trades.filter isActiveTrade) with hm | hm | hm <;>
    rcases haircut_values (c := c) (trades.filter isActiveTrade) with hb | hb <;> rw [hm, hb] <;> decide +kernel

theorem refused_iff (c : Candidate) (trades : List Trade) :
    (c.arbitrate trades).passed = false ↔ (c.arbitrate trades).action = .suppress := by
  rw [passed_eq, action_eq, worst_suppresses_iff, ← Bool.not_eq_true, worst_passed_iff, Option.isSome_iff_ne_none,
    not_and_or, not_not]

theorem arbitrate_perm {other : List Trade} (h : trades.Perm other) :
    (c.arbitrate other).ruling = (c.arbitrate trades).ruling := by
  rw [arbitrate_ruling, arbitrate_ruling]
  apply worst_congr
  intro t
  rw [List.mem_filter, List.mem_filter, h.mem_iff]

theorem arbitrate_monotone {t : Trade} {larger : List Trade} (h : larger.Perm (t :: trades))
    (hp : (c.arbitrate larger).passed = true) :
    (c.arbitrate trades).passed = true ∧
      (c.arbitrate larger).sizingMultiplier ≤ (c.arbitrate trades).sizingMultiplier := by
  rw [passed_eq, sizingMultiplier_eq, sizingMultiplier_eq]
  rw [passed_eq] at hp
  apply worst_subset _ hp
  intro u hu
  obtain ⟨hmem, hactive⟩ := List.mem_filter.mp hu
  exact List.mem_filter.mpr ⟨h.mem_iff.mpr (List.mem_cons_of_mem _ hmem), hactive⟩

theorem exists_book_iff {P : Trade → Prop} :
    (∃ t ∈ trades, Active t ∧ P t) ↔
      (∃ t ∈ trades.filter isActiveTrade, P t) ∨ ∃ t ∈ trades, Active t ∧ Unread t ∧ P t := by
  constructor
  · rintro ⟨t, ht, hactive, hp⟩
    by_cases hunread : Unread t
    · exact Or.inr ⟨t, ht, hactive, hunread, hp⟩
    · exact Or.inl ⟨t, mem_seen.mpr ⟨ht, hactive, hunread⟩, hp⟩
  · rintro (⟨t, ht, hp⟩ | ⟨t, ht, hactive, -, hp⟩)
    · obtain ⟨hmem, hactive, -⟩ := mem_seen.mp ht
      exact ⟨t, hmem, hactive, hp⟩
    · exact ⟨t, ht, hactive, hp⟩

theorem Covered.suppressed (h : c.Covered trades) :
    (c.arbitrate trades).action = .suppress ↔
      c.veto.isSome = true ∨ ∃ t ∈ trades, Active t ∧ c.Suppresses t := by
  rw [action_eq, worst_suppresses_iff, exists_book_iff]
  constructor
  · rintro (hveto | hseen)
    · exact Or.inl hveto
    · exact Or.inr (Or.inl hseen)
  · rintro (hveto | hseen | ⟨t, ht, hactive, hunread, hsup⟩)
    · exact Or.inl hveto
    · exact Or.inr hseen
    · exact h.suppress t ht hactive hunread hsup

theorem Covered.sized (h : c.Covered trades) (hp : (c.arbitrate trades).passed = true) :
    c.leastFactor (trades.filter isActiveTrade) = c.leastFactor (trades.filter Active) ∧
      c.haircut (trades.filter isActiveTrade) = c.haircut (trades.filter Active) := by
  rw [passed_eq, worst_passed_iff] at hp
  have hcut := h.cut hp.1 hp.2
  constructor
  · apply le_antisymm _ (leastOf_subset (seen_subset trades))
    apply le_leastOf_iff.mpr
    refine ⟨(leastFactor_bounds _).2, fun t ht => ?_⟩
    obtain ⟨hmem, hactive⟩ := mem_book.mp ht
    change c.leastFactor (trades.filter isActiveTrade) ≤ c.factor t
    by_cases hunread : Unread t
    · obtain ⟨-, hharvest, hdrag⟩ := hcut t hmem hactive hunread
      rw [factor]
      split_ifs with hh hd
      · rw [leastFactor_eq, if_pos (hharvest hh)]
      · obtain ⟨u, hu, hkind⟩ := hdrag hd
        rcases hkind with hu' | hu'
        · rw [leastFactor_eq, if_pos ⟨u, hu, hu'⟩]
          norm_num
        · rw [leastFactor_eq]
          split_ifs with hex hdex
          · norm_num
          · exact le_rfl
          · exact absurd ⟨u, hu, hu'⟩ hdex
      · exact (leastFactor_bounds _).2
    · exact leastOf_le (mem_seen.mpr ⟨hmem, hactive, hunread⟩)
  · apply le_antisymm _ (haircut_subset (seen_subset trades))
    by_cases hs : ∃ t ∈ trades.filter Active, c.OpposesSibling t
    · obtain ⟨t, ht, hopposes⟩ := hs
      obtain ⟨hmem, hactive⟩ := mem_book.mp ht
      have hseen : ∃ u ∈ trades.filter isActiveTrade, c.OpposesSibling u := by
        by_cases hunread : Unread t
        · exact (hcut t hmem hactive hunread).1 hopposes
        · exact ⟨t, mem_seen.mpr ⟨hmem, hactive, hunread⟩, hopposes⟩
      rw [haircut, haircut, if_pos hseen, if_pos ⟨t, ht, hopposes⟩]
    · rw [haircut, haircut, if_neg hs]
      split_ifs
      · norm_num [crossIndexBetaHaircut]
      · exact le_rfl

/-- Where the worst conflict wins, no unread trade imposes more than the trades that are seen. -/
theorem WorstWins.covered (h : c.WorstWins trades) : c.Covered trades := by
  constructor
  · intro t ht hactive hunread hsup
    have haction := h.suppressed.mpr (Or.inr ⟨t, ht, hactive, hsup⟩)
    rw [action_eq] at haction
    exact worst_suppresses_iff.mp haction
  · intro hveto hclear t ht hactive hunread
    have hp : (c.arbitrate trades).passed = true := by
      rw [passed_eq]
      exact worst_passed_iff.mpr ⟨hveto, hclear⟩
    have hsizes := (sized_of_passed hp).symm.trans (h.sized hp).1
    obtain ⟨hfactor, hcut⟩ := sizes_injective (leastFactor_values _) (leastFactor_values _) (haircut_values _)
      (haircut_values _) hsizes
    have hbook : t ∈ trades.filter Active := mem_book.mpr ⟨ht, hactive⟩
    rw [leastFactor_eq, leastFactor_eq] at hfactor
    refine ⟨fun hopposes => ?_, fun hharvest => ?_, fun hdrag => ?_⟩
    · by_contra hnone
      have hex : ∃ u ∈ trades.filter Active, c.OpposesSibling u := ⟨t, hbook, hopposes⟩
      rw [haircut, haircut, if_neg hnone, if_pos hex] at hcut
      norm_num [crossIndexBetaHaircut] at hcut
    · by_contra hnone
      have hex : ∃ u ∈ trades.filter Active, c.Harvests u := ⟨t, hbook, hharvest⟩
      rw [if_neg hnone, if_pos hex] at hfactor
      split_ifs at hfactor <;> norm_num at hfactor
    · by_contra hnone
      have hh : ¬ ∃ u ∈ trades.filter isActiveTrade, c.Harvests u := by
        rintro ⟨u, hu, hk⟩
        exact hnone ⟨u, hu, Or.inl hk⟩
      have hd : ¬ ∃ u ∈ trades.filter isActiveTrade, c.Drags u := by
        rintro ⟨u, hu, hk⟩
        exact hnone ⟨u, hu, Or.inr hk⟩
      have hdex : ∃ u ∈ trades.filter Active, c.Drags u := ⟨t, hbook, hdrag⟩
      rw [if_neg hh, if_neg hd, if_pos hdex] at hfactor
      split_ifs at hfactor <;> norm_num at hfactor

/-- The worst conflict wins exactly where the unread trades are covered. -/
theorem worstWins_iff_covered (c : Candidate) (trades : List Trade) : c.WorstWins trades ↔ c.Covered trades := by
  constructor
  · exact WorstWins.covered
  · intro h
    constructor
    · exact h.suppressed
    · exact refused_iff c trades
    · intro hp
      refine ⟨?_, sizingMultiplier_bounds hp⟩
      rw [sized_of_passed hp, (h.sized hp).1, (h.sized hp).2]
    · exact fun other hperm => arbitrate_perm hperm
    · exact fun t _ larger hperm hp => arbitrate_monotone hperm hp

def putScalp : Candidate where
  isScalp := true
  underlying := "NIFTY"
  direction := "LONG_PUT"

def openPosition : Trade where
  signalId := "INT-001"
  underlying := some "NIFTY"
  direction := some "LONG_CALL"
  positionState := .member .opened
  rMultiple := .number (-6 / 10)

/-- The open position is not seen, and the scalp against it passes. -/
theorem openPosition_unseen : ¬ putScalp.WorstWins [openPosition] := by
  intro h
  have hsuppressed : (putScalp.arbitrate [openPosition]).action = .suppress :=
    h.suppressed.mpr (Or.inr ⟨openPosition, List.mem_singleton.mpr rfl, by decide +kernel, by decide +kernel⟩)
  exact absurd hsuppressed (by decide +kernel)

end Candidate
end Droid.Signals.CrossDeskArbiter
