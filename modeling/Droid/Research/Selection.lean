import Droid.Research.GridSearch
import Droid.Lib.Least

/-! What the walk-forward selects on a training block, against what the optimizer reports on it. -/
namespace Droid.Research.GridSearch
open Lib OrderDual
variable {Candle V : Type}

namespace Study

def ranked (study : Study Candle V) (combo : Combo V) : Option Rank :=
  (study.considered study.candles combo).map fun value =>
    if study.objective ∈ minimizeObjectives then negate value else value

/-- Enough trades, and the best rank among the combinations. -/
structure Tops (study : Study Candle V) (combos : List (Combo V)) (row : Row V) : Prop where
  trades : study.minTrades ≤ row.tradeCount
  rank : ∃ rank, study.ranked row.params = some rank ∧
    ∀ combo ∈ combos, ∀ other, study.ranked combo = some other → other ≤ rank

/-- The optimizer refuses nothing, and no run raises. -/
structure Searchable (study : Study Candle V) (combos : List (Combo V)) (workBudget : Nat) : Prop where
  specs : study.specs ≠ []
  objective : study.objective ∈ objectiveWhitelist
  candles : study.candles ≠ []
  budget : combos.length * study.candles.length ≤ workBudget
  runs : ∀ combo ∈ combos, ∃ outcome, study.run study.candles combo = .ok outcome

/-- The walk-forward comes to the training loop of the fold. -/
structure Tried (study : Study Candle V) (folds : Nat) (purgeBars : Int) (fold : Nat) : Prop where
  specs : study.specs ≠ []
  several : 2 ≤ folds
  forward : 0 ≤ purgeBars
  long : (folds + 1) * minimumTest ≤ study.candles.length
  within : fold < folds
  train : 30 ≤ (study.trainCandles folds purgeBars fold).length

/-- The study over a training block. -/
def onBlock (study : Study Candle V) (folds : Nat) (purgeBars : Int) (fold : Nat) : Study Candle V :=
  { study with candles := study.trainCandles folds purgeBars fold }

variable [DecidableEq V]

/-- The law of selection. -/
structure Agrees (study : Study Candle V) (mode : SearchMode V) (workBudget folds : Nat) (purgeBars : Int) : Prop where
  selected : ∀ combos, study.combos .grid = .ok combos → ∀ fold, study.Tried folds purgeBars fold →
    ∀ params, study.selectParams (study.trainCandles folds purgeBars fold) combos = some params →
      ∀ report, (study.onBlock folds purgeBars fold).optimize .grid workBudget = .ok report →
        ∃ row, report.best = some row ∧ row.params = params
  best : ∀ combos, study.combos mode = .ok combos → ∀ report, study.optimize mode workBudget = .ok report →
    ∀ row, report.best = some row → study.Tops combos row
  reported : ∀ reports, study.walkForward folds purgeBars = .ok reports → ∀ report ∈ reports,
    study.Tried folds purgeBars report.fold ∧ (report.trainRange.2 : Int) + purgeBars ≤ report.testRange.1 ∧
      ∃ combos, study.combos .grid = .ok combos ∧
        report.selectedParams = study.selectParams (study.trainCandles folds purgeBars report.fold) combos
  disjoint : ∀ reports, study.walkForward folds purgeBars = .ok reports →
    reports.Pairwise fun report later => report.testRange.2 ≤ later.testRange.1

/-- When it holds. -/
structure Selective (study : Study Candle V) (mode : SearchMode V) (workBudget folds : Nat) (purgeBars : Int) : Prop where
  /-- An objective that is minimised does not tell the combinations apart. -/
  even : study.objective ∈ minimizeObjectives → ∀ combos, study.combos .grid = .ok combos →
    ∀ fold, study.Tried folds purgeBars fold → (study.onBlock folds purgeBars fold).Searchable combos workBudget →
      ∀ combo ∈ combos, ∀ other ∈ combos, ∀ value value',
        study.considered (study.trainCandles folds purgeBars fold) combo = some value →
          study.considered (study.trainCandles folds purgeBars fold) other = some value' → value = value'
  /-- Where any run passes, one of them can be ranked. -/
  ranked : ∀ combos, study.combos mode = .ok combos → study.Searchable combos workBudget →
    (∃ combo ∈ combos, ∃ outcome, study.run study.candles combo = .ok outcome ∧ outcome.ok = true) →
      ∃ combo ∈ combos, (study.ranked combo).isSome

end Study

/-! The training loop. -/

@[simp] theorem negate_bot : negate ⊥ = ⊤ := rfl

@[simp] theorem negate_top : negate ⊤ = ⊥ := rfl

@[simp] theorem negate_coe (value : ℚ) :
    negate (((value : WithTop ℚ)) : Rank) = ((((-value : ℚ) : WithTop ℚ)) : Rank) := rfl

theorem negate_le_negate {a b : Rank} : negate a ≤ negate b ↔ b ≤ a := by
  induction a using WithBot.recBotCoe with
  | bot =>
    induction b using WithBot.recBotCoe with
    | bot => simp
    | coe b => induction b using WithTop.recTopCoe <;> simp [negate_coe]
  | coe a =>
    induction b using WithBot.recBotCoe with
    | bot => simp
    | coe b =>
      induction a using WithTop.recTopCoe with
      | top => simp
      | coe a =>
        induction b using WithTop.recTopCoe with
        | top => simp
        | coe b =>
          rw [negate_coe, negate_coe, WithBot.coe_le_coe, WithTop.coe_le_coe, WithBot.coe_le_coe,
            WithTop.coe_le_coe, neg_le_neg_iff]

namespace Study
variable (study : Study Candle V)

/-- The combinations that count on a block, with the values that count. -/
def eligible (train : List Candle) (combos : List (Combo V)) : List (Combo V × Rank) :=
  combos.filterMap fun combo => (study.considered train combo).map fun value => (combo, value)

theorem mem_eligible {train : List Candle} {combos : List (Combo V)} {p : Combo V × Rank} :
    p ∈ study.eligible train combos ↔ p.1 ∈ combos ∧ study.considered train p.1 = some p.2 := by
  rw [eligible, List.mem_filterMap]
  constructor
  · rintro ⟨combo, hcombo, hvalue⟩
    obtain ⟨value, hconsidered, rfl⟩ := Option.map_eq_some_iff.mp hvalue
    exact ⟨hcombo, hconsidered⟩
  · rintro ⟨hcombo, hconsidered⟩
    exact ⟨p.1, hcombo, by rw [hconsidered]; rfl⟩

/-- The training loop selects the first combination with the greatest value. -/
theorem selectParams_eq (train : List Candle) (combos : List (Combo V)) :
    study.selectParams train combos =
      (firstLeast (fun p => toDual p.2) (study.eligible train combos)).map Prod.fst := by
  rw [selectParams, eligible, ← foldl_keepLess, List.foldl_filterMap]
  congr 2
  funext best combo
  rw [pick]
  cases study.considered train combo with
  | none => rfl
  | some value => cases best <;> rfl

/-! The optimizer. -/

def signed (value : Rank) : Rank := if study.objective ∈ minimizeObjectives then negate value else value

theorem runAll_eq_ok {combos : List (Combo V)} {outcomes : List (Combo V × RunOutcome)} :
    study.runAll combos = .ok outcomes ↔
      outcomes.map Prod.fst = combos ∧ ∀ o ∈ outcomes, study.run study.candles o.1 = .ok o.2 := by
  induction combos generalizing outcomes with
  | nil =>
    rw [runAll, Except.ok.injEq, List.map_eq_nil_iff]
    constructor
    · rintro rfl
      exact ⟨rfl, fun o ho => absurd ho List.not_mem_nil⟩
    · exact fun h => h.1.symm
  | cons combo rest ih =>
    constructor
    · intro h
      rw [runAll] at h
      split at h
      · cases h
      · rename_i outcome hrun
        split at h
        · cases h
        · rename_i others hrest
          obtain rfl := Except.ok.inj h
          obtain ⟨hmap, hall⟩ := ih.mp hrest
          exact ⟨congrArg (combo :: ·) hmap, List.forall_mem_cons.mpr ⟨hrun, hall⟩⟩
    · rintro ⟨hmap, hall⟩
      obtain ⟨o, others, rfl, rfl, hrest⟩ := List.map_eq_cons_iff.mp hmap
      obtain ⟨hrun, hothers⟩ := List.forall_mem_cons.mp hall
      rw [runAll, hrun]
      dsimp only
      rw [ih.mpr ⟨hrest, hothers⟩]

theorem exists_runAll {combos : List (Combo V)}
    (h : ∀ combo ∈ combos, ∃ outcome, study.run study.candles combo = .ok outcome) :
    ∃ outcomes, study.runAll combos = .ok outcomes := by
  induction combos with
  | nil => exact ⟨[], rfl⟩
  | cons combo rest ih =>
    obtain ⟨⟨outcome, hrun⟩, hothers⟩ := List.forall_mem_cons.mp h
    obtain ⟨outcomes, hrest⟩ := ih hothers
    exact ⟨(combo, outcome) :: outcomes, by rw [runAll, hrun]; dsimp only; rw [hrest]⟩

variable {study}

section
variable {combos : List (Combo V)} {outcomes : List (Combo V × RunOutcome)}

/-- One run: what the optimizer ranks is what the training loop considers. -/
theorem rankable_eq {o : Combo V × RunOutcome} (h : study.run study.candles o.1 = .ok o.2) :
    ((if o.2.ok = true then some o else none).bind fun o => study.rankable o.1 o.2).map (fun p => (p.1.params, p.2)) =
      (study.considered study.candles o.1).map fun value => (o.1, study.signed value) := by
  rw [considered, h]
  dsimp only
  cases hok : o.2.ok with
  | false =>
    rw [if_neg Bool.false_ne_true, if_pos (Or.inl rfl)]
    rfl
  | true =>
    rw [if_pos rfl, Option.bind_some, rankable]
    by_cases hthin : (o.2.tradeCount : Int) < study.minTrades
    · rw [if_pos hthin, if_pos (Or.inr hthin)]
      rfl
    · rw [if_neg hthin, if_neg (by simp [hthin]), rankValue]
      cases o.2.metrics study.objective <;> rfl

/-- The rows that can be ranked, before they are sorted. -/
theorem map_rankable (h : study.runAll combos = .ok outcomes) :
    ((outcomes.filter fun o => o.2.ok).filterMap fun o => study.rankable o.1 o.2).map (fun p => (p.1.params, p.2)) =
      (study.eligible study.candles combos).map fun p => (p.1, study.signed p.2) := by
  obtain ⟨rfl, hruns⟩ := study.runAll_eq_ok.mp h
  rw [← List.filterMap_eq_filter, List.filterMap_filterMap, List.map_filterMap, eligible, List.filterMap_map,
    List.map_filterMap]
  apply List.filterMap_congr
  intro o ho
  have heq := rankable_eq (hruns o ho)
  rw [Function.comp_apply, Option.map_map]
  exact heq

theorem ranked_eq_some {combo : Combo V} {rank : Rank} :
    study.ranked combo = some rank ↔
      ∃ value, study.considered study.candles combo = some value ∧ study.signed value = rank := by
  rw [ranked, Option.map_eq_some_iff]
  rfl

variable [DecidableEq V]

/-- In front of the table stands the first of the rows with the best rank. -/
theorem best_eq (total : Nat) (outcomes : List (Combo V × RunOutcome)) :
    (study.tabulate total outcomes).best =
      match firstLeast (fun p => toDual p.2)
        ((outcomes.filter fun o => o.2.ok).filterMap fun o => study.rankable o.1 o.2) with
      | some p => some p.1
      | none => ((outcomes.filter fun o => o.2.ok).map fun o => study.rowOf o.1 o.2).head? := by
  rw [tabulate, firstLeast]
  dsimp only
  generalize ((outcomes.filter fun o => o.2.ok).filterMap fun o => study.rankable o.1 o.2) = rankables
  change (List.map Prod.fst (rankables.insertionSort fun a b => b.2 ≤ a.2) ++ _).head? =
    match (rankables.insertionSort fun a b => b.2 ≤ a.2).head? with
    | some p => some p.1
    | none => _
  cases hsorted : rankables.insertionSort fun a b => b.2 ≤ a.2 with
  | nil =>
    rw [List.map_nil, List.nil_append, List.head?_nil]
    dsimp only
    congr 1
    rw [List.filter_eq_self]
    intro row _
    exact decide_eq_true List.not_mem_nil
  | cons p rest => rfl

theorem best_of_eligible (h : study.runAll combos = .ok outcomes) (total : Nat) {p : Combo V × Rank}
    (hp : firstLeast (fun p => toDual (study.signed p.2)) (study.eligible study.candles combos) = some p) :
    ∃ row, (study.tabulate total outcomes).best = some row ∧ row.params = p.1 ∧ study.minTrades ≤ row.tradeCount := by
  have hmap := congrArg (firstLeast fun q : Combo V × Rank => toDual q.2) (map_rankable h)
  rw [firstLeast_map, firstLeast_map, hp, Option.map_some, Option.map_eq_some_iff] at hmap
  obtain ⟨best, hbest, heq⟩ := hmap
  refine ⟨best.1, ?_, congrArg Prod.fst heq, ?_⟩
  · rw [best_eq, hbest]
  · obtain ⟨o, -, ho⟩ := List.mem_filterMap.mp (firstLeast_mem hbest)
    rw [rankable] at ho
    split at ho
    · cases ho
    · rename_i hthin
      obtain ⟨rank, -, rfl⟩ := Option.map_eq_some_iff.mp ho
      exact not_lt.mp hthin

/-- If none counts, the first run that passed stands in front. -/
theorem best_of_not_eligible (h : study.runAll combos = .ok outcomes) (total : Nat)
    (hnone : study.eligible study.candles combos = []) :
    (study.tabulate total outcomes).best =
      ((outcomes.filter fun o => o.2.ok).map fun o => study.rowOf o.1 o.2).head? := by
  have hmap := map_rankable h
  rw [hnone, List.map_nil, List.map_eq_nil_iff] at hmap
  rw [best_eq, hmap]
  rfl

theorem optimize_eq_ok {mode : SearchMode V} {workBudget : Nat} {report : Report V} :
    study.optimize mode workBudget = .ok report ↔ ∃ combos outcomes, study.combos mode = .ok combos ∧
      study.Searchable combos workBudget ∧ study.runAll combos = .ok outcomes ∧
      report = study.tabulate (gridCombinations study.space).length outcomes := by
  constructor
  · intro h
    rw [optimize] at h
    split at h
    · cases h
    rename_i hspecs
    split at h
    · cases h
    rename_i hobjective
    split at h
    · cases h
    rename_i hcandles
    split at h
    · cases h
    rename_i combos hcombos
    split at h
    · cases h
    rename_i hbudget
    split at h
    · cases h
    rename_i outcomes hruns
    refine ⟨combos, outcomes, hcombos, ⟨hspecs, not_not.mp hobjective, ?_, not_lt.mp hbudget, ?_⟩, hruns,
      (Except.ok.inj h).symm⟩
    · rintro hnil
      rw [hnil] at hcandles
      exact hcandles rfl
    · intro combo hcombo
      obtain ⟨rfl, hall⟩ := study.runAll_eq_ok.mp hruns
      obtain ⟨o, ho, rfl⟩ := List.mem_map.mp hcombo
      exact ⟨o.2, hall o ho⟩
  · rintro ⟨combos, outcomes, hcombos, hsearch, hruns, rfl⟩
    have hcandles : study.candles.isEmpty = false := by
      rw [List.isEmpty_eq_false_iff]
      exact hsearch.candles
    rw [optimize, if_neg hsearch.specs, if_neg (not_not.mpr hsearch.objective), hcandles,
      if_neg Bool.false_ne_true, hcombos]
    dsimp only
    rw [if_neg (not_lt.mpr hsearch.budget), hruns]

theorem tops_iff (h : study.runAll combos = .ok outcomes) (total : Nat) :
    (∀ row, (study.tabulate total outcomes).best = some row → study.Tops combos row) ↔
      ((∃ combo ∈ combos, ∃ outcome, study.run study.candles combo = .ok outcome ∧ outcome.ok = true) →
        ∃ combo ∈ combos, (study.ranked combo).isSome) := by
  obtain ⟨hmap, hruns⟩ := study.runAll_eq_ok.mp h
  cases hp : firstLeast (fun p => toDual (study.signed p.2)) (study.eligible study.candles combos) with
  | some p =>
    obtain ⟨hcombo, hvalue⟩ := study.mem_eligible.mp (firstLeast_mem hp)
    obtain ⟨row, hrow, hparams, htrades⟩ := best_of_eligible h total hp
    refine iff_of_true ?_ fun _ => ⟨p.1, hcombo, ?_⟩
    · intro other hother
      obtain rfl := Option.some.inj (hrow.symm.trans hother)
      refine ⟨htrades, study.signed p.2, ranked_eq_some.mpr ⟨p.2, hparams ▸ hvalue, rfl⟩, ?_⟩
      intro combo hmem rank hrank
      obtain ⟨value, hconsidered, rfl⟩ := ranked_eq_some.mp hrank
      exact toDual_le_toDual.mp (firstLeast_le hp (combo, value) (study.mem_eligible.mpr ⟨hmem, hconsidered⟩))
    · rw [ranked_eq_some.mpr ⟨p.2, hvalue, rfl⟩]
      rfl
  | none =>
    have hnone := firstLeast_eq_none.mp hp
    have hunranked : ∀ combo ∈ combos, study.ranked combo = none := by
      intro combo hcombo
      rw [ranked, Option.map_eq_none_iff]
      by_contra hsome
      obtain ⟨value, hvalue⟩ := Option.ne_none_iff_exists'.mp hsome
      have hmem : (combo, value) ∈ study.eligible study.candles combos := study.mem_eligible.mpr ⟨hcombo, hvalue⟩
      rw [hnone] at hmem
      exact List.not_mem_nil hmem
    rw [best_of_not_eligible h total hnone]
    constructor
    · rintro hall ⟨combo, hcombo, outcome, hrun, hok⟩
      rw [← hmap] at hcombo
      obtain ⟨o, ho, rfl⟩ := List.mem_map.mp hcombo
      have hpassed : o ∈ outcomes.filter fun o => o.2.ok :=
        List.mem_filter.mpr ⟨ho, by rw [Except.ok.inj ((hruns o ho).symm.trans hrun)]; exact hok⟩
      cases hrows : outcomes.filter fun o => o.2.ok with
      | nil =>
        rw [hrows] at hpassed
        cases hpassed
      | cons first rest =>
        rw [hrows] at hall
        obtain ⟨rank, hrank, -⟩ := (hall _ rfl).rank
        have hfirst : first ∈ outcomes := List.mem_of_mem_filter (hrows ▸ List.mem_cons_self)
        have hcombo' : first.1 ∈ combos := hmap ▸ List.mem_map_of_mem hfirst
        have hparams : (study.rowOf first.1 first.2).params = first.1 := rfl
        rw [hparams, hunranked first.1 hcombo'] at hrank
        cases hrank
    · intro himp row hrow
      obtain ⟨o, ho, -⟩ := List.mem_map.mp (List.mem_of_head? hrow)
      obtain ⟨hmem, hok⟩ := List.mem_filter.mp ho
      obtain ⟨combo, hcombo, hsome⟩ := himp ⟨o.1, hmap ▸ List.mem_map_of_mem hmem, o.2, hruns o hmem, hok⟩
      rw [hunranked combo hcombo] at hsome
      cases hsome

/-- The training loop and the table agree exactly if the values that count are not minimised, or all equal. -/
theorem selected_iff (h : study.runAll combos = .ok outcomes) (total : Nat) :
    (∀ params, study.selectParams study.candles combos = some params →
      ∃ row, (study.tabulate total outcomes).best = some row ∧ row.params = params) ↔
      (study.objective ∈ minimizeObjectives → ∀ combo ∈ combos, ∀ other ∈ combos, ∀ value value',
        study.considered study.candles combo = some value →
          study.considered study.candles other = some value' → value = value') := by
  have hbest : ∀ p, firstLeast (fun p => toDual (study.signed p.2)) (study.eligible study.candles combos) = some p →
      ∀ params, (∃ row, (study.tabulate total outcomes).best = some row ∧ row.params = params) ↔ p.1 = params := by
    intro p hp params
    obtain ⟨row, hrow, hparams, -⟩ := best_of_eligible h total hp
    constructor
    · rintro ⟨other, hother, rfl⟩
      obtain rfl := Option.some.inj (hrow.symm.trans hother)
      exact hparams.symm
    · exact fun heq => ⟨row, hrow, hparams.trans heq⟩
  rw [selectParams_eq]
  by_cases hmin : study.objective ∈ minimizeObjectives
  · have hsigned : firstLeast (fun p : Combo V × Rank => toDual (study.signed p.2))
        (study.eligible study.candles combos) = firstLeast Prod.snd (study.eligible study.candles combos) := by
      apply firstLeast_congr
      intro a b
      rw [signed, signed, if_pos hmin, if_pos hmin, toDual_le_toDual, negate_le_negate]
    rw [hsigned] at hbest
    rw [imp_iff_right hmin]
    constructor
    · intro hall combo hcombo other hother value value' hvalue hvalue'
      have hmem : (combo, value) ∈ study.eligible study.candles combos := study.mem_eligible.mpr ⟨hcombo, hvalue⟩
      have hmem' : (other, value') ∈ study.eligible study.candles combos := study.mem_eligible.mpr ⟨hother, hvalue'⟩
      obtain ⟨p, hp⟩ := exists_firstLeast Prod.snd hmem
      obtain ⟨q, hq⟩ := exists_firstLeast (fun p => toDual p.2) hmem
      have hparams : p.1 = q.1 := (hbest p hp q.1).mp (hall q.1 (by rw [hq]; rfl))
      have hsame : p.2 = q.2 := by
        have hpv := (study.mem_eligible.mp (firstLeast_mem hp)).2
        rw [hparams, (study.mem_eligible.mp (firstLeast_mem hq)).2] at hpv
        exact (Option.some.inj hpv).symm
      have hleast := firstLeast_le hp
      have hgreatest : ∀ r ∈ study.eligible study.candles combos, r.2 ≤ p.2 := by
        intro r hr
        rw [hsame]
        exact toDual_le_toDual.mp (firstLeast_le hq r hr)
      exact le_antisymm ((hgreatest _ hmem).trans (hleast _ hmem')) ((hgreatest _ hmem').trans (hleast _ hmem))
    · intro heven params hparams
      have hle : ∀ p ∈ study.eligible study.candles combos, ∀ q ∈ study.eligible study.candles combos, p.2 ≤ q.2 := by
        intro p hp q hq
        obtain ⟨hpc, hpv⟩ := study.mem_eligible.mp hp
        obtain ⟨hqc, hqv⟩ := study.mem_eligible.mp hq
        exact (heven p.1 hpc q.1 hqc p.2 q.2 hpv hqv).le
      obtain ⟨p, hp, rfl⟩ := Option.map_eq_some_iff.mp hparams
      have hge : ∀ p ∈ study.eligible study.candles combos, ∀ q ∈ study.eligible study.candles combos,
          toDual p.2 ≤ toDual q.2 := fun p hp q hq => toDual_le_toDual.mpr (hle q hq p hp)
      rw [firstLeast_of_const hge, ← firstLeast_of_const hle] at hp
      exact (hbest p hp p.1).mpr rfl
  · have hsigned : (fun p : Combo V × Rank => toDual (study.signed p.2)) = fun p => toDual p.2 := by
      funext p
      rw [signed, if_neg hmin]
    rw [hsigned] at hbest
    refine iff_of_true ?_ fun hmem => absurd hmem hmin
    intro params hparams
    obtain ⟨p, hp, rfl⟩ := Option.map_eq_some_iff.mp hparams
    exact (hbest p hp p.1).mpr rfl

end

/-! The folds. -/

section
variable {folds fold : Nat} {purgeBars : Int}

theorem walkFold_eq_some {combos : List (Combo V)} {report : FoldReport V} (hfold : fold < folds)
    (h : study.walkFold combos folds purgeBars fold = .ok (some report)) :
    let size := study.candles.length / (folds + 1)
    report.fold = fold ∧ report.trainRange = (0, study.purgedTrainEnd folds purgeBars fold) ∧
      report.testRange =
        ((fold + 1) * size, if fold + 1 = folds then study.candles.length else (fold + 1 + 1) * size) ∧
      30 ≤ (study.trainCandles folds purgeBars fold).length ∧
      report.selectedParams = study.selectParams (study.trainCandles folds purgeBars fold) combos := by
  intro size
  have hblock : (splitBlocks study.candles.length folds)[fold + 1]? =
      some ((fold + 1) * size, if fold + 1 = folds then study.candles.length else (fold + 1 + 1) * size) := by
    rw [splitBlocks, List.getElem?_map, List.getElem?_range (Nat.succ_lt_succ hfold)]
    rfl
  generalize (if fold + 1 = folds then study.candles.length else (fold + 1 + 1) * size) = stop at hblock ⊢
  rw [walkFold, hblock] at h
  dsimp only at h
  split at h
  · cases h
  rename_i hlong
  have hlong := (not_or.mp hlong).1
  split at h
  · rename_i hselected
    obtain rfl := Option.some.inj (Except.ok.inj h)
    exact ⟨rfl, rfl, rfl, not_lt.mp hlong, hselected.symm⟩
  · rename_i params hselected
    split at h
    · cases h
    · obtain rfl := Option.some.inj (Except.ok.inj h)
      exact ⟨rfl, rfl, rfl, not_lt.mp hlong, hselected.symm⟩

theorem walkFolds_eq_ok {combos : List (Combo V)} {l : List Nat} {reports : List (FoldReport V)}
    (hl : ∀ fold ∈ l, fold < folds) (h : study.walkFolds combos folds purgeBars l = .ok reports) :
    (reports.map FoldReport.fold).Sublist l ∧
      ∀ report ∈ reports, study.walkFold combos folds purgeBars report.fold = .ok (some report) := by
  induction l generalizing reports with
  | nil =>
    obtain rfl := Except.ok.inj h
    exact ⟨List.nil_sublist _, fun report hreport => absurd hreport List.not_mem_nil⟩
  | cons fold rest ih =>
    obtain ⟨hfold, hrest⟩ := List.forall_mem_cons.mp hl
    rw [walkFolds] at h
    split at h
    · cases h
    rename_i report? hreport
    split at h
    · cases h
    rename_i later hlater
    obtain rfl := Except.ok.inj h
    obtain ⟨hsub, hall⟩ := ih hrest hlater
    cases report? with
    | none => exact ⟨hsub.cons fold, hall⟩
    | some report =>
      have hat := (walkFold_eq_some hfold hreport).1
      refine ⟨?_, List.forall_mem_cons.mpr ⟨hat ▸ hreport, hall⟩⟩
      rw [Option.toList_some, List.singleton_append, List.map_cons, hat]
      exact hsub.cons_cons fold

variable [DecidableEq V]

theorem walkForward_eq_ok {reports : List (FoldReport V)} (h : study.walkForward folds purgeBars = .ok reports) :
    study.specs ≠ [] ∧ 2 ≤ folds ∧ 0 ≤ purgeBars ∧ (folds + 1) * minimumTest ≤ study.candles.length ∧
      ∃ combos, study.combos .grid = .ok combos ∧
        study.walkFolds combos folds purgeBars (List.range folds) = .ok reports := by
  rw [walkForward] at h
  split at h
  · cases h
  rename_i hspecs
  split at h
  · cases h
  rename_i hfolds
  split at h
  · cases h
  rename_i hpurge
  split at h
  · cases h
  rename_i hlong
  split at h
  · cases h
  rename_i combos hcombos
  exact ⟨hspecs, not_lt.mp hfolds, not_lt.mp hpurge, not_lt.mp hlong, combos, hcombos, h⟩

theorem walkForward_reported {reports : List (FoldReport V)} (h : study.walkForward folds purgeBars = .ok reports) :
    ∀ report ∈ reports, study.Tried folds purgeBars report.fold ∧
      (report.trainRange.2 : Int) + purgeBars ≤ report.testRange.1 ∧
      ∃ combos, study.combos .grid = .ok combos ∧
        report.selectedParams = study.selectParams (study.trainCandles folds purgeBars report.fold) combos := by
  intro report hreport
  obtain ⟨hspecs, hfolds, hpurge, hlong, combos, hcombos, hwalk⟩ := walkForward_eq_ok h
  obtain ⟨hsub, hall⟩ := walkFolds_eq_ok (fun fold => List.mem_range.mp) hwalk
  have hfold : report.fold < folds := List.mem_range.mp (hsub.subset (List.mem_map_of_mem hreport))
  obtain ⟨-, htrain, htest, hlen, hselected⟩ := walkFold_eq_some hfold (hall report hreport)
  refine ⟨⟨hspecs, hfolds, hpurge, hlong, hfold, hlen⟩, ?_, combos, hcombos, hselected⟩
  rw [htrain, htest]
  rw [trainCandles, List.length_take] at hlen
  have hend : 30 ≤ study.purgedTrainEnd folds purgeBars report.fold := hlen.trans (Nat.min_le_left _ _)
  rw [purgedTrainEnd] at hend ⊢
  dsimp only at hend ⊢
  generalize (report.fold + 1) * (study.candles.length / (folds + 1)) = trainEnd at hend ⊢
  omega

theorem walkForward_disjoint {reports : List (FoldReport V)} (h : study.walkForward folds purgeBars = .ok reports) :
    reports.Pairwise fun report later => report.testRange.2 ≤ later.testRange.1 := by
  obtain ⟨-, -, -, -, combos, -, hwalk⟩ := walkForward_eq_ok h
  obtain ⟨hsub, hall⟩ := walkFolds_eq_ok (fun fold => List.mem_range.mp) hwalk
  have hordered : reports.Pairwise fun report later => report.fold < later.fold :=
    List.pairwise_map.mp (List.pairwise_lt_range.sublist hsub)
  have hfold : ∀ report ∈ reports, report.fold < folds := fun report hreport =>
    List.mem_range.mp (hsub.subset (List.mem_map_of_mem hreport))
  refine hordered.imp_of_mem ?_
  intro report later hreport hlater hlt
  obtain ⟨-, -, htest, -⟩ := walkFold_eq_some (hfold report hreport) (hall report hreport)
  obtain ⟨-, -, htest', -⟩ := walkFold_eq_some (hfold later hlater) (hall later hlater)
  have hnotLast : report.fold + 1 ≠ folds := by
    have := hfold later hlater
    omega
  rw [htest, htest']
  dsimp only
  rw [if_neg hnotLast]
  exact Nat.mul_le_mul_right _ (by omega)

end

/-- The selection agrees with the optimizer, and its best row is a best one, exactly if no minimised objective
tells the combinations of a training block apart and something can be ranked. -/
theorem agrees_iff [DecidableEq V] (study : Study Candle V) (mode : SearchMode V) (workBudget folds : Nat)
    (purgeBars : Int) :
    study.Agrees mode workBudget folds purgeBars ↔ study.Selective mode workBudget folds purgeBars := by
  constructor
  · intro h
    refine ⟨?_, ?_⟩
    · intro hmin combos hcombos fold htried hsearch
      obtain ⟨outcomes, hruns⟩ := (study.onBlock folds purgeBars fold).exists_runAll hsearch.runs
      refine (selected_iff hruns (gridCombinations study.space).length).mp ?_ hmin
      intro params hparams
      exact h.selected combos hcombos fold htried params hparams _
        (optimize_eq_ok.mpr ⟨combos, outcomes, hcombos, hsearch, hruns, rfl⟩)
    · intro combos hcombos hsearch
      obtain ⟨outcomes, hruns⟩ := study.exists_runAll hsearch.runs
      refine (tops_iff hruns (gridCombinations study.space).length).mp ?_
      exact h.best combos hcombos _ (optimize_eq_ok.mpr ⟨combos, outcomes, hcombos, hsearch, hruns, rfl⟩)
  · intro h
    refine ⟨?_, ?_, fun reports => walkForward_reported, fun reports => walkForward_disjoint⟩
    · intro combos hcombos fold htried params hparams report hreport
      obtain ⟨combos', outcomes, hcombos', hsearch, hruns, rfl⟩ := optimize_eq_ok.mp hreport
      obtain rfl := Except.ok.inj (hcombos.symm.trans hcombos')
      exact (selected_iff hruns _).mpr (fun hmin => h.even hmin combos hcombos fold htried hsearch) params hparams
    · intro combos hcombos report hreport
      obtain ⟨combos', outcomes, hcombos', hsearch, hruns, rfl⟩ := optimize_eq_ok.mp hreport
      obtain rfl := Except.ok.inj (hcombos.symm.trans hcombos')
      exact (tops_iff hruns _).mpr (h.ranked combos hcombos hsearch)

/-- Two periods of one indicator over 180 bars, by the drawdown: the shorter one loses less. -/
def drawdownStudy (trades : Nat) : Study Unit Nat where
  candles := List.replicate 180 ()
  specs := [{ indicatorId := "ema", params := [("period", 20)] }]
  space := Dict.empty.insert "period" [10, 20]
  objective := "max_drawdown_pct"
  maxCombinations := 60
  runOnce := fun _ specs =>
    let drawdown : ℚ := if specs.any fun spec => spec.params.any fun param => param.2 = 20 then 12 else 8
    .ok { ok := true, tradeCount := trades, metrics := fun key =>
      if key = "max_drawdown_pct" then .float ((drawdown : WithTop ℚ) : Rank) else .absent }

/-- With eight trades each the walk-forward takes the greater drawdown; with two the optimizer's best row has two. -/
theorem drawdownStudy_disagrees :
    ¬ (drawdownStudy 8).Agrees .grid 40000000 2 5 ∧ ¬ (drawdownStudy 2).Agrees .grid 40000000 2 5 := by
  have hcombos : ∀ trades, (drawdownStudy trades).combos .grid = .ok [[("period", 10)], [("period", 20)]] := by
    intro trades
    rfl
  constructor
  · intro h
    have htried : (drawdownStudy 8).Tried 2 5 0 := by
      refine ⟨List.cons_ne_nil _ _, ?_, ?_, ?_, ?_, ?_⟩ <;> decide +kernel
    have hselected : (drawdownStudy 8).selectParams ((drawdownStudy 8).trainCandles 2 5 0)
        [[("period", 10)], [("period", 20)]] = some [("period", 20)] := by decide +kernel
    have hbest : ((((drawdownStudy 8).onBlock 2 5 0).optimize .grid 40000000).toOption.bind Report.best).map Row.params =
        some [("period", 10)] := by decide +kernel
    cases hreport : ((drawdownStudy 8).onBlock 2 5 0).optimize .grid 40000000 with
    | error failure =>
      rw [hreport] at hbest
      cases hbest
    | ok report =>
      obtain ⟨row, hrow, hparams⟩ := h.selected _ (hcombos 8) 0 htried _ hselected report hreport
      rw [hreport, Except.toOption, Option.bind_some, hrow, Option.map_some, hparams] at hbest
      exact absurd hbest (by decide)
  · intro h
    have hbest : (((drawdownStudy 2).optimize .grid 40000000).toOption.bind Report.best).map Row.tradeCount =
        some 2 := by decide +kernel
    cases hreport : (drawdownStudy 2).optimize .grid 40000000 with
    | error failure =>
      rw [hreport] at hbest
      cases hbest
    | ok report =>
      rw [hreport, Except.toOption, Option.bind_some] at hbest
      obtain ⟨row, hrow, htrades⟩ := Option.map_eq_some_iff.mp hbest
      have henough := (h.best _ (hcombos 2) report hreport row hrow).trades
      rw [htrades] at henough
      exact absurd henough (by decide)

end Study

end Droid.Research.GridSearch
