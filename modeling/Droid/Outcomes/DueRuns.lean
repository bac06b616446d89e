import Droid.Outcomes.Settlement
import Droid.Lib.Backlog
import Mathlib.Order.WithBot

/-! Repeated settlement runs: what they settle is what the planners settle, each row once, and which rows they
never reach. -/
namespace Droid.Outcomes
open Lib Text

def MLPrediction.tPlusH (row : MLPrediction) : Int := row.timestamp + minutes row.horizon

def Sources.plan (sources : Sources) (row : MLPrediction) : Option (Plan ℚ) :=
  planRow sources.calendar row (sources.candles row.symbol row.timestamp row.tPlusH) sources.now

def Sources.researchCandles (sources : Sources) (row : ResearchRow) : List Candle :=
  match row.timestamp, resolveHorizonMinutes row with
  | some t, some horizon => sources.candles row.instrumentOrSymbol t (t + minutes horizon)
  | _, _ => []

def Sources.planResearch (sources : Sources) (row : ResearchRow) : Plan ResearchPlan :=
  planResearchRow sources.calendar row (sources.researchCandles row) sources.now

theorem planRow_settle {calendar : Calendar} {row : MLPrediction} {candles : List Candle} {now : Int} {spot : ℚ}
    (h : planRow calendar row candles now = some (.settle spot)) :
    row.tPlusH ≤ now ∧ 0 < row.atr ∧
      (∃ window, classifyWindow calendar row.symbol row.timestamp row.horizon = some window ∧
        window.settleable = true) ∧
      resolveForwardSpot candles row.timestamp row.tPlusH = some spot := by
  rw [planRow] at h
  split at h
  · cases h
  · rename_i hwait
    split at h
    · cases h
    · rename_i hatr
      split at h
      · cases h
      · rename_i window hwindow
        split at h
        · cases h
        · rename_i hopen
          split at h
          · cases h
          · rename_i spot' hspot
            cases h
            rw [classifyWindow_end hwindow] at hspot
            refine ⟨not_lt.mp hwait, not_le.mp hatr, ⟨window, hwindow, ?_⟩, hspot⟩
            simpa using hopen

/-- The loop's tests in their other order decide as the planner does. -/
theorem settleTurn_settled_iff {settlePrediction : ℚ → ℚ → ℚ → Int} {sources : Sources} {row : MLPrediction}
    {outcome : MLOutcome} :
    settleTurn settlePrediction sources row = .settled outcome ↔
      sources.plan row = some (.settle outcome.outcomeSpot) ∧
        outcome.outcomeLabel = settlePrediction row.spotPrice outcome.outcomeSpot row.atr := by
  constructor
  · intro h
    rw [settleTurn] at h
    split_ifs at h with hwait
    split at h
    · cases h
    · rename_i window hwindow
      split_ifs at h with hopen
      rw [classifyWindow_end hwindow] at h
      dsimp only at h
      split at h
      · cases h
      · cases h
      · cases h
      · rename_i spot hplan
        cases h
        exact ⟨hplan, rfl⟩
  · rintro ⟨hplan, hlabel⟩
    obtain ⟨helapsed, -, ⟨window, hwindow, hopen⟩, -⟩ := planRow_settle hplan
    rw [Sources.plan, MLPrediction.tPlusH] at hplan
    rw [MLPrediction.tPlusH] at helapsed
    rw [settleTurn, if_neg (not_lt.mpr helapsed), hwindow]
    dsimp only
    rw [hopen, classifyWindow_end hwindow]
    simp only [Bool.not_true, Bool.false_eq_true, if_false, hplan, ← hlabel]

theorem planResearchRow_settle {calendar : Calendar} {row : ResearchRow} {candles : List Candle} {now : Int}
    {plan : ResearchPlan} (h : planResearchRow calendar row candles now = .settle plan) :
    ∃ t horizon window, row.timestamp = some t ∧ resolveHorizonMinutes row = some horizon ∧
      t + minutes horizon ≤ now ∧ 0 < spotAtT row ∧
      classifyWindow calendar row.instrumentOrSymbol t horizon = some window ∧ window.settleable = true ∧
       resolveForwardSpot candles t (t + minutes horizon) = some plan.outcomeSpot := by
  rw [planResearchRow] at h
  split at h
  · cases h
  · cases h
  · rename_i t horizon ht hhorizon
    split_ifs at h with hwait hspot hatr
    split at h
    · cases h
    · rename_i window hwindow
      split_ifs at h with hopen
      split at h
      · cases h
      · rename_i spotH hspotH
        split at h
        · cases h
        · cases h
          rw [classifyWindow_end hwindow] at hspotH
          exact ⟨t, horizon, window, ht, hhorizon, not_lt.mp hwait, hspot, hwindow, by simpa using hopen,
            hspotH⟩

theorem settleResearchTurn_settled_iff {sources : Sources} {row : ResearchRow} {outcome : PredictionOutcome} :
    settleResearchTurn sources row = .settled outcome ↔
      ∃ plan, sources.planResearch row = .settle plan ∧
        outcome = buildResearchOutcome row plan.outcomeSpot plan.outcomeLabel (sources.researchCandles row)
          sources.now := by
  constructor
  · intro h
    rw [settleResearchTurn] at h
    split at h
    · cases h
    · cases h
    · rename_i horizon t hhorizon ht
      split_ifs at h with hwait
      split at h
      · cases h
      · rename_i window hwindow
        split_ifs at h with hopen
        rw [classifyWindow_end hwindow] at h
        dsimp only at h
        split at h
        · cases h
        · cases h
        · rename_i plan hplan
          cases h
          refine ⟨plan, ?_, ?_⟩ <;> simp only [Sources.planResearch, Sources.researchCandles, ht, hhorizon, hplan]
  · rintro ⟨plan, hplan, rfl⟩
    obtain ⟨t, horizon, window, ht, hhorizon, helapsed, -, hwindow, hopen, -⟩ := planResearchRow_settle hplan
    have hcandles : sources.researchCandles row =
        sources.candles row.instrumentOrSymbol t (t + minutes horizon) := by
      simp only [Sources.researchCandles, ht, hhorizon]
    rw [Sources.planResearch, hcandles] at hplan
    rw [hcandles, settleResearchTurn, ht, hhorizon]
    dsimp only
    rw [if_neg (not_lt.mpr helapsed), hwindow]
    dsimp only
    rw [hopen, classifyWindow_end hwindow]
    simp only [Bool.not_true, Bool.false_eq_true, if_false, hplan]

/-- The loop over a batch stores and counts what the turns settle. -/
theorem foldl_turn {ρ τ ω : Type} (backlog : Backlog ρ String τ) (turnOf : ρ → Turn ω) (pending : List ρ)
    (progress : Progress ω) :
    (pending.foldl (fun progress row => progress.turn (backlog.key row) (turnOf row)) progress).outcomes =
        pending.foldl (backlog.settle (fun row => (turnOf row).outcome?)) progress.outcomes ∧
      (pending.foldl (fun progress row => progress.turn (backlog.key row) (turnOf row)) progress).written =
        progress.written ++ backlog.writes (fun row => (turnOf row).outcome?) pending := by
  induction pending generalizing progress with
  | nil => exact ⟨rfl, (List.append_nil _).symm⟩
  | cons row pending ih =>
    obtain ⟨houtcomes, hwritten⟩ := ih (progress.turn (backlog.key row) (turnOf row))
    rw [List.foldl_cons, List.foldl_cons, houtcomes, hwritten]
    cases hturn : turnOf row with
    | settled outcome => simp [Backlog.settle, Backlog.writes, Progress.turn, Turn.outcome?, hturn]
    | skipped reason => simp [Backlog.settle, Backlog.writes, Progress.turn, Turn.outcome?, hturn]
    | failed => simp [Backlog.settle, Backlog.writes, Progress.turn, Turn.outcome?, hturn]

/-- The unsettled predictions of the table, under their primary keys. -/
structure MLTable where
  rows : List MLPrediction
  nodup : (rows.map MLPrediction.id).Nodup

structure ResearchTable where
  rows : List ResearchRow
  nodup : (rows.map ResearchRow.predictionId).Nodup

/-- The rows that the query of `settle_due` asks for, with or without a symbol. -/
def MLTable.due (table : MLTable) (symbol : Option String) : Backlog MLPrediction String Int :=
  Backlog.filter ⟨table.rows, MLPrediction.id, MLPrediction.timestamp, table.nodup⟩
    (fun row => symbol.getD "" = "" ∨ row.symbol = upper (symbol.getD ""))

/-- `LIKE`: a percent sign stands for any text, an underscore for one character. -/
def like : List Char → List Char → Bool
  | [], text => text.isEmpty
  | c :: pattern, text =>
    if c = '%' then text.tails.any (like pattern)
    else
      match text with
      | [] => false
      | d :: text => (c = '_' || c = d) && like pattern text

structure ResearchQuery where
  indicatorPrefix : String := "trend_forecast_"
  indicator : Option String := none
  since : Option Int := none

def ResearchQuery.asksFor (query : ResearchQuery) (row : ResearchRow) : Bool :=
  (if query.indicator.getD "" ≠ "" then row.indicatorId = query.indicator.getD ""
    else like (query.indicatorPrefix ++ "%").toList row.indicatorId.toList) &&
  (match query.since with
    | none => true
    | some since => row.timestamp.any (since ≤ ·))

/-- The rows that `_fetch_due_rows` asks for; rows without a time come last. -/
def ResearchTable.due (table : ResearchTable) (query : ResearchQuery) :
    Backlog ResearchRow String (WithTop Int) :=
  Backlog.filter ⟨table.rows, ResearchRow.predictionId, ResearchRow.timestamp, table.nodup⟩ query.asksFor

/-- One run of `settle_due` over the batch of its query, with what it stores. -/
def settleDueRun (settlePrediction : ℚ → ℚ → ℚ → Int) (sources : Sources) (outcomes : Dict String MLOutcome)
    (batch : List MLPrediction) : Dict String MLOutcome × List (String × MLOutcome) :=
  let progress := settleDue settlePrediction sources outcomes batch
  (progress.outcomes, progress.written)

def settleDueResearchRun (sources : Sources) (outcomes : Dict String PredictionOutcome)
    (batch : List ResearchRow) : Dict String PredictionOutcome × List (String × PredictionOutcome) :=
  let progress := settleDueResearch sources outcomes batch
  (progress.outcomes, progress.written)

theorem settleDueRun_eq (settlePrediction : ℚ → ℚ → ℚ → Int) (sources : Sources) (table : MLTable)
    (symbol : Option String) :
    settleDueRun settlePrediction sources =
      (table.due symbol).turns (fun row => (settleTurn settlePrediction sources row).outcome?) := by
  funext outcomes batch
  obtain ⟨houtcomes, hwritten⟩ := foldl_turn (table.due symbol) (settleTurn settlePrediction sources) batch
    { outcomes := outcomes }
  exact Prod.ext houtcomes hwritten

theorem settleDueResearchRun_eq (sources : Sources) (table : ResearchTable) (query : ResearchQuery) :
    settleDueResearchRun sources =
      (table.due query).turns (fun row => (settleResearchTurn sources row).outcome?) := by
  funext outcomes batch
  obtain ⟨houtcomes, hwritten⟩ := foldl_turn (table.due query) (settleResearchTurn sources) batch
    { outcomes := outcomes }
  exact Prod.ext houtcomes hwritten

theorem outcome?_eq_some {ω : Type} {turn : Turn ω} {outcome : ω} :
    turn.outcome? = some outcome ↔ turn = .settled outcome := by
  cases turn with
  | settled outcome' => simp [Turn.outcome?]
  | skipped reason => simp [Turn.outcome?]
  | failed => simp [Turn.outcome?]

def Plan.settles {ω : Type} : Plan ω → Bool
  | .settle _ => true
  | .wait _ => false
  | .skip _ => false

/-- Whether the planner says settle on the candles of the row. -/
def Sources.settles (sources : Sources) (row : MLPrediction) : Bool :=
  match sources.plan row with
  | none => false
  | some plan => plan.settles

def Sources.settlesResearch (sources : Sources) (row : ResearchRow) : Bool := (sources.planResearch row).settles

theorem settleTurn_isSome (settlePrediction : ℚ → ℚ → ℚ → Int) (sources : Sources) (row : MLPrediction) :
    (settleTurn settlePrediction sources row).outcome?.isSome = sources.settles row := by
  rw [Bool.eq_iff_iff, Option.isSome_iff_exists]
  constructor
  · rintro ⟨outcome, h⟩
    rw [Sources.settles, (settleTurn_settled_iff.mp (outcome?_eq_some.mp h)).1]
    rfl
  · intro h
    rw [Sources.settles] at h
    split at h
    · cases h
    · rename_i plan hplan
      cases plan with
      | settle spot =>
        have hturn : settleTurn settlePrediction sources row =
            .settled ⟨settlePrediction row.spotPrice spot row.atr, spot⟩ :=
          settleTurn_settled_iff.mpr ⟨hplan, rfl⟩
        exact ⟨_, outcome?_eq_some.mpr hturn⟩
      | wait reason => cases h
      | skip reason => cases h

theorem settleResearchTurn_isSome (sources : Sources) (row : ResearchRow) :
    (settleResearchTurn sources row).outcome?.isSome = sources.settlesResearch row := by
  rw [Bool.eq_iff_iff, Option.isSome_iff_exists]
  constructor
  · rintro ⟨outcome, h⟩
    obtain ⟨plan, hplan, -⟩ := settleResearchTurn_settled_iff.mp (outcome?_eq_some.mp h)
    rw [Sources.settlesResearch, hplan]
    rfl
  · intro h
    rw [Sources.settlesResearch] at h
    cases hplan : sources.planResearch row with
    | settle plan => exact ⟨_, outcome?_eq_some.mpr (settleResearchTurn_settled_iff.mpr ⟨plan, hplan, rfl⟩)⟩
    | wait reason =>
      rw [hplan] at h
      cases h
    | skip reason =>
      rw [hplan] at h
      cases h

section Runs
variable {ρ τ ω : Type} [LinearOrder τ] (backlog : Backlog ρ String τ)
  (run : Dict String ω → List ρ → Dict String ω × List (String × ω)) (limit : Nat)

/-- All runs together store an outcome for each row at most once, and only as the planner says. -/
def SettlesOnly (planned : ρ → ω → Prop) : Prop :=
  ∀ n outcomes written, backlog.Runs run limit n outcomes written →
    (written.map Prod.fst).Nodup ∧
      ∀ key outcome, (key, outcome) ∈ written → ∃ row ∈ backlog.rows, backlog.key row = key ∧ planned row outcome

def LeavesNone (settles : ρ → Bool) (n : Nat) : Prop :=
  ∀ outcomes written, backlog.Runs run limit n outcomes written →
    ∀ row ∈ backlog.rows, settles row = true → (outcomes.get? (backlog.key row)).isSome

/-- Fewer than the limit of the rows not later than a settleable one are unsettleable. -/
def HeadFree (settles : ρ → Bool) : Prop :=
  ∀ row ∈ backlog.rows, settles row = true →
    (backlog.rows.filter (fun other => !settles other && decide (backlog.time other ≤ backlog.time row))).length <
      limit

variable {backlog run limit} {turn : ρ → Option ω} (hrun : run = backlog.turns turn)
include hrun

theorem settlesOnly_of_turn {planned : ρ → ω → Prop} (hplanned : ∀ row outcome, turn row = some outcome →
    planned row outcome) : SettlesOnly backlog run limit planned := by
  subst hrun
  intro n outcomes written hruns
  refine ⟨hruns.written_nodup, ?_⟩
  intro key outcome hmem
  obtain ⟨row, hrow, hkey, hturn⟩ := hruns.written_turn hmem
  exact ⟨row, hrow, hkey, hplanned row outcome hturn⟩

theorem leavesNone_iff {settles : ρ → Bool} (hsettles : ∀ row, (turn row).isSome = settles row) {n : Nat}
    (hn : backlog.rows.length ≤ n) :
    LeavesNone backlog run limit settles n ↔ HeadFree backlog limit settles := by
  subst hrun
  obtain rfl : settles = fun row => (turn row).isSome := funext (fun row => (hsettles row).symm)
  have hahead : ∀ row, backlog.rows.filter (fun other =>
      !(turn other).isSome && decide (backlog.time other ≤ backlog.time row)) = backlog.ahead turn row := by
    intro row
    rw [Backlog.ahead]
    apply List.filter_congr
    intro other _
    rw [Option.not_isSome]
  rw [LeavesNone, HeadFree]
  simp only [hahead]
  exact Backlog.settled_iff_ahead hn

end Runs

/-- What a settled prediction stores: the planner's spot, which is the latest one of the window. -/
def Sources.Stores (sources : Sources) (row : MLPrediction) (outcome : MLOutcome) : Prop :=
  sources.plan row = some (.settle outcome.outcomeSpot) ∧
    ∃ timestamp, IsLatest row.timestamp row.tPlusH (sources.candles row.symbol row.timestamp row.tPlusH) timestamp
      outcome.outcomeSpot

def Sources.StoresResearch (sources : Sources) (row : ResearchRow) (outcome : PredictionOutcome) : Prop :=
  ∃ plan, sources.planResearch row = .settle plan ∧
    outcome = buildResearchOutcome row plan.outcomeSpot plan.outcomeLabel (sources.researchCandles row)
      sources.now ∧
    ∃ t horizon timestamp, row.timestamp = some t ∧ resolveHorizonMinutes row = some horizon ∧
      IsLatest t (t + minutes horizon) (sources.researchCandles row) timestamp plan.outcomeSpot

/-- Both loops settle only what their planners settle, each row once, at the latest spot of the window; as many
runs as there are rows reach every settleable row exactly where unsettleable rows do not fill the head of the
queue before one of them. -/
theorem settlement_runs (settlePrediction : ℚ → ℚ → ℚ → Int) (sources : Sources) (table : MLTable)
    (symbol : Option String) (research : ResearchTable) (query : ResearchQuery) (limit : Nat) :
    SettlesOnly (table.due symbol) (settleDueRun settlePrediction sources) limit sources.Stores ∧
      SettlesOnly (research.due query) (settleDueResearchRun sources) limit sources.StoresResearch ∧
      (LeavesNone (table.due symbol) (settleDueRun settlePrediction sources) limit sources.settles
          table.rows.length ↔ HeadFree (table.due symbol) limit sources.settles) ∧
      (LeavesNone (research.due query) (settleDueResearchRun sources) limit sources.settlesResearch
          research.rows.length ↔ HeadFree (research.due query) limit sources.settlesResearch) := by
  have hml := settleDueRun_eq settlePrediction sources table symbol
  have hresearch := settleDueResearchRun_eq sources research query
  refine ⟨settlesOnly_of_turn hml ?_, settlesOnly_of_turn hresearch ?_, ?_, ?_⟩
  · intro row outcome hturn
    have hplan := (settleTurn_settled_iff.mp (outcome?_eq_some.mp hturn)).1
    obtain ⟨-, -, -, hspot⟩ := planRow_settle hplan
    exact ⟨hplan, resolveForwardSpot_latest hspot⟩
  · intro row outcome hturn
    obtain ⟨plan, hplan, houtcome⟩ := settleResearchTurn_settled_iff.mp (outcome?_eq_some.mp hturn)
    obtain ⟨t, horizon, -, ht, hhorizon, -, -, -, -, hspot⟩ := planResearchRow_settle hplan
    obtain ⟨timestamp, hlatest⟩ := resolveForwardSpot_latest hspot
    exact ⟨plan, hplan, houtcome, t, horizon, timestamp, ht, hhorizon, hlatest⟩
  · exact leavesNone_iff hml (settleTurn_isSome settlePrediction sources) (List.length_filter_le _ _)
  · exact leavesNone_iff hresearch (settleResearchTurn_isSome sources) (List.length_filter_le _ _)

def unpriced : MLPrediction := ⟨"without ATR", "BTCUSDT", 0, 100, some 5, none⟩

def priced : MLPrediction := ⟨"with ATR", "BTCUSDT", minutes 1, 100, some 5, some 2⟩

def oneCandle : Sources where
  calendar := fun _ => { isTradingDay := false }
  nseFetch := fun _ _ _ => []
  cryptoFetch := fun _ start _ => [.tuple (some (start + minutes 3)) (some 101)]
  now := minutes 60

def blockedTable : MLTable := ⟨[unpriced, priced], by decide⟩

/-- With a limit of one an old row without its ATR keeps a settleable one out for good. -/
theorem unpriced_blocks :
    ¬LeavesNone (blockedTable.due none) (settleDueRun (fun _ _ _ => 1) oneCandle) 1 oneCandle.settles 2 := by
  rw [leavesNone_iff (settleDueRun_eq _ oneCandle blockedTable none) (settleTurn_isSome _ oneCandle) (by decide)]
  intro hfree
  have hpriced := hfree priced (by decide) (by decide +kernel)
  revert hpriced
  decide +kernel

end Droid.Outcomes
