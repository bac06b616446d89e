import Droid.Lib.Dict
import Mathlib.Algebra.Order.Field.Rat
import Mathlib.Tactic.Linarith
import Mathlib.Tactic.Positivity
import Mathlib.Tactic.FieldSimp

/-! The portfolio risk engine: an order's projection on the book against the configured limits. -/
namespace Droid.Algo.Portfolio
open Lib

/-- What a key of the limits holds: a number, or a text that is no number and makes `D` raise. -/
inductive LimitValue where
  | number (x : ℚ)
  | text (s : String)
  deriving DecidableEq, Repr

inductive Bucket where
  | underlying | strategy | expiry
  deriving DecidableEq, Repr

def Bucket.label : Bucket → String
  | .underlying => "UNDERLYING_CONCENTRATION"
  | .strategy => "STRATEGY_CONCENTRATION"
  | .expiry => "EXPIRY_CONCENTRATION"

/-- The Greeks that have a limit; theta has none. -/
inductive Greek where
  | delta | gamma | vega
  deriving DecidableEq, Repr

def Greek.name : Greek → String
  | .delta => "delta"
  | .gamma => "gamma"
  | .vega => "vega"

def Greek.code : Greek → String
  | .delta => "DELTA_BREACH"
  | .gamma => "GAMMA_BREACH"
  | .vega => "VEGA_BREACH"

structure Limits where
  portfolioGrossExposureLimit : Option LimitValue := none
  portfolioNetExposureLimit : Option LimitValue := none
  portfolioMarginLimitPct : Option LimitValue := none
  underlyingConcentrationPct : Option LimitValue := none
  strategyConcentrationPct : Option LimitValue := none
  expiryConcentrationPct : Option LimitValue := none
  portfolioDeltaLimit : Option LimitValue := none
  portfolioGammaLimit : Option LimitValue := none
  portfolioVegaLimit : Option LimitValue := none
  portfolioVarLimit : Option LimitValue := none
  portfolioStressLimit : Option LimitValue := none
  correlationConfidence : Option String := none
  deriving DecidableEq, Repr

def Limits.concentration (l : Limits) : Bucket → Option LimitValue
  | .underlying => l.underlyingConcentrationPct
  | .strategy => l.strategyConcentrationPct
  | .expiry => l.expiryConcentrationPct

def Limits.greek (l : Limits) : Greek → Option LimitValue
  | .delta => l.portfolioDeltaLimit
  | .gamma => l.portfolioGammaLimit
  | .vega => l.portfolioVegaLimit

structure PortfolioExposure where
  grossExposure : ℚ := 0
  netExposure : ℚ := 0
  portfolioDelta : ℚ := 0
  portfolioGamma : ℚ := 0
  portfolioVega : ℚ := 0
  byUnderlying : Dict String ℚ := Dict.empty
  byStrategy : Dict String ℚ := Dict.empty
  byExpiry : Dict String ℚ := Dict.empty

def PortfolioExposure.buckets (e : PortfolioExposure) : Bucket → Dict String ℚ
  | .underlying => e.byUnderlying
  | .strategy => e.byStrategy
  | .expiry => e.byExpiry

def PortfolioExposure.greek (e : PortfolioExposure) : Greek → ℚ
  | .delta => e.portfolioDelta
  | .gamma => e.portfolioGamma
  | .vega => e.portfolioVega

structure PortfolioRiskInput where
  existingExposure : PortfolioExposure
  newOrderNotional : ℚ
  newOrderMargin : ℚ
  newOrderGreeks : Option (Dict String ℚ) := none
  newOrderUnderlying : Option String := none
  newOrderStrategy : Option String := none
  newOrderExpiry : Option String := none
  limits : Limits := {}
  currentVar : Option ℚ := none
  incrementalVar : Option ℚ := none
  stressLoss : Option ℚ := none
  availableMargin : Option ℚ := none
  totalRequiredMargin : Option ℚ := none

inductive CheckReason where
  | breach (code : String) (value threshold : ℚ) (key : Option String)
  | note (text : String)
  deriving DecidableEq, Repr

structure RiskCheck where
  name : String
  passed : Bool
  reason : Option CheckReason := none
  value : Option ℚ := none
  threshold : Option ℚ := none
  deriving DecidableEq, Repr

inductive RiskResult where
  | approved | rejected
  deriving DecidableEq, Repr

structure RiskDecision where
  result : RiskResult
  reason : Option String := none
  failedCheck : Option String := none
  checks : List RiskCheck := []
  deriving DecidableEq, Repr

/-- One step of `evaluate`: left out, a raised conversion, or a check with the decision's reason. -/
inductive Stage where
  | skip
  | raise
  | check (row : RiskCheck) (reason : String)

def Stage.ok : Stage → Bool
  | .skip => true
  | .raise => false
  | .check row _ => row.passed

/-- `D(limit)` of a limit that is present. -/
def withLimit (limit : Option LimitValue) (stage : ℚ → Stage) : Stage :=
  match limit with
  | none => .skip
  | some (.number x) => stage x
  | some (.text _) => .raise

/-- `chk(name, value <= limit, ...)` with the decision's reason. -/
def bounded (name code : String) (key : Option String) (value compared threshold : ℚ) : Stage :=
  .check
    { name, passed := decide (compared ≤ threshold), reason := some (.breach code value threshold key),
      value := some value, threshold := some threshold } code

namespace PortfolioRiskInput
variable (inp : PortfolioRiskInput)

def projGross : ℚ := inp.existingExposure.grossExposure + |inp.newOrderNotional|

def projNet : ℚ := inp.existingExposure.netExposure + inp.newOrderNotional

def newOrderKey : Bucket → Option String
  | .underlying => inp.newOrderUnderlying
  | .strategy => inp.newOrderStrategy
  | .expiry => inp.newOrderExpiry

end PortfolioRiskInput

/-- The share of the capital, in percent, that a margin uses. -/
def marginUtil (totalMargin avail : ℚ) : ℚ :=
  if totalMargin + avail > 0 then totalMargin / (totalMargin + avail) * 100 else 0

/-- The key of a bucket that the book already has. -/
def PortfolioRiskInput.knownKey (inp : PortfolioRiskInput) (b : Bucket) : Option String :=
  (inp.newOrderKey b).filter fun key => key ≠ "" ∧ (inp.existingExposure.buckets b).contains key

/-- The order's bucket with the order in it: an unnamed order is a new bucket. -/
def PortfolioRiskInput.combined (inp : PortfolioRiskInput) (b : Bucket) : ℚ :=
  match inp.knownKey b with
  | some key => ((inp.existingExposure.buckets b).get? key).getD 0 + |inp.newOrderNotional|
  | none => |inp.newOrderNotional|

def grossStage (inp : PortfolioRiskInput) : Stage :=
  withLimit inp.limits.portfolioGrossExposureLimit fun x =>
    bounded "gross_exposure" "GROSS_EXPOSURE_BREACH" none inp.projGross inp.projGross x

def netStage (inp : PortfolioRiskInput) : Stage :=
  withLimit inp.limits.portfolioNetExposureLimit fun x =>
    bounded "net_exposure" "NET_EXPOSURE_BREACH" none inp.projNet |inp.projNet| x

def marginStage (inp : PortfolioRiskInput) : Stage :=
  match inp.availableMargin, inp.totalRequiredMargin with
  | some avail, some required =>
    withLimit inp.limits.portfolioMarginLimitPct fun x =>
      let util := marginUtil (required + inp.newOrderMargin) avail
      bounded "margin_utilization" "MARGIN_BREACH" none util util x
  | _, _ => .skip

def concentrationStage (inp : PortfolioRiskInput) (b : Bucket) : Stage :=
  if inp.projGross > 0 then
    withLimit (inp.limits.concentration b) fun x =>
      let pct := inp.combined b / inp.projGross * 100
      bounded ("concentration_" ++ b.label) (b.label ++ "_BREACH") (inp.knownKey b) pct pct x
  else .skip

/-- A zero or blank Greek limit is no limit. -/
def greekStage (inp : PortfolioRiskInput) (g : Greek) : Stage :=
  match inp.newOrderGreeks.filter fun greeks => decide (greeks.entries ≠ []) with
  | none => .skip
  | some greeks =>
    let proj := inp.existingExposure.greek g + (greeks.get? g.name).getD 0
    if inp.limits.greek g = some (.text "") then .skip
    else withLimit (inp.limits.greek g) fun x =>
      if x = 0 then .skip
      else
        .check
          { name := "greek_" ++ g.name, passed := decide (|proj| ≤ |x|),
            reason := some (.breach ("GREEK_" ++ g.code) proj x none),
            value := some proj, threshold := some x } g.code

def varStage (inp : PortfolioRiskInput) : Stage :=
  match inp.currentVar with
  | some current =>
    withLimit inp.limits.portfolioVarLimit fun x =>
      let proj := current + inp.incrementalVar.getD 0
      bounded "var_limit" "VAR_BREACH" none proj proj x
  | none => .skip

def stressStage (inp : PortfolioRiskInput) : Stage :=
  match inp.stressLoss with
  | some loss =>
    withLimit inp.limits.portfolioStressLimit fun x =>
      bounded "stress_limit" "STRESS_BREACH" none loss loss x
  | none => .skip

/-- A warning that never rejects. -/
def correlationStage (inp : PortfolioRiskInput) : Stage :=
  if inp.limits.correlationConfidence = some "LOW" then
    .check
      { name := "correlation_confidence", passed := true,
        reason := some (.note "CORRELATION_CONFIDENCE_LOW — using conservative fallback") } ""
  else .skip

def stages (inp : PortfolioRiskInput) : List Stage :=
  [grossStage inp, netStage inp, marginStage inp] ++
    [Bucket.underlying, .strategy, .expiry].map (concentrationStage inp) ++
    [Greek.delta, .gamma, .vega].map (greekStage inp) ++
    [varStage inp, stressStage inp, correlationStage inp]

/-- The checks in order; the first that fails decides, and a raised exception rejects. -/
def runStages : List Stage → List RiskCheck → RiskDecision
  | [], checks =>
    { result := .approved,
      checks := checks ++ [{ name := "all_portfolio_checks", passed := true,
                             reason := some (.note "ALL_PORTFOLIO_CHECKS_PASSED") }] }
  | .skip :: rest, checks => runStages rest checks
  | .raise :: _, checks =>
    { result := .rejected, reason := some "PORTFOLIO_RISK_ENGINE_FAILURE",
      failedCheck := some "engine_error",
      checks := checks ++ [{ name := "engine_error", passed := false }] }
  | .check row reason :: rest, checks =>
    if row.passed then runStages rest (checks ++ [row])
    else
      { result := .rejected, reason := some reason, failedCheck := some row.name,
        checks := checks ++ [row] }

def evaluate (inp : PortfolioRiskInput) : RiskDecision := runStages (stages inp) []

/-- What the order pipeline reads of an order intent. -/
structure OrderIntent where
  side : String
  quantity : Int
  price : ℚ
  underlying : Option String
  strategyId : Option String := none
  expiry : Option String := none
  greeks : Option (Dict String ℚ) := none
  marginAvailable : Option ℚ := none
  estimatedMargin : Option ℚ := none

/-- The order as the engine hears of it. -/
structure Order where
  notional : ℚ
  margin : ℚ
  greeks : Option (Dict String ℚ) := none
  underlying : Option String := none
  strategy : Option String := none
  expiry : Option String := none
  incrementalVar : Option ℚ := none
  availableMargin : Option ℚ := none

structure Book where
  exposure : PortfolioExposure := {}
  currentVar : Option ℚ := none
  stressLoss : Option ℚ := none

/-- An engine input whose required margin is the order's margin, as the order pipeline sets it. -/
def supplied (b : Book) (o : Order) (l : Limits) : PortfolioRiskInput where
  existingExposure := b.exposure
  newOrderNotional := o.notional
  newOrderMargin := o.margin
  newOrderGreeks := o.greeks
  newOrderUnderlying := o.underlying
  newOrderStrategy := o.strategy
  newOrderExpiry := o.expiry
  limits := l
  currentVar := b.currentVar
  incrementalVar := o.incrementalVar
  stressLoss := b.stressLoss
  availableMargin := o.availableMargin
  totalRequiredMargin := some o.margin

/-- The input that `evaluate_full_stack` builds: the intent's Greeks and expiry are left behind. -/
def fullStackInput (exposure : PortfolioExposure) (intent : OrderIntent) (l : Limits) :
    PortfolioRiskInput :=
  let newNotional := if intent.price = 0 then 0 else intent.price * intent.quantity
  let estMargin := (intent.estimatedMargin.filter (· ≠ 0)).getD (newNotional * (15 / 100))
  { existingExposure := exposure
    newOrderNotional := if intent.side = "BUY" then newNotional else -newNotional
    newOrderMargin := estMargin
    newOrderUnderlying := intent.underlying
    newOrderStrategy := intent.strategyId
    limits := l
    availableMargin := intent.marginAvailable
    totalRequiredMargin := some estMargin }

/-! The checks that are made, as conditions on the input. -/

/-- A limit that is present is a number with the property. -/
def Meets (limit : Option LimitValue) (P : ℚ → Prop) : Prop :=
  ∀ v, limit = some v → ∃ x, v = .number x ∧ P x

/-- No check that is made fails, and no conversion raises. -/
structure Admitted (inp : PortfolioRiskInput) : Prop where
  gross : Meets inp.limits.portfolioGrossExposureLimit fun x => inp.projGross ≤ x
  net : Meets inp.limits.portfolioNetExposureLimit fun x => |inp.projNet| ≤ x
  margin : ∀ avail required, inp.availableMargin = some avail →
    inp.totalRequiredMargin = some required → Meets inp.limits.portfolioMarginLimitPct fun x =>
      marginUtil (required + inp.newOrderMargin) avail ≤ x
  concentration : 0 < inp.projGross → ∀ b, Meets (inp.limits.concentration b) fun x =>
    inp.combined b / inp.projGross * 100 ≤ x
  greeks : ∀ greeks, inp.newOrderGreeks = some greeks → greeks.entries ≠ [] → ∀ g,
    inp.limits.greek g ≠ some (.text "") → Meets (inp.limits.greek g) fun x =>
      x ≠ 0 → |inp.existingExposure.greek g + (greeks.get? g.name).getD 0| ≤ |x|
  var : ∀ current, inp.currentVar = some current → Meets inp.limits.portfolioVarLimit fun x =>
    current + inp.incrementalVar.getD 0 ≤ x
  stress : ∀ loss, inp.stressLoss = some loss → Meets inp.limits.portfolioStressLimit fun x =>
    loss ≤ x

private theorem runStages_approved (l : List Stage) (checks : List RiskCheck) :
    (runStages l checks).result = .approved ↔ ∀ s ∈ l, s.ok := by
  induction l generalizing checks with
  | nil => simp [runStages]
  | cons s l ih =>
    rw [List.forall_mem_cons]
    cases s with
    | skip => simp [runStages, ih, Stage.ok]
    | raise => simp [runStages, Stage.ok]
    | check row reason =>
      rw [runStages, Stage.ok]
      split
      · rename_i h
        simp [ih, h]
      · rename_i h
        simp [h]

private theorem withLimit_ok (limit : Option LimitValue) (stage : ℚ → Stage) :
    (withLimit limit stage).ok ↔ Meets limit fun x => (stage x).ok := by
  unfold withLimit Meets
  cases limit with
  | none => simp [Stage.ok]
  | some v =>
    cases v with
    | number x => simp
    | text s => simp [Stage.ok]

private theorem bounded_ok (name code : String) (key : Option String) (value compared x : ℚ) :
    (bounded name code key value compared x).ok ↔ compared ≤ x := by
  simp [bounded, Stage.ok]

private theorem margin_ok (inp : PortfolioRiskInput) :
    (marginStage inp).ok ↔ ∀ avail required, inp.availableMargin = some avail →
      inp.totalRequiredMargin = some required → Meets inp.limits.portfolioMarginLimitPct fun x =>
        marginUtil (required + inp.newOrderMargin) avail ≤ x := by
  unfold marginStage
  cases inp.availableMargin with
  | none => simp [Stage.ok]
  | some avail =>
    cases inp.totalRequiredMargin with
    | none => simp [Stage.ok]
    | some required =>
      rw [withLimit_ok]
      simp only [bounded_ok]
      constructor
      · rintro h _ _ ⟨⟩ ⟨⟩
        exact h
      · intro h
        exact h avail required rfl rfl

private theorem concentration_ok (inp : PortfolioRiskInput) (b : Bucket) :
    (concentrationStage inp b).ok ↔ (0 < inp.projGross → Meets (inp.limits.concentration b) fun x =>
      inp.combined b / inp.projGross * 100 ≤ x) := by
  unfold concentrationStage
  by_cases h : inp.projGross > 0
  · rw [if_pos h, withLimit_ok]
    simp only [bounded_ok]
    exact ⟨fun hm _ => hm, fun hm => hm h⟩
  · rw [if_neg h]
    exact iff_of_true rfl fun hp => absurd hp h

private theorem greek_ok (inp : PortfolioRiskInput) (g : Greek) :
    (greekStage inp g).ok ↔ ∀ greeks, inp.newOrderGreeks = some greeks → greeks.entries ≠ [] →
      inp.limits.greek g ≠ some (.text "") → Meets (inp.limits.greek g) fun x =>
        x ≠ 0 → |inp.existingExposure.greek g + (greeks.get? g.name).getD 0| ≤ |x| := by
  unfold greekStage
  cases inp.newOrderGreeks with
  | none => simp [Stage.ok]
  | some greeks =>
    by_cases he : greeks.entries = []
    · simp [Option.filter, he, Stage.ok]
    · simp only [Option.filter, he, ne_eq, not_false_eq_true, decide_true, if_true,
        Option.some.injEq, forall_eq', true_imp_iff]
      by_cases ht : inp.limits.greek g = some (.text "")
      · rw [if_pos ht]
        exact iff_of_true rfl fun h => absurd ht h
      · rw [if_neg ht, withLimit_ok]
        have hx : ∀ x, (if x = 0 then Stage.skip else .check
            { name := "greek_" ++ g.name,
              passed := decide (|inp.existingExposure.greek g + (greeks.get? g.name).getD 0| ≤ |x|),
              reason := some (.breach ("GREEK_" ++ g.code)
                (inp.existingExposure.greek g + (greeks.get? g.name).getD 0) x none),
              value := some (inp.existingExposure.greek g + (greeks.get? g.name).getD 0),
              threshold := some x } g.code).ok = true ↔
            (x ≠ 0 → |inp.existingExposure.greek g + (greeks.get? g.name).getD 0| ≤ |x|) := by
          intro x
          by_cases h0 : x = 0
          · simp [h0, Stage.ok]
          · simp [h0, Stage.ok]
        simp only [hx]
        exact ⟨fun h _ => h, fun h => h ht⟩

private theorem var_ok (inp : PortfolioRiskInput) :
    (varStage inp).ok ↔ ∀ current, inp.currentVar = some current →
      Meets inp.limits.portfolioVarLimit fun x => current + inp.incrementalVar.getD 0 ≤ x := by
  unfold varStage
  cases inp.currentVar with
  | none => simp [Stage.ok]
  | some current => simp only [withLimit_ok, bounded_ok, Option.some.injEq, forall_eq']

private theorem stress_ok (inp : PortfolioRiskInput) :
    (stressStage inp).ok ↔ ∀ loss, inp.stressLoss = some loss →
      Meets inp.limits.portfolioStressLimit fun x => loss ≤ x := by
  unfold stressStage
  cases inp.stressLoss with
  | none => simp [Stage.ok]
  | some loss => simp only [withLimit_ok, bounded_ok, Option.some.injEq, forall_eq']

private theorem correlation_ok (inp : PortfolioRiskInput) : (correlationStage inp).ok := by
  unfold correlationStage
  split <;> rfl

theorem evaluate_approved_iff (inp : PortfolioRiskInput) :
    (evaluate inp).result = .approved ↔ Admitted inp := by
  rw [evaluate, runStages_approved]
  have hb : ∀ P : Bucket → Prop, (∀ b, P b) ↔ P .underlying ∧ P .strategy ∧ P .expiry :=
    fun P => ⟨fun h => ⟨h _, h _, h _⟩, fun h b => by cases b <;> tauto⟩
  have hg : ∀ P : Greek → Prop, (∀ g, P g) ↔ P .delta ∧ P .gamma ∧ P .vega :=
    fun P => ⟨fun h => ⟨h _, h _, h _⟩, fun h g => by cases g <;> tauto⟩
  have hall : (∀ s ∈ stages inp, s.ok) ↔ (grossStage inp).ok ∧ (netStage inp).ok ∧
      (marginStage inp).ok ∧ (∀ b, (concentrationStage inp b).ok) ∧ (∀ g, (greekStage inp g).ok) ∧
      (varStage inp).ok ∧ (stressStage inp).ok ∧ (correlationStage inp).ok := by
    rw [hb, hg]
    simp [stages]
    tauto
  rw [hall]
  simp only [concentration_ok, greek_ok, margin_ok, var_ok, stress_ok, correlation_ok, and_true]
  rw [grossStage, netStage, withLimit_ok, withLimit_ok]
  simp only [bounded_ok]
  constructor
  · rintro ⟨h1, h2, h3, h4, h5, h6, h7⟩
    exact ⟨h1, h2, h3, fun hp b => h4 b hp, fun gs hs he g => h5 g gs hs he, h6, h7⟩
  · rintro ⟨h1, h2, h3, h4, h5, h6, h7⟩
    exact ⟨h1, h2, h3, fun b hp => h4 hp b, fun g gs hs he => h5 gs hs he g, h6, h7⟩

/-! The book with the order in it once. -/

/-- A numeric limit that is set holds the property. -/
def Under (limit : Option LimitValue) (P : ℚ → Prop) : Prop := ∀ x, limit = some (.number x) → P x

def Order.key (o : Order) : Bucket → Option String
  | .underlying => o.underlying
  | .strategy => o.strategy
  | .expiry => o.expiry

/-- What the order adds to a Greek; a Greek it does not come with adds nothing. -/
def Order.greek (o : Order) (g : Greek) : ℚ := ((o.greeks.bind fun d => d.get? g.name)).getD 0

def grossAfter (b : Book) (o : Order) : ℚ := b.exposure.grossExposure + |o.notional|

/-- The order's own bucket once it is in; an order without a name is a bucket of its own. -/
def bucketAfter (b : Book) (o : Order) (c : Bucket) : ℚ :=
  (((o.key c).filter (· ≠ "")).bind fun key => (b.exposure.buckets c).get? key).getD 0 + |o.notional|

/-- The book with the order added is within every limit whose data is known: the margin counts the
order once against the capital it leaves, and a zero Greek limit is none. -/
structure Within (b : Book) (o : Order) (l : Limits) : Prop where
  gross : Under l.portfolioGrossExposureLimit fun x => grossAfter b o ≤ x
  net : Under l.portfolioNetExposureLimit fun x => |b.exposure.netExposure + o.notional| ≤ x
  margin : ∀ avail, o.availableMargin = some avail → Under l.portfolioMarginLimitPct fun x =>
    o.margin * 100 ≤ x * (o.margin + avail)
  shares : 0 < grossAfter b o → ∀ c, Under (l.concentration c) fun x =>
    bucketAfter b o c / grossAfter b o * 100 ≤ x
  greeks : ∀ g, Under (l.greek g) fun x => x ≠ 0 → |b.exposure.greek g + o.greek g| ≤ |x|
  var : ∀ current, b.currentVar = some current → Under l.portfolioVarLimit fun x =>
    current + o.incrementalVar.getD 0 ≤ x
  stress : ∀ loss, b.stressLoss = some loss → Under l.portfolioStressLimit fun x => loss ≤ x

/-- Every limit that is set is a positive number. -/
structure Limits.Positive (l : Limits) : Prop where
  gross : Meets l.portfolioGrossExposureLimit (0 < ·)
  net : Meets l.portfolioNetExposureLimit (0 < ·)
  margin : Meets l.portfolioMarginLimitPct (0 < ·)
  concentration : ∀ c, Meets (l.concentration c) (0 < ·)
  greeks : ∀ g, Meets (l.greek g) (0 < ·)
  var : Meets l.portfolioVarLimit (0 < ·)
  stress : Meets l.portfolioStressLimit (0 < ·)

/-- Some order of a positive notional and margin passes on the empty book. -/
def Opens (l : Limits) : Prop :=
  ∃ o : Order, 0 < o.notional ∧ 0 < o.margin ∧ (∃ avail, o.availableMargin = some avail) ∧
    (evaluate (supplied {} o l)).result = .approved

/-- What the checks leave open: a margin that is no use of positive capital, and the Greeks of the
book under an order that comes without Greeks. -/
structure Covered (b : Book) (o : Order) (l : Limits) : Prop where
  margin : ∀ avail, o.availableMargin = some avail → ¬ (0 ≤ avail ∧ 0 ≤ o.margin) →
    Under l.portfolioMarginLimitPct fun x => o.margin * 100 ≤ x * (o.margin + avail)
  greeks : (∀ d, o.greeks = some d → d.entries = []) → ∀ g,
    Under (l.greek g) fun x => x ≠ 0 → |b.exposure.greek g| ≤ |x|

private theorem Meets.under {limit : Option LimitValue} {P : ℚ → Prop} (h : Meets limit P) :
    Under limit P := by
  intro x hx
  obtain ⟨y, hy, hp⟩ := h _ hx
  obtain rfl : x = y := by injection hy
  exact hp

private theorem combined_supplied (b : Book) (o : Order) (l : Limits) (c : Bucket) :
    (supplied b o l).combined c = bucketAfter b o c := by
  have hkey : (supplied b o l).newOrderKey c = o.key c := by cases c <;> rfl
  unfold PortfolioRiskInput.combined PortfolioRiskInput.knownKey bucketAfter
  rw [hkey]
  change (match (o.key c).filter fun key => key ≠ "" ∧ (b.exposure.buckets c).contains key with
    | some key => ((b.exposure.buckets c).get? key).getD 0 + |o.notional|
    | none => |o.notional|) = _
  cases o.key c with
  | none => simp
  | some key =>
    by_cases hempty : key = ""
    · simp [Option.filter, hempty]
    · cases hv : (b.exposure.buckets c).get? key with
      | none => simp [Option.filter, hempty, Dict.contains, hv]
      | some v => simp [Option.filter, hempty, Dict.contains, hv]

private theorem margin_once {m avail x : ℚ} (hm : 0 ≤ m) (ha : 0 ≤ avail)
    (h : marginUtil (m + m) avail ≤ x) : m * 100 ≤ x * (m + avail) := by
  unfold marginUtil at h
  split at h
  · rename_i hpos
    have hx : 0 ≤ x := le_trans (by positivity) h
    have hmul : (m + m) * 100 ≤ x * (m + m + avail) := by
      have := mul_le_mul_of_nonneg_right h hpos.le
      rwa [mul_right_comm, div_mul_cancel₀ _ hpos.ne'] at this
    have := mul_nonneg hx ha
    linarith
  · rename_i hpos
    have hm0 : m = 0 := by linarith
    have ha0 : avail = 0 := by linarith
    simp [hm0, ha0]

private theorem within_iff_covered {b : Book} {o : Order} {l : Limits}
    (h : Admitted (supplied b o l)) : Within b o l ↔ Covered b o l := by
  have horder : ∀ g, (∀ d, o.greeks = some d → d.entries = []) → o.greek g = 0 := by
    intro g hnone
    unfold Order.greek
    cases hd : o.greeks with
    | none => rfl
    | some d =>
      have hget : d.get? g.name = none := by
        unfold Dict.get?
        rw [hnone d hd]
        rfl
      simp [hget]
  constructor
  · intro hw
    refine ⟨fun avail ha _ => hw.margin avail ha, fun hnone g x hx h0 => ?_⟩
    have := hw.greeks g x hx h0
    rwa [horder g hnone, add_zero] at this
  · intro hc
    refine ⟨h.gross.under, h.net.under, ?_, ?_, ?_, fun c hv => (h.var c hv).under,
      fun loss hs => (h.stress loss hs).under⟩
    · intro avail ha x hx
      by_cases hpos : 0 ≤ avail ∧ 0 ≤ o.margin
      · exact margin_once hpos.2 hpos.1 ((h.margin avail o.margin ha rfl).under x hx)
      · exact hc.margin avail ha hpos x hx
    · intro hg c x hx
      have := (h.concentration hg c).under x hx
      rwa [combined_supplied] at this
    · intro g x hx h0
      by_cases hnone : ∀ d, o.greeks = some d → d.entries = []
      · rw [horder g hnone, add_zero]
        exact hc.greeks hnone g x hx h0
      · push Not at hnone
        obtain ⟨d, hd, he⟩ := hnone
        have htext : l.greek g ≠ some (.text "") := by
          rw [hx]
          intro hn
          cases hn
        have := (h.greeks d hd he g htext).under x hx h0
        rw [Order.greek, hd]
        exact this

private theorem Meets.exists_below {limit : Option LimitValue} (h : Meets limit (0 < ·)) :
    ∃ y > 0, Meets limit fun x => y ≤ x := by
  cases limit with
  | none => exact ⟨1, one_pos, fun v hv => by cases hv⟩
  | some v =>
    obtain ⟨x, rfl, hx⟩ := h v rfl
    refine ⟨x, hx, ?_⟩
    rintro _ ⟨⟩
    exact ⟨x, rfl, le_rfl⟩

private theorem Meets.exists_capital {limit : Option LimitValue} (h : Meets limit (0 < ·)) :
    ∃ avail, Meets limit fun x => marginUtil (1 + 1) avail ≤ x := by
  cases limit with
  | none => exact ⟨0, fun v hv => by cases hv⟩
  | some v =>
    obtain ⟨x, rfl, hx⟩ := h v rfl
    refine ⟨200 / x, ?_⟩
    rintro _ ⟨⟩
    refine ⟨x, rfl, ?_⟩
    have hpos : (0 : ℚ) < 1 + 1 + 200 / x := by positivity
    change marginUtil (1 + 1) (200 / x) ≤ x
    rw [marginUtil, if_pos hpos, div_mul_eq_mul_div, div_le_iff₀ hpos, mul_add,
      mul_div_cancel₀ _ hx.ne']
    linarith

/-- On the empty book every order is all of the gross exposure. -/
private theorem share_of_first (o : Order) (l : Limits) (c : Bucket) (h : 0 < o.notional) :
    (supplied {} o l).projGross = o.notional ∧ (supplied {} o l).combined c = o.notional := by
  constructor
  · simp [PortfolioRiskInput.projGross, supplied, abs_of_pos h]
  · have hempty : ∀ key, (({} : Book).exposure.buckets c).get? key = none := by
      intro key
      cases c <;> rfl
    rw [combined_supplied, bucketAfter]
    simp [hempty, abs_of_pos h]

/-- With positive limits the empty book takes some order exactly when no concentration limit is
below the whole. -/
theorem opens_iff {l : Limits} (hl : l.Positive) :
    Opens l ↔ ∀ c, Under (l.concentration c) fun x => 100 ≤ x := by
  constructor
  · rintro ⟨o, hn, -, -, h⟩ c x hx
    obtain ⟨hg, hc⟩ := share_of_first o l c hn
    have hadm := (evaluate_approved_iff _).mp h
    have hshare := (hadm.concentration (by rw [hg]; exact hn) c).under x hx
    rwa [hg, hc, div_self hn.ne', one_mul] at hshare
  · intro h
    obtain ⟨y, hy, hgross⟩ := hl.gross.exists_below
    obtain ⟨z, hz, hnet⟩ := hl.net.exists_below
    obtain ⟨avail, hmargin⟩ := hl.margin.exists_capital
    have hn : 0 < min y z := lt_min hy hz
    refine ⟨{ notional := min y z, margin := 1, availableMargin := some avail }, hn, one_pos,
      ⟨avail, rfl⟩, (evaluate_approved_iff _).mpr ?_⟩
    refine ⟨?_, ?_, ?_, ?_, ?_, ?_, ?_⟩
    · intro v hv
      obtain ⟨x, hx, hle⟩ := hgross v hv
      refine ⟨x, hx, ?_⟩
      rw [(share_of_first _ l .expiry hn).1]
      exact le_trans (min_le_left y z) hle
    · intro v hv
      obtain ⟨x, hx, hle⟩ := hnet v hv
      refine ⟨x, hx, ?_⟩
      change |0 + min y z| ≤ x
      rw [zero_add, abs_of_pos hn]
      exact le_trans (min_le_right y z) hle
    · rintro _ _ ⟨⟩ ⟨⟩
      exact hmargin
    · intro _ c v hv
      obtain ⟨x, rfl, -⟩ := hl.concentration c v hv
      obtain ⟨hg, hc⟩ := share_of_first
        { notional := min y z, margin := 1, availableMargin := some avail } l c hn
      refine ⟨x, rfl, ?_⟩
      rw [hg, hc, div_self hn.ne', one_mul]
      exact h c x hv
    · intro greeks hg
      cases hg
    · intro current hc
      cases hc
    · intro loss hs
      cases hs

/-- An approved order is within the limits, and positive limits let some first order through,
exactly when the checks cover what they leave open and no concentration limit is below the whole. -/
theorem portfolio_gate_iff (b : Book) (o : Order) (l : Limits) :
    (((evaluate (supplied b o l)).result = .approved → Within b o l) ∧ (l.Positive → Opens l)) ↔
      (Admitted (supplied b o l) → Covered b o l) ∧
        (l.Positive → ∀ c, Under (l.concentration c) fun x => 100 ≤ x) := by
  rw [evaluate_approved_iff]
  apply and_congr
  · exact forall_congr' fun h => within_iff_covered h
  · exact forall_congr' fun hl => opens_iff hl

def defaultConcentration : Limits where
  underlyingConcentrationPct := some (.number 30)

/-- The default limit lets no first order through. -/
theorem default_opens_nothing : defaultConcentration.Positive ∧ ¬ Opens defaultConcentration := by
  have hl : defaultConcentration.Positive := by
    have hnone : ∀ P : ℚ → Prop, Meets none P := fun P v hv => by cases hv
    refine ⟨hnone _, hnone _, hnone _, ?_, ?_, hnone _, hnone _⟩
    · intro c
      cases c with
      | underlying =>
        rintro _ ⟨⟩
        exact ⟨30, rfl, by norm_num⟩
      | strategy => exact hnone _
      | expiry => exact hnone _
    · intro g
      cases g <;> exact hnone _
  refine ⟨hl, fun h => ?_⟩
  have := (opens_iff hl).mp h .underlying 30 rfl
  norm_num at this

end Droid.Algo.Portfolio
