import Droid.Signals.TransactionCosts

/-! A position: its states, the checks of its quantities, and what each transition books. -/
namespace Droid.Positions
open Lib Signals

inductive PositionState where
  | opened | partiallyFilled | t1PartialExit | t2Exit | stopLoss | timeStop | assigned | expired | closed
  deriving DecidableEq, Repr

namespace PositionState

def value : PositionState → String
  | .opened => "OPEN"
  | .partiallyFilled => "PARTIALLY_FILLED"
  | .t1PartialExit => "T1_PARTIAL_EXIT"
  | .t2Exit => "T2_EXIT"
  | .stopLoss => "STOP_LOSS"
  | .timeStop => "TIME_STOP"
  | .assigned => "ASSIGNED"
  | .expired => "EXPIRED"
  | .closed => "CLOSED"

def terminal : List PositionState := [.t2Exit, .stopLoss, .timeStop, .assigned, .expired, .closed]

/-- The exits at a price of the option. -/
def priced : List PositionState := [.t1PartialExit, .t2Exit, .stopLoss, .timeStop]

/-- The exits at the intrinsic value. -/
def atExpiry : List PositionState := [.assigned, .expired]

end PositionState

def allowedPositionTransitions : PositionState → List PositionState
  | .opened => [.partiallyFilled, .t1PartialExit, .t2Exit, .stopLoss, .timeStop, .assigned, .expired, .closed]
  | .partiallyFilled => [.opened, .t1PartialExit, .t2Exit, .stopLoss, .timeStop, .assigned, .expired, .closed]
  | .t1PartialExit => [.t2Exit, .stopLoss, .timeStop, .assigned, .expired, .closed]
  | .t2Exit | .stopLoss | .timeStop | .assigned | .expired => [.closed]
  | .closed => []

/-! ### Costs -/

structure IndianOptionCosts where
  brokeragePerOrder : ℚ := 20
  sttRateSell : ℚ := 1 / 1000
  exchangeTurnoverRate : ℚ := 5 / 10000
  gstRate : ℚ := 18 / 100
  sebiChargeRate : ℚ := 1 / 1000000
  stampDutyRateBuy : ℚ := 3 / 100000
  defaultSpreadPts : ℚ := 1
  defaultSlippagePts : ℚ := 1 / 2

/-- The entries of the cost breakdown that callers read; an absent one reads as zero. -/
structure CostTotals where
  statutoryTaxes : ℚ := 0
  marketFrictionRupees : ℚ := 0
  totalFriction : ℚ := 0
  deriving DecidableEq, Repr

/-- `calculate_total_costs` at the default spread and slippage. -/
def IndianOptionCosts.calculateTotalCosts (c : IndianOptionCosts) (entryPremium exitPremium : ℚ)
    (quantity : Int) : CostTotals :=
  if quantity ≤ 0 ∨ entryPremium ≤ 0 then { }
  else
    let buyTurnover := entryPremium * quantity
    let sellTurnover := max 0 exitPremium * quantity
    let totalTurnover := buyTurnover + sellTurnover
    let brokerage := c.brokeragePerOrder * 2
    let stt := sellTurnover * c.sttRateSell
    let exchangeCharges := totalTurnover * c.exchangeTurnoverRate
    let gst := (brokerage + exchangeCharges) * c.gstRate
    let sebi := totalTurnover * c.sebiChargeRate
    let stampDuty := buyTurnover * c.stampDutyRateBuy
    let statutoryTaxes := roundTo 2 (brokerage + stt + exchangeCharges + gst + sebi + stampDuty)
    let marketFrictionRupees := roundTo 2 ((c.defaultSpreadPts + c.defaultSlippagePts * 2) * quantity)
    { statutoryTaxes, marketFrictionRupees
      totalFriction := roundTo 2 (statutoryTaxes + marketFrictionRupees) }

/-- The total of `_statutory_for_fill`; without a positive exit price, half of the taxes. -/
def statutoryForFill (entryPx : ℚ) (exitPx : Option ℚ) (qty : Int) : ℚ :=
  let costs : IndianOptionCosts := { }
  match exitPx.filter (0 < ·) with
  | some px => (costs.calculateTotalCosts entryPx px (max 1 qty)).totalFriction
  | none => roundTo 2 ((costs.calculateTotalCosts entryPx entryPx (max 1 qty)).statutoryTaxes / 2)

/-! ### Positions -/

/-- What a history entry shows of the books; the entry that finalizes a position shows none. -/
structure BookedFigures where
  fillPrice : Option ℚ
  grossPnlInr : ℚ
  statutoryCostsInr : ℚ
  netPnlInr : ℚ
  deriving DecidableEq, Repr

structure PositionHistoryEntry where
  fromState : PositionState
  toState : PositionState
  reason : String
  booked : Option BookedFigures := none
  timestampUtc : Int
  deriving DecidableEq, Repr

/-- The fields of a position that its transitions and the registry use. -/
structure Position where
  positionId : String
  underlying : String
  instrumentSymbol : String
  side : String := "BUY"
  lotSize : Int := 75
  brokerSymbol : String := ""
  strike : Option ℚ := none
  expiry : Option String := none
  optionType : Option String := none
  entryPrice : ℚ
  entryQuantity : Int
  remainingQuantity : Int
  t1FillPrice : Option ℚ := none
  exitPrice : Option ℚ := none
  exitReason : Option String := none
  grossPnlInr : ℚ := 0
  statutoryCostsInr : ℚ := 0
  netPnlInr : ℚ := 0
  positionState : PositionState := .opened
  closedAtUtc : Option Int := none
  history : List PositionHistoryEntry := []
  deriving DecidableEq, Repr

def validateLotQuantity (qty lotSize : Int) : Option String :=
  if qty ≤ 0 then some "QTY_NON_POSITIVE"
  else if 0 < lotSize ∧ qty % lotSize ≠ 0 then some s!"QTY_NOT_LOT_STEP_{qty}_vs_{lotSize}"
  else none

namespace Position

def isBuy (p : Position) : Bool := "BUY".toList <+: p.side.toUpper.toList

def sideMult (p : Position) : ℚ := if p.isBuy then 1 else -1

/-- `validate_quantities`: the remaining quantity need not be in lots. -/
def validateQuantities (p : Position) : Option String :=
  match validateLotQuantity p.entryQuantity p.lotSize with
  | some err => some s!"entry:{err}"
  | none =>
    if p.remainingQuantity < 0 then some "remaining:QTY_NEGATIVE"
    else if p.entryQuantity < p.remainingQuantity then some "remaining:EXCEEDS_ENTRY"
    else none

/-- The intrinsic value for a spot at expiry; every type but PE counts as a call. -/
def intrinsic (p : Position) (fillPrice : Option ℚ) : ℚ :=
  let sp := p.strike.getD 0
  let ep := fillPrice.getD p.entryPrice
  if 0 < sp then
    if (p.optionType.getD "").toUpper = "PE" then max 0 (sp - ep) else max 0 (ep - sp)
  else 0

/-- The quantity of an exit at a price; nothing left counts as all of it. -/
def exitQuantity (p : Position) : Int :=
  if p.remainingQuantity ≠ 0 then p.remainingQuantity else p.entryQuantity

/-- The economics inside `transition_to`: every booking replaces the figures before it. -/
def book (p : Position) (newState : PositionState) (reason : String) (fillPrice : Option ℚ) : Position :=
  let exitReason := some (if reason = "" then newState.value else reason)
  if newState ∈ PositionState.priced then
    match fillPrice with
    | none => p
    | some exitPx =>
      let totalF := statutoryForFill p.entryPrice (some exitPx) p.exitQuantity
      let gross := (exitPx - p.entryPrice) * p.exitQuantity * p.sideMult
      { p with
        grossPnlInr := roundTo 2 gross, statutoryCostsInr := roundTo 2 totalF
        netPnlInr := roundTo 2 (gross - totalF), exitPrice := some exitPx, exitReason
        t1FillPrice := if newState = .t1PartialExit then some exitPx else p.t1FillPrice }
  else if newState ∈ PositionState.atExpiry then
    let intr := p.intrinsic fillPrice
    let totalAssign := (computeExpiryAssignmentFriction { } intr 1 (max 1 p.entryQuantity)).total
    let gross := (intr - p.entryPrice) * p.entryQuantity
    { p with
      grossPnlInr := roundTo 2 gross, statutoryCostsInr := roundTo 2 totalAssign
      netPnlInr := roundTo 2 (gross - totalAssign), exitPrice := some (roundTo 2 intr), exitReason }
  else p

/-- The new state with its history entry; a terminal exit goes on to CLOSED. -/
def advance (p : Position) (newState : PositionState) (reason : String) (fillPrice : Option ℚ)
    (nowMs : Int) : Position :=
  let moved := { p with
    positionState := newState
    history := p.history ++
      [{ fromState := p.positionState, toState := newState, reason, timestampUtc := nowMs
         booked := some
           ⟨fillPrice.filter (· ≠ 0), p.grossPnlInr, p.statutoryCostsInr, p.netPnlInr⟩ }] }
  if newState ∈ PositionState.terminal then
    let moved := { moved with closedAtUtc := some nowMs }
    if newState ≠ .closed then
      { moved with
        positionState := .closed
        history := moved.history ++ [{ fromState := newState, toState := .closed
                                       reason := "TERMINAL_STATE_FINALIZED", timestampUtc := nowMs }] }
    else moved
  else moved

def transitionTo (p : Position) (newState : PositionState) (reason : String) (fillPrice : Option ℚ)
    (nowMs : Int) : Position × Bool :=
  if newState ∉ allowedPositionTransitions p.positionState then (p, false)
  else if newState = .partiallyFilled ∧ fillPrice = none then (p, false)
  else if p.validateQuantities ≠ none then (p, false)
  else ((p.book newState reason fillPrice).advance newState reason fillPrice nowMs, true)

structure Terms where
  positionId : String
  side : String
  lotSize : Int
  strike : Option ℚ
  optionType : Option String
  entryPrice : ℚ
  entryQuantity : Int
  remainingQuantity : Int
  deriving DecidableEq, Repr

def terms (p : Position) : Terms :=
  ⟨p.positionId, p.side, p.lotSize, p.strike, p.optionType, p.entryPrice, p.entryQuantity,
    p.remainingQuantity⟩

theorem book_terms (p : Position) (newState : PositionState) (reason : String) (fillPrice : Option ℚ) :
    (p.book newState reason fillPrice).terms = p.terms := by
  rw [book.eq_def]
  simp only
  split
  · cases fillPrice with
    | none => rfl
    | some exitPx => rfl
  · split <;> rfl

theorem advance_terms (p : Position) (newState : PositionState) (reason : String)
    (fillPrice : Option ℚ) (nowMs : Int) :
    (p.advance newState reason fillPrice nowMs).terms = p.terms := by
  rw [advance]
  simp only
  split
  · split <;> rfl
  · rfl

theorem advance_state (p : Position) (newState : PositionState) (reason : String)
    (fillPrice : Option ℚ) (nowMs : Int) :
    (p.advance newState reason fillPrice nowMs).positionState =
      if newState ∈ PositionState.terminal then .closed else newState := by
  rw [advance]
  simp only
  split
  · by_cases hclosed : newState = .closed
    · rw [if_neg (not_not.mpr hclosed), hclosed]
    · rw [if_pos hclosed]
  · rfl

theorem advance_books (p : Position) (newState : PositionState) (reason : String)
    (fillPrice : Option ℚ) (nowMs : Int) :
    (p.advance newState reason fillPrice nowMs).grossPnlInr = p.grossPnlInr ∧
      (p.advance newState reason fillPrice nowMs).netPnlInr = p.netPnlInr ∧
      (p.advance newState reason fillPrice nowMs).t1FillPrice = p.t1FillPrice := by
  rw [advance]
  simp only
  split
  · split <;> exact ⟨rfl, rfl, rfl⟩
  · exact ⟨rfl, rfl, rfl⟩

/-- What a transition can do: nothing, with the reason it is refused, or an allowed move of a
position with valid quantities. -/
theorem transitionTo_cases (p : Position) (newState : PositionState) (reason : String)
    (fillPrice : Option ℚ) (nowMs : Int) :
    (p.transitionTo newState reason fillPrice nowMs = (p, false) ∧
        (newState ∉ allowedPositionTransitions p.positionState ∨
          (newState = .partiallyFilled ∧ fillPrice = none) ∨ p.validateQuantities ≠ none)) ∨
      (newState ∈ allowedPositionTransitions p.positionState ∧ p.validateQuantities = none ∧
        p.transitionTo newState reason fillPrice nowMs =
          ((p.book newState reason fillPrice).advance newState reason fillPrice nowMs, true)) := by
  rw [transitionTo]
  by_cases hallowed : newState ∈ allowedPositionTransitions p.positionState
  · rw [if_neg (not_not.mpr hallowed)]
    by_cases hpriceless : newState = .partiallyFilled ∧ fillPrice = none
    · rw [if_pos hpriceless]
      exact .inl ⟨rfl, .inr (.inl hpriceless)⟩
    · rw [if_neg hpriceless]
      by_cases hvalid : p.validateQuantities = none
      · rw [if_neg (not_not.mpr hvalid)]
        exact .inr ⟨hallowed, hvalid, rfl⟩
      · rw [if_pos hvalid]
        exact .inl ⟨rfl, .inr (.inr hvalid)⟩
  · rw [if_pos hallowed]
    exact .inl ⟨rfl, .inl hallowed⟩

theorem validateQuantities_of_terms {p q : Position} (h : p.terms = q.terms) :
    p.validateQuantities = q.validateQuantities := by
  have hentry : p.entryQuantity = q.entryQuantity := congrArg Terms.entryQuantity h
  have hremaining : p.remainingQuantity = q.remainingQuantity := congrArg Terms.remainingQuantity h
  have hlot : p.lotSize = q.lotSize := congrArg Terms.lotSize h
  rw [validateQuantities, validateQuantities, hentry, hremaining, hlot]

end Position

end Droid.Positions
