import Droid.Positions.Position
import Droid.Lib.Run

/-! The economics of a position over its life: the legs of its exits, and what it ends up with. -/
namespace Droid.Positions
open Lib Signals

/-- An exit as a transition books it; without a price it is not booked. -/
structure ExitLeg where
  price : Option ℚ
  quantity : Int
  cost : ℚ
  deriving DecidableEq, Repr

namespace Position

/-- The price of an exit: the fill, or the intrinsic value at expiry. -/
def legPrice (p : Position) (newState : PositionState) (fillPrice : Option ℚ) : Option ℚ :=
  if newState ∈ PositionState.atExpiry then some (p.intrinsic fillPrice) else fillPrice

/-- The leg of a transition that exits, with the quantity and the costs that it is booked with. -/
def exitLeg (p : Position) (newState : PositionState) (fillPrice : Option ℚ) : Option ExitLeg :=
  if newState ∈ PositionState.priced then
    some ⟨p.legPrice newState fillPrice, p.exitQuantity,
      (fillPrice.map fun px => roundTo 2 (statutoryForFill p.entryPrice (some px) p.exitQuantity)).getD 0⟩
  else if newState ∈ PositionState.atExpiry then
    some ⟨p.legPrice newState fillPrice, p.entryQuantity,
      roundTo 2 (computeExpiryAssignmentFriction { } (p.intrinsic fillPrice) 1
        (max 1 p.entryQuantity)).total⟩
  else none

structure Opened (p : Position) : Prop where
  state : p.positionState = .opened
  whole : p.remainingQuantity = p.entryQuantity

end Position

/-- A call of `transition_to`. -/
structure PositionCall where
  newState : PositionState
  reason : String := ""
  fillPrice : Option ℚ := none
  nowMs : Int := 0
  deriving DecidableEq, Repr

/-- A position with the legs of its exits so far. -/
structure PositionLife where
  position : Position
  legs : List ExitLeg := []
  deriving DecidableEq, Repr

namespace PositionLife

def step (s : PositionLife) (call : PositionCall) : PositionLife :=
  let (position, ok) := s.position.transitionTo call.newState call.reason call.fillPrice call.nowMs
  { position
    legs := if ok then s.legs ++ (s.position.exitLeg call.newState call.fillPrice).toList else s.legs }

/-- The books of a life: every leg has a price, the legs' quantities sum to the whole, the gross is
their sum and the net is less their costs. -/
structure Accounts (p : Position) (s : PositionLife) : Prop where
  priced : ∀ leg ∈ s.legs, leg.price.isSome = true
  quantities : (s.legs.map ExitLeg.quantity).sum = p.entryQuantity
  gross : s.position.grossPnlInr =
    (s.legs.map fun leg => p.sideMult * (leg.price.getD 0 - p.entryPrice) * leg.quantity).sum
  net : s.position.netPnlInr = s.position.grossPnlInr - (s.legs.map ExitLeg.cost).sum

structure Ends (s : PositionLife) (exit : PositionCall) : Prop where
  live : s.position.positionState ≠ .closed
  exits : exit.newState ≠ .closed
  closed : (s.step exit).position.positionState = .closed

/-- The exit is the only one, with a price, of a long position or at no gain if at expiry, and its
gross is a whole number of paise. -/
structure Bookable (p : Position) (exit : PositionCall) : Prop where
  single : p.positionState ≠ .t1PartialExit
  priced : exit.newState ∈ PositionState.priced → exit.fillPrice.isSome = true
  long : exit.newState ∈ PositionState.atExpiry →
    p.isBuy = true ∨ p.intrinsic exit.fillPrice = p.entryPrice
  paise : ∀ px, p.legPrice exit.newState exit.fillPrice = some px →
    IsDecimal 2 ((px - p.entryPrice) * p.entryQuantity)

/-- What a life can be before it ends: without a leg, or past T1 with one leg of the whole. -/
structure Live (p : Position) (s : PositionLife) : Prop where
  terms : s.position.terms = p.terms
  legs : s.position.positionState = .closed ∨
    (s.position.positionState ∈ [.opened, .partiallyFilled] ∧ s.legs = []) ∨
    (s.position.positionState = .t1PartialExit ∧ ∃ leg, s.legs = [leg] ∧ leg.quantity = p.entryQuantity)

/-- What a call does to a life: nothing, or an allowed move that books its leg. -/
theorem step_cases (s : PositionLife) (call : PositionCall) :
    s.step call = s ∨
      (call.newState ∈ allowedPositionTransitions s.position.positionState ∧
        s.position.validateQuantities = none ∧ s.step call =
          { position := (s.position.book call.newState call.reason call.fillPrice).advance
              call.newState call.reason call.fillPrice call.nowMs
            legs := s.legs ++ (s.position.exitLeg call.newState call.fillPrice).toList }) := by
  rw [step]
  rcases s.position.transitionTo_cases call.newState call.reason call.fillPrice call.nowMs with
    ⟨hsame, -⟩ | ⟨hallowed, hvalid, hmoved⟩
  · rw [hsame]
    exact .inl rfl
  · rw [hmoved]
    exact .inr ⟨hallowed, hvalid, rfl⟩

theorem step_closed {s : PositionLife} (h : s.position.positionState = .closed) (call : PositionCall) :
    s.step call = s := by
  rcases s.step_cases call with hsame | ⟨hallowed, -, -⟩
  · exact hsame
  · rw [h] at hallowed
    cases hallowed

theorem run_closed {s : PositionLife} (h : s.position.positionState = .closed)
    (calls : List PositionCall) : run step s calls = s := by
  induction calls with
  | nil => rfl
  | cons call calls ih => rw [run_cons, step_closed h, ih]

theorem exitQuantity_of_live {p : Position} {s : PositionLife} (hp : p.Opened) (h : Live p s) :
    s.position.exitQuantity = p.entryQuantity := by
  have hentry : s.position.entryQuantity = p.entryQuantity :=
    congrArg Position.Terms.entryQuantity h.terms
  have hremaining : s.position.remainingQuantity = p.entryQuantity :=
    (congrArg Position.Terms.remainingQuantity h.terms).trans hp.whole
  rw [Position.exitQuantity, hentry, hremaining, ite_self]

theorem start_live {p : Position} (hp : p.Opened) : Live p { position := p } where
  terms := rfl
  legs := by
    refine .inr (.inl ⟨?_, rfl⟩)
    rw [hp.state]
    decide

theorem step_live {p : Position} (hp : p.Opened) {s : PositionLife} (h : Live p s)
    (call : PositionCall) : Live p (s.step call) := by
  rcases s.step_cases call with hsame | ⟨hallowed, -, hstep⟩
  · rw [hsame]
    exact h
  · have hstate := Position.advance_state (s.position.book call.newState call.reason call.fillPrice)
      call.newState call.reason call.fillPrice call.nowMs
    rw [hstep]
    refine ⟨?_, ?_⟩
    · rw [Position.advance_terms, Position.book_terms]
      exact h.terms
    · rcases h.legs with hclosed | ⟨hopen, hlegs⟩ | ⟨ht1, -⟩
      · rw [hclosed] at hallowed
        cases hallowed
      · simp only [hstate, hlegs, List.nil_append]
        cases hnew : call.newState with
        | opened => exact .inr (.inl ⟨by decide, rfl⟩)
        | partiallyFilled => exact .inr (.inl ⟨by decide, rfl⟩)
        | t1PartialExit => exact .inr (.inr ⟨rfl, _, rfl, exitQuantity_of_live hp h⟩)
        | _ => exact .inl rfl
      · -- only terminal states follow T1
        rw [ht1] at hallowed
        refine .inl (hstate.trans (if_pos ?_))
        revert hallowed
        cases call.newState <;> decide

theorem run_live {p : Position} (hp : p.Opened) (calls : List PositionCall) :
    Live p (run step { position := p } calls) :=
  run_of_always (always_of_step (P := Live p) (fun _ call h => step_live hp h call) (start_live hp) calls)

theorem statutoryForFill_decimal (entryPx : ℚ) (exitPx : Option ℚ) (qty : Int) :
    IsDecimal 2 (statutoryForFill entryPx exitPx qty) := by
  rw [statutoryForFill]
  split
  · rw [IndianOptionCosts.calculateTotalCosts]
    split
    · exact isDecimal_zero 2
    · exact isDecimal_roundTo 2 _
  · exact isDecimal_roundTo 2 _

/-- With costs in whole paise, the books are exact exactly when the gross is in whole paise. -/
private theorem paise_iff {x cost : ℚ} (hcost : IsDecimal 2 cost) :
    (roundTo 2 x = x ∧ roundTo 2 (x - cost) = roundTo 2 x - cost) ↔ IsDecimal 2 x := by
  rw [roundTo_eq_iff]
  refine ⟨And.left, fun hx => ⟨hx, ?_⟩⟩
  rw [(hx.sub hcost).roundTo_eq, hx.roundTo_eq]

private theorem decimal_signed (p : Position) (x : ℚ) :
    IsDecimal 2 (x * p.sideMult) ↔ IsDecimal 2 x := by
  rw [Position.sideMult]
  split
  · rw [mul_one]
  · rw [mul_neg_one]
    refine ⟨fun h => ?_, IsDecimal.neg⟩
    rw [← neg_neg x]
    exact h.neg

/-- The life of one leg keeps its books exactly when the leg is priced and they are exact. -/
private theorem accounts_single {p q : Position} {leg : ExitLeg} (hquantity : leg.quantity = p.entryQuantity) :
    Accounts p { position := q, legs := [leg] } ↔ leg.price.isSome = true ∧
      q.grossPnlInr = (leg.price.getD 0 - p.entryPrice) * p.entryQuantity * p.sideMult ∧
        q.netPnlInr = q.grossPnlInr - leg.cost := by
  have hamount : p.sideMult * (leg.price.getD 0 - p.entryPrice) * leg.quantity =
      (leg.price.getD 0 - p.entryPrice) * p.entryQuantity * p.sideMult := by
    rw [hquantity]
    ring
  constructor
  · rintro ⟨hpriced, -, hgross, hnet⟩
    rw [List.map_singleton, List.sum_singleton] at hgross hnet
    exact ⟨hpriced leg List.mem_cons_self, hgross.trans hamount, hnet⟩
  · rintro ⟨hpriced, hgross, hnet⟩
    refine ⟨?_, ?_, ?_, ?_⟩
    · intro l hl
      rw [List.mem_singleton.mp hl]
      exact hpriced
    · rw [List.map_singleton, List.sum_singleton]
      exact hquantity
    · rw [List.map_singleton, List.sum_singleton]
      exact hgross.trans hamount.symm
    · rw [List.map_singleton, List.sum_singleton]
      exact hnet

theorem sideMult_of_terms {p q : Position} (h : q.terms = p.terms) : q.sideMult = p.sideMult := by
  have hside : q.side = p.side := congrArg Position.Terms.side h
  rw [Position.sideMult, Position.sideMult, Position.isBuy, Position.isBuy, hside]

private theorem accounts_priced {p : Position} (hp : p.Opened) {s : PositionLife} (h : Live p s)
    (hlegs : s.legs = []) {exit : PositionCall} (hnew : exit.newState ∈ PositionState.priced) :
    Accounts p { position := (s.position.book exit.newState exit.reason exit.fillPrice).advance
                   exit.newState exit.reason exit.fillPrice exit.nowMs
                 legs := s.legs ++ (s.position.exitLeg exit.newState exit.fillPrice).toList } ↔
      exit.fillPrice.isSome = true ∧ ∀ px, exit.fillPrice = some px →
        IsDecimal 2 ((px - p.entryPrice) * p.entryQuantity) := by
  have hquantity := exitQuantity_of_live hp h
  have hentry : s.position.entryPrice = p.entryPrice := congrArg Position.Terms.entryPrice h.terms
  have hside := sideMult_of_terms h.terms
  have hexpiry : exit.newState ∉ PositionState.atExpiry := by
    revert hnew
    cases exit.newState <;> decide
  obtain ⟨hgross, hnet, -⟩ := Position.advance_books
    (s.position.book exit.newState exit.reason exit.fillPrice) exit.newState exit.reason exit.fillPrice
    exit.nowMs
  rw [hlegs, List.nil_append, Position.exitLeg, if_pos hnew, Option.toList_some,
    accounts_single hquantity, hgross, hnet, Position.legPrice, if_neg hexpiry, Position.book.eq_def,
    if_pos hnew]
  cases exit.fillPrice with
  | none => exact iff_of_false (fun hc => Bool.false_ne_true hc.1) fun hc => Bool.false_ne_true hc.1
  | some px =>
    have hcost := statutoryForFill_decimal p.entryPrice (some px) p.entryQuantity
    simp only [hquantity, hentry, hside, Option.isSome_some, Option.getD_some, Option.map_some,
      true_and, hcost.roundTo_eq, Option.some.injEq, forall_eq']
    rw [paise_iff hcost, decimal_signed]

private theorem accounts_expiry {p : Position} (hquantity : p.entryQuantity ≠ 0) {s : PositionLife}
    (h : Live p s) (hlegs : s.legs = []) {exit : PositionCall}
    (hnew : exit.newState ∈ PositionState.atExpiry) :
    Accounts p { position := (s.position.book exit.newState exit.reason exit.fillPrice).advance
                   exit.newState exit.reason exit.fillPrice exit.nowMs
                 legs := s.legs ++ (s.position.exitLeg exit.newState exit.fillPrice).toList } ↔
      (p.isBuy = true ∨ s.position.intrinsic exit.fillPrice = p.entryPrice) ∧
        IsDecimal 2 ((s.position.intrinsic exit.fillPrice - p.entryPrice) * p.entryQuantity) := by
  have hentry : s.position.entryPrice = p.entryPrice := congrArg Position.Terms.entryPrice h.terms
  have hwhole : s.position.entryQuantity = p.entryQuantity :=
    congrArg Position.Terms.entryQuantity h.terms
  have hpriced : exit.newState ∉ PositionState.priced := by
    revert hnew
    cases exit.newState <;> decide
  obtain ⟨hgross, hnet, -⟩ := Position.advance_books
    (s.position.book exit.newState exit.reason exit.fillPrice) exit.newState exit.reason exit.fillPrice
    exit.nowMs
  rw [hlegs, List.nil_append, Position.exitLeg, if_neg hpriced, if_pos hnew, Option.toList_some,
    accounts_single hwhole, hgross, hnet, Position.legPrice, if_pos hnew, Position.book.eq_def,
    if_neg hpriced, if_pos hnew]
  simp only [hwhole, hentry, Option.isSome_some, Option.getD_some, true_and]
  generalize s.position.intrinsic exit.fillPrice = intr
  have hcost : IsDecimal 2 (computeExpiryAssignmentFriction { } intr 1 (max 1 p.entryQuantity)).total :=
    isDecimal_roundTo 2 _
  rw [hcost.roundTo_eq, Position.sideMult]
  cases hbuy : p.isBuy with
  | true =>
    rw [if_pos rfl, mul_one, paise_iff hcost]
    exact (and_iff_right (.inl rfl)).symm
  | false =>
    rw [if_neg Bool.false_ne_true, mul_neg_one]
    constructor
    · rintro ⟨hneg, -⟩
      -- a rounding that is the opposite of its number is of zero
      have hdecimal : IsDecimal 2 ((intr - p.entryPrice) * p.entryQuantity) := by
        have hround := isDecimal_roundTo 2 ((intr - p.entryPrice) * p.entryQuantity)
        rw [hneg] at hround
        rw [← neg_neg ((intr - p.entryPrice) * (p.entryQuantity : ℚ))]
        exact hround.neg
      rw [hdecimal.roundTo_eq, self_eq_neg] at hneg
      refine ⟨.inr ?_, hdecimal⟩
      have hzero := (mul_eq_zero.mp hneg).resolve_right (Int.cast_ne_zero.mpr hquantity)
      exact sub_eq_zero.mp hzero
    · rintro ⟨hlong | hflat, hdecimal⟩
      · cases hlong
      · have hexact := (paise_iff hcost).mpr hdecimal
        refine ⟨?_, hexact.2⟩
        rw [hexact.1, hflat, sub_self, zero_mul, neg_zero]

theorem entry_positive {p : Position} (h : p.validateQuantities = none) : 0 < p.entryQuantity := by
  rw [Position.validateQuantities] at h
  cases hlot : validateLotQuantity p.entryQuantity p.lotSize with
  | some err =>
    rw [hlot] at h
    cases h
  | none =>
    by_contra hle
    rw [validateLotQuantity, if_pos (not_lt.mp hle)] at hlot
    cases hlot

theorem accounts_exit_iff {p : Position} (hp : p.Opened) {s : PositionLife} (h : Live p s)
    {exit : PositionCall} (hends : s.Ends exit) :
    Accounts p (s.step exit) ↔ Bookable s.position exit := by
  obtain ⟨hlive, hnot, hclosed⟩ := hends
  rcases s.step_cases exit with hsame | ⟨hallowed, hvalid, hstep⟩
  · rw [hsame] at hclosed
    exact absurd hclosed hlive
  · rw [Position.validateQuantities_of_terms h.terms] at hvalid
    have hpositive := entry_positive hvalid
    have hside : s.position.isBuy = p.isBuy := by
      have hsame : s.position.side = p.side := congrArg Position.Terms.side h.terms
      rw [Position.isBuy, Position.isBuy, hsame]
    have hentry : s.position.entryPrice = p.entryPrice := congrArg Position.Terms.entryPrice h.terms
    have hwhole : s.position.entryQuantity = p.entryQuantity :=
      congrArg Position.Terms.entryQuantity h.terms
    have hterminal : exit.newState ∈ PositionState.terminal := by
      by_contra hopen
      rw [hstep, Position.advance_state, if_neg hopen] at hclosed
      exact hnot hclosed
    rw [hstep]
    rcases h.legs with hover | ⟨hopen, hlegs⟩ | ⟨ht1, leg, hlegs, hquantity⟩
    · exact absurd hover hlive
    · have hsingle : s.position.positionState ≠ .t1PartialExit := by
        intro ht1
        rw [ht1] at hopen
        revert hopen
        decide
      by_cases hexpiry : exit.newState ∈ PositionState.atExpiry
      · have hpriced : exit.newState ∉ PositionState.priced := by
          revert hexpiry
          cases exit.newState <;> decide
        rw [accounts_expiry hpositive.ne' h hlegs hexpiry]
        constructor
        · rintro ⟨hlong, hpaise⟩
          refine ⟨hsingle, fun hc => absurd hc hpriced, fun _ => ?_, fun px hpx => ?_⟩
          · rw [hside, hentry]
            exact hlong
          · rw [Position.legPrice, if_pos hexpiry, Option.some.injEq] at hpx
            rw [← hpx, hentry, hwhole]
            exact hpaise
        · rintro ⟨-, -, hlong, hpaise⟩
          have hlong := hlong hexpiry
          have hpaise := hpaise _ (if_pos hexpiry)
          rw [hside, hentry] at hlong
          rw [hentry, hwhole] at hpaise
          exact ⟨hlong, hpaise⟩
      · have hpriced : exit.newState ∈ PositionState.priced := by
          revert hexpiry hterminal hnot
          cases exit.newState <;> decide
        rw [accounts_priced hp h hlegs hpriced]
        constructor
        · rintro ⟨hsome, hpaise⟩
          refine ⟨hsingle, fun _ => hsome, fun hc => absurd hc hexpiry, fun px hpx => ?_⟩
          rw [Position.legPrice, if_neg hexpiry] at hpx
          rw [hentry, hwhole]
          exact hpaise px hpx
        · rintro ⟨-, hsome, -, hpaise⟩
          refine ⟨hsome hpriced, fun px hpx => ?_⟩
          have hpaise := hpaise px ((if_neg hexpiry).trans hpx)
          rw [hentry, hwhole] at hpaise
          exact hpaise
    · -- after T1 the whole is booked twice
      refine iff_of_false (fun haccounts => ?_) fun hbookable => hbookable.single ht1
      have hsum := haccounts.quantities
      simp only [hlegs, List.map_append, List.sum_append, List.map_singleton, List.sum_singleton,
        hquantity] at hsum
      have hlast : ((s.position.exitLeg exit.newState exit.fillPrice).toList.map ExitLeg.quantity).sum =
          p.entryQuantity := by
        rw [Position.exitLeg]
        split
        · rw [Option.toList_some, List.map_singleton, List.sum_singleton]
          exact exitQuantity_of_live hp h
        · split
          · rw [Option.toList_some, List.map_singleton, List.sum_singleton]
            exact hwhole
          · rename_i hpriced hexpiry
            exfalso
            revert hpriced hexpiry hterminal hnot
            cases exit.newState <;> decide
      omega

/-- A life that an exit ends has exact books, whatever was called before and is called after, exactly
when the exit is bookable. -/
theorem accounts_iff {p : Position} (hp : p.Opened) (before : List PositionCall) (exit : PositionCall)
    (after : List PositionCall) (hends : (run step { position := p } before).Ends exit) :
    Accounts p (run step { position := p } (before ++ exit :: after)) ↔
      Bookable (run step { position := p } before).position exit := by
  rw [run_append, run_cons, run_closed hends.closed]
  exact accounts_exit_iff hp (run_live hp before) hends

def twoLots (side : String) : Position where
  positionId := "p"
  underlying := "NIFTY"
  instrumentSymbol := "NIFTY24800CE"
  side
  strike := some 24800
  optionType := some "CE"
  entryPrice := 120
  entryQuantity := 150
  remainingQuantity := 150

theorem stopped_exact :
    Accounts (twoLots "BUY") (run step { position := twoLots "BUY" }
      ([{ newState := .partiallyFilled, fillPrice := some 120 }] ++
        { newState := .stopLoss, fillPrice := some 95 } :: [{ newState := .closed }])) := by
  refine (accounts_iff ⟨rfl, rfl⟩ _ _ _ ⟨by decide +kernel, by decide, by decide +kernel⟩).mpr ?_
  refine ⟨by decide +kernel, fun _ => rfl, fun hexpiry => ?_, fun px hpx => ?_⟩
  · revert hexpiry
    decide
  · cases hpx
    exact ⟨-375000, by decide +kernel⟩

/-- A T1 leg is booked for the whole quantity and then overwritten, and a short position that expires
worthless ends with a loss. -/
theorem staged_inexact :
    ¬ Accounts (twoLots "BUY") (run step { position := twoLots "BUY" }
        [{ newState := .t1PartialExit, fillPrice := some 150 },
          { newState := .t2Exit, fillPrice := some 180 }]) ∧
      ¬ Accounts (twoLots "SELL") (run step { position := twoLots "SELL" }
        [{ newState := .expired, fillPrice := some 24700 }]) := by
  constructor
  · intro h
    have hquantities := h.quantities
    revert hquantities
    decide +kernel
  · intro h
    have hgross := h.gross
    revert hgross
    decide +kernel

end PositionLife

end Droid.Positions
