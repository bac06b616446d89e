import Droid.Positions.Position
import Droid.Lib.Dict
import Droid.Lib.Run

/-! The position registry and its mirror in the portfolio Greeks ledger. -/
namespace Droid.Positions
open Lib

structure PortfolioGreekPosition where
  positionId : String
  underlying : String
  horizon : String
  optionType : String
  strike : ℚ
  expiryDate : String
  quantity : Int
  unitDelta : ℚ
  unitGamma : ℚ
  unitThetaDay : ℚ
  unitVega : ℚ
  deriving DecidableEq, Repr

namespace Position

/-- The option type under which a position is mirrored: its own, else the one its symbol names. -/
def mirrorOptionType (p : Position) : String :=
  match p.optionType.filter (· ≠ "") with
  | some otype => otype
  | none =>
    let symbol := p.instrumentSymbol.toUpper.toList
    if "CE".toList <:+: symbol then "CE" else if "PE".toList <:+: symbol then "PE" else "CE"

/-- The contract linkage defaults to the instrument symbol. -/
def linked (p : Position) : Position :=
  { p with brokerSymbol := if p.brokerSymbol = "" then p.instrumentSymbol else p.brokerSymbol }

/-- The ledger entry of a position; the model of the ledger takes calls and puts only. -/
def mirror (p : Position) : Option PortfolioGreekPosition :=
  if p.mirrorOptionType ∈ ["CE", "PE"] then
    some {
      positionId := p.positionId
      underlying := p.underlying.toUpper
      horizon := "INTRADAY"
      optionType := p.mirrorOptionType
      strike := p.strike.getD 0
      expiryDate := p.expiry.getD ""
      quantity := p.entryQuantity
      unitDelta := 1 / 2 * p.sideMult
      unitGamma := 5 / 10000
      unitThetaDay := -10
      unitVega := 10 }
  else none

end Position

/-- The registry's positions, and the entries of the portfolio Greeks ledger. -/
structure PositionRegistry where
  positions : Dict String Position := Dict.empty
  ledger : Dict String PortfolioGreekPosition := Dict.empty

namespace PositionRegistry

def addPosition (r : PositionRegistry) (entry : PortfolioGreekPosition) : PositionRegistry :=
  { r with ledger := r.ledger.insert entry.positionId entry }

def removePosition (r : PositionRegistry) (id : String) : PositionRegistry :=
  { r with ledger := r.ledger.erase id }

/-- `register`; a position with bad quantities raises, and nothing changes. -/
def register (r : PositionRegistry) (position : Position) : PositionRegistry :=
  if position.validateQuantities ≠ none then r
  else
    let r := { r with positions := r.positions.insert position.positionId position.linked }
    match position.linked.mirror with
    | some entry => r.addPosition entry
    | none => r

/-- `transition_to` of a registered position; a terminal one leaves the ledger. -/
def transition (r : PositionRegistry) (id : String) (newState : PositionState) (reason : String)
    (fillPrice : Option ℚ) (nowMs : Int) : PositionRegistry × Bool :=
  match r.positions.get? id with
  | none => (r, false)
  | some position =>
    let (moved, ok) := position.transitionTo newState reason fillPrice nowMs
    let r := { r with positions := r.positions.insert id moved }
    if ok ∧ newState ∈ PositionState.terminal then (r.removePosition position.positionId, ok) else (r, ok)

def closePosition (r : PositionRegistry) (id reason : String) (nowMs : Int) : PositionRegistry × Bool :=
  if r.positions.contains id then
    let (r, ok) := r.transition id .closed reason none nowMs
    (r.removePosition id, ok)
  else (r, false)

end PositionRegistry

/-! ### Runs -/

/-- A call on the registry or on a registered position; what is registered has an option type that
the ledger takes. -/
inductive RegistryCall where
  | register (position : Position) (tradable : position.mirrorOptionType ∈ ["CE", "PE"])
  | transition (id : String) (newState : PositionState) (reason : String) (fillPrice : Option ℚ)
      (nowMs : Int)
  | closePosition (id reason : String) (nowMs : Int)

namespace PositionRegistry

def step (r : PositionRegistry) : RegistryCall → PositionRegistry
  | .register position _ => r.register position
  | .transition id newState reason fillPrice nowMs => (r.transition id newState reason fillPrice nowMs).1
  | .closePosition id reason nowMs => (r.closePosition id reason nowMs).1

/-- The ledger holds exactly the positions that are not closed, each with its remaining quantity. -/
structure InStep (r : PositionRegistry) : Prop where
  ids : ∀ id, r.ledger.contains id = true ↔
    ∃ p, r.positions.get? id = some p ∧ p.positionState ≠ .closed
  quantities : ∀ id entry p, r.ledger.get? id = some entry → r.positions.get? id = some p →
    entry.quantity = p.remainingQuantity

/-- What is newly registered is open, with nothing exited so far. -/
def Whole : RegistryCall → Prop
  | .register position _ => position.validateQuantities = none →
      position.positionState ≠ .closed ∧ position.remainingQuantity = position.entryQuantity
  | _ => True

/-- Positions are kept under their own ids, and with valid quantities. -/
def Coherent (r : PositionRegistry) : Prop :=
  ∀ id p, r.positions.get? id = some p → p.positionId = id ∧ p.validateQuantities = none

def target : RegistryCall → String
  | .register position _ => position.positionId
  | .transition id .. => id
  | .closePosition id .. => id

/-- The two stores agree on one id. -/
def Agree (position : Option Position) (entry : Option PortfolioGreekPosition) : Prop :=
  (entry.isSome = true ↔ ∃ p, position = some p ∧ p.positionState ≠ .closed) ∧
    ∀ e p, entry = some e → position = some p → e.quantity = p.remainingQuantity

theorem inStep_iff (r : PositionRegistry) :
    r.InStep ↔ ∀ id, Agree (r.positions.get? id) (r.ledger.get? id) :=
  ⟨fun h id => ⟨h.ids id, h.quantities id⟩, fun h => ⟨fun id => (h id).1, fun id => (h id).2⟩⟩

theorem register_eq {r : PositionRegistry} {p : Position} (hvalid : p.validateQuantities = none)
    (htradable : p.mirrorOptionType ∈ ["CE", "PE"]) :
    ∃ entry, entry.quantity = p.entryQuantity ∧ r.register p =
      { positions := r.positions.insert p.positionId p.linked
        ledger := r.ledger.insert p.positionId entry } := by
  have htradable' : p.linked.mirrorOptionType ∈ ["CE", "PE"] := htradable
  rw [register, if_neg (not_not.mpr hvalid), Position.mirror, if_pos htradable']
  exact ⟨_, rfl, rfl⟩

/-- A transition of a registered position: refused, or made, with the entry gone once it is terminal. -/
theorem transition_cases {r : PositionRegistry} (h : r.Coherent) (id : String) (newState : PositionState)
    (reason : String) (fillPrice : Option ℚ) (nowMs : Int) {p : Position}
    (hp : r.positions.get? id = some p) :
    ((newState ∉ allowedPositionTransitions p.positionState ∨ newState = .partiallyFilled) ∧
        r.transition id newState reason fillPrice nowMs =
          ({ r with positions := r.positions.insert id p }, false)) ∨
      ∃ moved ok, moved.terms = p.terms ∧ p.positionState ≠ .closed ∧
        moved.positionState = (if newState ∈ PositionState.terminal then .closed else newState) ∧
        r.transition id newState reason fillPrice nowMs =
          ({ positions := r.positions.insert id moved
             ledger := if newState ∈ PositionState.terminal then r.ledger.erase id else r.ledger }, ok) := by
  rw [transition, hp]
  simp only
  rcases p.transitionTo_cases newState reason fillPrice nowMs with ⟨hsame, hwhy⟩ | ⟨hallowed, -, hmoved⟩
  · rw [hsame]
    refine .inl ⟨?_, rfl⟩
    rcases hwhy with hdisallowed | ⟨hpriceless, -⟩ | hinvalid
    · exact .inl hdisallowed
    · exact .inr hpriceless
    · exact absurd (h id p hp).2 hinvalid
  · refine .inr ⟨(p.book newState reason fillPrice).advance newState reason fillPrice nowMs, true, ?_, ?_,
      Position.advance_state _ _ _ _ _, ?_⟩
    · rw [Position.advance_terms, Position.book_terms]
    · intro hclosed
      rw [hclosed] at hallowed
      cases hallowed
    · rw [hmoved, (h id p hp).1]
      by_cases hterminal : newState ∈ PositionState.terminal
      · rw [if_pos ⟨rfl, hterminal⟩, if_pos hterminal]
        rfl
      · rw [if_neg fun hc => hterminal hc.2, if_neg hterminal]

theorem closePosition_cases (r : PositionRegistry) (id reason : String) (nowMs : Int) :
    (r.positions.get? id = none ∧ (r.closePosition id reason nowMs).1 = r) ∨
      ∃ p, r.positions.get? id = some p ∧ (r.closePosition id reason nowMs).1 =
        (r.transition id .closed reason none nowMs).1.removePosition id := by
  rw [closePosition, Dict.contains]
  cases hp : r.positions.get? id with
  | none => exact .inl ⟨rfl, rfl⟩
  | some p => exact .inr ⟨p, rfl, rfl⟩

theorem step_coherent {r : PositionRegistry} (h : r.Coherent) (call : RegistryCall) :
    (r.step call).Coherent := by
  have hinsert : ∀ id p, p.positionId = id ∧ p.validateQuantities = none → ∀ x q,
      (r.positions.insert id p).get? x = some q → q.positionId = x ∧ q.validateQuantities = none := by
    intro id p hp x q hq
    rw [Dict.get?_insert] at hq
    by_cases hx : x = id
    · rw [if_pos hx, Option.some.injEq] at hq
      rw [hx, ← hq]
      exact hp
    · rw [if_neg hx] at hq
      exact h x q hq
  have htransition : ∀ id newState reason fillPrice nowMs,
      (r.transition id newState reason fillPrice nowMs).1.Coherent := by
    intro id newState reason fillPrice nowMs
    cases hp : r.positions.get? id with
    | none =>
      rw [transition, hp]
      exact h
    | some p =>
      rcases transition_cases h id newState reason fillPrice nowMs hp with
        ⟨-, hsame⟩ | ⟨moved, ok, hterms, -, -, hmoved⟩
      · rw [hsame]
        exact hinsert id p (h id p hp)
      · rw [hmoved]
        refine hinsert id moved ⟨?_, ?_⟩
        · have hid : moved.positionId = p.positionId := congrArg Position.Terms.positionId hterms
          exact hid.trans (h id p hp).1
        · exact (Position.validateQuantities_of_terms hterms).trans (h id p hp).2
  cases call with
  | register p tradable =>
    by_cases hvalid : p.validateQuantities = none
    · obtain ⟨entry, -, heq⟩ := register_eq (r := r) hvalid tradable
      rw [step, heq]
      exact hinsert p.positionId p.linked ⟨rfl, hvalid⟩
    · rw [step, register, if_pos hvalid]
      exact h
  | transition id newState reason fillPrice nowMs => exact htransition id newState reason fillPrice nowMs
  | closePosition id reason nowMs =>
    rw [step]
    rcases r.closePosition_cases id reason nowMs with ⟨-, heq⟩ | ⟨p, -, heq⟩
    · rw [heq]
      exact h
    · rw [heq]
      exact htransition id .closed reason none nowMs

theorem step_other {r : PositionRegistry} (h : r.Coherent) (call : RegistryCall) {x : String}
    (hx : x ≠ target call) : (r.step call).positions.get? x = r.positions.get? x ∧
      (r.step call).ledger.get? x = r.ledger.get? x := by
  have htransition : ∀ id newState reason fillPrice nowMs, x ≠ id →
      (r.transition id newState reason fillPrice nowMs).1.positions.get? x = r.positions.get? x ∧
        (r.transition id newState reason fillPrice nowMs).1.ledger.get? x = r.ledger.get? x := by
    intro id newState reason fillPrice nowMs hx
    cases hp : r.positions.get? id with
    | none =>
      rw [transition, hp]
      exact ⟨rfl, rfl⟩
    | some p =>
      rcases transition_cases h id newState reason fillPrice nowMs hp with
        ⟨-, hsame⟩ | ⟨moved, ok, -, -, -, hmoved⟩
      · rw [hsame, Dict.get?_insert, if_neg hx]
        exact ⟨rfl, rfl⟩
      · rw [hmoved, Dict.get?_insert, if_neg hx]
        refine ⟨rfl, ?_⟩
        simp only
        split
        · rw [Dict.get?_erase, if_neg hx]
        · rfl
  cases call with
  | register p tradable =>
    by_cases hvalid : p.validateQuantities = none
    · obtain ⟨entry, -, heq⟩ := register_eq (r := r) hvalid tradable
      have hid : x ≠ p.positionId := hx
      rw [step, heq, Dict.get?_insert, Dict.get?_insert, if_neg hid, if_neg hid]
      exact ⟨rfl, rfl⟩
    · rw [step, register, if_pos hvalid]
      exact ⟨rfl, rfl⟩
  | transition id newState reason fillPrice nowMs => exact htransition id newState reason fillPrice nowMs hx
  | closePosition id reason nowMs =>
    rw [step]
    rcases r.closePosition_cases id reason nowMs with ⟨-, heq⟩ | ⟨p, -, heq⟩
    · rw [heq]
      exact ⟨rfl, rfl⟩
    · obtain ⟨hpositions, hledger⟩ := htransition id .closed reason none nowMs hx
      have hid : x ≠ id := hx
      rw [heq, removePosition, Dict.get?_erase, if_neg hid]
      exact ⟨hpositions, hledger⟩

private theorem agree_none : Agree none none := by
  refine ⟨iff_of_false Bool.false_ne_true ?_, fun _ _ he _ => (by cases he)⟩
  rintro ⟨p, hp, -⟩
  cases hp

private theorem agree_closed {p : Position} (h : p.positionState = .closed) : Agree (some p) none := by
  refine ⟨iff_of_false Bool.false_ne_true ?_, fun _ _ he _ => (by cases he)⟩
  rintro ⟨q, hq, hopen⟩
  cases hq
  exact hopen h

/-- Entries agree with a position as long as it stays open, with the same terms. -/
private theorem agree_moved {p q : Position} {entry : Option PortfolioGreekPosition}
    (h : Agree (some p) entry) (hterms : q.terms = p.terms) (hp : p.positionState ≠ .closed)
    (hq : q.positionState ≠ .closed) : Agree (some q) entry := by
  have hremaining : q.remainingQuantity = p.remainingQuantity :=
    congrArg Position.Terms.remainingQuantity hterms
  refine ⟨iff_of_true (h.1.mpr ⟨p, rfl, hp⟩) ⟨q, rfl, hq⟩, ?_⟩
  rintro e _ he ⟨⟩
  exact (h.2 e p he rfl).trans hremaining.symm

theorem transition_agree {r : PositionRegistry} (h : r.Coherent) (id : String) (newState : PositionState)
    (reason : String) (fillPrice : Option ℚ) (nowMs : Int)
    (hagree : Agree (r.positions.get? id) (r.ledger.get? id)) :
    Agree ((r.transition id newState reason fillPrice nowMs).1.positions.get? id)
      ((r.transition id newState reason fillPrice nowMs).1.ledger.get? id) := by
  cases hp : r.positions.get? id with
  | none =>
    rw [transition, hp, hp]
    rw [hp] at hagree
    exact hagree
  | some p =>
    rw [hp] at hagree
    rcases transition_cases h id newState reason fillPrice nowMs hp with
      ⟨-, hsame⟩ | ⟨moved, ok, hterms, hopen, hstate, hmoved⟩
    · rw [hsame, Dict.get?_insert, if_pos rfl]
      exact hagree
    · rw [hmoved, Dict.get?_insert, if_pos rfl]
      by_cases hterminal : newState ∈ PositionState.terminal
      · rw [if_pos hterminal] at hstate ⊢
        rw [Dict.get?_erase, if_pos rfl]
        exact agree_closed hstate
      · rw [if_neg hterminal] at hstate ⊢
        refine agree_moved hagree hterms hopen ?_
        rw [hstate]
        rintro rfl
        exact hterminal (by decide)

theorem step_agree_iff {r : PositionRegistry} (h : r.Coherent) (call : RegistryCall)
    (hagree : Agree (r.positions.get? (target call)) (r.ledger.get? (target call))) :
    Agree ((r.step call).positions.get? (target call)) ((r.step call).ledger.get? (target call)) ↔
      Whole call := by
  cases call with
  | register p tradable =>
    by_cases hvalid : p.validateQuantities = none
    · obtain ⟨entry, hquantity, heq⟩ := register_eq (r := r) hvalid tradable
      rw [step, heq, target, Dict.get?_insert, if_pos rfl, Dict.get?_insert, if_pos rfl]
      constructor
      · rintro ⟨hid, hquantities⟩ -
        obtain ⟨_, ⟨⟩, hopen⟩ := hid.mp rfl
        exact ⟨hopen, (hquantities entry p.linked rfl rfl).symm.trans hquantity⟩
      · intro hwhole
        obtain ⟨hopen, hremaining⟩ := hwhole hvalid
        refine ⟨iff_of_true rfl ⟨p.linked, rfl, hopen⟩, ?_⟩
        rintro _ _ ⟨⟩ ⟨⟩
        exact hquantity.trans hremaining.symm
    · rw [step, register, if_pos hvalid]
      exact iff_of_true hagree fun hgood => absurd hgood hvalid
  | transition id newState reason fillPrice nowMs =>
    exact iff_of_true (transition_agree h id newState reason fillPrice nowMs hagree) trivial
  | closePosition id reason nowMs =>
    refine iff_of_true ?_ trivial
    rw [step, target]
    rcases r.closePosition_cases id reason nowMs with ⟨-, heq⟩ | ⟨p, hp, heq⟩
    · rw [heq]
      exact hagree
    · rw [heq, removePosition, Dict.get?_erase, if_pos rfl]
      rcases transition_cases h id .closed reason none nowMs hp with
        ⟨hwhy, hsame⟩ | ⟨moved, ok, -, -, hstate, hmoved⟩
      · -- only a closed position refuses to close
        rw [hsame, Dict.get?_insert, if_pos rfl]
        refine agree_closed ?_
        revert hwhy
        cases p.positionState <;> decide
      · rw [hmoved, Dict.get?_insert, if_pos rfl]
        exact agree_closed hstate

theorem step_inStep_iff {r : PositionRegistry} (h : r.Coherent) (hstep : r.InStep)
    (call : RegistryCall) : (r.step call).InStep ↔ Whole call := by
  rw [inStep_iff] at hstep ⊢
  rw [← step_agree_iff h call (hstep _)]
  constructor
  · intro hall
    exact hall (target call)
  · intro hown id
    by_cases hid : id = target call
    · rw [hid]
      exact hown
    · rw [(step_other h call hid).1, (step_other h call hid).2]
      exact hstep id

/-- The ledger is in step with the registry all along a run exactly when every position that is
registered is open and whole. -/
theorem inStep_iff_guarded (calls : List RegistryCall) :
    Always step InStep { } calls ↔ Guarded step (fun _ => Whole) { } calls := by
  refine always_iff_guarded (I := Coherent) (fun _ call h => step_coherent h call)
    (fun _ call h hstep => step_inStep_iff h hstep call) ?_ ?_ calls
  · intro id p hp
    rw [Dict.get?_empty] at hp
    cases hp
  · rw [inStep_iff]
    intro id
    rw [Dict.get?_empty, Dict.get?_empty]
    exact agree_none

/-- A position of one lot is closed, and then registered again as it is. -/
def reregistration : List RegistryCall :=
  let position : Position :=
    { positionId := "p", underlying := "NIFTY", instrumentSymbol := "NIFTY24800CE", entryPrice := 120
      entryQuantity := 75, remainingQuantity := 75 }
  [.register position (by decide +kernel), .closePosition "p" "CLOSED" 1,
    .register (position.transitionTo .closed "CLOSED" none 1).1 (by decide +kernel)]

/-- The closed position is back in the ledger. -/
theorem reregistered_outOfStep : ¬ Always step InStep { } reregistration := by
  intro h
  obtain ⟨p, hp, hopen⟩ := ((run_of_always h).ids "p").mp (by decide +kernel)
  have hclosed :
      ((run step { } reregistration).positions.get? "p").all (·.positionState = .closed) = true := by
    decide +kernel
  rw [hp] at hclosed
  exact hopen (decide_eq_true_iff.mp hclosed)

end PositionRegistry

end Droid.Positions
