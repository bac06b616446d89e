import Droid.Algo.Positions
import Mathlib.Algebra.Order.BigOperators.Group.List

/-! Repeated exits of one position, and what the broker fills on their orders. -/
namespace Droid.Algo
open Lib

structure BrokerOrder where
  quantity : Nat
  filled : Nat
  live : Bool
  deriving DecidableEq, Repr

namespace BrokerOrder

/-- Nothing is filled on the order, and nothing will be. -/
def Idle (o : BrokerOrder) : Prop := o.filled = 0 ∧ o.live = false

instance : DecidablePred Idle := fun o => inferInstanceAs (Decidable (o.filled = 0 ∧ o.live = false))

def fill (n : Nat) (o : BrokerOrder) : BrokerOrder :=
  if o.live ∧ o.filled + n ≤ o.quantity then { o with filled := o.filled + n } else o

def die (o : BrokerOrder) : BrokerOrder := { o with live := false }

end BrokerOrder

def Answer.isFilled : Answer → Bool
  | .result r => r.status = some .filled
  | _ => false

/-- What becomes of an order up to the answer: a broker fills no order beyond its quantity, and
answers FILLED for no less. -/
def placeOrder (record : OrderRecord) (answer : Answer) (filled : Nat) (live : Bool) : BrokerOrder :=
  let quantity := record.quantity.toNat
  if answer.isFilled then ⟨quantity, quantity, live⟩ else ⟨quantity, min filled quantity, live⟩

def exitFailed : OrderStatus ⊕ ExitState → Bool
  | .inl s => s ∈ [.rejected, .timedOut, .partiallyFilled]
  | .inr s => s ∈ [.exitNetworkUnknown, .exitBlockedByCircuit]

def handleExitFailure (pos : Position) (resultStatus : OrderStatus ⊕ ExitState) : Position :=
  if exitFailed resultStatus then
    if pos.exitState ∈ [ExitState.exitRejected, .exitNetworkUnknown, .exitBlockedByCircuit] then
      { pos with exitState := .orphanedAlert }
    else { pos with exitState := .exitRetrying }
  else pos

def exitRecord (m : OrderManager) (pos : Position) (isEmergency : Bool) (fresh : Uuid) :
    Option OrderRecord :=
  let (manager, ref) := m.createIntent (pos.exitIntent isEmergency) fresh
  manager.records[ref]?

def sentBy (m : OrderManager) (pos : Position) (isEmergency : Bool) (fresh : Uuid) (answer : Answer)
    (filled : Nat) (live : Bool) (outcome : ExitOutcome) : List BrokerOrder :=
  if outcome.calls = [] then []
  else (exitRecord m pos isEmergency fresh).toList.map (placeOrder · answer filled live)

/-- One position: its row, the object that the position manager holds, and the exit orders at the
broker, the latest first. -/
structure ExitDesk where
  manager : OrderManager
  row : PositionRow
  held : Position
  sent : List BrokerOrder := []

/-- An exit through the service or through the engine alone, with what the broker answers, what it has
filled by then and whether it works on; the handling of a failure; and what the broker does later. -/
inductive ExitEvent where
  | exitPosition (isEmergency : Bool) (fresh : Uuid) (answer : Answer) (filled : Nat) (live : Bool)
  | triggerExit (isEmergency : Bool) (fresh : Uuid) (answer : Answer) (filled : Nat) (live : Bool)
  | handleExitFailure (resultStatus : OrderStatus ⊕ ExitState)
  | fill (i n : Nat)
  | die (i : Nat)
  deriving DecidableEq, Repr

namespace ExitDesk

def step (reg : BrokerRegistry) (s : ExitDesk) : ExitEvent → ExitDesk
  | .exitPosition isEmergency fresh answer filled live =>
    match exitPosition reg s.manager (some s.row) isEmergency fresh answer with
    | none => s
    | some (row, outcome) =>
      { s with
        manager := outcome.manager, row
        sent := sentBy s.manager s.row.position isEmergency fresh answer filled live outcome ++ s.sent }
  | .triggerExit isEmergency fresh answer filled live =>
    let outcome := triggerExit reg s.manager s.held isEmergency fresh answer
    { s with
      manager := outcome.manager, held := outcome.position
      sent := sentBy s.manager s.held isEmergency fresh answer filled live outcome ++ s.sent }
  | .handleExitFailure resultStatus => { s with held := handleExitFailure s.held resultStatus }
  | .fill i n => { s with sent := s.sent.modify i (BrokerOrder.fill n) }
  | .die i => { s with sent := s.sent.modify i BrokerOrder.die }

def totalFilled (s : ExitDesk) : Nat := (s.sent.map BrokerOrder.filled).sum

/-- The exits never fill more than the position, and its row is closed only when they fill it. -/
structure NoOverExit (quantity : Nat) (s : ExitDesk) : Prop where
  bounded : s.totalFilled ≤ quantity
  closed : s.row.isOpen = false → s.totalFilled = quantity

/-- The id of a new exit is new to the manager, as a drawn UUID is. -/
def Fresh (s : ExitDesk) : ExitEvent → Prop
  | .exitPosition _ fresh .. | .triggerExit _ fresh .. => ∀ a, s.manager.prune.find a fresh = none
  | _ => True

def Sends (s : ExitDesk) : ExitEvent → Prop
  | .exitPosition .. => s.row.isOpen = true
  | .triggerExit .. => True
  | _ => False

/-- An exit is only made while nothing is filled on the earlier ones and none of them is live. -/
def Sole (s : ExitDesk) (e : ExitEvent) : Prop := s.Sends e → ∀ o ∈ s.sent, o.Idle

structure Opened (quantity : Nat) (s : ExitDesk) : Prop where
  row : s.row.quantity = quantity
  held : s.held.quantity = quantity
  unclosed : s.row.isOpen = true
  unsent : s.sent = []

end ExitDesk

/-! ### One exit -/

theorem submitEnd_filled {t : Traced} {answer : Answer} (hpending : t.record.status ≠ .filled)
    (h : (submitEnd t answer).record.status = .filled) : answer.isFilled = true := by
  cases answer with
  | timeout => cases h
  | error => cases h
  | aborted => exact absurd h hpending
  | result r =>
    simp only [submitEnd] at h
    split at h
    · cases h
    · split at h
      · cases h
      · have hmapped : internalStatus r.status = .filled := h
        rw [Answer.isFilled, decide_eq_true_iff]
        revert hmapped
        rw [internalStatus.eq_def]
        split
        · intro _
          assumption
        all_goals
          intro hother
          cases hother

/-- An exit under a new id sends one order for the whole quantity, and reports FILLED only when the
broker does; of the position only the exit state changes. -/
theorem triggerExit_sends (reg : BrokerRegistry) {m : OrderManager} (pos : Position)
    (isEmergency : Bool) {fresh : Uuid} (hfresh : ∀ a, m.prune.find a fresh = none) (answer : Answer)
    (filled : Nat) (live : Bool) :
    ∃ record, record.quantity = pos.quantity ∧
      sentBy m pos isEmergency fresh answer filled live (triggerExit reg m pos isEmergency fresh answer) =
        [placeOrder record answer filled live] ∧
      (triggerExit reg m pos isEmergency fresh answer).position.quantity = pos.quantity ∧
      ((triggerExit reg m pos isEmergency fresh answer).status = some (.inl .filled) →
        answer.isFilled = true) := by
  have hcalls := triggerExit_calls reg m pos isEmergency ⟨fresh, hfresh⟩ answer
  have hnone := Option.or_eq_none_iff.mp (hfresh pos.accountId)
  rcases m.createIntent_cases (pos.exitIntent isEmergency) fresh with
    ⟨r, hk, -⟩ | ⟨r, -, hb, -⟩ | ⟨-, -, he⟩
  · exact absurd (hnone.1.symm.trans hk) nofun
  · exact absurd (hnone.2.symm.trans hb) nofun
  · have hid : (pos.exitIntent isEmergency).clientOrderId.getD fresh = fresh := rfl
    rw [hid] at he
    refine ⟨(pos.exitIntent isEmergency).record fresh, rfl, ?_, ?_, ?_⟩
    · have hrecord : exitRecord m pos isEmergency fresh =
          some ((pos.exitIntent isEmergency).record fresh) := by
        rw [exitRecord, he]
        exact List.getElem?_concat_length
      rw [sentBy, hcalls, if_neg (List.cons_ne_nil _ _), hrecord]
      rfl
    · simp only [triggerExit, he, List.getElem?_concat_length]
      split
      · rfl
      · split <;> rfl
    · intro hstatus
      simp only [triggerExit, he, List.getElem?_concat_length] at hstatus
      split at hstatus
      · cases hstatus
      · rename_i t ht
        split at hstatus
        · cases hstatus
        · have hpending : t.record.status ≠ .filled := by
            cases ht
            exact OrderStatus.noConfusion
          refine submitEnd_filled hpending ?_
          simpa using hstatus

theorem exitPosition_cases (reg : BrokerRegistry) (m : OrderManager) (row : PositionRow)
    (isEmergency : Bool) (fresh : Uuid) (answer : Answer) :
    (row.isOpen = false ∧ exitPosition reg m (some row) isEmergency fresh answer = none) ∨
      (row.isOpen = true ∧ ∃ row', row'.quantity = row.quantity ∧
        (row'.isOpen = false →
          (triggerExit reg m row.position isEmergency fresh answer).status = some (.inl .filled)) ∧
        exitPosition reg m (some row) isEmergency fresh answer =
          some (row', triggerExit reg m row.position isEmergency fresh answer)) := by
  rw [exitPosition]
  cases hopen : row.isOpen with
  | false => exact .inl ⟨rfl, rfl⟩
  | true =>
    refine .inr ⟨rfl, ?_⟩
    rw [if_pos rfl]
    generalize triggerExit reg m row.position isEmergency fresh answer = outcome
    have hkept : row.isOpen = false → outcome.status = some (.inl .filled) := fun hclosed =>
      Bool.noConfusion (hopen.symm.trans hclosed)
    cases hstatus : outcome.status with
    | none =>
      simp only [hstatus] at hkept ⊢
      exact ⟨row, rfl, hkept, rfl⟩
    | some status =>
      simp only [hstatus] at hkept ⊢
      split
      · rename_i hfilled
        refine ⟨{ row with isOpen := false, exitState := .closed }, rfl, fun _ => ?_, rfl⟩
        exact congrArg some hfilled
      · exact ⟨{ row with exitState := outcome.position.exitState }, rfl, hkept, by rw [hopen]⟩

theorem placeOrder_fits {record : OrderRecord} {quantity : Nat} (h : record.quantity = quantity)
    (answer : Answer) (filled : Nat) (live : Bool) :
    (placeOrder record answer filled live).quantity = quantity ∧
      (placeOrder record answer filled live).filled ≤ quantity ∧
      (answer.isFilled = true → (placeOrder record answer filled live).filled = quantity) := by
  have hquantity : record.quantity.toNat = quantity := by omega
  rw [placeOrder, hquantity]
  cases hanswer : answer.isFilled with
  | true => exact ⟨rfl, le_rfl, fun _ => rfl⟩
  | false => exact ⟨rfl, min_le_right _ _, nofun⟩

/-! ### Orders at work -/

/-- What the broker does to an order by itself: it fills no less than before and no more than the
quantity, and nothing happens to an idle order. -/
structure BrokerOrder.Honest (f : BrokerOrder → BrokerOrder) : Prop where
  quantity : ∀ o, (f o).quantity = o.quantity
  bounded : ∀ o, o.filled ≤ o.quantity → (f o).filled ≤ o.quantity
  grows : ∀ o, o.filled ≤ (f o).filled
  idle : ∀ o, o.Idle → f o = o

theorem fill_honest (n : Nat) : BrokerOrder.Honest (BrokerOrder.fill n) := by
  have hcases : ∀ o : BrokerOrder, o.fill n = o ∨ (o.live = true ∧ o.filled + n ≤ o.quantity ∧
      o.fill n = { o with filled := o.filled + n }) := by
    intro o
    rw [BrokerOrder.fill]
    split
    · rename_i h
      exact .inr ⟨h.1, h.2, rfl⟩
    · exact .inl rfl
  refine ⟨fun o => ?_, fun o ho => ?_, fun o => ?_, fun o ho => ?_⟩
  · rcases hcases o with h | ⟨-, -, h⟩ <;> rw [h]
  · rcases hcases o with h | ⟨-, hle, h⟩
    · rw [h]
      exact ho
    · rw [h]
      exact hle
  · rcases hcases o with h | ⟨-, -, h⟩
    · rw [h]
    · rw [h]
      exact Nat.le_add_right _ _
  · rcases hcases o with h | ⟨hlive, -, -⟩
    · exact h
    · exact absurd (ho.2.symm.trans hlive) nofun

theorem die_honest : BrokerOrder.Honest BrokerOrder.die where
  quantity _ := rfl
  bounded _ ho := ho
  grows _ := le_rfl
  idle := by
    rintro ⟨quantity, filled, live⟩ ⟨-, hdead⟩
    have hlive : live = false := hdead
    rw [hlive]
    rfl

theorem forall_modify {α : Type} {P : α → Prop} {f : α → α} (hf : ∀ a, P a → P (f a)) {l : List α}
    (h : ∀ a ∈ l, P a) (i : Nat) : ∀ a ∈ l.modify i f, P a := by
  intro a ha
  obtain ⟨j, hj, rfl⟩ := List.mem_iff_getElem.mp ha
  rw [List.length_modify] at hj
  rw [List.getElem_modify]
  split
  · exact hf _ (h _ (List.getElem_mem hj))
  · exact h _ (List.getElem_mem hj)

theorem modify_fixed {α : Type} {f : α → α} {l : List α} (h : ∀ a ∈ l, f a = a) (i : Nat) :
    l.modify i f = l := by
  apply List.ext_getElem
  · exact List.length_modify ..
  · intro j hj hj'
    rw [List.getElem_modify]
    split
    · exact h _ (List.getElem_mem hj')
    · rfl

namespace ExitDesk
variable (reg : BrokerRegistry) {quantity : Nat} {s : ExitDesk}

/-- The position keeps its quantity, and every exit order is for all of it. -/
structure Placed (quantity : Nat) (s : ExitDesk) : Prop where
  row : s.row.quantity = quantity
  held : s.held.quantity = quantity
  orders : ∀ o ∈ s.sent, o.quantity = quantity ∧ o.filled ≤ o.quantity

theorem step_exitPosition (h : Placed quantity s) (hopen : s.row.isOpen = true) (isEmergency : Bool)
    {fresh : Uuid} (hfresh : ∀ a, s.manager.prune.find a fresh = none) (answer : Answer) (filled : Nat)
    (live : Bool) :
    ∃ row' manager, row'.quantity = (quantity : Int) ∧
      s.step reg (.exitPosition isEmergency fresh answer filled live) =
        { s with manager, row := row'
                 sent := (s.step reg (.exitPosition isEmergency fresh answer filled live)).sent } ∧
      ∃ o : BrokerOrder, o.quantity = quantity ∧ o.filled ≤ quantity ∧
        (s.step reg (.exitPosition isEmergency fresh answer filled live)).sent = o :: s.sent ∧
        (answer.isFilled = true → o.filled = quantity) ∧ (row'.isOpen = false → o.filled = quantity) := by
  rcases exitPosition_cases reg s.manager s.row isEmergency fresh answer with
    ⟨hclosed, -⟩ | ⟨-, row', hquantity', hfilled, hsome⟩
  · exact absurd (hclosed.symm.trans hopen) nofun
  · have hrow : s.row.position.quantity = quantity := h.row
    obtain ⟨record, hrecord, hsent, -, hanswer⟩ :=
      triggerExit_sends reg s.row.position isEmergency hfresh answer filled live
    obtain ⟨hquantity, hbounded, hall⟩ := placeOrder_fits (hrecord.trans hrow) answer filled live
    rw [step, hsome]
    refine ⟨row', _, hquantity'.trans h.row, rfl, _, hquantity, hbounded, ?_, hall, ?_⟩
    · simp only [hsent]
      rfl
    · intro hclosed
      exact hall (hanswer (hfilled hclosed))

/-- What an event does: it sends one more order, for the whole quantity, or it is the broker's, or it
concerns no order. -/
theorem step_cases (h : Placed quantity s) {e : ExitEvent} (hfresh : s.Fresh e) :
    (s.step reg e).row.quantity = quantity ∧ (s.step reg e).held.quantity = quantity ∧
      ((s.Sends e ∧ ∃ o : BrokerOrder, o.quantity = quantity ∧ o.filled ≤ quantity ∧
          (s.step reg e).sent = o :: s.sent ∧
          ((s.step reg e).row.isOpen = false → s.row.isOpen = false ∨ o.filled = quantity)) ∨
        (¬ s.Sends e ∧ (s.step reg e).row = s.row ∧ ∃ f i, BrokerOrder.Honest f ∧
          (s.step reg e).sent = s.sent.modify i f)) := by
  have hsame : BrokerOrder.Honest id := ⟨fun _ => rfl, fun _ ho => ho, fun _ => le_rfl, fun _ _ => rfl⟩
  have hkept : s.sent = s.sent.modify 0 id := (modify_fixed (fun _ _ => rfl) 0).symm
  cases e with
  | fill i n => exact ⟨h.row, h.held, .inr ⟨id, rfl, _, i, fill_honest n, rfl⟩⟩
  | die i => exact ⟨h.row, h.held, .inr ⟨id, rfl, _, i, die_honest, rfl⟩⟩
  | handleExitFailure resultStatus =>
    refine ⟨h.row, ?_, .inr ⟨id, rfl, id, 0, hsame, hkept⟩⟩
    rw [step, handleExitFailure]
    split
    · split <;> exact h.held
    · exact h.held
  | triggerExit isEmergency fresh answer filled live =>
    obtain ⟨record, hrecord, hsent, hheld, -⟩ :=
      triggerExit_sends reg s.held isEmergency hfresh answer filled live
    obtain ⟨hquantity, hbounded, -⟩ := placeOrder_fits (hrecord.trans h.held) answer filled live
    refine ⟨h.row, hheld.trans h.held, .inl ⟨trivial, _, hquantity, hbounded, ?_, .inl⟩⟩
    rw [step, hsent]
    rfl
  | exitPosition isEmergency fresh answer filled live =>
    cases hopen : s.row.isOpen with
    | false =>
      have hnone : s.step reg (.exitPosition isEmergency fresh answer filled live) = s := by
        rw [step, exitPosition, hopen]
        rfl
      rw [hnone]
      refine ⟨h.row, h.held, .inr ⟨?_, rfl, id, 0, hsame, hkept⟩⟩
      intro hsends
      exact absurd (hopen.symm.trans hsends) Bool.false_ne_true
    | true =>
      obtain ⟨row', manager, hquantity', hstep, o, hquantity, hbounded, hsent, -, hclosed⟩ :=
        step_exitPosition reg h hopen isEmergency hfresh answer filled live
      refine ⟨?_, ?_, .inl ⟨hopen, o, hquantity, hbounded, hsent, fun hnow => .inr ?_⟩⟩
      · rw [hstep]
        exact hquantity'
      · rw [hstep]
        exact h.held
      · rw [hstep] at hnow
        exact hclosed hnow

theorem step_placed (h : Placed quantity s) {e : ExitEvent} (hfresh : s.Fresh e) :
    Placed quantity (s.step reg e) := by
  obtain ⟨hrow, hheld, ⟨-, o, hquantity, hbounded, hsent, -⟩ | ⟨-, -, f, i, hf, hsent⟩⟩ :=
    step_cases reg h hfresh
  · refine ⟨hrow, hheld, ?_⟩
    rw [hsent]
    intro o' ho'
    rcases List.mem_cons.mp ho' with rfl | hold
    · exact ⟨hquantity, hquantity ▸ hbounded⟩
    · exact h.orders o' hold
  · refine ⟨hrow, hheld, ?_⟩
    rw [hsent]
    apply forall_modify
    · rintro o ⟨hquantity, hbounded⟩
      rw [hf.quantity]
      exact ⟨hquantity, hf.bounded o hbounded⟩
    · exact h.orders

/-- Only the latest exit order has anything filled or is live, and the row is closed when all of it
is. -/
structure Settled (quantity : Nat) (s : ExitDesk) : Prop extends Placed quantity s where
  idle : ∀ o ∈ s.sent.tail, o.Idle
  closed : s.row.isOpen = false → s.totalFilled = quantity

theorem sum_idle {orders : List BrokerOrder} (h : ∀ o ∈ orders, o.Idle) :
    (orders.map BrokerOrder.filled).sum = 0 := by
  apply List.sum_eq_zero
  intro n hn
  obtain ⟨o, ho, rfl⟩ := List.mem_map.mp hn
  exact (h o ho).1

theorem totalFilled_cons {o : BrokerOrder} {rest : List BrokerOrder} (hsent : s.sent = o :: rest)
    (hidle : ∀ o' ∈ rest, o'.Idle) : s.totalFilled = o.filled := by
  rw [totalFilled, hsent, List.map_cons, List.sum_cons, sum_idle hidle, Nat.add_zero]

theorem Settled.noOverExit (h : Settled quantity s) : s.NoOverExit quantity := by
  refine ⟨?_, h.closed⟩
  cases hsent : s.sent with
  | nil =>
    rw [totalFilled, hsent]
    exact Nat.zero_le _
  | cons o rest =>
    have hidle := h.idle
    rw [hsent] at hidle
    rw [totalFilled_cons hsent hidle]
    obtain ⟨hquantity, hbounded⟩ := h.orders o (hsent ▸ List.mem_cons_self)
    exact hquantity ▸ hbounded

theorem step_settled (h : Settled quantity s) {e : ExitEvent} (hfresh : s.Fresh e) (hsole : s.Sole e) :
    Settled quantity (s.step reg e) := by
  have hplaced := step_placed reg h.toPlaced hfresh
  obtain ⟨-, -, ⟨hsends, o, hquantity, hbounded, hsent, hclosed⟩ | ⟨-, hrow, f, i, hf, hsent⟩⟩ :=
    step_cases reg h.toPlaced hfresh
  · -- the new order is the only one with anything filled
    have hidle := hsole hsends
    refine ⟨hplaced, ?_, fun hnow => ?_⟩
    · rw [hsent]
      exact hidle
    · rw [totalFilled_cons hsent hidle]
      rcases hclosed hnow with hbefore | hall
      · have hzero := h.closed hbefore
        rw [totalFilled, sum_idle hidle] at hzero
        omega
      · exact hall
  · cases hold : s.sent with
    | nil =>
      rw [hold, List.modify_nil] at hsent
      refine ⟨hplaced, ?_, fun hnow => ?_⟩
      · rw [hsent]
        nofun
      · rw [hrow] at hnow
        have htotal := h.closed hnow
        rw [totalFilled, hold] at htotal
        rw [totalFilled, hsent]
        exact htotal
    | cons o rest =>
      have hidle := h.idle
      rw [hold] at hidle
      have hrest : ∀ j, rest.modify j f = rest := modify_fixed fun o' ho' => hf.idle o' (hidle o' ho')
      have hhead : ∃ o', o'.filled ≤ o.quantity ∧ o.filled ≤ o'.filled ∧
          (s.step reg e).sent = o' :: rest := by
        have hfits := (h.orders o (hold ▸ List.mem_cons_self)).2
        rw [hsent, hold]
        cases i with
        | zero => exact ⟨f o, hf.bounded o hfits, hf.grows o, rfl⟩
        | succ j => exact ⟨o, hfits, le_rfl, by rw [List.modify_succ_cons, hrest]⟩
      obtain ⟨o', hbounded, hgrows, hsent'⟩ := hhead
      refine ⟨hplaced, ?_, fun hnow => ?_⟩
      · rw [hsent']
        exact hidle
      · rw [hrow] at hnow
        have htotal := h.closed hnow
        rw [totalFilled_cons hold hidle] at htotal
        have hquantity := (h.orders o (hold ▸ List.mem_cons_self)).1
        rw [totalFilled_cons hsent' hidle]
        omega

theorem Opened.settled (h : Opened quantity s) : Settled quantity s where
  row := h.row
  held := h.held
  orders := by
    rw [h.unsent]
    nofun
  idle := by
    rw [h.unsent]
    nofun
  closed hclosed := absurd (h.unclosed.symm.trans hclosed) nofun

/-- After an exit that was not the sole one, the broker can fill more than the position. -/
theorem unsole_overfilled (h : Placed quantity s) (hpositive : 0 < quantity)
    (hopen : s.row.isOpen = true) (hunsole : ∃ o ∈ s.sent, ¬ o.Idle) (isEmergency : Bool) {fresh : Uuid}
    (hfresh : ∀ a, s.manager.prune.find a fresh = none) :
    ∃ answer filled live later, ¬ Always (step reg) (NoOverExit quantity) s
      (.exitPosition isEmergency fresh answer filled live :: later) := by
  obtain ⟨o, ho, hbusy⟩ := hunsole
  obtain ⟨-, -, -, -, o', -, -, hsent, hall, -⟩ := step_exitPosition reg h hopen isEmergency
    hfresh (.result ⟨none, some .filled, .absent, .absent⟩) 0 false
  have hfull := hall rfl
  refine ⟨.result ⟨none, some .filled, .absent, .absent⟩, 0, false, ?_⟩
  by_cases hfilled : o.filled = 0
  · -- the older order is live, and is filled by one more
    have hlive : o.live = true := by
      rw [← Bool.not_eq_false]
      exact fun hdead => hbusy ⟨hfilled, hdead⟩
    obtain ⟨j, hj, rfl⟩ := List.mem_iff_getElem.mp ho
    refine ⟨[.fill (j + 1) 1], fun halways => ?_⟩
    have hbound := (run_of_always halways).bounded
    have hsum : 1 ≤ ((s.sent.modify j (BrokerOrder.fill 1)).map BrokerOrder.filled).sum := by
      apply List.le_sum_of_mem
      have hroom := (h.orders _ ho).1
      refine List.mem_map.mpr ⟨s.sent[j].fill 1, ?_, ?_⟩
      · rw [List.mem_iff_getElem]
        refine ⟨j, (List.length_modify ..).symm ▸ hj, ?_⟩
        rw [List.getElem_modify, if_pos rfl]
      · rw [BrokerOrder.fill, if_pos ⟨hlive, by omega⟩]
        exact congrArg (· + 1) hfilled
    rw [run_cons, run_cons, run_nil] at hbound
    have hthen : ∀ s', (step reg s' (.fill (j + 1) 1)).sent = s'.sent.modify (j + 1) (BrokerOrder.fill 1) :=
      fun _ => rfl
    rw [totalFilled, hthen, hsent, List.modify_succ_cons, List.map_cons, List.sum_cons, hfull] at hbound
    omega
  · refine ⟨[], fun halways => ?_⟩
    have hbound := (run_of_always halways).bounded
    have hsum : o.filled ≤ (s.sent.map BrokerOrder.filled).sum :=
      List.le_sum_of_mem (List.mem_map_of_mem ho)
    rw [run_cons, run_nil, totalFilled, hsent, List.map_cons, List.sum_cons, hfull] at hbound
    omega

theorem run_placed (h : Placed quantity s) {events : List ExitEvent}
    (hfresh : Guarded (step reg) Fresh s events) : Placed quantity (run (step reg) s events) :=
  run_of_always (always_of_guarded (fun _ _ hs he => step_placed reg hs he) h hfresh)

/-- Exits that are each the sole one never fill more than the position, and the row is closed only
when all of it is filled; and wherever an open row is exited while an earlier order has something
filled or is live, the broker can fill more. -/
theorem noOverExit_of_sole (h : Opened quantity s) :
    (∀ events, Guarded (step reg) (fun s e => s.Fresh e ∧ s.Sole e) s events →
        Always (step reg) (NoOverExit quantity) s events) ∧
      ∀ events, Guarded (step reg) Fresh s events → 0 < quantity →
        (run (step reg) s events).row.isOpen = true →
        (∃ o ∈ (run (step reg) s events).sent, ¬ o.Idle) → ∀ isEmergency fresh,
          (∀ a, (run (step reg) s events).manager.prune.find a fresh = none) →
            ∃ answer filled live later, ¬ Always (step reg) (NoOverExit quantity)
              (run (step reg) s events) (.exitPosition isEmergency fresh answer filled live :: later) := by
  constructor
  · intro events hguarded
    refine (always_of_guarded (P := Settled quantity) ?_ h.settled hguarded).mono ?_
    · rintro s e hs ⟨hfresh, hsole⟩
      exact step_settled reg hs hfresh hsole
    · exact fun _ hs => hs.noOverExit
  · intro events hfresh hpositive hopen hunsole isEmergency fresh hunused
    exact unsole_overfilled reg (run_placed reg h.settled.toPlaced hfresh) hpositive hopen hunsole isEmergency
      hunused

private def fiftyHeld : ExitDesk where
  manager := { }
  row :=
    { accountId := "a", symbol := "NIFTY", instrumentId := none, side := "LONG", quantity := 50
      averageEntry := some 100, currentPrice := some 110, exitState := .none, isOpen := true }
  held :=
    { accountId := "a", symbol := "NIFTY", instrumentId := none, side := "LONG", quantity := 50
      currentPrice := 110, exitState := .none }

private def reported (status : BrokerStatus) (quantity : Int) : Answer :=
  .result ⟨some "B", some status, .number 110, .value quantity⟩

/-- A rejected exit is followed by one that fills. -/
theorem rejected_then_filled :
    Always (step { }) (NoOverExit 50) fiftyHeld
      [.exitPosition false 1 (reported .rejected 0) 0 false,
        .exitPosition true 2 (reported .filled 50) 50 false] := by
  have hopened : Opened 50 fiftyHeld := ⟨rfl, rfl, rfl, rfl⟩
  refine (noOverExit_of_sole { } hopened).1 _ ⟨⟨fun _ => rfl, fun _ => nofun⟩, ⟨fun a => ?_, ?_⟩, trivial⟩
  · have horders : (step { } fiftyHeld (.exitPosition false 1 (reported .rejected 0) 0 false)).manager.prune.orders =
        (Dict.empty.insert (.scoped "a" 1) 0).insert (.bare 1) 0 := rfl
    rw [OrderManager.find, horders]
    simp
  · intro _ o ho
    have hsent : (step { } fiftyHeld (.exitPosition false 1 (reported .rejected 0) 0 false)).sent =
        [⟨50, 0, false⟩] := rfl
    rw [hsent, List.mem_singleton] at ho
    rw [ho]
    exact ⟨rfl, rfl⟩

/-- An exit that timed out fills after its retry has filled. -/
theorem timedOut_overfilled :
    ¬ Always (step { }) (NoOverExit 50) fiftyHeld
      [.exitPosition false 1 .timeout 0 true, .exitPosition true 2 (reported .filled 50) 50 false,
        .fill 1 50] := by
  intro h
  have hbound := (run_of_always h).bounded
  revert hbound
  decide +kernel

end ExitDesk

end Droid.Algo
