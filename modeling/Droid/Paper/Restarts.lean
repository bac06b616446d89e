import Droid.Paper.Exits

/-! Submissions under one client id, across restarts of the process. -/
namespace Droid.Paper
open Lib

/-- The rows that a hydration finds: positions, portfolio, and orders, oldest first. -/
structure Rows where
  positions : List VirtualPosition := []
  realized : Option ℚ := none
  capital : Option ℚ := none
  orders : List VirtualOrder := []

/-- One for an order of this client in this state. -/
def VirtualOrder.tally (status : OrderStatus) (c : String) (order : VirtualOrder) : Int :=
  if order.payload.clientOrderId = some c ∧ order.status = status then 1 else 0

namespace Shard

/-- `hydrate_anon`: an empty shard takes what the rows hold. -/
def hydrateAnon (s : Shard) (rows : Rows) : Shard :=
  if s.positions.size = 0 ∧ s.orders.length = 0 then
    { s with
      positions := rows.positions.foldl (fun d pos => d.insert pos.positionId pos) s.positions
      realized := rows.realized.getD s.realized
      capital := rows.capital.getD s.capital
      orders := rows.orders }
  else s

/-- The orders of this client in this state. -/
def tally (s : Shard) (status : OrderStatus) (c : String) : Int := (s.orders.map (·.tally status c)).sum

end Shard

/-- A shard over the lives of its process: the name of each order of the log, the next name, and
of the submissions under one client id the order accepted first, whether the process restarted
since, how often one of them was filled, and whether all later answers were the accepted order. -/
structure Lives where
  shard : Shard
  names : List Nat := []
  fresh : Nat := 0
  accepted : Option Nat := none
  restarted : Bool := false
  fills : Int := 0
  faithful : Bool := true

inductive LifeCall where
  | placeOrder (cond : Conditions) (payload : OrderPayload) (allowClosedMarket : Bool)
  | cancelOrder (id : OrderId)
  | squareOffPosition (cond : Conditions) (id : PositionId) (allowClosedMarket : Bool)
  | evaluatePendingOrders (cond : Conditions) (symbol : String) (ltp : ℚ)
  /-- The rows show the orders under these names as they were, and any positions. -/
  | restart (kept : Nat → Bool) (rows : Rows)

namespace Lives

/-- The shard of a later moment of the same process; what it logged since gets new names. -/
def after (u : Lives) (c : String) (s : Shard) : Lives :=
  let logged := s.orders.length - u.shard.orders.length
  { u with
    shard := s
    names := u.names ++ (List.range logged).map (u.fresh + ·)
    fresh := u.fresh + logged
    fills := u.fills + (s.tally .filled c - u.shard.tally .filled c) }

/-- A submission under the client id is answered with this order. -/
def answered (u : Lives) (id : OrderId) : Lives :=
  match u.accepted with
  | some name => { u with faithful := u.faithful && decide (u.names[id]? = some name) }
  | none =>
    if (u.shard.orders[id]?).any fun o => o.status = .pending ∨ o.status = .filled then
      { u with accepted := u.names[id]? }
    else u

def step (c : String) (u : Lives) : LifeCall → Lives
  | .placeOrder cond payload allowClosedMarket =>
    let placed := u.shard.placeOrder cond payload allowClosedMarket
    let u := u.after c placed.1
    if payload.clientOrderId = some c then u.answered placed.2 else u
  | .cancelOrder id =>
    match u.shard.cancelOrder id with
    | .ok s => u.after c s
    | .error _ => u
  | .squareOffPosition cond id allowClosedMarket =>
    u.after c (u.shard.squareOffPosition cond id allowClosedMarket).1
  | .evaluatePendingOrders cond symbol ltp => u.after c (u.shard.evaluatePendingOrders cond symbol ltp)
  | .restart kept rows =>
    let survivors := (u.shard.orders.zip u.names).filter fun e => kept e.2
    { u with
      shard := Shard.hydrateAnon { limits := u.shard.limits } { rows with orders := survivors.map (·.1) }
      names := survivors.map (·.2)
      restarted := u.restarted || u.accepted.isSome }

/-- After an acceptance the client id is not empty, and not submitted again past a restart. -/
def Remembers (c : String) (u : Lives) : LifeCall → Prop
  | .placeOrder _ payload _ =>
    payload.clientOrderId = some c → u.accepted.isSome = true → c ≠ "" ∧ u.restarted = false
  | _ => True

end Lives

namespace Shard

/-! ### What calls under other ids leave -/

/-- No order of this client is new, but a resting one may be filled or cancelled; the id is
remembered as before. -/
structure Leaves (c : String) (s s' : Shard) : Prop where
  live : s'.tally .pending c + s'.tally .filled c ≤ s.tally .pending c + s.tally .filled c
  filled : s.tally .filled c ≤ s'.tally .filled c
  remembered : s'.idempotency.get? c = s.idempotency.get? c
  longer : s.orders.length ≤ s'.orders.length

theorem Leaves.refl (c : String) (s : Shard) : Leaves c s s := ⟨le_rfl, le_rfl, rfl, le_rfl⟩

theorem Leaves.trans {c : String} {s s' s'' : Shard} (h : Leaves c s s') (h' : Leaves c s' s'') :
    Leaves c s s'' :=
  ⟨h'.live.trans h.live, h.filled.trans h'.filled, h'.remembered.trans h.remembered, h.longer.trans h'.longer⟩

theorem tally_append {s s' : Shard} {order : VirtualOrder} (h : s'.orders = s.orders ++ [order])
    (status : OrderStatus) (c : String) : s'.tally status c = s.tally status c + order.tally status c := by
  unfold tally
  rw [h]
  simp

theorem tally_nonneg (s : Shard) (status : OrderStatus) (c : String) : 0 ≤ s.tally status c := by
  refine List.sum_nonneg fun x hx => ?_
  obtain ⟨order, -, rfl⟩ := List.mem_map.mp hx
  rw [VirtualOrder.tally]
  split <;> omega

/-- An order is answered with the remembered one, or logged; only what is not rejected is
remembered, under its own id. -/
theorem placeOrderLocked_logs (cond : Conditions) (s : Shard) (payload : OrderPayload)
    (allowClosedMarket : Bool) (forcedFill : Option (ℚ × FillSource)) :
    (∃ id, (payload.clientOrderId.filter (· ≠ "")).bind s.idempotency.get? = some id ∧
        s.placeOrderLocked cond payload allowClosedMarket forcedFill = (s, id)) ∨
      (payload.clientOrderId.filter (· ≠ "")).bind s.idempotency.get? = none ∧
        ∃ order, order.payload = payload ∧
          (order.status = .rejected ∨ order.status = .pending ∨ order.status = .filled) ∧
          (s.placeOrderLocked cond payload allowClosedMarket forcedFill).2 = s.orders.length ∧
          (s.placeOrderLocked cond payload allowClosedMarket forcedFill).1.orders = s.orders ++ [order] ∧
          ∀ c, (s.placeOrderLocked cond payload allowClosedMarket forcedFill).1.idempotency.get? c =
            if order.status ≠ .rejected ∧ payload.clientOrderId = some c ∧ c ≠ "" then some s.orders.length
            else s.idempotency.get? c := by
  have hremember : ∀ (s' : Shard) (order : VirtualOrder) (c : String), order.payload = payload →
      s'.orders = s.orders → s'.idempotency = s.idempotency →
      (s'.submit order).1.idempotency.get? c =
        if payload.clientOrderId = some c ∧ c ≠ "" then some s.orders.length else s.idempotency.get? c := by
    intro s' order c hpayload horders hidem
    unfold submit remember log
    rw [hpayload]
    cases hid : payload.clientOrderId with
    | none => simp [hidem]
    | some c' =>
      by_cases hne : c' = ""
      · subst hne
        simp only [Option.filter_some, ne_eq, not_true_eq_false, decide_false, Bool.false_eq_true, if_false, hidem]
        rw [if_neg]
        rintro ⟨heq, hc⟩
        exact hc (Option.some.inj heq).symm
      · simp only [Option.filter_some, ne_eq, hne, not_false_eq_true, decide_true, if_true,
          Dict.get?_insert, hidem, horders, Option.some.injEq]
        by_cases hc : c = c'
        · subst hc
          simp [hne]
        · simp [hc, Ne.symm hc]
  rcases placeOrderLocked_cases cond s payload allowClosedMarket forcedFill with
    ⟨id, hid, heq⟩ | ⟨hnew, ⟨reason, heq⟩ | heq | ⟨fillPrice, source, heq⟩⟩
  · exact .inl ⟨id, hid, heq⟩
  · refine .inr ⟨hnew, { payload, status := .rejected, rejectionReason := some reason }, rfl, .inl rfl, ?_⟩
    rw [heq]
    exact ⟨rfl, rfl, fun c => by simp [reject, log]⟩
  · refine .inr ⟨hnew, { payload, status := .pending }, rfl, .inr (.inl rfl), ?_⟩
    rw [heq]
    refine ⟨rfl, submit_orders s _, fun c => ?_⟩
    rw [hremember s _ c rfl rfl rfl]
    simp
  · obtain ⟨realized, pos, hfill, -⟩ := applyFill_spec s payload fillPrice
    have hbooks : (s.applyFill payload fillPrice).orders = s.orders ∧
        (s.applyFill payload fillPrice).idempotency = s.idempotency := by
      rw [hfill]
      exact ⟨rfl, rfl⟩
    refine .inr ⟨hnew, { payload, status := .filled, fillPrice := some fillPrice, fillSource := some source
                         estimatedCosts := some (estimateCosts payload.side fillPrice payload.quantity) }, rfl,
      .inr (.inr rfl), ?_⟩
    rw [heq]
    refine ⟨?_, ?_, fun c => ?_⟩
    · show (s.applyFill payload fillPrice).orders.length = _
      rw [hbooks.1]
    · rw [submit_orders, hbooks.1]
    · rw [hremember _ _ c rfl hbooks.1 hbooks.2]
      simp

theorem placeOrderLocked_leaves (c : String) (cond : Conditions) (s : Shard) {payload : OrderPayload}
    (hid : payload.clientOrderId ≠ some c) (allowClosedMarket : Bool) (forcedFill : Option (ℚ × FillSource)) :
    Leaves c s (s.placeOrderLocked cond payload allowClosedMarket forcedFill).1 := by
  rcases placeOrderLocked_logs cond s payload allowClosedMarket forcedFill with
    ⟨id, -, heq⟩ | ⟨-, order, hpayload, -, -, horders, hidem⟩
  · rw [heq]
    exact Leaves.refl c s
  · have hzero : ∀ status, order.tally status c = 0 := by
      intro status
      rw [VirtualOrder.tally]
      rw [if_neg]
      rintro ⟨h, -⟩
      exact hid (hpayload ▸ h)
    refine ⟨?_, ?_, ?_, ?_⟩
    · rw [tally_append horders, tally_append horders, hzero, hzero]
      omega
    · rw [tally_append horders, hzero]
      omega
    · rw [hidem c, if_neg fun h => hid h.2.1]
    · rw [horders]
      simp

theorem leaves_set (c : String) (s : Shard) {id : OrderId} {order order' : VirtualOrder}
    (horder : s.orders[id]? = some order) (hpending : order.status = .pending)
    (hclient : order'.payload.clientOrderId = order.payload.clientOrderId)
    (hstatus : order'.status = .filled ∨ order'.status = .cancelled) :
    Leaves c s { s with orders := s.orders.set id order' } := by
  have hset : ∀ status, Shard.tally { s with orders := s.orders.set id order' } status c =
      s.tally status c - order.tally status c + order'.tally status c :=
    fun status => sum_map_set _ _ _ horder order'
  have hmoved : order'.tally .pending c + order'.tally .filled c ≤
      order.tally .pending c + order.tally .filled c ∧ order.tally .filled c ≤ order'.tally .filled c := by
    unfold VirtualOrder.tally
    rw [hclient, hpending]
    by_cases hid : order.payload.clientOrderId = some c <;> rcases hstatus with h | h <;> simp [hid, h]
  refine ⟨?_, ?_, rfl, by simp⟩
  · rw [hset, hset]
    omega
  · rw [hset]
    omega

theorem cancelOrder_leaves (c : String) {s s' : Shard} {id : OrderId} (h : s.cancelOrder id = .ok s') :
    Leaves c s s' := by
  obtain ⟨order, horder, hpending, rfl⟩ := cancelOrder_ok h
  exact leaves_set c s horder hpending rfl (.inr rfl)

theorem squareOffPosition_leaves (c : String) (cond : Conditions) (s : Shard) (id : PositionId)
    (allowClosedMarket : Bool) : Leaves c s (s.squareOffPosition cond id allowClosedMarket).1 := by
  rcases squareOffPosition_cases cond s id allowClosedMarket with
    ⟨-, heq⟩ | ⟨pos, refreshed, -, -, heq | ⟨payload, forced, hpayload, heq⟩⟩
  · rw [heq]
    exact Leaves.refl c s
  · rw [heq]
    exact ⟨le_rfl, le_rfl, rfl, le_rfl⟩
  · have hanon : payload.clientOrderId ≠ some c := by
      unfold exitOrder at hpayload
      split at hpayload <;> cases hpayload
      exact fun h => by cases h
    have hplaced := placeOrderLocked_leaves c cond (s.store id refreshed) hanon true (some forced)
    rw [heq]
    exact ⟨hplaced.live, hplaced.filled, hplaced.remembered, hplaced.longer⟩

theorem fillPending_leaves (c : String) (cond : Conditions) (ltp : ℚ) (s : Shard) (id : OrderId) :
    Leaves c s (s.fillPending cond ltp id) := by
  rcases fillPending_cases cond ltp s id with ⟨heq, -⟩ | ⟨order, fillAt, horder, -, hpending, heq⟩
  · rw [heq]
    exact Leaves.refl c s
  · have hmarked : Leaves c s { s with orders := s.orders.set id (order.markedFilled fillAt) } :=
      leaves_set c s horder hpending rfl (.inl rfl)
    rcases heq with heq | ⟨leg, hleg, heq⟩
    · rw [heq]
      exact hmarked
    · have hanon : leg.clientOrderId ≠ some c := by
        rw [legOrder] at hleg
        split at hleg <;> cases hleg
        exact fun h => by cases h
      rw [heq]
      exact hmarked.trans (placeOrderLocked_leaves c cond _ hanon true _)

theorem evaluatePendingOrders_leaves (c : String) (cond : Conditions) (s : Shard) (symbol : String) (ltp : ℚ) :
    Leaves c s (s.evaluatePendingOrders cond symbol ltp) := by
  rw [evaluatePendingOrders]
  split
  · exact Leaves.refl c s
  · induction s.candidates symbol generalizing s with
    | nil => exact Leaves.refl c s
    | cons id ids ih => exact (fillPending_leaves c cond ltp s id).trans (ih _)

end Shard

namespace Lives

/-! ### Every call -/

/-- While all answers were faithful: each order of the log has its name; the orders of the client
are filled at most once; before an acceptance there is none to fill; after it the client id, unless
it is empty, leads to the accepted order, and past a restart to none. -/
structure Steady (c : String) (u : Lives) : Prop where
  named : u.names.length = u.shard.orders.length
  known : ∀ name, u.accepted = some name → name < u.fresh
  once : u.shard.tally .pending c + u.fills ≤ 1
  before : u.accepted = none → u.shard.tally .pending c + u.shard.tally .filled c = 0 ∧ u.fills = 0 ∧
    u.restarted = false ∧ u.shard.idempotency.get? c = none
  answers : ∀ name, u.accepted = some name → c ≠ "" → u.restarted = false →
    ∃ id, u.shard.idempotency.get? c = some id ∧ u.names[id]? = some name
  forgotten : u.restarted = true → u.shard.idempotency.get? c = none

variable {c : String} {u : Lives}

theorem after_names {s : Shard} (hnamed : u.names.length = u.shard.orders.length)
    (hlonger : u.shard.orders.length ≤ s.orders.length) :
    (u.after c s).names.length = s.orders.length ∧
      ∀ (i : Nat) name, u.names[i]? = some name → (u.after c s).names[i]? = some name := by
  rw [after]
  refine ⟨by simp; omega, fun i name hi => ?_⟩
  obtain ⟨hlt, -⟩ := List.getElem?_eq_some_iff.mp hi
  simp only [List.getElem?_append_left hlt]
  exact hi

theorem Steady.after (h : Steady c u) {s : Shard} (hs : u.shard.Leaves c s) : Steady c (u.after c s) := by
  obtain ⟨hlive, hfilled, hremembered, hlonger⟩ := hs
  obtain ⟨hlength, hold⟩ := after_names (c := c) h.named hlonger
  refine ⟨hlength, fun name ha => Nat.lt_add_right _ (h.known name ha), ?_, fun ha => ?_, fun name ha hc hr => ?_,
    fun hr => hremembered.trans (h.forgotten hr)⟩
  · have hle := h.once
    simp only [Lives.after]
    omega
  · obtain ⟨hnone, hzero, hr, hget⟩ := h.before ha
    have hp := u.shard.tally_nonneg .pending c
    have hf := u.shard.tally_nonneg .filled c
    have hp' := s.tally_nonneg .pending c
    have hf' := s.tally_nonneg .filled c
    refine ⟨?_, ?_, hr, hremembered.trans hget⟩ <;> simp only [Lives.after] <;> omega
  · obtain ⟨id, hget, hname⟩ := h.answers name ha hc hr
    exact ⟨id, hremembered.trans hget, hold id name hname⟩

theorem after_self (c : String) (u : Lives) : u.after c u.shard = u := by
  simp [after]

/-- A submission of an order that nothing was accepted for yet. -/
private theorem first_steady (h : Steady c u) (hnone : u.accepted = none) {s : Shard} {order : VirtualOrder}
    (hclient : order.payload.clientOrderId = some c)
    (hstatus : order.status = .rejected ∨ order.status = .pending ∨ order.status = .filled) (horders : s.orders = u.shard.orders ++ [order])
    (hidem : s.idempotency.get? c = if order.status ≠ .rejected ∧ c ≠ "" then some u.shard.orders.length
      else u.shard.idempotency.get? c) :
    Steady c ((u.after c s).answered u.shard.orders.length) ∧
      ((u.after c s).answered u.shard.orders.length).faithful = u.faithful := by
  obtain ⟨hzero, hfills, hr, hget⟩ := h.before hnone
  have hp := u.shard.tally_nonneg .pending c
  have hf := u.shard.tally_nonneg .filled c
  have hlonger : u.shard.orders.length ≤ s.orders.length := by simp [horders]
  obtain ⟨hlength, -⟩ := after_names (c := c) h.named hlonger
  have hname : (u.after c s).names[u.shard.orders.length]? = some u.fresh := by
    simp [after, horders, ← h.named]
  have hlogged : s.orders[u.shard.orders.length]? = some order := by simp [horders]
  have hfresh : (u.after c s).fresh = u.fresh + 1 := by simp [after, horders]
  have hpending := Shard.tally_append horders .pending c
  have hfilled := Shard.tally_append horders .filled c
  have haccepted : (u.after c s).accepted = none := hnone
  have hfills' : (u.after c s).fills = order.tally .filled c := by
    simp only [after, hfills]
    omega
  unfold answered
  simp only [haccepted]
  by_cases hlive : order.status = .pending ∨ order.status = .filled
  · have hany : ((u.after c s).shard.orders[u.shard.orders.length]?).any
        (fun o => o.status = .pending ∨ o.status = .filled) = true := by
      have hshard : (u.after c s).shard.orders[u.shard.orders.length]? = some order := hlogged
      simpa [hshard] using hlive
    have hnot : order.status ≠ .rejected := by
      rcases hlive with hs | hs <;> rw [hs] <;> decide
    have hone : order.tally .pending c + order.tally .filled c ≤ 1 := by
      unfold VirtualOrder.tally
      rcases hlive with hs | hs <;> simp [hclient, hs]
    rw [if_pos hany]
    refine ⟨⟨hlength, fun name ha => ?_, ?_, fun ha => ?_, fun name ha hc _ => ?_, fun ht => ?_⟩, rfl⟩
    · rw [hname] at ha
      cases ha
      rw [hfresh]
      omega
    · have hshard : (u.after c s).shard = s := rfl
      simp only [hshard, hfills', hpending]
      omega
    · rw [hname] at ha
      cases ha
    · refine ⟨u.shard.orders.length, ?_, ha⟩
      have hrem : s.idempotency.get? c = some u.shard.orders.length := by
        rw [hidem, if_pos ⟨hnot, hc⟩]
      exact hrem
    · have hrt : u.restarted = true := ht
      rw [hr] at hrt
      cases hrt
  · have hrejected : order.status = .rejected := hstatus.resolve_right hlive
    have hany : ((u.after c s).shard.orders[u.shard.orders.length]?).any
        (fun o => o.status = .pending ∨ o.status = .filled) = false := by
      have hshard : (u.after c s).shard.orders[u.shard.orders.length]? = some order := hlogged
      simpa [hshard] using hlive
    have htally : order.tally .pending c = 0 ∧ order.tally .filled c = 0 := by
      simp [VirtualOrder.tally, hrejected]
    have hleaves : u.shard.Leaves c s := by
      refine ⟨?_, ?_, ?_, hlonger⟩
      · rw [hpending, hfilled]
        omega
      · rw [hfilled]
        omega
      · rw [hidem, if_neg fun hk => hk.1 hrejected]
    rw [hany]
    exact ⟨h.after hleaves, rfl⟩

private theorem replay_exact (h : Steady c u) (hfaithful : u.faithful = true) {id : OrderId}
    (hseen : ((some c).filter (· ≠ "")).bind u.shard.idempotency.get? = some id) :
    ((u.answered id).faithful = true ↔ (u.accepted.isSome = true → c ≠ "" ∧ u.restarted = false)) ∧
      ((u.answered id).faithful = true → Steady c (u.answered id)) := by
  have hc : c ≠ "" := by
    rintro rfl
    simp [Option.filter_some] at hseen
  have hget : u.shard.idempotency.get? c = some id := by simpa [Option.filter_some, hc] using hseen
  cases haccepted : u.accepted with
  | none =>
    rw [(h.before haccepted).2.2.2] at hget
    cases hget
  | some name =>
    have hr : u.restarted = false := by
      cases hr : u.restarted with
      | false => rfl
      | true =>
        rw [h.forgotten hr] at hget
        cases hget
    obtain ⟨id', hget', hname⟩ := h.answers name haccepted hc hr
    rw [hget] at hget'
    cases hget'
    have hsame : u.answered id = u := by
      obtain ⟨shard, names, fresh, accepted, restarted, fills, faithful⟩ := u
      simp only at haccepted hname hfaithful
      subst haccepted hfaithful
      simp [answered, hname]
    rw [hsame]
    exact ⟨iff_of_true hfaithful fun _ => ⟨hc, hr⟩, fun _ => h⟩

private theorem stranger_unfaithful (h : Steady c u) {name : Nat} (haccepted : u.accepted = some name)
    {s : Shard} {order : VirtualOrder} (horders : s.orders = u.shard.orders ++ [order]) :
    ((u.after c s).answered u.shard.orders.length).faithful = false := by
  have hlt := h.known name haccepted
  have hname : (u.after c s).names[u.shard.orders.length]? = some u.fresh := by
    simp [after, horders, ← h.named]
  have haccepted' : (u.after c s).accepted = some name := haccepted
  have hne : u.fresh ≠ name := by omega
  rw [answered]
  simp only [haccepted', hname, Option.some.injEq, hne, decide_false, Bool.and_false]

private theorem restart_steady (h : Steady c u) (kept : Nat → Bool) (rows : Rows) :
    Steady c (u.step c (.restart kept rows)) := by
  have hsub : (((u.shard.orders.zip u.names).filter fun e => kept e.2).map (·.1)).Sublist u.shard.orders := by
    have hzip := (List.filter_sublist (p := fun e : VirtualOrder × Nat => kept e.2)
      (l := u.shard.orders.zip u.names)).map (·.1)
    rwa [List.map_fst_zip h.named.ge] at hzip
  have hbooks : ∀ orders, (Shard.hydrateAnon { limits := u.shard.limits } { rows with orders }).orders = orders ∧
      (Shard.hydrateAnon { limits := u.shard.limits } { rows with orders }).idempotency = Dict.empty :=
    fun orders => ⟨rfl, rfl⟩
  have hle : ∀ status, (u.step c (.restart kept rows)).shard.tally status c ≤ u.shard.tally status c := by
    intro status
    rw [Shard.tally]
    refine (hsub.map (·.tally status c)).sum_le_sum fun x hx => ?_
    obtain ⟨order, -, rfl⟩ := List.mem_map.mp hx
    rw [VirtualOrder.tally]
    split <;> omega
  have hnonneg : ∀ status, 0 ≤ (u.step c (.restart kept rows)).shard.tally status c :=
    fun status => Shard.tally_nonneg _ status c
  have hforgotten : (u.step c (.restart kept rows)).shard.idempotency.get? c = none := rfl
  refine ⟨?_, h.known, ?_, fun ha => ?_, fun name ha _ hr => ?_, fun _ => hforgotten⟩
  · simp only [step, (hbooks _).1, List.length_map]
  · have hp := hle .pending
    have hone := h.once
    have hfills : (u.step c (.restart kept rows)).fills = u.fills := rfl
    omega
  · have hnone : u.accepted = none := ha
    obtain ⟨hzero, hfills, hr, -⟩ := h.before hnone
    have hp := hle .pending
    have hf := hle .filled
    have hp' := hnonneg .pending
    have hf' := hnonneg .filled
    have hup := u.shard.tally_nonneg .pending c
    have huf := u.shard.tally_nonneg .filled c
    have hrestarted : (u.step c (.restart kept rows)).restarted = false := by simp [step, hr, hnone]
    exact ⟨by omega, hfills, hrestarted, hforgotten⟩
  · have hsome : u.accepted = some name := ha
    simp [step, hsome] at hr

/-- A call answers faithfully just when the client id is still remembered, and then keeps all steady. -/
theorem step_exact (h : Steady c u) (hfaithful : u.faithful = true) (call : LifeCall) :
    ((u.step c call).faithful = true ↔ u.Remembers c call) ∧
      ((u.step c call).faithful = true → Steady c (u.step c call)) := by
  have hleaves : ∀ s, u.shard.Leaves c s →
      ((u.after c s).faithful = true ↔ True) ∧ ((u.after c s).faithful = true → Steady c (u.after c s)) :=
    fun s hs => ⟨iff_of_true hfaithful trivial, fun _ => h.after hs⟩
  cases call with
  | placeOrder cond payload allowClosedMarket =>
    by_cases hid : payload.clientOrderId = some c
    · have hplaced := Shard.placeOrderLocked_logs cond u.shard payload allowClosedMarket none
      simp only [step, Remembers, hid, if_true, true_imp_iff]
      rw [Shard.placeOrder]
      rcases hplaced with ⟨id, hseen, heq⟩ | ⟨hnew, order, hpayload, hstatus, hanswer, horders, hidem⟩
      · rw [heq, after_self]
        exact replay_exact h hfaithful (by rw [← hid]; exact hseen)
      · generalize u.shard.placeOrderLocked cond payload allowClosedMarket none = placed at *
        rw [hanswer]
        cases haccepted : u.accepted with
        | none =>
          have hget := hidem c
          simp only [hid, true_and] at hget
          obtain ⟨hsteady, hsame⟩ := first_steady h haccepted (by rw [hpayload, hid]) hstatus horders hget
          exact ⟨iff_of_true (hsame.trans hfaithful) fun ht => (by cases ht), fun _ => hsteady⟩
        | some name =>
          have hforgotten : ¬ (c ≠ "" ∧ u.restarted = false) := by
            rintro ⟨hc, hr⟩
            obtain ⟨id, hget, -⟩ := h.answers name haccepted hc hr
            rw [hid] at hnew
            simp [Option.filter_some, hc, hget] at hnew
          have hother := stranger_unfaithful h haccepted horders
          refine ⟨iff_of_false (by simp [hother]) fun hr => hforgotten (hr rfl), fun ht => ?_⟩
          rw [hother] at ht
          cases ht
    · have hkept := hleaves _ (Shard.placeOrderLocked_leaves c cond u.shard hid allowClosedMarket none)
      simp only [step, Remembers, hid, if_false, false_imp_iff]
      exact hkept
  | cancelOrder id =>
    simp only [step, Remembers]
    split
    · rename_i s hcancel
      exact hleaves s (Shard.cancelOrder_leaves c hcancel)
    · exact ⟨iff_of_true hfaithful trivial, fun _ => h⟩
  | squareOffPosition cond id allowClosedMarket =>
    exact hleaves _ (Shard.squareOffPosition_leaves c cond u.shard id allowClosedMarket)
  | evaluatePendingOrders cond symbol ltp =>
    exact hleaves _ (Shard.evaluatePendingOrders_leaves c cond u.shard symbol ltp)
  | restart kept rows =>
    exact ⟨iff_of_true hfaithful trivial, fun _ => restart_steady h kept rows⟩

end Lives

end Droid.Paper
