import Droid.Paper.Kept

/-! The tasks of one user over one shard, interleaved where they are suspended. A task gives
way only while it waits for the lock, for a quote or for the database: awaiting a call that
returns at once suspends nothing. So the sweep's leg, whose price is given, runs to its end
once the resting order is marked, though the lock is already released. -/
namespace Droid.Paper
open Lib

inductive Request where
  | placeOrder (payload : OrderPayload) (allowClosedMarket : Bool)
  | cancelOrder (id : OrderId)
  | squareOffPosition (id : PositionId) (allowClosedMarket : Bool)
  | evaluatePendingOrders (symbol : String) (ltp : ℚ)

/-- Where a task is suspended, with what it has read so far. -/
inductive Point where
  | waiting (request : Request)
  | resolving (payload : OrderPayload) (capital realized : ℚ)
  | rechecking (payload : OrderPayload) (fillPrice : ℚ) (source : FillSource) (capital realized : ℚ)
  | exiting (id : PositionId) (allowClosedMarket : Bool)
  | saving
  | sweeping (ltp : ℚ) (ids : List OrderId)
  | finished

namespace Point

/-- The task holds the lock. -/
def locked : Point → Bool
  | .resolving .. | .rechecking .. | .exiting .. | .saving => true
  | .waiting _ | .sweeping .. | .finished => false

/-- The gates that the task has passed still let its order through. -/
def Passed (s : Shard) : Point → Prop
  | .resolving payload _ _ => s.riskGate payload = none
  | .rechecking payload fillPrice _ _ _ => s.riskGate payload = none ∧ 0 ≤ fillPrice
  | _ => True

theorem passed_of_unlocked (s : Shard) {point : Point} (h : point.locked = false) : point.Passed s := by
  cases point <;> trivial

end Point

namespace Shard

/-! ### Between two suspensions -/

/-- From the lock to the first suspension. -/
def begin (cond : Conditions) (s : Shard) : Request → Shard × Point
  | .placeOrder payload allowClosedMarket =>
    match (payload.clientOrderId.filter (· ≠ "")).bind s.idempotency.get? with
    | some _ => (s, .finished)
    | none =>
      match (cond.sessionGate payload.underlying payload.symbol allowClosedMarket).map .marketClosed
          |>.or (s.riskGate payload) with
      | some reason => ((s.reject payload reason).1, .saving)
      | none => (s, .resolving payload s.capital s.realized)
  | .cancelOrder id =>
    match s.cancelOrder id with
    | .error _ => (s, .finished)
    | .ok s => (s, .saving)
  | .squareOffPosition id allowClosedMarket =>
    match s.openPosition id with
    | none => (s, .finished)
    | some _ => (s, .exiting id allowClosedMarket)
  | .evaluatePendingOrders symbol ltp =>
    if ltp ≤ 0 then (s, .finished) else (s, .sweeping ltp (s.candidates symbol))

/-- The margin gate, on the capital and result read before the quote, and the update. -/
def settle (s : Shard) (payload : OrderPayload) (fillPrice : ℚ) (source : FillSource)
    (capital realized : ℚ) : Shard × Point :=
  match marginShort { s with capital, realized } payload fillPrice with
  | some reason => ((s.reject payload reason).1, .saving)
  | none =>
    (((s.applyFill payload fillPrice).submit
      { payload, status := .filled, fillPrice := some fillPrice, fillSource := some source
        estimatedCosts := some (estimateCosts payload.side fillPrice payload.quantity) }).1, .saving)

/-- The limit fills that the fat-finger check asks another quote for. -/
def rechecks (payload : OrderPayload) (source : FillSource) : Bool :=
  payload.orderType ∈ [.limit, .slLimit] ∧ source = .limit ∧ 0 < payload.price

def resolved (cond : Conditions) (s : Shard) (payload : OrderPayload) (capital realized : ℚ) : Shard × Point :=
  match resolveFill cond.market payload none with
  | .resting => ((s.submit { payload, status := .pending }).1, .saving)
  | .unavailable => ((s.reject payload (unfilledReason payload)).1, .saving)
  | .filled price source =>
    if price ≤ 0 then ((s.reject payload (unfilledReason payload)).1, .saving)
    else if rechecks payload source then (s, .rechecking payload (roundTo 2 price) source capital realized)
    else s.settle payload (roundTo 2 price) source capital realized

def rechecked (cond : Conditions) (s : Shard) (payload : OrderPayload) (fillPrice : ℚ) (source : FillSource)
    (capital realized : ℚ) : Shard × Point :=
  match fatFinger cond.market payload source with
  | some reason => ((s.reject payload reason).1, .saving)
  | none => s.settle payload fillPrice source capital realized

/-- A task goes on until it is suspended again; none where it has to wait for the lock. -/
def resume (cond : Conditions) (s : Shard) (free : Bool) : Point → Option (Shard × Point)
  | .waiting request => if free then some (s.begin cond request) else none
  | .resolving payload capital realized => some (s.resolved cond payload capital realized)
  | .rechecking payload fillPrice source capital realized =>
    some (s.rechecked cond payload fillPrice source capital realized)
  | .exiting id allowClosedMarket =>
    match s.squareOffPosition cond id allowClosedMarket with
    | (s, .error _) => some (s, .finished)
    | (s, .ok _) => some (s, .saving)
  | .saving => some (s, .finished)
  | .sweeping _ [] => some (s, .finished)
  | .sweeping ltp (id :: ids) =>
    match (s.orders[id]?).bind (touchPrice · ltp) with
    | none => some (s, .sweeping ltp ids)
    | some _ => if free then some (s.fillPending cond ltp id, .sweeping ltp ids) else none
  | .finished => none

end Shard

/-- The shard, who holds its lock, where each task is, and what same-side adds have grown. -/
structure UserTasks where
  shard : Shard
  holder : Option Nat := none
  points : List Point := []
  grown : PositionId → Bool := fun _ => false

inductive Turn where
  | submit (request : Request)
  | resume (task : Nat) (cond : Conditions)

namespace UserTasks

def step (u : UserTasks) : Turn → UserTasks
  | .submit request => { u with points := u.points ++ [.waiting request] }
  | .resume task cond =>
    match u.points[task]? with
    | none => u
    | some point =>
      match u.shard.resume cond u.holder.isNone point with
      | none => u
      | some (shard, point') =>
        { shard
          holder := if point'.locked then some task else if point.locked then none else u.holder
          points := u.points.set task point'
          grown := Shard.grownAfter u.grown u.shard shard }

/-- The shard is in order, a task that holds the lock is the holder, and the gates that a task
has passed still let its order through. -/
structure Sound (u : UserTasks) : Prop where
  kept : u.shard.Kept u.grown
  locked : ∀ (task : Nat) point, u.points[task]? = some point → point.locked = true → u.holder = some task
  passed : ∀ (task : Nat) point, u.points[task]? = some point → point.Passed u.shard

end UserTasks

namespace Shard

/-! ### One turn -/

/-- What a task may do before it is suspended again: keep the shard in order, and leave it alone
unless it holds the lock or finds it free; it takes the lock only then, and goes on to wait for a
quote only past its gates. -/
structure Keeping (s : Shard) (grown : PositionId → Bool) (holds : Prop) (s' : Shard) (point' : Point) :
    Prop where
  kept : s'.Kept (grownAfter grown s s')
  alone : s' = s ∨ holds
  locked : point'.locked = true → holds
  passed : point'.Passed s'

variable {s s' : Shard} {grown : PositionId → Bool} {holds : Prop}

private theorem Keeping.same (h : s.Kept grown) {point' : Point} (hl : point'.locked = true → holds)
    (hp : point'.Passed s) : Keeping s grown holds s point' where
  kept := h.of_books rfl rfl
  alone := .inl rfl
  locked := hl
  passed := hp

private theorem Keeping.saving (h : s'.Kept (grownAfter grown s s')) (hh : holds) :
    Keeping s grown holds s' .saving where
  kept := h
  alone := .inr hh
  locked _ := hh
  passed := trivial

private theorem Keeping.released (h : s'.Kept (grownAfter grown s s')) (hh : holds) {point' : Point}
    (hl : point'.locked = false) : Keeping s grown holds s' point' where
  kept := h
  alone := .inr hh
  locked _ := hh
  passed := Point.passed_of_unlocked s' hl

private theorem Keeping.finished (h : s.Kept grown) : Keeping s grown holds s .finished :=
  .same h (fun hl => by cases hl) trivial

private theorem begin_keeping (h : s.Kept grown) (hh : holds) (cond : Conditions) (request : Request) :
    Keeping s grown holds (s.begin cond request).1 (s.begin cond request).2 := by
  cases request with
  | placeOrder payload allowClosedMarket =>
    unfold begin
    simp only
    split
    · exact .finished h
    · split
      · exact .saving (h.of_books rfl rfl) hh
      · rename_i hgate
        exact .same h (fun _ => hh) (Option.or_eq_none_iff.mp hgate).2
  | cancelOrder id =>
    unfold begin
    simp only
    split
    · exact .finished h
    · rename_i s' hcancel
      exact .saving (h.cancelOrder hcancel) hh
  | squareOffPosition id allowClosedMarket =>
    unfold begin
    simp only
    split
    · exact .finished h
    · exact .same h (fun _ => hh) trivial
  | evaluatePendingOrders symbol ltp =>
    unfold begin
    simp only
    split
    · exact .finished h
    · exact .same h (fun _ => hh) (by trivial)

private theorem settle_keeping (h : s.Kept grown) (hh : holds) {payload : OrderPayload}
    (hrisk : s.riskGate payload = none) {fillPrice : ℚ} (hp : 0 ≤ fillPrice) (source : FillSource)
    (capital realized : ℚ) :
    Keeping s grown holds (s.settle payload fillPrice source capital realized).1
      (s.settle payload fillPrice source capital realized).2 := by
  rw [settle]
  split
  · exact .saving (h.of_books rfl rfl) hh
  · exact .saving ((h.applyFill hrisk hp).submit _) hh

/-- Past its gates, with the quote. -/
private theorem resolved_keeping (h : s.Kept grown) (hh : holds) (cond : Conditions) {payload : OrderPayload}
    (hrisk : s.riskGate payload = none) (capital realized : ℚ) :
    Keeping s grown holds (s.resolved cond payload capital realized).1
      (s.resolved cond payload capital realized).2 := by
  have hself : s.Kept (grownAfter grown s s) := h.of_books rfl rfl
  rw [resolved]
  split
  · exact .saving (hself.submit _) hh
  · exact .saving (h.of_books rfl rfl) hh
  · split
    · exact .saving (h.of_books rfl rfl) hh
    · rename_i hprice
      have hfill := roundTo_nonneg 2 (not_le.mp hprice).le
      split
      · exact .same h (fun _ => hh) ⟨hrisk, hfill⟩
      · exact settle_keeping h hh hrisk hfill _ _ _

/-- A task that is resumed keeps all in order; where it changes the shard or takes the lock,
it holds the lock already or finds it free. -/
theorem Kept.resume (h : s.Kept grown) {cond : Conditions} {free : Bool} {point point' : Point}
    (hpassed : point.Passed s) (hresume : s.resume cond free point = some (s', point')) :
    Keeping s grown (free = true ∨ point.locked = true) s' point' := by
  cases point with
  | waiting request =>
    simp only [Shard.resume] at hresume
    split at hresume
    · rename_i hfree
      have hk := begin_keeping h (.inl hfree : free = true ∨ (Point.waiting request).locked = true) cond request
      rw [Option.some.inj hresume] at hk
      exact hk
    · cases hresume
  | resolving payload capital realized =>
    have hk := resolved_keeping h (.inr rfl : free = true ∨ (Point.resolving payload capital realized).locked = true)
      cond hpassed capital realized
    rw [Option.some.inj hresume] at hk
    exact hk
  | rechecking payload fillPrice source capital realized =>
    have hk : Keeping s grown (free = true ∨ true = true)
        (s.rechecked cond payload fillPrice source capital realized).1
        (s.rechecked cond payload fillPrice source capital realized).2 := by
      rw [rechecked]
      split
      · exact .saving (h.of_books rfl rfl) (.inr rfl)
      · exact settle_keeping h (.inr rfl) hpassed.1 hpassed.2 _ _ _
    rw [Option.some.inj hresume] at hk
    exact hk
  | exiting id allowClosedMarket =>
    have hk := h.squareOffPosition cond id allowClosedMarket
    simp only [Shard.resume] at hresume
    split at hresume
    · rename_i s₁ _ heq
      cases hresume
      rw [heq] at hk
      exact .released hk (.inr rfl) rfl
    · rename_i s₁ _ heq
      cases hresume
      rw [heq] at hk
      exact .saving hk (.inr rfl)
  | saving =>
    cases hresume
    exact .finished h
  | sweeping ltp ids =>
    cases ids with
    | nil =>
      cases hresume
      exact .finished h
    | cons id ids =>
      simp only [Shard.resume] at hresume
      split at hresume
      · cases hresume
        exact .same h (fun hl => by cases hl) trivial
      · split at hresume
        · rename_i hfree
          cases hresume
          exact .released (h.fillPending cond ltp id) (.inl hfree) rfl
        · cases hresume
  | finished => cases hresume

end Shard

namespace UserTasks

/-! ### Every interleaving -/

private theorem step_sound {u : UserTasks} (h : u.Sound) (turn : Turn) : (u.step turn).Sound := by
  cases turn with
  | submit request =>
    have hold : ∀ (task : Nat) point, (u.points ++ [Point.waiting request])[task]? = some point →
        u.points[task]? = some point ∨ point = .waiting request := by
      intro task point hk
      rw [List.getElem?_append] at hk
      split at hk
      · exact .inl hk
      · rw [List.getElem?_singleton] at hk
        split at hk <;> cases hk
        exact .inr rfl
    refine ⟨h.kept, fun task point hk hl => ?_, fun task point hk => ?_⟩
    · rcases hold task point hk with hk | rfl
      · exact h.locked task point hk hl
      · cases hl
    · rcases hold task point hk with hk | rfl
      · exact h.passed task point hk
      · trivial
  | resume task cond =>
    cases hpoint : u.points[task]? with
    | none =>
      simp only [step, hpoint]
      exact h
    | some point =>
      cases hresume : u.shard.resume cond u.holder.isNone point with
      | none =>
        simp only [step, hpoint, hresume]
        exact h
      | some next =>
        obtain ⟨shard, point'⟩ := next
        obtain ⟨hkept, halone, hlocked, hpassed⟩ := h.kept.resume (h.passed task point hpoint) hresume
        -- while another task holds the lock, this one neither takes it nor touches the shard
        have hwaits : ∀ other q, other ≠ task → u.points[other]? = some q → q.locked = true →
            u.holder = some other ∧ ¬ (u.holder.isNone = true ∨ point.locked = true) := by
          intro other q hne hq hl
          have hholder := h.locked other q hq hl
          refine ⟨hholder, ?_⟩
          rintro (hfree | hown)
          · rw [hholder] at hfree
            cases hfree
          · exact hne (Option.some.inj (hholder.symm.trans (h.locked task point hpoint hown)))
        have hset : ∀ other q, (u.points.set task point')[other]? = some q →
            task = other ∧ point' = q ∨ other ≠ task ∧ u.points[other]? = some q := by
          intro other q hq
          rw [List.getElem?_set] at hq
          split_ifs at hq with heq
          · exact .inl ⟨heq, Option.some.inj hq⟩
          · exact .inr ⟨Ne.symm heq, hq⟩
        simp only [step, hpoint, hresume]
        refine ⟨hkept, fun other q hq hl => ?_, fun other q hq => ?_⟩
        · rcases hset other q hq with ⟨rfl, rfl⟩ | ⟨hne, hq⟩
          · simp only [hl, if_true]
          · obtain ⟨hholder, hnot⟩ := hwaits other q hne hq hl
            simp only [if_neg (mt hlocked hnot), if_neg fun hown => hnot (.inr hown), hholder]
        · rcases hset other q hq with ⟨rfl, rfl⟩ | ⟨hne, hq⟩
          · exact hpassed
          · cases hl : q.locked with
            | false => exact Point.passed_of_unlocked shard hl
            | true =>
              obtain ⟨-, hnot⟩ := hwaits other q hne hq hl
              have hsame : shard = u.shard := halone.resolve_right hnot
              simp only [hsame]
              exact h.passed other q hq

/-- The tasks that a user submits find the shard in order after every turn, in whatever order
they take turns. -/
theorem interleavings_kept {s : Shard} {grown : PositionId → Bool} (h : s.Kept grown) (turns : List Turn) :
    Always step (fun u => u.shard.Kept u.grown) { shard := s, grown } turns := by
  have hsound : Sound { shard := s, grown } := ⟨h, fun _ _ hk => by simp at hk, fun _ _ hk => by simp at hk⟩
  exact (always_of_step (P := Sound) (fun u turn hu => step_sound hu turn) hsound turns).mono fun u hu => hu.kept

theorem kept_empty (capital : ℚ) (limits : RiskLimits) :
    Shard.Kept { capital, limits } fun _ => false where
  position := fun _ _ hk => by cases hk
  room := Nat.zero_le _
  grown := fun _ _ _ _ hg => by cases hg

/-- A sweep and a second order are submitted while the first order waits for its quote. -/
theorem sweep_between_orders_kept :
    Always step (fun u => u.shard.Kept u.grown) { shard := { } }
      [.submit (.placeOrder Shard.restingBuy true), .resume 0 { },
        .submit (.evaluatePendingOrders Shard.restingBuy.symbol 90),
        .submit (.placeOrder Shard.restingBuy true), .resume 1 { }, .resume 0 { }, .resume 0 { },
        .resume 1 { }, .resume 2 { }, .resume 1 { }, .resume 2 { }, .resume 2 { }, .resume 1 { }] :=
  interleavings_kept (kept_empty 1000000 { }) _

end UserTasks

/-! ### Whole calls, in the order the tasks end -/

namespace Shard

/-- What an order does once its gates are passed. -/
def pastGates (s : Shard) (quoted : Conditions) (payload : OrderPayload) : Shard :=
  match resolveFill quoted.market payload none with
  | .resting => (s.submit { payload, status := .pending }).1
  | .unavailable => (s.reject payload (unfilledReason payload)).1
  | .filled price source => (s.execute quoted payload price source).1

/-- The gates are passed, and let through what the whole call lets through. -/
def Placing (s : Shard) (payload : OrderPayload) (request : Request) : Prop :=
  ∃ closed allowClosedMarket, request = .placeOrder payload allowClosedMarket ∧ ∀ quoted : Conditions,
    s.pastGates quoted payload = (s.placeOrder { quoted with closed } payload allowClosedMarket).1

end Shard

namespace Point

/-- The task is past what it does to the shard. -/
def ended : Point → Bool
  | .saving | .finished => true
  | _ => false

/-- What is left of a task at this point is the rest of one call for its request. -/
def From (s : Shard) (request : Request) : Point → Prop
  | .waiting waits => waits = request
  | .resolving payload capital realized => capital = s.capital ∧ realized = s.realized ∧ s.Placing payload request
  | .rechecking payload fillPrice source capital realized => s.Placing payload request ∧
      ∃ quoted : Conditions, ∀ asked : Conditions, s.rechecked asked payload fillPrice source capital realized =
        (s.pastGates { quoted with recheck := asked.market } payload, .saving)
  | .exiting id allowClosedMarket => request = .squareOffPosition id allowClosedMarket
  | .sweeping ltp _ => ∃ symbol, request = .evaluatePendingOrders symbol ltp
  | .saving | .finished => True

theorem From.of_unlocked {s : Shard} {request : Request} {point : Point} (h : point.From s request)
    (hl : point.locked = false) (s' : Shard) : point.From s' request := by
  cases point with
  | resolving | rechecking => cases hl
  | _ => exact h

theorem From.of_ended {s : Shard} {request : Request} {point : Point} (h : point.ended = true) : point.From s request := by
  cases point with
  | saving | finished => trivial
  | _ => cases h

end Point

/-- A call of the service for the request, whatever it meets; a sweep makes one for each leg. -/
def Request.Call (call : Shard → Shard) : Request → Prop
  | .placeOrder payload allowClosedMarket => ∃ cond, call = fun s => (s.placeOrder cond payload allowClosedMarket).1
  | .cancelOrder id => call = fun s => (s.cancelOrder id).toOption.getD s
  | .squareOffPosition id allowClosedMarket => ∃ cond, call = fun s => (s.squareOffPosition cond id allowClosedMarket).1
  | .evaluatePendingOrders _ ltp => ∃ cond id, call = fun s => s.fillPending cond ltp id

def Request.sweeps : Request → Bool
  | .evaluatePendingOrders .. => true
  | _ => false

namespace Shard

private theorem settle_whole (s : Shard) (cond : Conditions) (payload : OrderPayload) {price : ℚ}
    (hprice : ¬ price ≤ 0) {source : FillSource} (hfat : fatFinger cond.recheck payload source = none) :
    s.settle payload (roundTo 2 price) source s.capital s.realized =
      ((s.execute cond payload price source).1, .saving) := by
  rw [settle, execute]
  rw [if_neg hprice]
  simp only [hfat, Option.none_or]
  split
  · rename_i reason hshort
    have hshort' : s.marginShort payload (roundTo 2 price) = some reason := hshort
    rw [hshort']
  · rename_i hshort
    have hshort' : s.marginShort payload (roundTo 2 price) = none := hshort
    rw [hshort']

/-- An order that does not end at its gates has done nothing yet. -/
theorem begin_placeOrder (s : Shard) (cond : Conditions) (payload : OrderPayload) (allowClosedMarket : Bool) :
    ((s.begin cond (.placeOrder payload allowClosedMarket)).2.ended = true ∧
        (s.begin cond (.placeOrder payload allowClosedMarket)).1 = (s.placeOrder cond payload allowClosedMarket).1) ∨
      (s.begin cond (.placeOrder payload allowClosedMarket) = (s, .resolving payload s.capital s.realized) ∧
        s.Placing payload (.placeOrder payload allowClosedMarket)) := by
  have hgate (quoted : Conditions) : Conditions.sessionGate { quoted with closed := cond.closed } payload.underlying
      payload.symbol allowClosedMarket = cond.sessionGate payload.underlying payload.symbol allowClosedMarket := rfl
  cases hseen : (payload.clientOrderId.filter (· ≠ "")).bind s.idempotency.get? with
  | some id =>
    simp only [begin, placeOrder, placeOrderLocked, hseen]
    exact .inl ⟨rfl, trivial⟩
  | none =>
    cases hgates : ((cond.sessionGate payload.underlying payload.symbol allowClosedMarket).map .marketClosed).or
        (s.riskGate payload) with
    | some reason =>
      simp only [begin, placeOrder, placeOrderLocked, hseen, hgates]
      exact .inl ⟨rfl, trivial⟩
    | none =>
      refine .inr ⟨by simp only [begin, hseen, hgates], cond.closed, allowClosedMarket, rfl, fun quoted => ?_⟩
      simp only [pastGates, placeOrder, placeOrderLocked, hseen, hgate, hgates]
      cases resolveFill quoted.market payload none <;> rfl

/-- Past its gates, an order is settled in one turn, or does nothing before the other quote. -/
theorem resolved_whole (s : Shard) (quoted : Conditions) (payload : OrderPayload) :
    s.resolved quoted payload s.capital s.realized = (s.pastGates quoted payload, .saving) ∨
      ∃ fillPrice source,
        s.resolved quoted payload s.capital s.realized = (s, .rechecking payload fillPrice source s.capital s.realized) ∧
          ∀ asked : Conditions, s.rechecked asked payload fillPrice source s.capital s.realized =
            (s.pastGates { quoted with recheck := asked.market } payload, .saving) := by
  rw [resolved, pastGates]
  cases hfill : resolveFill quoted.market payload none with
  | resting | unavailable => exact .inl rfl
  | filled price source =>
    simp only
    split
    · rename_i hprice
      rw [execute, if_pos hprice]
      exact .inl rfl
    · rename_i hprice
      split
      · refine .inr ⟨_, _, rfl, fun asked => ?_⟩
        rw [rechecked, pastGates, hfill]
        simp only
        split
        · rename_i reason hfat
          rw [execute, if_neg hprice]
          simp only [hfat, Option.some_or]
        · rename_i hfat
          exact settle_whole s { quoted with recheck := asked.market } payload hprice hfat
      · rename_i hre
        have hfat : fatFinger quoted.recheck payload source = none := by
          rw [fatFinger]
          rw [if_neg fun h => hre (by simpa [rechecks] using h)]
        exact .inl (settle_whole s quoted payload hprice hfat)

/-- What a turn does for a request: calls, one if the request ends with it, and none where another task holds the lock. -/
structure Serving (s : Shard) (request : Request) (holds : Prop) (point : Point) (s' : Shard) (point' : Point)
    (calls : List (Shard → Shard)) : Prop where
  shard : s' = calls.foldl (fun s call => call s) s
  made : ∀ call ∈ calls, request.Call call
  once : request.sweeps = false → point.ended.toNat + calls.length = point'.ended.toNat
  reads : point'.From s' request
  alone : calls ≠ [] ∨ point'.locked = true → holds

variable {s s' : Shard} {request : Request} {holds : Prop} {point point' : Point}

private theorem serving_none (hended : request.sweeps = false → point'.ended = point.ended)
    (hreads : point'.From s request) (hh : point'.locked = true → holds) :
    ∃ calls, Serving s request holds point s point' calls :=
  ⟨[], rfl, by simp, fun hsweeps => by rw [hended hsweeps]; rfl, hreads, fun h => hh (h.resolve_left (by simp))⟩

private theorem serving_one {call : Shard → Shard} (hcall : request.Call call) (hshard : s' = call s)
    (hended : request.sweeps = false → point.ended = false ∧ point'.ended = true) (hreads : point'.From s' request)
    (hh : holds) : ∃ calls, Serving s request holds point s' point' calls := by
  refine ⟨[call], hshard, by simpa using hcall, fun hsweeps => ?_, hreads, fun _ => hh⟩
  rw [(hended hsweeps).1, (hended hsweeps).2]
  rfl

theorem begin_serving (cond : Conditions) (hh : holds) (request : Request) :
    ∃ calls, Serving s request holds (.waiting request) (s.begin cond request).1 (s.begin cond request).2 calls := by
  cases request with
  | placeOrder payload allowClosedMarket =>
    rcases s.begin_placeOrder cond payload allowClosedMarket with ⟨hended, hshard⟩ | ⟨hbegin, hplacing⟩
    · exact serving_one ⟨cond, rfl⟩ hshard (fun _ => ⟨rfl, hended⟩) (.of_ended hended) hh
    · rw [hbegin]
      exact serving_none (fun _ => rfl) ⟨rfl, rfl, hplacing⟩ fun _ => hh
  | cancelOrder id =>
    unfold begin
    simp only
    split
    all_goals
      rename_i hcancel
      exact serving_one rfl (by rw [hcancel]; rfl) (fun _ => ⟨rfl, rfl⟩) trivial hh
  | squareOffPosition id allowClosedMarket =>
    unfold begin
    simp only
    split
    · rename_i hopen
      exact serving_one ⟨cond, rfl⟩ (by rw [squareOffPosition, hopen]) (fun _ => ⟨rfl, rfl⟩) trivial hh
    · exact serving_none (fun _ => rfl) rfl fun _ => hh
  | evaluatePendingOrders symbol ltp =>
    unfold begin
    simp only
    split
    · exact serving_none (by rintro ⟨⟩) trivial fun _ => hh
    · exact serving_none (by rintro ⟨⟩) ⟨symbol, rfl⟩ fun _ => hh

theorem resume_serving {cond : Conditions} {free : Bool} (hfrom : point.From s request)
    (hresume : s.resume cond free point = some (s', point')) :
    ∃ calls, Serving s request (free = true ∨ point.locked = true) point s' point' calls := by
  cases point with
  | waiting waits =>
    obtain rfl : waits = request := hfrom
    simp only [resume] at hresume
    split at hresume
    · rename_i hfree
      have hserving := begin_serving (s := s) cond (.inl hfree : free = true ∨ (Point.waiting waits).locked = true) waits
      rw [Option.some.inj hresume] at hserving
      exact hserving
    · cases hresume
  | resolving payload capital realized =>
    obtain ⟨rfl, rfl, hplacing⟩ := hfrom
    have hstep : s.resolved cond payload s.capital s.realized = (s', point') := Option.some.inj hresume
    rcases s.resolved_whole cond payload with heq | ⟨fillPrice, source, heq, hrecheck⟩
    · obtain ⟨closed, allowClosedMarket, rfl, hwhole⟩ := hplacing
      cases heq.symm.trans hstep
      exact serving_one ⟨_, rfl⟩ (hwhole cond) (fun _ => ⟨rfl, rfl⟩) trivial (.inr rfl)
    · cases heq.symm.trans hstep
      exact serving_none (fun _ => rfl) ⟨hplacing, cond, hrecheck⟩ fun _ => .inr rfl
  | rechecking payload fillPrice source capital realized =>
    obtain ⟨⟨closed, allowClosedMarket, rfl, hwhole⟩, quoted, hrecheck⟩ := hfrom
    have hstep : s.rechecked cond payload fillPrice source capital realized = (s', point') := Option.some.inj hresume
    cases (hrecheck cond).symm.trans hstep
    exact serving_one ⟨_, rfl⟩ (hwhole { quoted with recheck := cond.market }) (fun _ => ⟨rfl, rfl⟩) trivial (.inr rfl)
  | exiting id allowClosedMarket =>
    obtain rfl : request = .squareOffPosition id allowClosedMarket := hfrom
    simp only [resume] at hresume
    split at hresume
    all_goals
      rename_i heq
      cases hresume
      exact serving_one ⟨cond, rfl⟩ (by rw [heq]) (fun _ => ⟨rfl, rfl⟩) trivial (.inr rfl)
  | saving =>
    cases hresume
    exact serving_none (fun _ => rfl) trivial nofun
  | sweeping ltp ids =>
    obtain ⟨symbol, rfl⟩ := hfrom
    cases ids with
    | nil =>
      cases hresume
      exact serving_none nofun trivial nofun
    | cons id ids =>
      simp only [resume] at hresume
      split at hresume
      · cases hresume
        exact serving_none nofun ⟨symbol, rfl⟩ nofun
      · split at hresume
        · rename_i hfree
          cases hresume
          exact serving_one ⟨cond, id, rfl⟩ rfl nofun ⟨symbol, rfl⟩ (.inl hfree)
        · cases hresume
  | finished => cases hresume

end Shard

def Turn.requests : Turn → List Request
  | .submit request => [request]
  | .resume .. => []

namespace UserTasks

/-- Whole calls, each of a task whose request it serves, leave the shard as the turns have: one for every task that has
ended, and none yet for the others, but for the legs of a sweep. -/
structure Serial (s : Shard) (requests : List Request) (u : UserTasks) (calls : List (Nat × (Shard → Shard))) : Prop where
  shard : u.shard = calls.foldl (fun s call => call.2 s) s
  made : ∀ call ∈ calls, ∃ request, requests[call.1]? = some request ∧ request.Call call.2
  tasks : u.points.length = requests.length
  once : ∀ (task : Nat) request point, requests[task]? = some request → u.points[task]? = some point →
    request.sweeps = false → (calls.map Prod.fst).count task = point.ended.toNat
  reads : ∀ (task : Nat) request point, requests[task]? = some request → u.points[task]? = some point →
    point.From u.shard request ∧ (point.locked = true → u.holder = some task)

variable {s : Shard} {requests : List Request} {u : UserTasks} {calls : List (Nat × (Shard → Shard))}

private theorem Serial.submit (h : Serial s requests u calls) (request : Request) :
    Serial s (requests ++ [request]) (u.step (.submit request)) calls := by
  have hold : ∀ (task : Nat) asked point, (requests ++ [request])[task]? = some asked →
      (u.points ++ [Point.waiting request])[task]? = some point →
        requests[task]? = some asked ∧ u.points[task]? = some point ∨
          task = requests.length ∧ asked = request ∧ point = .waiting request := by
    intro task asked point hasked hpoint
    have htasks := h.tasks
    grind
  have hserves : ∀ call ∈ calls, ∃ asked, (requests ++ [request])[call.1]? = some asked ∧ asked.Call call.2 := by
    intro call hcall
    obtain ⟨asked, hasked, hserves⟩ := h.made call hcall
    exact ⟨asked, by rw [List.getElem?_append_left (List.getElem?_eq_some_iff.mp hasked).1, hasked], hserves⟩
  refine ⟨h.shard, hserves, by simp [step, h.tasks], fun task asked point hasked hpoint hsweeps => ?_,
    fun task asked point hasked hpoint => ?_⟩
  · rcases hold task asked point hasked hpoint with ⟨hasked, hpoint⟩ | ⟨rfl, rfl, rfl⟩
    · exact h.once task asked point hasked hpoint hsweeps
    · refine List.count_eq_zero.mpr fun hmem => ?_
      obtain ⟨call, hcall, heq⟩ := List.mem_map.mp hmem
      obtain ⟨_, hold, -⟩ := h.made call hcall
      rw [heq, List.getElem?_eq_none le_rfl] at hold
      cases hold
  · rcases hold task asked point hasked hpoint with ⟨hasked, hpoint⟩ | ⟨rfl, rfl, rfl⟩
    · exact h.reads task asked point hasked hpoint
    · exact ⟨rfl, nofun⟩

private theorem Serial.resume (h : Serial s requests u calls) (task : Nat) (cond : Conditions) :
    ∃ more, Serial s requests (u.step (.resume task cond)) (calls ++ more) := by
  have hstays : ∃ more, Serial s requests u (calls ++ more) := ⟨[], by rwa [List.append_nil]⟩
  cases hpoint : u.points[task]? with
  | none => simpa only [step, hpoint] using hstays
  | some point =>
    cases hresume : u.shard.resume cond u.holder.isNone point with
    | none => simpa only [step, hpoint, hresume] using hstays
    | some next =>
      obtain ⟨shard, point'⟩ := next
      have hlt : task < requests.length := h.tasks ▸ (List.getElem?_eq_some_iff.mp hpoint).1
      obtain ⟨request, hrequest⟩ : ∃ request, requests[task]? = some request := ⟨_, List.getElem?_eq_getElem hlt⟩
      obtain ⟨hfrom, hlocked⟩ := h.reads task request point hrequest hpoint
      obtain ⟨whole, hserving⟩ := Shard.resume_serving hfrom hresume
      have hset : ∀ (other : Nat) q, (u.points.set task point')[other]? = some q →
          task = other ∧ point' = q ∨ other ≠ task ∧ u.points[other]? = some q := by
        intro other q hq
        grind
      simp only [step, hpoint, hresume]
      refine ⟨whole.map fun call => (task, call), ?_, ?_, by simp [h.tasks], ?_, ?_⟩
      · rw [List.foldl_append, ← h.shard, List.foldl_map]
        exact hserving.shard
      · intro call hcall
        rcases List.mem_append.mp hcall with hcall | hcall
        · exact h.made call hcall
        · obtain ⟨served, hserved, rfl⟩ := List.mem_map.mp hcall
          exact ⟨request, hrequest, hserving.made served hserved⟩
      · intro other asked q hasked hq hsweeps
        have hcount : ((whole.map fun call => (task, call)).map Prod.fst).count other =
            if task = other then whole.length else 0 := by
          simp [List.map_map, Function.comp_def, List.count_replicate]
        rw [List.map_append, List.count_append, hcount]
        rcases hset other q hq with ⟨rfl, rfl⟩ | ⟨hne, hq⟩
        · cases hrequest.symm.trans hasked
          rw [if_pos rfl, h.once task request point hrequest hpoint hsweeps]
          exact hserving.once hsweeps
        · rw [if_neg (Ne.symm hne), h.once other asked q hasked hq hsweeps, add_zero]
      · intro other asked q hasked hq
        rcases hset other q hq with ⟨rfl, rfl⟩ | ⟨hne, hq⟩
        · cases hrequest.symm.trans hasked
          exact ⟨hserving.reads, fun hl => if_pos hl⟩
        · obtain ⟨hreads, hholds⟩ := h.reads other asked q hasked hq
          cases hl : q.locked with
          | false => exact ⟨hreads.of_unlocked hl shard, nofun⟩
          | true =>
            -- the other task holds the lock, so this one has neither taken it nor touched the shard
            have hholder := hholds hl
            have hkept : ¬ point.locked = true :=
              fun hown => hne (Option.some.inj (hholder.symm.trans (hlocked hown)))
            have hnot : ¬ (whole ≠ [] ∨ point'.locked = true) := by
              intro hdone
              rcases hserving.alone hdone with hfree | hown
              · rw [hholder] at hfree
                cases hfree
              · exact hkept hown
            have hsame : shard = u.shard := by
              rw [hserving.shard, not_not.mp fun hne => hnot (.inl hne), List.foldl_nil]
            simp only [if_neg fun hl => hnot (.inr hl), if_neg hkept, hholder, hsame]
            exact ⟨hreads, fun _ => trivial⟩

private theorem Serial.run (h : Serial s requests u calls) (turns : List Turn) :
    ∃ more, Serial s (requests ++ turns.flatMap Turn.requests) (run step u turns) (calls ++ more) := by
  induction turns generalizing u requests calls with
  | nil => exact ⟨[], by simpa using h⟩
  | cons turn turns ih =>
    obtain ⟨first, hfirst⟩ : ∃ first, Serial s (requests ++ turn.requests) (u.step turn) (calls ++ first) := by
      cases turn with
      | submit request => exact ⟨[], by simpa [Turn.requests] using h.submit request⟩
      | resume task cond => simpa [Turn.requests] using h.resume task cond
    obtain ⟨rest, hrest⟩ := ih hfirst
    exact ⟨first ++ rest, by simpa [run_cons, List.append_assoc] using hrest⟩

end UserTasks

end Droid.Paper
