import Droid.Paper.Model

/-! The paper trading service: fill resolution, the order path, cancel, square-off
and the sweep of resting orders. -/
namespace Droid.Paper
open Lib

/-- The quotes a call can get; none where the provider fails or is silent. -/
structure Market where
  getQuote : String → Option ℚ := fun _ => none
  getOptionQuote : String → String → Option ℚ := fun _ _ => none

/-- What one order meets outside the service: the quotes, the quotes when the
fat-finger check asks again, and the calendar's reason when trading is closed. -/
structure Conditions where
  market : Market := { }
  recheck : Market := { }
  closed : Option String := none

def Conditions.sessionGate (cond : Conditions) (underlying symbol : String) (allowClosedMarket : Bool) :
    Option String :=
  if isIndian underlying symbol ∧ ¬ allowClosedMarket then cond.closed else none

def maxPositionQtyPerSymbol : Int := 200000
def fatFingerBandPct : ℚ := 2 / 10
def dailyLossBrakePct : ℚ := 25 / 100

def positive (x : Option ℚ) : Option ℚ := x.filter (0 < ·)

def resolveLiveLtp (market : Market) (symbol underlying : String) : Option ℚ :=
  let sym := strip symbol
  let und := strip underlying
  if sym = "" then none
  else if isOptionSymbol sym then
    (positive (market.getQuote sym)).or (positive (market.getOptionQuote sym und))
  else
    -- of anything else the underlying's quote is asked first
    ([und, sym].filter (· ≠ "")).findSome? fun candidate => positive (market.getQuote candidate)

/-! ### Fill resolution -/

/-- A price and its source, a resting order, or no fill. -/
inductive Fill where
  | filled (price : ℚ) (source : FillSource)
  | resting
  | unavailable
  deriving DecidableEq, Repr

def limitFill (side : OrderSide) (adj limit : ℚ) : Fill :=
  match side with
  | .buy => if adj ≤ limit then .filled (min adj limit) .limit else .resting
  | .sell => if adj ≥ limit then .filled (max adj limit) .limit else .resting

def resolveFill (market : Market) (payload : OrderPayload) (forcedFill : Option (ℚ × FillSource)) :
    Fill :=
  match forcedFill with
  | some (price, source) => .filled price source
  | none =>
    let live := resolveLiveLtp market payload.symbol payload.underlying
    match payload.orderType with
    | .market =>
      match live with
      | some live => .filled (applyFriction live payload.side) .live
      | none => .unavailable
    | .limit =>
      if payload.price ≤ 0 then .unavailable
      else
        match live with
        | none => .resting
        | some live => limitFill payload.side (applyFriction live payload.side) payload.price
    | otype =>
      match positive payload.triggerPrice, live with
      | none, _ => .unavailable
      | some _, none => .resting
      | some trig, some live =>
        let triggered : Bool := match payload.side with
          | .buy => live ≥ trig
          | .sell => live ≤ trig
        let adj := applyFriction live payload.side
        if ¬ triggered then .resting
        else if otype = .slMarket ∨ payload.price ≤ 0 then .filled adj .live
        else limitFill payload.side adj payload.price

def unfilledReason (payload : OrderPayload) : RejectReason :=
  if payload.orderType ≠ .market ∧ payload.price ≤ 0 then .invalidPrice
  else if payload.orderType ∈ [.slMarket, .slLimit] ∧ positive payload.triggerPrice = none then
    .invalidTrigger
  else .quoteUnavailable

/-- A limit more than the band away from the market, asked again. -/
def fatFinger (market : Market) (payload : OrderPayload) (source : FillSource) : Option RejectReason :=
  if payload.orderType ∈ [.limit, .slLimit] ∧ source = .limit ∧ 0 < payload.price then
    match resolveLiveLtp market payload.symbol payload.underlying with
    | none => none
    | some liveNow =>
      let drift := |payload.price - liveNow| / liveNow
      if drift > fatFingerBandPct then some (.fatFinger payload.price drift liveNow) else none
  else none

def requiredMargin (payload : OrderPayload) (quantity : Int) (fillPrice : ℚ) : ℚ :=
  calculateRequiredMargin (instrumentTypeOf payload.symbol payload.side) payload.underlying fillPrice
    quantity false

/-! ### Exits and resting orders -/

/-- The exit price and the position as the lookup leaves it: the live quote after
friction, else the last known price. -/
def exitFill (market : Market) (pos : VirtualPosition) : VirtualPosition × Option (ℚ × FillSource) :=
  match resolveLiveLtp market pos.symbol pos.underlying with
  | some live => (pos.refresh (roundTo 2 live), some (applyFriction live pos.side.opposite, .live))
  | none => (pos, if pos.ltp ≤ 0 then none else some (roundTo 2 pos.ltp, .closeFallback))

def exitOrder (pos : VirtualPosition) : Option OrderPayload :=
  if h : 0 < pos.quantity then
    some { symbol := pos.symbol, underlying := pos.underlying, side := pos.side.opposite
           product := pos.product, quantity := pos.quantity, quantity_pos := h, price_nonneg := le_rfl }
  else none

/-- The price at which the sweep fills a resting order, if it does. -/
def touchPrice (order : VirtualOrder) (ltp : ℚ) : Option ℚ :=
  let payload := order.payload
  let adj := applyFriction ltp payload.side
  let better := match payload.side with
    | .buy => min adj payload.price
    | .sell => max adj payload.price
  match payload.orderType with
  | .market => none
  | .limit =>
    let within : Bool := match payload.side with
      | .buy => adj ≤ payload.price
      | .sell => adj ≥ payload.price
    if within then some better else none
  | otype =>
    let trig := payload.triggerPrice.getD 0
    let hit : Bool := match payload.side with
      | .buy => ltp ≥ trig
      | .sell => ltp ≤ trig
    if hit then some (if otype = .slMarket then adj else better) else none

def legOrder (payload : OrderPayload) (price : ℚ) : Option OrderPayload :=
  if h : 0 ≤ price then
    some { payload with
      orderType := .market, price, triggerPrice := none, clientOrderId := none, price_nonneg := h }
  else none

namespace Shard

/-! ### The order path -/

def riskGate (s : Shard) (payload : OrderPayload) : Option RejectReason :=
  let existing := s.openPosition payload.positionId
  let openCount := s.openPositions.length
  let wouldHold := (existing.filter (·.side = payload.side)).map (·.quantity + payload.quantity)
  if payload.quantity ≤ 0 then some .invalidQuantity
  else if payload.quantity > s.limits.maxSingleOrderQty then
    some (.orderTooLarge payload.quantity s.limits.maxSingleOrderQty)
  else if existing.isNone ∧ openCount ≥ s.limits.maxOpenPositions then
    some (.positionLimit openCount s.limits.maxOpenPositions)
  else if wouldHold.any (· > maxPositionQtyPerSymbol) then
    some (.symbolExposureLimit (wouldHold.getD 0))
  else if s.realized < -dailyLossBrakePct * s.capital ∧ payload.side = .buy ∧ existing.isNone then
    some (.dailyLossLimit s.realized)
  else none

def log (s : Shard) (order : VirtualOrder) : Shard × OrderId :=
  ({ s with orders := s.orders ++ [order] }, s.orders.length)

def reject (s : Shard) (payload : OrderPayload) (reason : RejectReason) : Shard × OrderId :=
  s.log { payload, status := .rejected, rejectionReason := some reason }

def remember (s : Shard) (payload : OrderPayload) (id : OrderId) : Shard :=
  match payload.clientOrderId.filter (· ≠ "") with
  | some c => { s with idempotency := s.idempotency.insert c id }
  | none => s

def submit (s : Shard) (order : VirtualOrder) : Shard × OrderId :=
  let (s, id) := s.log order
  (s.remember order.payload id, id)

def store (s : Shard) (id : PositionId) (pos : VirtualPosition) : Shard :=
  { s with positions := s.positions.insert id pos }

/-- Create, add to, reduce, close or flip the position. -/
def applyFill (s : Shard) (payload : OrderPayload) (fillPrice : ℚ) : Shard :=
  let id := payload.positionId
  let reqMargin := requiredMargin payload payload.quantity fillPrice
  match s.openPosition id with
  | none => s.store id (.openAt payload payload.quantity fillPrice reqMargin)
  | some existing =>
    if existing.side = payload.side then
      s.store id (existing.add payload.quantity fillPrice reqMargin)
    else
      let trade := existing.tradeRealized payload.quantity fillPrice
      let settled := { existing with realizedPnl := roundTo 2 (existing.realizedPnl + trade) }
      let s := { s with realized := s.realized + roundTo 2 trade }
      let residual := payload.quantity - existing.quantity
      if residual < 0 then s.store id (settled.reduce payload.quantity fillPrice)
      else if residual = 0 then s.store id (settled.close fillPrice)
      else s.store id (.openAt payload residual fillPrice (requiredMargin payload residual fillPrice))

/-- Exits and reversals release margin; anything else has to pay for it. -/
def marginShort (s : Shard) (payload : OrderPayload) (fillPrice : ℚ) : Option RejectReason :=
  let required := requiredMargin payload payload.quantity fillPrice
  if (s.openPosition payload.positionId).all (·.side = payload.side) ∧ required > s.availableMargin then
    some (.insufficientMargin required s.availableMargin)
  else none

def execute (cond : Conditions) (s : Shard) (payload : OrderPayload) (price : ℚ) (source : FillSource) :
    Shard × OrderId :=
  if price ≤ 0 then s.reject payload (unfilledReason payload)
  else
    let fillPrice := roundTo 2 price
    match (fatFinger cond.recheck payload source).or (s.marginShort payload fillPrice) with
    | some reason => s.reject payload reason
    | none =>
      (s.applyFill payload fillPrice).submit
        { payload, status := .filled, fillPrice := some fillPrice, fillSource := some source
          estimatedCosts := some (estimateCosts payload.side fillPrice payload.quantity) }

def placeOrderLocked (cond : Conditions) (s : Shard) (payload : OrderPayload) (allowClosedMarket : Bool)
    (forcedFill : Option (ℚ × FillSource)) : Shard × OrderId :=
  match (payload.clientOrderId.filter (· ≠ "")).bind s.idempotency.get? with
  | some id => (s, id)
  | none =>
    match (cond.sessionGate payload.underlying payload.symbol allowClosedMarket).map .marketClosed
        |>.or (s.riskGate payload) with
    | some reason => s.reject payload reason
    | none =>
      match resolveFill cond.market payload forcedFill with
      | .resting => s.submit { payload, status := .pending }
      | .unavailable => s.reject payload (unfilledReason payload)
      | .filled price source => s.execute cond payload price source

def placeOrder (cond : Conditions) (s : Shard) (payload : OrderPayload) (allowClosedMarket : Bool) :
    Shard × OrderId :=
  s.placeOrderLocked cond payload allowClosedMarket none

/-- Every leg is placed on its own, whatever became of the ones before. -/
def placeBasket (s : Shard) (legs : List (Conditions × OrderPayload)) (allowClosedMarket : Bool) : Shard :=
  legs.foldl (fun s leg => (s.placeOrder leg.1 leg.2 allowClosedMarket).1) s

/-! ### Cancel and square-off -/

inductive ServiceError where
  | orderNotFound
  | onlyPendingCancelled (status : OrderStatus)
  | openPositionNotFound
  | noExitPrice
  | marketClosed (reason : String)
  | invalidQuantity
  deriving DecidableEq, Repr

def cancelOrder (s : Shard) (id : OrderId) : Except ServiceError Shard :=
  match s.orders[id]? with
  | none => .error .orderNotFound
  | some order =>
    if order.status ≠ .pending then .error (.onlyPendingCancelled order.status)
    else .ok { s with orders := s.orders.set id { order with status := .cancelled } }

def squareOffPosition (cond : Conditions) (s : Shard) (id : PositionId) (allowClosedMarket : Bool) :
    Shard × Except ServiceError Unit :=
  match s.openPosition id with
  | none => (s, .error .openPositionNotFound)
  | some pos =>
    let (refreshed, forced) := exitFill cond.market pos
    let s := s.store id refreshed
    match forced with
    | none => (s, .error .noExitPrice)
    | some forced =>
      match cond.sessionGate pos.underlying pos.symbol allowClosedMarket with
      | some reason => (s, .error (.marketClosed reason))
      | none =>
        match exitOrder refreshed with
        | none => (s, .error .invalidQuantity)
        | some payload => ((s.placeOrderLocked cond payload true (some forced)).1, .ok ())

/-- Square off what was open at the start; a failure leaves the others to go on. -/
def squareOffAll (conds : PositionId → Conditions) (s : Shard) (allowClosedMarket : Bool) : Shard :=
  ((s.positions.entries.filter (·.2.isOpen)).map Prod.fst).foldl
    (fun s id => (s.squareOffPosition (conds id) id allowClosedMarket).1) s

def markLive (market : Market) (pos : VirtualPosition) : VirtualPosition :=
  if pos.isOpen then
    match resolveLiveLtp market pos.symbol pos.underlying with
    | some live => pos.refresh (roundTo 2 live)
    | none => pos
  else pos

def getPositions (markets : PositionId → Market) (s : Shard) : Shard :=
  { s with positions := s.positions.mapValues fun id pos => markLive (markets id) pos }

/-! ### The sweep of resting orders -/

/-- One candidate of the sweep: the resting order is marked FILLED, and its leg
goes through the order path. -/
def fillPending (cond : Conditions) (ltp : ℚ) (s : Shard) (id : OrderId) : Shard :=
  match s.orders[id]? with
  | none => s
  | some order =>
    match touchPrice order ltp with
    | none => s
    | some fillAt =>
      if order.status ≠ .pending then s
      else
        let price := roundTo 2 fillAt
        let s := { s with orders := s.orders.set id { order with
          status := .filled, fillPrice := some price, fillSource := some .limit
          estimatedCosts := some (estimateCosts order.payload.side price order.payload.quantity) } }
        match legOrder order.payload price with
        | none => s
        | some leg => (s.placeOrderLocked cond leg true (some (price, .limit))).1

def candidates (s : Shard) (symbol : String) : List OrderId :=
  ((List.range s.orders.length).filter fun id =>
    s.orders[id]?.any fun o => o.status = .pending ∧ o.payload.symbol = symbol).reverse

def evaluatePendingOrders (cond : Conditions) (s : Shard) (symbol : String) (ltp : ℚ) : Shard :=
  if ltp ≤ 0 then s else (s.candidates symbol).foldl (fillPending cond ltp) s

end Shard

end Droid.Paper
