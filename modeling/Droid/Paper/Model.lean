import Droid.Lib.Dict
import Droid.Lib.Rounding
import Mathlib.Data.List.Infix

/-! Orders, positions and books of the paper trading service, with its margin,
cost and friction arithmetic. Prices are rationals. -/
namespace Droid.Paper
open Lib

inductive OrderSide where
  | buy | sell
  deriving DecidableEq, Repr

inductive OrderType where
  | market | limit | slMarket | slLimit
  deriving DecidableEq, Repr

inductive ProductType where
  | intraday | carryforward
  deriving DecidableEq, Repr

inductive OrderStatus where
  | pending | filled | cancelled | rejected | expired
  deriving DecidableEq, Repr

inductive FillSource where
  | live | limit | clientFallback | closeFallback
  deriving DecidableEq, Repr

inductive InstrumentType where
  | optionBuy | optionSell | futures
  deriving DecidableEq, Repr

/-- A position's key, symbol and product; the text `symbol_product` tells them apart. -/
abbrev PositionId := String × ProductType

/-- An order is named by its place in the order log, oldest first. -/
abbrev OrderId := Nat

structure OrderPayload where
  symbol : String
  underlying : String
  side : OrderSide
  orderType : OrderType := .market
  product : ProductType := .intraday
  quantity : Int
  price : ℚ := 0
  triggerPrice : Option ℚ := none
  clientOrderId : Option String := none
  quantity_pos : 0 < quantity
  price_nonneg : 0 ≤ price

theorem lot_pos : (0 : Int) < 75 := by decide

theorem noPrice_nonneg : (0 : ℚ) ≤ 0 := le_rfl

def OrderPayload.positionId (payload : OrderPayload) : PositionId := (payload.symbol, payload.product)

/-- Why an order is rejected, with the figures the message shows. -/
inductive RejectReason where
  | marketClosed (reason : String)
  | invalidQuantity
  | orderTooLarge (quantity max : Int)
  | positionLimit (openCount max : Nat)
  | symbolExposureLimit (wouldHold : Int)
  | dailyLossLimit (realized : ℚ)
  | invalidPrice
  | invalidTrigger
  | quoteUnavailable
  | fatFinger (price drift live : ℚ)
  | insufficientMargin (required available : ℚ)
  deriving DecidableEq, Repr

structure VirtualOrder where
  payload : OrderPayload
  status : OrderStatus
  fillPrice : Option ℚ := none
  rejectionReason : Option RejectReason := none
  fillSource : Option FillSource := none
  estimatedCosts : Option ℚ := none

structure VirtualPosition where
  symbol : String
  underlying : String
  instrumentType : InstrumentType
  side : OrderSide
  product : ProductType
  quantity : Int
  averagePrice : ℚ
  ltp : ℚ
  unrealizedPnl : ℚ
  realizedPnl : ℚ := 0
  usedMargin : ℚ := 0
  isOpen : Bool := true
  deriving DecidableEq, Repr

structure RiskLimits where
  maxSingleOrderQty : Int := 100000
  maxOpenPositions : Nat := 100

structure Shard where
  positions : Dict PositionId VirtualPosition := Dict.empty
  orders : List VirtualOrder := []
  idempotency : Dict String OrderId := Dict.empty
  capital : ℚ := 1000000
  realized : ℚ := 0
  limits : RiskLimits := { }

/-! ### Text tests -/

def hasText (s sub : String) : Bool := decide (sub.toList <:+: s.toList)

def strip (s : String) : String :=
  String.ofList ((s.toList.dropWhile Char.isWhitespace).reverse.dropWhile Char.isWhitespace).reverse

def dropFifty : List Char → List Char
  | ' ' :: '5' :: '0' :: cs => dropFifty cs
  | c :: cs => c :: dropFifty cs
  | [] => []

def isOptionSymbol (symbol : String) : Bool :=
  hasText symbol.toUpper "CE" ∨ hasText symbol.toUpper "PE"

def instrumentTypeOf (symbol : String) (side : OrderSide) : InstrumentType :=
  if isOptionSymbol symbol then if side = .buy then .optionBuy else .optionSell
  else .futures

/-- Instruments that the market session gates. -/
def isIndian (underlying symbol : String) : Bool :=
  underlying ∈ ["NIFTY", "BANKNIFTY", "SENSEX", "FINNIFTY", "MIDCPNIFTY"] ∨
    ["CE", "PE", "FUT", "NIFTY", "BANKNIFTY", "SENSEX"].any (hasText symbol)

/-! ### Margin, friction and costs -/

def calculateRequiredMargin (instrumentType : InstrumentType) (underlying : String) (price : ℚ)
    (quantity : Int) (isHedged : Bool) : ℚ :=
  let underlyingClean := String.ofList (dropFifty underlying.toUpper.toList)
  let sensex := hasText underlyingClean "SENSEX"
  let bank := hasText underlyingClean "BANK"
  let fin := hasText underlyingClean "FIN"
  match instrumentType with
  | .optionBuy =>
    let effPrice := if price < 2000 then price else roundTo 2 (price * (15 / 1000))
    roundTo 2 (effPrice * quantity)
  | _ =>
    let lotSize : Int := if sensex then 10 else if bank then 25 else if fin then 65 else 75
    let lots := max 1 (quantity / lotSize)
    let basePerLot : ℚ :=
      if sensex then 150000 else if bank then 145000 else if fin then 115000 else 125000
    let rawMargin := basePerLot * lots
    if instrumentType = .optionSell ∧ isHedged then roundTo 2 (rawMargin * (40 / 100))
    else roundTo 2 rawMargin

def spreadBps : ℚ := 5
def slippageBps : ℚ := 10

def applyFriction (price : ℚ) (side : OrderSide) : ℚ :=
  let adj := price * ((spreadBps + slippageBps) / 10000)
  roundTo 2 (if side = .buy then price + adj else price - adj)

def calculateOptionCosts (buyTurnover sellTurnover : ℚ) (numOrders : Nat) : ℚ :=
  let totalTurnover := buyTurnover + sellTurnover
  let stt := sellTurnover * (125 / 100000)
  let exchangeCharges := totalTurnover * (5 / 10000)
  let sebiCharges := totalTurnover * (1 / 1000000)
  let stampDuty := buyTurnover * (3 / 100000)
  let brokerage := numOrders * (20 : ℚ)
  let gst := (brokerage + exchangeCharges + sebiCharges) * (18 / 100)
  let slippage := totalTurnover * (1 / 1000)
  roundTo 2 (stt + exchangeCharges + sebiCharges + stampDuty + brokerage + gst + slippage)

def estimateCosts (side : OrderSide) (fill : ℚ) (quantity : Int) : ℚ :=
  let turnover := roundTo 2 (fill * quantity)
  roundTo 2 (if side = .buy then calculateOptionCosts turnover 0 1 else calculateOptionCosts 0 turnover 1)

/-! ### Positions -/

def OrderSide.mult : OrderSide → Int
  | .buy => 1
  | .sell => -1

def OrderSide.opposite : OrderSide → OrderSide
  | .buy => .sell
  | .sell => .buy

namespace VirtualPosition

def mark (pos : VirtualPosition) : ℚ :=
  roundTo 2 ((pos.ltp - pos.averagePrice) * pos.quantity * pos.side.mult)

def refresh (pos : VirtualPosition) (ltp : ℚ) : VirtualPosition :=
  let pos := { pos with ltp }
  { pos with unrealizedPnl := pos.mark }

def openAt (payload : OrderPayload) (quantity : Int) (fillPrice usedMargin : ℚ) : VirtualPosition where
  symbol := payload.symbol
  underlying := payload.underlying
  instrumentType := instrumentTypeOf payload.symbol payload.side
  side := payload.side
  product := payload.product
  quantity := quantity
  averagePrice := fillPrice
  ltp := fillPrice
  unrealizedPnl := 0
  usedMargin := usedMargin

def add (pos : VirtualPosition) (quantity : Int) (fillPrice reqMargin : ℚ) : VirtualPosition :=
  let totQty := pos.quantity + quantity
  let totVal := pos.quantity * pos.averagePrice + quantity * fillPrice
  let pos := { pos with
    averagePrice := roundTo 2 (totVal / totQty)
    quantity := totQty
    usedMargin := roundTo 2 (pos.usedMargin + reqMargin) }
  pos.refresh fillPrice

/-- What closing this much of the position earns. -/
def tradeRealized (pos : VirtualPosition) (quantity : Int) (fillPrice : ℚ) : ℚ :=
  (fillPrice - pos.averagePrice) * (min pos.quantity quantity : Int) * pos.side.mult

def close (pos : VirtualPosition) (fillPrice : ℚ) : VirtualPosition :=
  { pos with isOpen := false, quantity := 0, usedMargin := 0, ltp := fillPrice, unrealizedPnl := 0 }

/-- The opposite side sells a part; the margin is relieved pro rata. -/
def reduce (pos : VirtualPosition) (quantity : Int) (fillPrice : ℚ) : VirtualPosition :=
  let frac : ℚ := if pos.quantity = 0 then 0 else quantity / pos.quantity
  let pos := { pos with
    quantity := pos.quantity - quantity
    usedMargin := roundTo 2 (max 0 (pos.usedMargin * (1 - frac))) }
  pos.refresh fillPrice

end VirtualPosition

/-! ### Readings of a shard -/

namespace Shard

def openPosition (s : Shard) (id : PositionId) : Option VirtualPosition :=
  (s.positions.get? id).filter (·.isOpen)

def openPositions (s : Shard) : List VirtualPosition := s.positions.values.filter (·.isOpen)

def availableMargin (s : Shard) : ℚ :=
  let totalUnrealized := roundTo 2 (s.openPositions.map (·.unrealizedPnl)).sum
  let totalUsedMargin := roundTo 2 (s.openPositions.map (·.usedMargin)).sum
  let totalPnl := roundTo 2 (s.realized + totalUnrealized)
  roundTo 2 (max 0 (s.capital + totalPnl - totalUsedMargin))

end Shard

end Droid.Paper
