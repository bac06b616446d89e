import Droid.Lib.Lots
import Droid.Lib.Rounding
import Droid.Signals.LiveContractCache

/-! Sizing of a contract: option legs by their premium, everything else by the points to its stop. -/
namespace Droid.Signals.OptionSizing
open Lib

/-! ### Contracts -/

/-- What a dict may hold as a lot size. `unreadable` stands for the values that `int` refuses. -/
inductive Value where
  | none
  | number (q : ℚ)
  | text (s : String)
  | unreadable
  deriving DecidableEq, Repr

/-- `int(s)` of a text: an optional sign, and digits that single underscores may part. -/
def intOfText (s : String) : Option ℤ :=
  let chars := (Text.strip s).toList
  let signed := chars.head? = some '-' ∨ chars.head? = some '+'
  let groups := (if signed then chars.drop 1 else chars).splitOn '_'
  if groups.all fun group => !group.isEmpty && group.all Char.isDigit then
    let magnitude : ℕ := groups.flatten.foldl (fun n d => 10 * n + (d.toNat - '0'.toNat)) 0
    some (if chars.head? = some '-' then -magnitude else magnitude)
  else Option.none

/-- `int(value or 75)`; none where it raises. -/
def Value.lotSize : Value → Option ℤ
  | .none => some 75
  | .number q => some (if q = 0 then 75 else truncated q)
  | .text s => if s = "" then some 75 else intOfText s
  | .unreadable => Option.none

def Value.named : Value → Option ℚ
  | .number q => some q
  | .text s => (intOfText s).map (↑·)
  | _ => Option.none

inductive InstrumentType where
  | index | option
  deriving DecidableEq, Repr

structure InstrumentMaster where
  instrumentType : InstrumentType
  lotSize : ℤ
  livePremium : Option ℚ := none
  deriving DecidableEq, Repr

/-- A contract as a dict. The texts are those of `str`. -/
structure ContractDict where
  instrumentType : String := "OPTION"
  optionType : Option String := none
  lotSize : Value := .number 75
  livePremium : Option ℚ := none
  deriving DecidableEq, Repr

inductive Contract where
  | master (contract : InstrumentMaster)
  | dict (contract : ContractDict)
  | other
  deriving DecidableEq, Repr

namespace Contract

def lotField : Contract → Value
  | .master contract => .number contract.lotSize
  | .dict contract => contract.lotSize
  | .other => .none

def isOption : Contract → Bool
  | .master contract => decide (contract.instrumentType = .option)
  | .dict contract => decide (Text.upper contract.instrumentType = "OPTION") || contract.optionType.isSome
  | .other => false

def livePremium : Contract → Option ℚ
  | .master contract => contract.livePremium
  | .dict contract => contract.livePremium
  | .other => none

end Contract

/-! ### Sizing -/

inductive Reason where
  | ok
  | zeroRiskPoints
  | premiumNotPositive
  | insufficientRiskCapital (riskPerLot : ℚ)
  deriving DecidableEq, Repr

inductive Basis where
  | optionPremium | spot
  deriving DecidableEq, Repr

/-- The entries of a sizing dict; one that a branch leaves out is none. -/
structure Sizing where
  lots : ℤ
  quantity : ℤ
  lotSize : Option ℤ := none
  riskCapital : Option ℚ := none
  riskPerLot : Option ℚ := none
  riskPoints : Option ℚ := none
  premiumOutlay : Option ℚ := none
  maxRupeeLoss : Option ℚ := none
  optionRiskPerShare : Option ℚ := none
  allowed : Bool
  reason : Reason
  sizingBasis : Option Basis := none
  deriving DecidableEq, Repr

def calculatePositionSizing (availableCapital riskPercent entryPrice stopLoss : ℚ) (lotSize : ℤ)
    (contractMultiplier : ℚ := 1) (maxLots : ℤ := 50) : Sizing :=
  let riskPoints := |entryPrice - stopLoss|
  if riskPoints ≤ 0 then
    { lots := 0, quantity := 0, riskCapital := some 0, riskPerLot := some 0, allowed := false
      reason := .zeroRiskPoints }
  else
    let riskPerLot := riskPoints * lotSize * contractMultiplier
    let riskCapital := availableCapital * (riskPercent / 100)
    let rawLots := if 0 < riskPerLot then ⌊riskCapital / riskPerLot⌋ else 0
    let finalLots := max 0 (min rawLots maxLots)
    { lots := finalLots
      quantity := finalLots * lotSize
      lotSize := some lotSize
      riskCapital := some (roundTo 2 riskCapital)
      riskPerLot := some (roundTo 2 riskPerLot)
      riskPoints := some (roundTo 2 riskPoints)
      allowed := decide (1 ≤ finalLots)
      reason := if 1 ≤ finalLots then .ok else .insufficientRiskCapital riskPerLot }

/-- The risk of a share: to the premium stop, by the delta, or 35% of the premium. -/
def optionRiskPerShare (premium : ℚ) (stopPremium delta underlyingRiskPoints : Option ℚ) : ℚ :=
  match stopPremium.filter (0 < ·) with
  | some stop => max 1 (premium - stop)
  | none =>
    match delta, underlyingRiskPoints with
    | some delta, some points => max 1 (min premium (points * |delta|))
    | _, _ => premium * (35 / 100)

def calculateOptionBuyerSizing (availableCapital riskPercent optionEntryPremium : ℚ)
    (optionStopPremium delta underlyingRiskPoints : Option ℚ := none) (lotSize : ℤ := 75)
    (maxCapitalAllocationPct : ℚ := 20) (maxLots : ℤ := 50) : Sizing :=
  if optionEntryPremium ≤ 0 then
    { lots := 0, quantity := 0, allowed := false, reason := .premiumNotPositive }
  else
    let riskPerShare := optionRiskPerShare optionEntryPremium optionStopPremium delta underlyingRiskPoints
    let riskPerLot := riskPerShare * lotSize
    let riskCapital := availableCapital * (riskPercent / 100)
    let maxTradeCapital := availableCapital * (maxCapitalAllocationPct / 100)
    let capitalPerLot := optionEntryPremium * lotSize
    let lotsByRisk := if 0 < riskPerLot then ⌊riskCapital / riskPerLot⌋ else 0
    let lotsByCapital := if 0 < capitalPerLot then ⌊maxTradeCapital / capitalPerLot⌋ else 0
    let finalLots := max 0 (min (min lotsByRisk lotsByCapital) maxLots)
    let finalQty := finalLots * lotSize
    { lots := finalLots
      quantity := finalQty
      lotSize := some lotSize
      premiumOutlay := some (roundTo 2 (finalQty * optionEntryPremium))
      maxRupeeLoss := some (roundTo 2 (finalLots * riskPerLot))
      riskPerLot := some (roundTo 2 riskPerLot)
      optionRiskPerShare := some (roundTo 2 riskPerShare)
      allowed := decide (1 ≤ finalLots)
      reason := if 1 ≤ finalLots then .ok else .insufficientRiskCapital riskPerLot }

/-- What `resolve_sizing_for_contract` sizes by: the lot size, whether the contract is an option, and its premium. -/
structure Domain where
  lotSize : ℤ
  isOption : Bool
  premium : Option ℚ

def domainOf (contract : Contract) (optionEntryPremium : Option ℚ) : Domain :=
  -- a lot size that raises leaves the answer to the given premium, as does a contract of neither kind
  let byPremium := ⟨75, optionEntryPremium.isSome, optionEntryPremium⟩
  match contract with
  | .other => byPremium
  | contract =>
    match contract.lotField.lotSize with
    | none => byPremium
    | some lotSize => ⟨lotSize, contract.isOption, optionEntryPremium.or contract.livePremium⟩

/-- The arguments of `resolve_sizing_for_contract`. -/
structure Request where
  contract : Contract
  availableCapital : ℚ
  riskPercent : ℚ := 2
  optionEntryPremium : Option ℚ := none
  optionStopPremium : Option ℚ := none
  entryPrice : Option ℚ := none
  stopLoss : Option ℚ := none
  maxLots : ℤ := 50

def Request.domain (r : Request) : Domain := domainOf r.contract r.optionEntryPremium

def Request.usablePremium (r : Request) : Option ℚ :=
  if r.domain.isOption then r.domain.premium.filter (0 < ·) else none

def resolveSizingForContract (r : Request) : Sizing :=
  match r.usablePremium with
  | some premium =>
    { calculateOptionBuyerSizing r.availableCapital r.riskPercent premium r.optionStopPremium none none
        r.domain.lotSize 20 r.maxLots with sizingBasis := some .optionPremium }
  | none =>
    { calculatePositionSizing r.availableCapital r.riskPercent (r.entryPrice.getD 0) (r.stopLoss.getD 0)
        r.domain.lotSize 1 r.maxLots with sizingBasis := some .spot }

end Droid.Signals.OptionSizing
