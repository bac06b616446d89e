import Droid.Lib.Decimal

/-! Numbers as callers pass them, tick-size normalization and the validation of a quantity. -/
namespace Droid.Safety
open Lib

/-- A finite number in one of the forms `DecimalLike` allows, or what `Decimal` cannot read. -/
inductive Numeral where
  | int (n : Int)
  | decimal (d : Decimal)
  /-- a float, by the decimal that `str` prints for it -/
  | float (d : Decimal)
  /-- a string that `_DECIMAL_STR_RE` matches -/
  | text (d : Decimal)
  /-- another string that `Decimal` reads, such as 1e2 -/
  | otherText (d : Decimal)
  | malformed
  deriving DecidableEq, Repr

namespace Numeral

def D : Numeral → Option Decimal
  | .int n => some ⟨n, 0⟩
  | .decimal d | .float d | .text d | .otherText d => some d
  | .malformed => none

def DStrict : Numeral → Option Decimal
  | .int n => some ⟨n, 0⟩
  | .decimal d | .text d => some d
  | .float _ | .otherText _ | .malformed => none

def isFloat : Numeral → Bool
  | .float _ => true
  | _ => false

/-- `v != D(0)`: no string equals a number. -/
def nonzero : Numeral → Bool
  | .int n => n ≠ 0
  | .decimal d | .float d => d.value ≠ 0
  | .text _ | .otherText _ | .malformed => true

end Numeral

def prec : Nat := 28

/-- `normalize_price_to_tick`, ties away from zero; `none` where it raises. -/
def normalizePriceToTick (price : ℚ) (tickSize : Decimal) : Option ℚ :=
  (Decimal.div prec price tickSize.value).bind fun quotient =>
    let ticks := Decimal.roundHalfUp quotient
    Decimal.quantize prec (Decimal.toPrecision prec (ticks * tickSize.value))
      (if tickSize.exponent < 0 then tickSize.exponent else -2)

inductive QuantityVerdict where
  | valid | belowMinimum | notPositive | notStep | notLot
  deriving DecidableEq, Repr

/-- The remainder test of `validate_quantity`: a tiny remainder counts as none. -/
def offStep (remainder step : ℚ) : Bool :=
  remainder ≠ 0 ∧ 1 / 10 ^ 9 < |remainder| ∧ 1 / 10 ^ 9 < |Decimal.toPrecision prec (remainder - step)|

def validateLots (q : ℚ) (lotSize : Option Numeral) : Option QuantityVerdict :=
  match lotSize.filter Numeral.nonzero with
  | none => some .valid
  | some lots =>
    (lots.D.bind fun lots => Decimal.mod prec q lots.value).map fun remainder =>
      if remainder ≠ 0 then .notLot else .valid

def validateQuantity (quantity minQty quantityStep : Numeral) (lotSize : Option Numeral) :
    Option QuantityVerdict :=
  match quantity.D, minQty.D, quantityStep.D with
  | some q, some mn, some step =>
    if q.value < mn.value then some .belowMinimum
    else if q.value ≤ 0 then some .notPositive
    else
      let remainder := if step.value ≠ 0 then
          Decimal.mod prec (Decimal.toPrecision prec (q.value - mn.value)) step.value
        else some 0
      remainder.bind fun remainder =>
        if offStep remainder step.value then some .notStep else validateLots q.value lotSize
  | _, _, _ => none

theorem normalizePriceToTick_multiple {price q : ℚ} {tickSize : Decimal}
    (h : normalizePriceToTick price tickSize = some q) : ∃ k : Int, q = k * tickSize.value := by
  obtain ⟨quotient, -, hq⟩ := Option.bind_eq_some_iff.mp h
  refine ⟨_, Decimal.quantize_multiple (by decide) ?_ hq⟩
  split <;> omega

theorem validateLots_valid {q : ℚ} {lotSize : Option Numeral} (h : validateLots q lotSize = some .valid)
    {lots : Numeral} (hlot : lotSize = some lots) (hnonzero : lots.nonzero = true) :
    ∃ d, lots.D = some d ∧ ∃ k : Int, q = k * d.value := by
  rw [validateLots, hlot, Option.filter_some, if_pos hnonzero] at h
  obtain ⟨remainder, hmod, hverdict⟩ := Option.map_eq_some_iff.mp h
  obtain ⟨d, hd, hmod⟩ := Option.bind_eq_some_iff.mp hmod
  refine ⟨d, hd, ?_⟩
  split at hverdict
  · cases hverdict
  · rename_i hzero
    rw [not_not.mp hzero] at hmod
    exact Decimal.mod_eq_zero (by decide) hmod

/-- A valid quantity is positive, and a whole number of the lots that are given. -/
theorem validateQuantity_valid {quantity minQty quantityStep : Numeral} {lotSize : Option Numeral}
    (h : validateQuantity quantity minQty quantityStep lotSize = some .valid) :
    ∃ q, quantity.D = some q ∧ 0 < q.value ∧ ∀ lots, lotSize = some lots → lots.nonzero = true →
      ∃ d, lots.D = some d ∧ ∃ k : Int, q.value = k * d.value := by
  rw [validateQuantity] at h
  split at h
  · rename_i q mn step hq hmn hstep
    split at h
    · cases h
    · split at h
      · cases h
      · rename_i hpos
        obtain ⟨remainder, -, h⟩ := Option.bind_eq_some_iff.mp h
        split at h
        · cases h
        · exact ⟨q, hq, not_le.mp hpos, fun lots => validateLots_valid h⟩
  · cases h

end Droid.Safety
