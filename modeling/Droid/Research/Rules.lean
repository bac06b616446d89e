import Droid.Lib.Dict
import Mathlib.Algebra.Order.Field.Rat
import Mathlib.Data.List.Dedup
import Mathlib.Data.Rat.Floor

/-! The signal-rule language: rules as JSON objects, their normal form and their evaluation. -/
namespace Droid.Research
open Lib

/-- The comparisons the language makes on floats; `far` is not the negation of `near` on a NaN. -/
class Floats (F : Type) where
  lt : F → F → Bool
  le : F → F → Bool
  /-- `abs(left - right) <= 1e-12` -/
  near : F → F → Bool
  /-- `abs(left - right) > 1e-12` -/
  far : F → F → Bool
  ofBool : Bool → F

instance : Floats ℚ where
  lt a b := decide (a < b)
  le a b := decide (a ≤ b)
  near a b := decide (|a - b| ≤ 1 / 10 ^ 12)
  far a b := decide (1 / 10 ^ 12 < |a - b|)
  ofBool b := if b then 1 else 0

/-- A value in a rule; `mixed` is an array with an entry that is no number, `object` an object with
neither of the two keys. -/
inductive Literal (F : Type) where
  | null
  | num (x : F)
  | bool (b : Bool)
  | str (text : String)
  | array (items : List F)
  | mixed
  | featureObject (name : Literal F)
  | valueObject (value : Literal F)
  | object

inductive Operand (F : Type) where
  | plain (value : Literal F)
  | featureObject (name : Literal F)
  | valueObject (value : Literal F)

/-- What the key `bars` holds; `digits` is a text that `int` reads, `junk` what it refuses. -/
inductive Bars where
  | null
  | number (x : ℚ)
  | bool (b : Bool)
  | digits (n : Int)
  | junk

/-- The keys of a rule object that are read; `none` is an absent key. A label that is no text is
`none` too. -/
structure Keys (F : Type) where
  operator : Option String := none
  leftKind : Option String := none
  left : Option (Operand F) := none
  rightKind : Option String := none
  right : Option (Operand F) := none
  bars : Option Bars := none
  enabled : Bool := true
  label : Option String := none

/-- A rule or a condition as it is given. -/
inductive Node (F : Type) where
  /-- An object without the key `conditions`. -/
  | item (keys : Keys F)
  /-- `conditions` is `null`. -/
  | nullGroup (keys : Keys F)
  | group (keys : Keys F) (conditions : List (Node F))
  /-- A value that is no object. -/
  | other

inductive RuleOperator where
  | gt | lt | ge | le | eq | ne
  | crossesAbove | crossesBelow
  | turnsUp | turnsDown
  | slopeUp | slopeDown
  | inRange | outsideRange
  deriving DecidableEq, Repr

def RuleOperator.ofName : String → Option RuleOperator
  | ">" => some .gt
  | "<" => some .lt
  | ">=" => some .ge
  | "<=" => some .le
  | "==" => some .eq
  | "!=" => some .ne
  | "crosses_above" => some .crossesAbove
  | "crosses_below" => some .crossesBelow
  | "turns_up" => some .turnsUp
  | "turns_down" => some .turnsDown
  | "slope_up" => some .slopeUp
  | "slope_down" => some .slopeDown
  | "in_range" => some .inRange
  | "outside_range" => some .outsideRange
  | _ => none

namespace RuleOperator

def unary (op : RuleOperator) : Bool := op ∈ [turnsUp, turnsDown, slopeUp, slopeDown]

def slope (op : RuleOperator) : Bool := op ∈ [slopeUp, slopeDown]

def takesRange (op : RuleOperator) : Bool := op ∈ [inRange, outsideRange]

end RuleOperator

inductive Problem where
  | ruleNotObject
  | nestingTooDeep
  | unknownLogic (operator : String)
  | missingConditions
  | conditionNotObject
  | notTakesOne (given : Nat)
  | missingLeft
  | unknownOperator (operator : Option String)
  | requiresRight (operator : String)
  | requiresRange (operator : String)
  | refusesRange (operator : String)
  | badBars
  | badFeatureName
  | emptyFeatureName
  | badArray
  | badOperandObject
  | unsupportedOperand
  deriving DecidableEq, Repr

inductive Fault where
  | rule (loc : String) (problem : Problem)
  | unknownFeature (name : Option String)
  | keyError | typeError | indexError | valueError
  deriving DecidableEq, Repr

/-! Normalisation. -/

def maxDepth : Nat := 12

section Normalise
variable {F : Type}

/-- `str.isspace` of one character. -/
def isSpace (c : Char) : Bool :=
  c.toNat ∈ [0x20, 0x85, 0xa0, 0x1680, 0x2028, 0x2029, 0x202f, 0x205f, 0x3000] ||
    decide (0x09 ≤ c.toNat ∧ c.toNat ≤ 0x0d) || decide (0x1c ≤ c.toNat ∧ c.toNat ≤ 0x1f) ||
    decide (0x2000 ≤ c.toNat ∧ c.toNat ≤ 0x200a)

def strip (text : String) : String :=
  String.ofList (((text.toList.dropWhile isSpace).reverse.dropWhile isSpace).reverse)

def namedFeature (loc : String) : Literal F → Except Fault (String × Literal F)
  | .str name =>
    let stripped := strip name
    if stripped = "" then .error (.rule loc .badFeatureName) else .ok ("feature", .str stripped)
  | _ => .error (.rule loc .badFeatureName)

def operand (loc : String) : Operand F → Except Fault (String × Literal F)
  | .featureObject name => namedFeature loc name
  | .valueObject value => .ok ("literal", value)
  | .plain (.featureObject name) => namedFeature loc name
  | .plain (.valueObject value) => .ok ("literal", value)
  | .plain (.str text) =>
    if text = "" then .error (.rule loc .emptyFeatureName) else .ok ("feature", .str text)
  | .plain (.bool b) => .ok ("literal", .bool b)
  | .plain (.num x) => .ok ("literal", .num x)
  | .plain (.array items) =>
    if items.length = 2 then .ok ("range", .array items) else .error (.rule loc .badArray)
  | .plain .mixed => .error (.rule loc .badArray)
  | .plain .object => .error (.rule loc .badOperandObject)
  | .plain .null => .error (.rule loc .unsupportedOperand)

def truncate (x : ℚ) : Int := if 0 ≤ x then ⌊x⌋ else ⌈x⌉

def normalizeBars (loc : String) (op : RuleOperator) : Option Bars → Except Fault Bars
  | none | some .null => .ok (if op.slope then .number 1 else .null)
  | some (.number x) =>
    if truncate x < 1 then .error (.rule loc .badBars) else .ok (.number (truncate x))
  | some _ => .error (.rule loc .badBars)

def normalizeRight (loc name : String) (op : RuleOperator) (right : Option (Operand F)) :
    Except Fault (Option String × Literal F) := do
  if op.unary then return (none, .null)
  let some raw := right | .error (.rule loc (.requiresRight name))
  let (kind, value) ← operand (loc ++ ".right") raw
  if op.takesRange ∧ kind ≠ "range" then .error (.rule loc (.requiresRange name))
  else if ¬ op.takesRange ∧ kind = "range" then .error (.rule loc (.refusesRange name))
  else return (some kind, value)

def normalizeCondition (loc : String) (raw : Keys F) : Except Fault (Keys F) := do
  let some left := raw.left | .error (.rule loc .missingLeft)
  let some name := raw.operator | .error (.rule loc (.unknownOperator none))
  let some op := RuleOperator.ofName name | .error (.rule loc (.unknownOperator (some name)))
  let (leftKind, leftValue) ← operand (loc ++ ".left") left
  let (rightKind, rightValue) ← normalizeRight loc name op raw.right
  let bars ← normalizeBars loc op raw.bars
  return { operator := some name, leftKind := some leftKind, left := some (.plain leftValue)
           rightKind, right := some (.plain rightValue), bars := some bars
           enabled := raw.enabled, label := raw.label }

/-- `str.upper`, exact for the texts that become a name of the list below. -/
def upper (text : String) : String := String.ofList (text.toList.map Char.toUpper)

def logicNames : List String := ["AND", "OR", "NOT"]

def assemble (depth : Nat) (loc : String) (keys : Keys F) (children : Except Fault (List (Node F))) :
    Except Fault (Node F) := do
  if depth > maxDepth then .error (.rule loc .nestingTooDeep)
  let operator := upper (keys.operator.getD "AND")
  if operator ∉ logicNames then .error (.rule loc (.unknownLogic operator))
  let children ← children
  if operator = "NOT" ∧ children.length ≠ 1 then .error (.rule loc (.notTakesOne children.length))
  return .group { operator := some operator } children

mutual

/-- An entry of `conditions`: one with `left` is a condition, whatever else it holds. -/
def normalizeChild (depth : Nat) (place : String) : Node F → Except Fault (Node F)
  | .other => .error (.rule place .conditionNotObject)
  | .item keys => (normalizeCondition place keys).map Node.item
  | .nullGroup keys =>
    if keys.operator.isSome ∧ keys.left.isNone then
      assemble (depth + 1) place keys (.error (.rule place .missingConditions))
    else (normalizeCondition place keys).map Node.item
  | .group keys conditions =>
    if keys.operator.isSome ∧ keys.left.isNone then
      assemble (depth + 1) place keys (normalizeChildren (depth + 1) place 0 conditions)
    else (normalizeCondition place keys).map Node.item

def normalizeChildren (depth : Nat) (loc : String) (idx : Nat) :
    List (Node F) → Except Fault (List (Node F))
  | [] => .ok []
  | node :: rest => do
    let child ← normalizeChild depth (loc ++ ".conditions[" ++ toString idx ++ "]") node
    return child :: (← normalizeChildren depth loc (idx + 1) rest)

end

def normalizeRule : Node F → Except Fault (Node F)
  | .group keys conditions => assemble 0 "rule" keys (normalizeChildren 0 "rule" 0 conditions)
  | .item keys | .nullGroup keys =>
    assemble 0 "rule" keys (.error (.rule "rule" .missingConditions))
  | .other => .error (.rule "rule" .ruleNotObject)

mutual

def conditionsOf : Node F → List (Keys F)
  | .item cond => [cond]
  | .group _ conditions => iterConditions conditions
  | .nullGroup _ | .other => []

def iterConditions : List (Node F) → List (Keys F)
  | [] => []
  | child :: rest => conditionsOf child ++ iterConditions rest

end

def featureName (kind : Option String) (side : Option (Operand F)) : Option String :=
  match side with
  | some (.plain (.str name)) => if kind = some "feature" then some name else none
  | _ => none

/-- The features that a condition of a normal form names. -/
def Keys.featureNames (cond : Keys F) : List String :=
  (featureName cond.leftKind cond.left).toList ++ (featureName cond.rightKind cond.right).toList

/-- A rule that does not normalise names none. -/
def unknownFeatures (rule : Option (Node F)) (known : List String) : List String :=
  match rule.map normalizeRule with
  | some (.ok normalized) =>
    (((conditionsOf normalized).flatMap Keys.featureNames).filter (· ∉ known)).dedup.mergeSort
      fun a b => decide (a ≤ b)
  | _ => []

mutual

def childNormalized : Node F → Bool
  | .item keys => keys.leftKind.isSome
  | .nullGroup keys => keys.operator.isSome
  | .group keys conditions => keys.operator.isSome && allNormalized conditions
  | .other => false

def allNormalized : List (Node F) → Bool
  | [] => true
  | child :: rest => childNormalized child && allNormalized rest

end

def isNormalized : Node F → Bool
  | .item keys => keys.operator.isSome
  | node => childNormalized node

def canonical (rule : Node F) : Except Fault (Node F) :=
  if isNormalized rule then .ok rule else normalizeRule rule

end Normalise

/-! Evaluation. -/

abbrev Features (F : Type) := Dict String (List (Option F))

section Evaluate
variable {F : Type} [Floats F]

def required {α : Type} : Option α → Except Fault α
  | some a => .ok a
  | none => .error .keyError

/-- `column[i]` behind the length check: a negative index counts from the end. -/
def cell (column : List (Option F)) (i : Int) : Except Fault (Option F) :=
  if i ≥ column.length then .ok none
  else if 0 ≤ i then .ok (column.getD i.toNat none)
  else if 0 ≤ column.length + i then .ok (column.getD (column.length + i).toNat none)
  else .error .indexError

def resolveFeature (side : Option (Operand F)) (features : Features F) (i : Int) :
    Except Fault (Option F) := do
  match ← required side with
  | .plain (.str name) =>
    match features.get? name with
    | none => .error (.unknownFeature (some name))
    | some column => cell column i
  | _ => .error (.unknownFeature none)

/-- `_resolve`: any other kind stands for the value itself. -/
def resolve (kind : Option String) (side : Option (Operand F)) (features : Features F) (i : Int) :
    Except Fault (Literal F) :=
  if kind = some "feature" then do
    match ← resolveFeature side features i with
    | none => return .null
    | some x => return .num x
  else do
    match ← required side with
    | .plain value => return value
    | _ => return .object

namespace Literal

def number? : Literal F → Option F
  | .num x => some x
  | .bool b => some (Floats.ofBool b)
  | _ => none

def isNull : Literal F → Bool
  | .null => true
  | _ => false

end Literal

def sameFloat (x y : F) : Bool := Floats.le x y && Floats.le y x

def arrayLt : List F → List F → Bool
  | _, [] => false
  | [], _ :: _ => true
  | x :: xs, y :: ys => if sameFloat x y then arrayLt xs ys else Floats.lt x y

def arrayLe : List F → List F → Bool
  | [], _ => true
  | _ :: _, [] => false
  | x :: xs, y :: ys => if sameFloat x y then arrayLe xs ys else Floats.le x y

/-- `left < right`: numbers, texts and arrays have an order, anything else raises. -/
def less (left right : Literal F) : Except Fault Bool :=
  match left.number?, right.number? with
  | some x, some y => .ok (Floats.lt x y)
  | _, _ =>
    match left, right with
    | .str a, .str b => .ok (decide (a < b))
    | .array a, .array b => .ok (arrayLt a b)
    | _, _ => .error .typeError

def atMost (left right : Literal F) : Except Fault Bool :=
  match left.number?, right.number? with
  | some x, some y => .ok (Floats.le x y)
  | _, _ =>
    match left, right with
    | .str a, .str b => .ok (decide (a ≤ b))
    | .array a, .array b => .ok (arrayLe a b)
    | _, _ => .error .typeError

def apart (test : F → F → Bool) (left right : Literal F) : Except Fault Bool :=
  match left.number?, right.number? with
  | some x, some y => .ok (test x y)
  | _, _ => .error .typeError

/-- `int(cond["bars"] or 1)`. -/
def lagOf : Bars → Except Fault Int
  | .null => .ok 1
  | .number x => .ok (if x = 0 then 1 else truncate x)
  | .bool _ => .ok 1
  | .digits n => .ok n
  | .junk => .error .valueError

/-- The operators on the left-hand column alone. -/
def unaryAt (op : RuleOperator) (cond : Keys F) (kind : String) (features : Features F) (i : Int) :
    Except Fault Bool := do
  if kind ≠ "feature" then return false
  let current ← resolveFeature cond.left features i
  let bars ← required cond.bars
  let bars ← lagOf bars
  let lag := if op.slope then bars else 2
  let some current := current | return false
  if i - lag < 0 then return false
  let some earlier := ← resolveFeature cond.left features (i - lag) | return false
  match op with
  | .turnsUp =>
    let some middle := ← resolveFeature cond.left features (i - 1) | return false
    return Floats.lt middle current && Floats.lt middle earlier
  | .turnsDown =>
    let some middle := ← resolveFeature cond.left features (i - 1) | return false
    return Floats.lt current middle && Floats.lt earlier middle
  | .slopeUp => return Floats.lt earlier current
  | _ => return Floats.lt current earlier

def bounds : Literal F → Except Fault (F × F)
  | .array (lo :: hi :: _) => .ok (lo, hi)
  | .array _ => .error .indexError
  | _ => .error .typeError

def insideAt (left right : Literal F) : Except Fault Bool := do
  let (lo, hi) ← bounds right
  let (lo, hi) := if Floats.lt hi lo then (hi, lo) else (lo, hi)
  let above ← atMost (.num lo) left
  if above then atMost left (.num hi) else return false

/-- The operators with two operands; an operator with no name of its own is false. -/
def binaryAt (op : Option RuleOperator) (cond : Keys F) (features : Features F) (i : Int) :
    Except Fault Bool := do
  let left ← resolve cond.leftKind cond.left features i
  let right ← resolve cond.rightKind cond.right features i
  if left.isNull || right.isNull then return false
  match op with
  | some .inRange => insideAt left right
  | some .outsideRange => do return !(← insideAt left right)
  | some .crossesAbove =>
    if i < 1 then return false
    let prevLeft ← resolve cond.leftKind cond.left features (i - 1)
    let prevRight ← resolve cond.rightKind cond.right features (i - 1)
    if prevLeft.isNull || prevRight.isNull then return false
    let below ← atMost prevLeft prevRight
    if below then less right left else return false
  | some .crossesBelow =>
    if i < 1 then return false
    let prevLeft ← resolve cond.leftKind cond.left features (i - 1)
    let prevRight ← resolve cond.rightKind cond.right features (i - 1)
    if prevLeft.isNull || prevRight.isNull then return false
    let above ← atMost prevRight prevLeft
    if above then less left right else return false
  | some .gt => less right left
  | some .lt => less left right
  | some .ge => atMost right left
  | some .le => atMost left right
  | some .eq => apart Floats.near left right
  | some .ne => apart Floats.far left right
  | _ => return false

def conditionAt (cond : Keys F) (features : Features F) (i : Int) : Except Fault Bool := do
  let name ← required cond.operator
  let kind ← required cond.leftKind
  match RuleOperator.ofName name with
  | some op => if op.unary then unaryAt op cond kind features i else binaryAt (some op) cond features i
  | none => binaryAt none cond features i

def Node.enabled : Node F → Bool
  | .item keys | .nullGroup keys | .group keys _ => keys.enabled
  | .other => true

mutual

def childAt (features : Features F) (i : Int) : Node F → Except Fault Bool
  | .item cond => conditionAt cond features i
  | .nullGroup keys => do
    let _ ← required keys.operator
    return false
  | .group keys conditions => do
    let operator ← required keys.operator
    if operator = "NOT" then negatedHead features i conditions
    else do
      let outcomes ← outcomesAt features i conditions
      if outcomes.isEmpty then return false
      else if operator = "AND" then return outcomes.all id
      else return outcomes.any id
  | .other => .error .typeError

/-- The negation of the first child; without one the group is false. -/
def negatedHead (features : Features F) (i : Int) : List (Node F) → Except Fault Bool
  | [] => .ok false
  | child :: _ => do return !(← childAt features i child)

def outcomesAt (features : Features F) (i : Int) : List (Node F) → Except Fault (List Bool)
  | [] => .ok []
  | child :: rest =>
    if child.enabled then do
      let outcome ← childAt features i child
      let outcomes ← outcomesAt features i rest
      return outcome :: outcomes
    else outcomesAt features i rest

end

/-- `_group_at` of a whole rule: one without conditions is false whatever its operator. -/
def groupAt (features : Features F) (i : Int) : Node F → Except Fault Bool
  | .item keys => do
    let _ ← required keys.operator
    return false
  | node => childAt features i node

def evaluateAt (rule : Option (Node F)) (features : Features F) (index : Int) :
    Except Fault Bool :=
  match rule with
  | none => .ok false
  | some rule => do groupAt features index (← canonical rule)

/-- `max((len(v) for v in features.values()), default=0)`. -/
def seriesLength (features : Features F) : Nat := (features.values.map List.length).foldr max 0

def evaluateSeries (rule : Option (Node F)) (features : Features F) (length : Option Int) :
    Except Fault (List Bool) :=
  let bars := length.getD (seriesLength features)
  match rule with
  | none => .ok (List.replicate bars.toNat false)
  | some rule => do
    let normalized ← canonical rule
    (List.range bars.toNat).mapM fun (i : Nat) => groupAt features i normalized

end Evaluate

end Droid.Research
