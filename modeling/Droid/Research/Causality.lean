import Droid.Research.Normaliser

/-! A rule reads the current bar and earlier ones only, whatever its nesting, as long as no lag is
negative and every operand is of a kind its operator can compare. -/
namespace Droid.Research
open Lib

section
variable {F : Type}

/-- Both maps have the same columns, which agree up to bar `i`. -/
def AgreeUpTo (i : Nat) (f g : Features F) : Prop :=
  ∀ name, (f.get? name).map (List.take (i + 1)) = (g.get? name).map (List.take (i + 1))

/-- Every column cut to `n` bars. -/
def upTo (n : Nat) (f : Features F) : Features F := f.mapValues fun _ column => column.take n

theorem agreeUpTo_upTo {i n : Nat} (h : i < n) (f : Features F) : AgreeUpTo i f (upTo n f) := by
  intro name
  rw [upTo, Dict.get?_mapValues, Option.map_map]
  congr 1
  funext column
  rw [Function.comp_apply, List.take_take, min_eq_left (by omega)]

variable [Floats F]

/-- Each bar of the series is the evaluation at that bar, which no later entry changes. -/
structure NoLookAhead (rule : Option (Node F)) : Prop where
  pointwise : ∀ (f : Features F) (i : Nat), i < seriesLength f →
    (evaluateSeries rule f none).map (fun bars => bars[i]?) = (evaluateAt rule f i).map some
  past : ∀ (f g : Features F) (i : Nat), AgreeUpTo i f g → evaluateAt rule f i = evaluateAt rule g i
  shortened : ∀ (f : Features F) (n : Nat) (bars : List Bool),
    evaluateSeries rule f none = .ok bars → evaluateSeries rule (upTo n f) none = .ok (bars.take n)

end

/-! The conditions of a rule that its evaluation reaches. -/

section
variable {F : Type}

mutual

def EveryCondition (P : Keys F → Prop) : Node F → Prop
  | .item cond => P cond
  | .group keys conditions =>
    (keys.operator = some "NOT" → HeadCondition P conditions) ∧
      (keys.operator ≠ some "NOT" → EnabledConditions P conditions)
  | .nullGroup _ => True
  | .other => True

def HeadCondition (P : Keys F → Prop) : List (Node F) → Prop
  | [] => True
  | child :: _ => EveryCondition P child

def EnabledConditions (P : Keys F → Prop) : List (Node F) → Prop
  | [] => True
  | child :: rest => (child.enabled → EveryCondition P child) ∧ EnabledConditions P rest

end

/-- The rule's live conditions; a rule without `conditions` has none. -/
def LiveConditions (P : Keys F → Prop) : Node F → Prop
  | .item _ => True
  | node => EveryCondition P node

/-- A slope does not look forward. -/
def Keys.Backward (cond : Keys F) : Prop :=
  ∀ name op bars lag, cond.operator = some name → RuleOperator.ofName name = some op → op.slope →
    cond.bars = some bars → lagOf bars = .ok lag → 0 ≤ lag

end

section
variable {F : Type}

/-! Reading a column. -/

theorem cell_nonneg (column : List (Option F)) {i : Int} (h : 0 ≤ i) :
    cell column i = .ok (column.getD i.toNat none) := by
  unfold cell
  split
  · rename_i hlen
    rw [List.getD_eq_getElem?_getD, List.getElem?_eq_none (by omega)]
    rfl
  · rfl

theorem resolveFeature_congr {side : Option (Operand F)} {f g : Features F} {i : Nat}
    (h : AgreeUpTo i f g) {j : Int} (h0 : 0 ≤ j) (hj : j ≤ i) :
    resolveFeature side f j = resolveFeature side g j := by
  unfold resolveFeature
  cases side with
  | none => rfl
  | some operand =>
    cases operand with
    | featureObject name => rfl
    | valueObject value => rfl
    | plain value =>
      cases value with
      | str name =>
        have hname := h name
        simp only [required, Except.bind, bind]
        cases hf : f.get? name with
        | none =>
          cases hg : g.get? name with
          | none => rfl
          | some d => rw [hf, hg] at hname; cases hname
        | some column =>
          cases hg : g.get? name with
          | none => rw [hf, hg] at hname; cases hname
          | some d =>
            rw [hf, hg] at hname
            have htake : column.take (i + 1) = d.take (i + 1) := Option.some.inj hname
            have hget : column[j.toNat]? = d[j.toNat]? := by
              rw [← List.getElem?_take_of_lt (l := column) (show j.toNat < i + 1 by omega), htake,
                List.getElem?_take_of_lt (by omega)]
            simp only [cell_nonneg _ h0, List.getD_eq_getElem?_getD, hget]
      | _ => rfl

theorem resolve_congr {kind : Option String} {side : Option (Operand F)} {f g : Features F} {i : Nat}
    (h : AgreeUpTo i f g) {j : Int} (h0 : 0 ≤ j) (hj : j ≤ i) :
    resolve kind side f j = resolve kind side g j := by
  unfold resolve
  rw [resolveFeature_congr h h0 hj]

end

section
variable {F : Type} [Floats F]

/-- A number, a missing value, or what becomes one. -/
def Literal.Numeric (v : Literal F) : Prop := v.number?.isSome ∨ v.isNull

/-- A feature, or a literal that compares with one. -/
def NumericSide (kind : Option String) (side : Option (Operand F)) : Prop :=
  kind = some "feature" ∨ ∀ operand, side = some operand → ∃ v, operand = .plain v ∧ v.Numeric

/-- A literal range; a missing value makes the condition false. -/
def RangeSide (kind : Option String) (side : Option (Operand F)) : Prop :=
  kind ≠ some "feature" ∧ ∀ operand, side = some operand →
    operand = .plain .null ∨ ∃ lo hi rest, operand = .plain (.array (lo :: hi :: rest))

/-- Every operand is of a kind that the operator can compare. -/
def Keys.Typed (cond : Keys F) : Prop :=
  ∀ name op, cond.operator = some name → RuleOperator.ofName name = some op → ¬ op.unary →
    NumericSide cond.leftKind cond.left ∧
      if op.takesRange then RangeSide cond.rightKind cond.right
      else NumericSide cond.rightKind cond.right

/-! No condition reads past its bar. -/

private theorem unaryAt_congr {op : RuleOperator} {cond : Keys F} {kind : String} {f g : Features F}
    {i : Nat} (h : AgreeUpTo i f g)
    (hlag : op.slope → ∀ bars lag, cond.bars = some bars → lagOf bars = .ok lag → 0 ≤ lag) :
    unaryAt op cond kind f i = unaryAt op cond kind g i := by
  have hread : ∀ j : Int, 0 ≤ j → j ≤ i →
      resolveFeature cond.left f j = resolveFeature cond.left g j :=
    fun j h0 hj => resolveFeature_congr h h0 hj
  unfold unaryAt
  rw [hread i (Int.natCast_nonneg i) le_rfl]
  split
  · rfl
  · apply bind_congr
    intro current
    cases hb : cond.bars with
    | none => rfl
    | some bars =>
      cases hl : lagOf bars with
      | error fault => simp only [required, bind, Except.bind, hl]
      | ok lag =>
        simp only [required, bind, Except.bind, hl]
        cases current with
        | none => rfl
        | some current =>
          dsimp only
          generalize hback : (if op.slope then lag else 2) = back
          have hback0 : 0 ≤ back := by
            rw [← hback]
            split
            · rename_i hs
              exact hlag hs bars lag hb hl
            · decide
          by_cases hpast : (i : Int) - back < 0
          · rw [if_pos hpast, if_pos hpast]
          · rw [if_neg hpast, if_neg hpast, hread _ (by omega) (by omega)]
            -- only the turns read the bar between
            have hturn : ¬ op.slope → resolveFeature cond.left f (i - 1) =
                resolveFeature cond.left g (i - 1) := by
              intro hs
              rw [if_neg hs] at hback
              exact hread _ (by omega) (by omega)
            cases op with
            | turnsUp => rw [hturn (by decide)]
            | turnsDown => rw [hturn (by decide)]
            | _ => rfl

private theorem binaryAt_congr {op : Option RuleOperator} {cond : Keys F} {f g : Features F} {i : Nat}
    (h : AgreeUpTo i f g) : binaryAt op cond f i = binaryAt op cond g i := by
  unfold binaryAt
  by_cases hi : (i : Int) < 1
  · simp only [resolve_congr h (Int.natCast_nonneg i) le_rfl, hi, if_true]
  · simp only [resolve_congr h (Int.natCast_nonneg i) le_rfl,
      resolve_congr h (show (0 : Int) ≤ i - 1 by omega) (show (i : Int) - 1 ≤ i by omega)]

private theorem conditionAt_congr {cond : Keys F} {f g : Features F} {i : Nat}
    (h : AgreeUpTo i f g) (hb : cond.Backward) : conditionAt cond f i = conditionAt cond g i := by
  unfold conditionAt
  cases hname : cond.operator with
  | none => rfl
  | some name =>
    simp only [required, bind, Except.bind]
    cases cond.leftKind with
    | none => rfl
    | some kind =>
      cases hop : RuleOperator.ofName name with
      | none => exact binaryAt_congr h
      | some op =>
        dsimp only
        split
        · exact unaryAt_congr h fun hs bars lag => hb name op bars lag hname hop hs
        · exact binaryAt_congr h

mutual

private theorem childAt_congr {f g : Features F} {i : Nat} (h : AgreeUpTo i f g) :
    ∀ node : Node F, EveryCondition Keys.Backward node → childAt f i node = childAt g i node
  | .item cond, hb => by
    rw [childAt, childAt, conditionAt_congr h (by simpa only [EveryCondition] using hb)]
  | .nullGroup keys, _ => by rw [childAt, childAt]
  | .other, _ => by rw [childAt, childAt]
  | .group keys conditions, hb => by
    rw [EveryCondition] at hb
    rw [childAt, childAt]
    cases hop : keys.operator with
    | none => rfl
    | some operator =>
      simp only [required, bind, Except.bind]
      split
      · rename_i hnot
        rw [negatedHead_congr h conditions (hb.1 (by rw [hop, hnot]))]
      · rename_i hnot
        rw [outcomesAt_congr h conditions
          (hb.2 (by rw [hop]; exact fun he => hnot (Option.some.inj he)))]

private theorem negatedHead_congr {f g : Features F} {i : Nat} (h : AgreeUpTo i f g) :
    ∀ nodes : List (Node F), HeadCondition Keys.Backward nodes →
      negatedHead f i nodes = negatedHead g i nodes
  | [], _ => by rw [negatedHead, negatedHead]
  | child :: _, hb => by
    rw [negatedHead, negatedHead, childAt_congr h child (by simpa only [HeadCondition] using hb)]

private theorem outcomesAt_congr {f g : Features F} {i : Nat} (h : AgreeUpTo i f g) :
    ∀ nodes : List (Node F), EnabledConditions Keys.Backward nodes →
      outcomesAt f i nodes = outcomesAt g i nodes
  | [], _ => by rw [outcomesAt, outcomesAt]
  | child :: rest, hb => by
    rw [EnabledConditions] at hb
    rw [outcomesAt, outcomesAt, outcomesAt_congr h rest hb.2]
    split
    · rename_i he
      rw [childAt_congr h child (hb.1 he)]
    · rfl

end

theorem groupAt_congr {f g : Features F} {i : Nat} (h : AgreeUpTo i f g) {node : Node F}
    (hb : LiveConditions Keys.Backward node) : groupAt f i node = groupAt g i node := by
  cases node with
  | item keys => rfl
  | nullGroup keys => exact childAt_congr h _ hb
  | group keys conditions => exact childAt_congr h _ hb
  | other => rfl

/-! A condition that raises does so at every bar. -/

/-- Either every bar raises the same fault or no bar raises. -/
def Steady {α : Type} (g : Int → Except Fault α) : Prop :=
  (∃ fault, ∀ i, 0 ≤ i → g i = .error fault) ∨ ∀ i, 0 ≤ i → ∃ a, g i = .ok a

private theorem Steady.bind {α β : Type} {x : Int → Except Fault α}
    {k : Int → α → Except Fault β} (hx : Steady x)
    (hk : (∃ fault, ∀ i, 0 ≤ i → ∀ a, x i = .ok a → k i a = .error fault) ∨
      ∀ i, 0 ≤ i → ∀ a, x i = .ok a → ∃ b, k i a = .ok b) :
    Steady fun i => x i >>= k i := by
  rcases hx with ⟨fault, hx⟩ | hx
  · left
    refine ⟨fault, fun i hi => ?_⟩
    simp only [hx i hi]
    rfl
  · rcases hk with ⟨fault, hk⟩ | hk
    · left
      refine ⟨fault, fun i hi => ?_⟩
      obtain ⟨a, ha⟩ := hx i hi
      simp only [ha]
      exact hk i hi a ha
    · right
      intro i hi
      obtain ⟨a, ha⟩ := hx i hi
      obtain ⟨b, hb⟩ := hk i hi a ha
      refine ⟨b, ?_⟩
      simp only [ha]
      exact hb

private theorem steady_const {α : Type} (r : Except Fault α) : Steady fun _ => r := by
  cases r with
  | error fault => exact Or.inl ⟨fault, fun _ _ => rfl⟩
  | ok a => exact Or.inr fun _ _ => ⟨a, rfl⟩

omit [Floats F] in
private theorem resolveFeature_steady (side : Option (Operand F)) (f : Features F) :
    Steady (resolveFeature side f) := by
  cases side with
  | none => exact steady_const _
  | some operand =>
    cases operand with
    | featureObject name => exact steady_const _
    | valueObject value => exact steady_const _
    | plain value =>
      cases value with
      | str name =>
        cases hf : f.get? name with
        | none =>
          left
          refine ⟨.unknownFeature (some name), fun i _ => ?_⟩
          simp only [resolveFeature, required, bind, Except.bind, hf]
        | some column =>
          right
          intro i hi
          refine ⟨column.getD i.toNat none, ?_⟩
          simp only [resolveFeature, required, bind, Except.bind, hf, cell_nonneg column hi]
      | _ => exact steady_const _

omit [Floats F] in
private theorem resolve_steady (kind : Option String) (side : Option (Operand F)) (f : Features F) :
    Steady (resolve kind side f) := by
  unfold resolve
  split
  · apply (resolveFeature_steady side f).bind
    right
    rintro i - (_ | x) -
    · exact ⟨.null, rfl⟩
    · exact ⟨.num x, rfl⟩
  · exact steady_const _

private theorem resolve_numeric {kind : Option String} {side : Option (Operand F)} {f : Features F}
    (h : NumericSide kind side) {i : Int} {v : Literal F} (hv : resolve kind side f i = .ok v) :
    v.Numeric := by
  unfold resolve at hv
  split at hv
  · cases hr : resolveFeature side f i with
    | error fault =>
      rw [hr] at hv
      cases hv
    | ok x =>
      rw [hr] at hv
      cases x with
      | none =>
        obtain rfl := Except.ok.inj hv
        exact Or.inr rfl
      | some x =>
        obtain rfl := Except.ok.inj hv
        exact Or.inl rfl
  · rename_i hk
    cases side with
    | none => cases hv
    | some operand =>
      obtain ⟨w, rfl, hw⟩ := h.resolve_left hk operand rfl
      obtain rfl := Except.ok.inj hv
      exact hw

omit [Floats F] in
private theorem resolve_range {kind : Option String} {side : Option (Operand F)} {f : Features F}
    (h : RangeSide kind side) {i : Int} {v : Literal F} (hv : resolve kind side f i = .ok v) :
    v.isNull ∨ ∃ lo hi rest, v = .array (lo :: hi :: rest) := by
  unfold resolve at hv
  rw [if_neg h.1] at hv
  cases side with
  | none => cases hv
  | some operand =>
    rcases h.2 operand rfl with rfl | ⟨lo, hi, rest, rfl⟩
    · obtain rfl := Except.ok.inj hv
      exact Or.inl rfl
    · obtain rfl := Except.ok.inj hv
      exact Or.inr ⟨lo, hi, rest, rfl⟩

private theorem Literal.Numeric.number {v : Literal F} (h : v.Numeric) (hn : v.isNull = false) :
    ∃ x, v.number? = some x := by
  rcases h with h | h
  · exact Option.isSome_iff_exists.mp h
  · rw [hn] at h
    cases h

theorem less_ok {l r : Literal F} (hl : ∃ x, l.number? = some x) (hr : ∃ x, r.number? = some x) :
    ∃ b, less l r = .ok b := by
  obtain ⟨x, hx⟩ := hl
  obtain ⟨y, hy⟩ := hr
  exact ⟨Floats.lt x y, by simp only [less, hx, hy]⟩

private theorem atMost_ok {l r : Literal F} (hl : ∃ x, l.number? = some x)
    (hr : ∃ x, r.number? = some x) : ∃ b, atMost l r = .ok b := by
  obtain ⟨x, hx⟩ := hl
  obtain ⟨y, hy⟩ := hr
  exact ⟨Floats.le x y, by simp only [atMost, hx, hy]⟩

private theorem apart_ok (test : F → F → Bool) {l r : Literal F} (hl : ∃ x, l.number? = some x)
    (hr : ∃ x, r.number? = some x) : ∃ b, apart test l r = .ok b := by
  obtain ⟨x, hx⟩ := hl
  obtain ⟨y, hy⟩ := hr
  exact ⟨test x y, by simp only [apart, hx, hy]⟩

private theorem insideAt_ok {l : Literal F} (hl : ∃ x, l.number? = some x) (lo hi : F) (rest : List F) :
    ∃ b, insideAt l (.array (lo :: hi :: rest)) = .ok b := by
  unfold insideAt bounds
  simp only [bind, Except.bind]
  generalize (if Floats.lt hi lo then (hi, lo) else (lo, hi)) = range
  obtain ⟨above, ha⟩ := atMost_ok (l := Literal.num range.1) ⟨range.1, rfl⟩ hl
  rw [ha]
  cases above with
  | false => exact ⟨false, rfl⟩
  | true => exact atMost_ok hl ⟨range.2, rfl⟩

/-- A crossing: the two operands one bar earlier, then the two tests in turn. -/
private theorem crossing_ok {before after : Except Fault Bool} (hb : ∃ b, before = .ok b)
    (ha : ∃ b, after = .ok b) :
    ∃ b, (before >>= fun first => if first then after else pure false) = .ok b := by
  obtain ⟨first, rfl⟩ := hb
  cases first with
  | false => exact ⟨false, rfl⟩
  | true => exact ha

/-- Comparable operands that can be read compare. -/
theorem binaryAt_ok {op : Option RuleOperator} {cond : Keys F} {f : Features F}
    (htyped : ∀ o, op = some o → ¬ o.unary → NumericSide cond.leftKind cond.left ∧
      if o.takesRange then RangeSide cond.rightKind cond.right
      else NumericSide cond.rightKind cond.right)
    (hl : ∀ i, 0 ≤ i → ∃ l, resolve cond.leftKind cond.left f i = .ok l)
    (hr : ∀ i, 0 ≤ i → ∃ r, resolve cond.rightKind cond.right f i = .ok r) :
    ∀ i, 0 ≤ i → ∃ b, binaryAt op cond f i = .ok b := by
  intro i hi
  obtain ⟨l, hli⟩ := hl i hi
  obtain ⟨r, hri⟩ := hr i hi
  rw [binaryAt, hli, hri]
  simp only [bind, Except.bind]
  by_cases hnull : (l.isNull || r.isNull) = true
  · exact ⟨false, by rw [if_pos hnull]; rfl⟩
  rw [if_neg hnull]
  obtain ⟨hln, hrn⟩ : l.isNull = false ∧ r.isNull = false := by simpa using hnull
  -- the comparisons of the current bar, and of the bar before where there is one
  have hnum : (∀ o, op = some o → ¬ o.unary → ¬ o.takesRange →
      (∃ x, l.number? = some x) ∧ (∃ y, r.number? = some y) ∧
      (1 ≤ i → ∃ pl pr, resolve cond.leftKind cond.left f (i - 1) = .ok pl ∧
        resolve cond.rightKind cond.right f (i - 1) = .ok pr ∧
        (pl.isNull = false → ∃ x, pl.number? = some x) ∧
        (pr.isNull = false → ∃ y, pr.number? = some y))) := by
    intro o ho hu ht
    obtain ⟨hL, hR⟩ := htyped o ho hu
    rw [if_neg ht] at hR
    refine ⟨(resolve_numeric hL hli).number hln, (resolve_numeric hR hri).number hrn, fun h1 => ?_⟩
    obtain ⟨pl, hpl⟩ := hl (i - 1) (by omega)
    obtain ⟨pr, hpr⟩ := hr (i - 1) (by omega)
    exact ⟨pl, pr, hpl, hpr, (resolve_numeric hL hpl).number, (resolve_numeric hR hpr).number⟩
  cases op with
  | none => exact ⟨false, rfl⟩
  | some op =>
    have hrange : op.takesRange → (∃ x, l.number? = some x) ∧
        ∃ lo hi rest, r = .array (lo :: hi :: rest) := by
      intro ht
      obtain ⟨hL, hR⟩ := htyped op rfl (by cases op <;> revert ht <;> decide)
      rw [if_pos ht] at hR
      refine ⟨(resolve_numeric hL hli).number hln, (resolve_range hR hri).resolve_left ?_⟩
      rw [hrn]
      decide
    cases op with
    | inRange =>
      obtain ⟨hx, lo, hi, rest, rfl⟩ := hrange (by decide)
      exact insideAt_ok hx lo hi rest
    | outsideRange =>
      obtain ⟨hx, lo, hi, rest, rfl⟩ := hrange (by decide)
      obtain ⟨b, hb⟩ := insideAt_ok hx lo hi rest
      exact ⟨!b, by simp only [hb]; rfl⟩
    | crossesAbove =>
      obtain ⟨hx, hy, hprev⟩ := hnum _ rfl (by decide) (by decide)
      dsimp only
      by_cases h1 : i < 1
      · exact ⟨false, by rw [if_pos h1]; rfl⟩
      rw [if_neg h1]
      obtain ⟨pl, pr, hpl, hpr, hpx, hpy⟩ := hprev (by omega)
      rw [hpl, hpr]
      dsimp only
      by_cases hpn : (pl.isNull || pr.isNull) = true
      · exact ⟨false, by rw [if_pos hpn]; rfl⟩
      rw [if_neg hpn]
      obtain ⟨hpl0, hpr0⟩ : pl.isNull = false ∧ pr.isNull = false := by simpa using hpn
      exact crossing_ok (atMost_ok (hpx hpl0) (hpy hpr0)) (less_ok hy hx)
    | crossesBelow =>
      obtain ⟨hx, hy, hprev⟩ := hnum _ rfl (by decide) (by decide)
      dsimp only
      by_cases h1 : i < 1
      · exact ⟨false, by rw [if_pos h1]; rfl⟩
      rw [if_neg h1]
      obtain ⟨pl, pr, hpl, hpr, hpx, hpy⟩ := hprev (by omega)
      rw [hpl, hpr]
      dsimp only
      by_cases hpn : (pl.isNull || pr.isNull) = true
      · exact ⟨false, by rw [if_pos hpn]; rfl⟩
      rw [if_neg hpn]
      obtain ⟨hpl0, hpr0⟩ : pl.isNull = false ∧ pr.isNull = false := by simpa using hpn
      exact crossing_ok (atMost_ok (hpy hpr0) (hpx hpl0)) (less_ok hx hy)
    | gt =>
      obtain ⟨hx, hy, -⟩ := hnum _ rfl (by decide) (by decide)
      exact less_ok hy hx
    | lt =>
      obtain ⟨hx, hy, -⟩ := hnum _ rfl (by decide) (by decide)
      exact less_ok hx hy
    | ge =>
      obtain ⟨hx, hy, -⟩ := hnum _ rfl (by decide) (by decide)
      exact atMost_ok hy hx
    | le =>
      obtain ⟨hx, hy, -⟩ := hnum _ rfl (by decide) (by decide)
      exact atMost_ok hx hy
    | eq =>
      obtain ⟨hx, hy, -⟩ := hnum _ rfl (by decide) (by decide)
      exact apart_ok Floats.near hx hy
    | ne =>
      obtain ⟨hx, hy, -⟩ := hnum _ rfl (by decide) (by decide)
      exact apart_ok Floats.far hx hy
    | _ => exact ⟨false, rfl⟩

private theorem binaryAt_steady {op : Option RuleOperator} {cond : Keys F} {f : Features F}
    (htyped : ∀ o, op = some o → ¬ o.unary → NumericSide cond.leftKind cond.left ∧
      if o.takesRange then RangeSide cond.rightKind cond.right
      else NumericSide cond.rightKind cond.right) : Steady (binaryAt op cond f) := by
  rcases resolve_steady cond.leftKind cond.left f with ⟨fault, hl⟩ | hl
  · left
    refine ⟨fault, fun i hi => ?_⟩
    rw [binaryAt, hl i hi]
    rfl
  rcases resolve_steady cond.rightKind cond.right f with ⟨fault, hr⟩ | hr
  · left
    refine ⟨fault, fun i hi => ?_⟩
    obtain ⟨l, hli⟩ := hl i hi
    rw [binaryAt, hli, hr i hi]
    rfl
  right
  exact binaryAt_ok htyped hl hr

theorem unaryAt_ok (op : RuleOperator) {cond : Keys F} {f : Features F} {bars : Bars} {lag : Int}
    (kind : String)
    (hread : kind = "feature" → ∀ i, 0 ≤ i → ∃ x, resolveFeature cond.left f i = .ok x)
    (hb : cond.bars = some bars) (hl : lagOf bars = .ok lag) :
    ∀ i, 0 ≤ i → ∃ b, unaryAt op cond kind f i = .ok b := by
  intro i hi
  by_cases hkind : kind ≠ "feature"
  · exact ⟨false, by rw [unaryAt, if_pos hkind]; rfl⟩
  replace hread := hread (not_not.mp hkind)
  obtain ⟨current, hc⟩ := hread i hi
  rw [unaryAt, if_neg hkind, hc, hb]
  simp only [required, bind, Except.bind, hl]
  cases current with
  | none => exact ⟨false, rfl⟩
  | some current =>
    dsimp only
    generalize hback : (if op.slope then lag else 2) = back
    by_cases hpast : i - back < 0
    · exact ⟨false, by rw [if_pos hpast]; rfl⟩
    rw [if_neg hpast]
    obtain ⟨earlier, he⟩ := hread (i - back) (by omega)
    rw [he]
    cases earlier with
    | none => exact ⟨false, rfl⟩
    | some earlier =>
      have hturn : ¬ op.slope → ∃ middle, resolveFeature cond.left f (i - 1) = .ok middle := by
        intro hs
        rw [if_neg hs] at hback
        exact hread _ (by omega)
      cases op with
      | turnsUp =>
        obtain ⟨middle, hm⟩ := hturn (by decide)
        dsimp only
        rw [hm]
        cases middle with
        | none => exact ⟨false, rfl⟩
        | some middle => exact ⟨_, rfl⟩
      | turnsDown =>
        obtain ⟨middle, hm⟩ := hturn (by decide)
        dsimp only
        rw [hm]
        cases middle with
        | none => exact ⟨false, rfl⟩
        | some middle => exact ⟨_, rfl⟩
      | _ => exact ⟨_, rfl⟩

private theorem unaryAt_steady (op : RuleOperator) (cond : Keys F) (kind : String) (f : Features F) :
    Steady (unaryAt op cond kind f) := by
  by_cases hkind : kind ≠ "feature"
  · right
    intro i _
    exact ⟨false, by rw [unaryAt, if_pos hkind]; rfl⟩
  rcases resolveFeature_steady cond.left f with ⟨fault, hread⟩ | hread
  · left
    refine ⟨fault, fun i hi => ?_⟩
    rw [unaryAt, if_neg hkind, hread i hi]
    rfl
  cases hb : cond.bars with
  | none =>
    left
    refine ⟨.keyError, fun i hi => ?_⟩
    obtain ⟨current, hc⟩ := hread i hi
    rw [unaryAt, if_neg hkind, hc, hb]
    rfl
  | some bars =>
    cases hl : lagOf bars with
    | error fault =>
      left
      refine ⟨fault, fun i hi => ?_⟩
      obtain ⟨current, hc⟩ := hread i hi
      rw [unaryAt, if_neg hkind, hc, hb]
      simp only [required, bind, Except.bind, hl]
    | ok lag =>
      right
      exact unaryAt_ok op kind (fun _ => hread) hb hl

private theorem conditionAt_steady {cond : Keys F} (h : cond.Typed) (f : Features F) :
    Steady (conditionAt cond f) := by
  unfold conditionAt
  cases hname : cond.operator with
  | none => exact steady_const _
  | some name =>
    cases cond.leftKind with
    | none => exact steady_const _
    | some kind =>
      simp only [required, bind, Except.bind]
      cases hop : RuleOperator.ofName name with
      | none => exact binaryAt_steady fun o ho => by cases ho
      | some op =>
        dsimp only
        split
        · exact unaryAt_steady op cond kind f
        · apply binaryAt_steady
          rintro _ ⟨⟩
          exact h name op hname hop

mutual

private theorem childAt_steady (f : Features F) :
    ∀ node : Node F, EveryCondition Keys.Typed node → Steady fun i => childAt f i node
  | .item cond, h => by
    simp only [childAt]
    exact conditionAt_steady (by simpa only [EveryCondition] using h) f
  | .nullGroup keys, _ => by
    simp only [childAt]
    exact steady_const _
  | .other, _ => by
    simp only [childAt]
    exact steady_const _
  | .group keys conditions, h => by
    rw [EveryCondition] at h
    simp only [childAt]
    cases hop : keys.operator with
    | none => exact steady_const _
    | some operator =>
      simp only [required, bind, Except.bind]
      split
      · rename_i hnot
        exact negatedHead_steady f conditions (h.1 (by rw [hop, hnot]))
      · rename_i hnot
        have hs := outcomesAt_steady f conditions
          (h.2 (by rw [hop]; exact fun he => hnot (Option.some.inj he)))
        refine hs.bind (k := fun _ outcomes =>
          if outcomes.isEmpty = true then pure false
          else if operator = "AND" then pure (outcomes.all id) else pure (outcomes.any id)) ?_
        right
        intro i _ outcomes _
        split
        · exact ⟨_, rfl⟩
        · split
          · exact ⟨_, rfl⟩
          · exact ⟨_, rfl⟩

private theorem negatedHead_steady (f : Features F) :
    ∀ nodes : List (Node F), HeadCondition Keys.Typed nodes → Steady fun i => negatedHead f i nodes
  | [], _ => by
    simp only [negatedHead]
    exact steady_const _
  | child :: _, h => by
    simp only [negatedHead]
    refine (childAt_steady f child (by simpa only [HeadCondition] using h)).bind ?_
    right
    intro i _ b _
    exact ⟨!b, rfl⟩

private theorem outcomesAt_steady (f : Features F) :
    ∀ nodes : List (Node F), EnabledConditions Keys.Typed nodes →
      Steady fun i => outcomesAt f i nodes
  | [], _ => by
    simp only [outcomesAt]
    exact steady_const _
  | child :: rest, h => by
    rw [EnabledConditions] at h
    simp only [outcomesAt]
    have hrest := outcomesAt_steady f rest h.2
    split
    · rename_i he
      refine (childAt_steady f child (h.1 he)).bind ?_
      rcases hrest with ⟨fault, hr⟩ | hr
      · left
        refine ⟨fault, fun i hi a _ => ?_⟩
        have hri : outcomesAt f i rest = .error fault := hr i hi
        rw [hri]
        rfl
      · right
        intro i hi outcome _
        obtain ⟨outcomes, ho⟩ : ∃ outcomes, outcomesAt f i rest = .ok outcomes := hr i hi
        exact ⟨outcome :: outcomes, by rw [ho]; rfl⟩
    · exact hrest

end

private theorem groupAt_steady (f : Features F) {node : Node F}
    (h : LiveConditions Keys.Typed node) : Steady fun i => groupAt f i node := by
  cases node with
  | item keys => exact steady_const _
  | nullGroup keys => exact childAt_steady f _ h
  | group keys conditions => exact childAt_steady f _ h
  | other => exact steady_const _

/-! The series as a map over its bars. -/

omit [Floats F] in
private theorem mapM_error {n : Nat} {x : Nat → Except Fault Bool} {fault : Fault} (hn : 0 < n)
    (h : ∀ i, x i = .error fault) : (List.range n).mapM x = .error fault := by
  obtain ⟨m, rfl⟩ : ∃ m, n = m + 1 := ⟨n - 1, by omega⟩
  rw [List.range_succ_eq_map, List.mapM_cons, h 0]
  rfl

omit [Floats F] in
theorem mapM_ok {α : Type} (l : List α) {x : α → Except Fault Bool} {b : α → Bool}
    (h : ∀ a ∈ l, x a = .ok (b a)) : l.mapM x = .ok (l.map b) := by
  induction l with
  | nil => rfl
  | cons a l ih =>
    obtain ⟨ha, hl⟩ := List.forall_mem_cons.mp h
    rw [List.mapM_cons, ha, ih hl]
    rfl

omit [Floats F] in
theorem seriesLength_upTo (f : Features F) (n : Nat) :
    seriesLength (upTo n f) = min n (seriesLength f) := by
  unfold seriesLength upTo Dict.values Dict.mapValues
  simp only [List.map_map]
  induction f.entries with
  | nil => simp
  | cons e es ih =>
    simp only [List.map_cons, List.foldr_cons, ih, Function.comp_apply, List.length_take]
    omega

/-- A rule whose live operands are of comparable kinds and whose live slopes look back sees no later
bar, in any nesting: bars that raise included. -/
theorem no_look_ahead_of_live {node : Node F} (hb : LiveConditions Keys.Backward node)
    (ht : LiveConditions Keys.Typed node) (f : Features F) :
    (∀ i : Nat, i < seriesLength f →
      ((List.range (seriesLength f)).mapM fun (j : Nat) => groupAt f j node).map (fun bars => bars[i]?) =
        (groupAt f (i : Int) node).map some) ∧
    ∀ (n : Nat) (bars : List Bool),
      (List.range (seriesLength f)).mapM (fun (j : Nat) => groupAt f j node) = .ok bars →
      (List.range (seriesLength (upTo n f))).mapM (fun (j : Nat) => groupAt (upTo n f) j node) =
        .ok (bars.take n) := by
  rcases groupAt_steady f ht with ⟨fault, he⟩ | hok
  · have hall : ∀ j : Nat, groupAt f (j : Int) node = .error fault := fun j => he j (by omega)
    constructor
    · intro i hi
      rw [mapM_error (by omega) hall, hall i]
      rfl
    · intro n bars hbars
      rcases Nat.eq_zero_or_pos (seriesLength f) with h0 | hpos
      · rw [h0] at hbars
        obtain rfl : [] = bars := Except.ok.inj hbars
        rw [seriesLength_upTo, h0, Nat.min_zero, List.take_nil]
        rfl
      · rw [mapM_error hpos hall] at hbars
        cases hbars
  · have hval : ∀ j : Nat, ∃ b, groupAt f (j : Int) node = .ok b := fun j => hok j (by omega)
    choose value hvalue using hval
    have hseries := mapM_ok (List.range (seriesLength f)) (x := fun j : Nat => groupAt f j node)
      (b := value) fun j _ => hvalue j
    constructor
    · intro i hi
      rw [hseries, hvalue i]
      simp [Except.map, hi]
    · intro n bars hbars
      rw [hseries] at hbars
      obtain rfl := Except.ok.inj hbars
      rw [mapM_ok (b := value), seriesLength_upTo, ← List.map_take, List.take_range]
      intro j hj
      rw [seriesLength_upTo, List.mem_range] at hj
      rw [← groupAt_congr (agreeUpTo_upTo (show j < n by omega) f) hb]
      exact hvalue j

end

/-! What normalisation guarantees, and what an already normal rule only pretends. -/

section
variable {F : Type}

private theorem normalBars_lag {op : RuleOperator} {bars : Bars} (h : NormalBars op bars)
    (hs : op.slope) {lag : Int} (hl : lagOf bars = .ok lag) : 1 ≤ lag := by
  cases h with
  | absent hns => exact absurd hs hns
  | count n hn =>
    have hne : ((n : Int) : ℚ) ≠ 0 := by
      rw [Int.cast_ne_zero]
      omega
    rw [lagOf, if_neg hne, truncate_intCast] at hl
    have := Except.ok.inj hl
    omega

theorem normalItem_backward {cond : Keys F} (h : NormalItem cond) : cond.Backward := by
  obtain ⟨name, op, bars, hname, hop, -, hbars, hb⟩ := h.operator
  intro name' op' bars' lag hname' hop' hs hbars' hl
  obtain rfl : name = name' := Option.some.inj (hname.symm.trans hname')
  obtain rfl : op = op' := Option.some.inj (hop.symm.trans hop')
  obtain rfl : bars = bars' := Option.some.inj (hbars.symm.trans hbars')
  exact le_trans (by decide) (normalBars_lag hb hs hl)

private theorem everyCondition_group {P : Keys F → Prop} {keys : Keys F} {children : List (Node F)}
    (h : ∀ c ∈ children, EveryCondition P c) : EveryCondition P (.group keys children) := by
  rw [EveryCondition]
  constructor
  · intro _
    cases children with
    | nil => trivial
    | cons c cs => exact h c List.mem_cons_self
  · intro _
    induction children with
    | nil => trivial
    | cons c cs ih =>
      exact ⟨fun _ => h c List.mem_cons_self, ih fun c hc => h c (List.mem_cons_of_mem _ hc)⟩

mutual

private theorem normalChild_backward (depth : Nat) :
    ∀ node : Node F, NormalChild depth node → EveryCondition Keys.Backward node
  | .other, h => h.elim
  | .nullGroup _, h => h.elim
  | .item cond, h => normalItem_backward h
  | .group keys conditions, h => by
    rw [NormalChild] at h
    exact everyCondition_group (normalChildren_backward (depth + 1) conditions h.2.2)

private theorem normalChildren_backward (depth : Nat) :
    ∀ nodes : List (Node F), NormalChildren depth nodes → ∀ c ∈ nodes, EveryCondition Keys.Backward c
  | [], _ => fun c hc => absurd hc List.not_mem_nil
  | child :: rest, h => by
    rw [NormalChildren] at h
    rw [List.forall_mem_cons]
    exact ⟨normalChild_backward depth child h.1, normalChildren_backward depth rest h.2⟩

end

/-- What comes out of the normaliser looks back. -/
theorem normalizeRule_backward {rule node : Node F} (h : normalizeRule rule = .ok node) :
    LiveConditions Keys.Backward node := by
  have hn := normalizeRule_normal h
  cases node with
  | group keys conditions => exact everyCondition_group (normalChildren_backward 0 conditions hn.2)
  | _ => exact hn.elim

end

/-- The operands of the live conditions are of comparable kinds, and where the rule is taken as it
comes because it shows a `left_kind`, its live slopes look back. -/
def Sober {F : Type} [Floats F] (rule : Option (Node F)) : Prop :=
  ∀ r node, rule = some r → canonical r = .ok node →
    LiveConditions Keys.Typed node ∧ (isNormalized r → LiveConditions Keys.Backward node)

/-- The language has no look-ahead on sober rules. -/
theorem no_look_ahead {F : Type} [Floats F] (rule : Option (Node F)) (h : Sober rule) :
    NoLookAhead rule := by
  cases rule with
  | none =>
    refine ⟨fun f i hi => ?_, fun f g i _ => rfl, fun f n bars hbars => ?_⟩
    · simp [evaluateSeries, evaluateAt, Except.map, hi]
    · obtain rfl := Except.ok.inj hbars
      simp [evaluateSeries, seriesLength_upTo]
      omega
  | some r =>
    cases hc : canonical r with
    | error fault =>
      refine ⟨fun f i _ => ?_, fun f g i _ => ?_, fun f n bars hbars => ?_⟩
      · simp only [evaluateSeries, evaluateAt, hc, bind, Except.bind, Except.map]
      · simp only [evaluateAt, hc, bind, Except.bind]
      · simp only [evaluateSeries, hc, bind, Except.bind] at hbars
        cases hbars
    | ok node =>
      obtain ⟨ht, hback⟩ := h r node rfl hc
      have hb : LiveConditions Keys.Backward node := by
        rw [canonical] at hc
        split at hc
        · rename_i hn
          exact hback hn
        · exact normalizeRule_backward hc
      have hseries : ∀ f : Features F, evaluateSeries (some r) f none =
          (List.range (seriesLength f)).mapM fun (j : Nat) => groupAt f j node := by
        intro f
        simp only [evaluateSeries, hc, bind, Except.bind, Option.getD_none, Int.toNat_natCast]
      have hat : ∀ (f : Features F) (i : Int), evaluateAt (some r) f i = groupAt f i node := by
        intro f i
        simp only [evaluateAt, hc, bind, Except.bind]
      refine ⟨fun f i hi => ?_, fun f g i hfg => ?_, fun f n bars hbars => ?_⟩
      · rw [hseries, hat]
        exact (no_look_ahead_of_live hb ht f).1 i hi
      · rw [hat, hat]
        exact groupAt_congr hfg hb
      · rw [hseries] at hbars ⊢
        exact (no_look_ahead_of_live hb ht f).2 n bars hbars

/-- A crossing and a negated slope, as a user writes them. -/
def crossingRule : Node ℚ :=
  .group { operator := some "and" }
    [.item { operator := some "crosses_above", left := some (.plain (.str "close")),
             right := some (.plain (.num 2)) },
     .group { operator := some "NOT" }
       [.item { operator := some "slope_down", left := some (.featureObject (.str "close")),
                bars := some (.number 3) }]]

def crossingRuleNormal : Node ℚ :=
  .group { operator := some "AND" }
    [.item { operator := some "crosses_above", leftKind := some "feature",
             left := some (.plain (.str "close")), rightKind := some "literal",
             right := some (.plain (.num 2)), bars := some .null },
     .group { operator := some "NOT" }
       [.item { operator := some "slope_down", leftKind := some "feature",
                left := some (.plain (.str "close")), right := some (.plain .null),
                bars := some (.number 3) }]]

theorem crossingRule_no_look_ahead : NoLookAhead (some crossingRule) := by
  apply no_look_ahead
  rintro r node ⟨⟩ hc
  have hnormal : canonical crossingRule = .ok crossingRuleNormal := by rfl
  obtain rfl := Except.ok.inj (hnormal.symm.trans hc)
  refine ⟨?_, fun hn => absurd hn (by decide)⟩
  have hcross : Keys.Typed (F := ℚ)
      { operator := some "crosses_above", leftKind := some "feature",
        left := some (.plain (.str "close")), rightKind := some "literal",
        right := some (.plain (.num 2)), bars := some .null } := by
    rintro _ op ⟨⟩ ⟨⟩ -
    refine ⟨Or.inl rfl, ?_⟩
    rw [if_neg (by decide)]
    right
    rintro _ ⟨⟩
    exact ⟨.num 2, rfl, Or.inl rfl⟩
  have hslope : Keys.Typed (F := ℚ)
      { operator := some "slope_down", leftKind := some "feature",
        left := some (.plain (.str "close")), right := some (.plain .null),
        bars := some (.number 3) } := by
    rintro _ op ⟨⟩ ⟨⟩ hu
    exact absurd rfl hu
  simp only [LiveConditions, crossingRuleNormal, EveryCondition, EnabledConditions, HeadCondition]
  exact ⟨fun _ => hcross, fun _ => ⟨fun _ => hcross,
    fun _ => ⟨fun _ => hslope, fun hne => absurd rfl hne⟩, trivial⟩⟩

/-! A negative lag slips through in a rule that shows a `left_kind`. -/

def slopeRule (n : Int) : Node ℚ :=
  .group { operator := some "AND" }
    [.item { operator := some "slope_down", leftKind := some "feature",
             left := some (.plain (.str "close")), bars := some (.number n) }]

def endsIn (k : Nat) (x : ℚ) : Features ℚ :=
  Dict.empty.insert "close" (List.replicate k (some 0) ++ [some x])

/-- Its first bar looks at the last one. -/
private theorem slopeRule_at (n : Int) (hn : n < 0) (x : ℚ) :
    evaluateAt (some (slopeRule n)) (endsIn n.natAbs x) 0 = .ok (decide (0 < x)) := by
  obtain ⟨k, hk⟩ : ∃ k, n.natAbs = k + 1 := ⟨n.natAbs - 1, by omega⟩
  have hread : ∀ j : Int, 0 ≤ j → resolveFeature (some (.plain (.str "close"))) (endsIn n.natAbs x) j =
      .ok ((List.replicate n.natAbs (some 0) ++ [some x]).getD j.toNat none) := by
    intro j hj
    have hget : (endsIn n.natAbs x).get? "close" =
        some (List.replicate n.natAbs (some 0) ++ [some x]) := by simp [endsIn]
    simp only [resolveFeature, required, bind, Except.bind, hget, cell_nonneg _ hj]
  have hfirst : (List.replicate n.natAbs (some (0 : ℚ)) ++ [some x]).getD 0 none = some 0 := by
    rw [hk, List.replicate_succ]
    rfl
  have hlast : (List.replicate n.natAbs (some (0 : ℚ)) ++ [some x]).getD n.natAbs none = some x := by
    rw [List.getD_eq_getElem?_getD, List.getElem?_append_right (by simp)]
    simp
  have hlag : lagOf (.number n) = .ok n := by
    have hne : ((n : Int) : ℚ) ≠ 0 := by
      rw [Int.cast_ne_zero]
      omega
    rw [lagOf, if_neg hne, truncate_intCast]
  have hunary : unaryAt .slopeDown
      { operator := some "slope_down", leftKind := some "feature",
        left := some (.plain (.str "close")), bars := some (.number n) }
      "feature" (endsIn n.natAbs x) 0 = .ok (decide (0 < x)) := by
    have hback : (0 - n).toNat = n.natAbs := by omega
    rw [unaryAt, if_neg (by decide), hread 0 le_rfl, Int.toNat_zero, hfirst]
    simp only [required, bind, Except.bind, hlag]
    have hslope : (if RuleOperator.slopeDown.slope = true then n else 2) = n := if_pos rfl
    rw [hslope, if_neg (by omega), hread (0 - n) (by omega), hback, hlast]
    rfl
  have hcondition : childAt (endsIn n.natAbs x) 0 (.item
      { operator := some "slope_down", leftKind := some "feature",
        left := some (.plain (.str "close")), bars := some (.number n) }) =
      .ok (decide (0 < x)) := by
    rw [childAt]
    exact hunary
  change childAt (endsIn n.natAbs x) 0 (slopeRule n) = _
  rw [slopeRule, childAt]
  simp only [required, bind, Except.bind]
  rw [if_neg (by decide), outcomesAt]
  simp only [Node.enabled, if_true, hcondition, outcomesAt, bind, Except.bind, pure, Except.pure]
  simp

theorem negative_lag_looks_ahead (n : Int) (hn : n < 0) : ¬ NoLookAhead (some (slopeRule n)) := by
  intro h
  have hagree : AgreeUpTo 0 (endsIn n.natAbs 1) (endsIn n.natAbs (-1)) := by
    intro name
    obtain ⟨k, hk⟩ : ∃ k, n.natAbs = k + 1 := ⟨n.natAbs - 1, by omega⟩
    by_cases hname : name = "close"
    · simp [endsIn, hname, hk, List.replicate_succ]
    · simp [endsIn, hname]
  have hpast := h.past _ _ 0 hagree
  rw [Nat.cast_zero, slopeRule_at n hn, slopeRule_at n hn] at hpast
  exact absurd (Except.ok.inj hpast) (by norm_num)

theorem slope_looks_ahead : ¬ NoLookAhead (some (slopeRule (-1))) :=
  negative_lag_looks_ahead (-1) (by decide)

end Droid.Research
