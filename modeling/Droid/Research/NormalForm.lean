import Droid.Research.Causality

/-! How far the normal form is canonical: what the normaliser makes of its own output, whether rule and
normal form evaluate alike, and which rules can raise. -/
namespace Droid.Research
open Lib

section
variable {F : Type} [Floats F]

/-- The result of normalisation is a fixed point that evaluates as the rule does, and as it must. -/
structure CanonicalForm (rule : Node F) : Prop where
  rejected : ∀ fault, normalizeRule rule = .error fault → ∀ f : Features F,
    (∀ i, evaluateAt (some rule) f i = .error fault) ∧
      ∀ length, evaluateSeries (some rule) f length = .error fault
  stable : ∀ node, normalizeRule rule = .ok node → normalizeRule node = .ok node
  evaluates : ∀ node, normalizeRule rule = .ok node → ∀ f : Features F,
    (∀ i, evaluateAt (some rule) f i = evaluateAt (some node) f i) ∧
      ∀ length, evaluateSeries (some rule) f length = evaluateSeries (some node) f length
  names : ∀ node, normalizeRule rule = .ok node → ∀ known,
    unknownFeatures (some rule) known = unknownFeatures (some node) known
  total : ∀ node, normalizeRule rule = .ok node → ∀ f : Features F,
    unknownFeatures (some rule) (f.entries.map Prod.fst) = [] →
    (∀ i : Nat, ∃ b, evaluateAt (some rule) f i = .ok b) ∧
      ∀ length, ∃ bars, evaluateSeries (some rule) f length = .ok bars

end

section
variable {F : Type}

/-! Which normal forms are fixed points. -/

/-- A number or a truth value. -/
def Literal.Scalar : Literal F → Prop
  | .num _ | .bool _ => True
  | _ => False

def SettledSide (kind : Option String) (side : Option (Operand F)) : Prop :=
  kind = some "literal" → ∀ v, side = some (.plain v) → v.Scalar

/-- The literals of a condition of a normal form are scalars. -/
def Keys.Settled (cond : Keys F) : Prop :=
  SettledSide cond.leftKind cond.left ∧ SettledSide cond.rightKind cond.right

private theorem ne_valueObject (v : Literal F) : v ≠ .valueObject v := by
  intro h
  have := congrArg sizeOf h
  simp at this

private theorem namedFeature_not_literal {loc : String} {name v : Literal F} :
    namedFeature loc name ≠ .ok ("literal", v) := by
  intro h
  cases name with
  | str name =>
    rw [namedFeature] at h
    split at h <;> simp at h
  | _ => cases h

theorem operand_settled (loc : String) {kind : String} {v : Literal F}
    (h : NormalSide (some kind) (some (.plain v))) :
    operand loc (.plain v) = .ok (kind, v) ↔ SettledSide (some kind) (some (.plain v)) := by
  cases h with
  | feature name hne =>
    rw [operand, if_neg hne]
    exact ⟨fun _ hk => absurd hk (by decide), fun _ => rfl⟩
  | range lo hi =>
    exact ⟨fun _ hk => absurd hk (by decide), fun _ => rfl⟩
  | literal _ =>
    have hscalar : SettledSide (some "literal") (some (.plain v)) ↔ v.Scalar := by
      constructor
      · intro hs
        exact hs rfl v rfl
      · rintro hs _ _ ⟨⟩
        exact hs
    rw [hscalar]
    cases v with
    | num x => exact ⟨fun _ => trivial, fun _ => rfl⟩
    | bool b => exact ⟨fun _ => trivial, fun _ => rfl⟩
    | str text =>
      rw [operand]
      split <;> simp [Literal.Scalar]
    | array items =>
      rw [operand]
      split <;> simp [Literal.Scalar]
    | featureObject name => simp [operand, namedFeature_not_literal, Literal.Scalar]
    | valueObject value =>
      simp only [operand, Literal.Scalar, Except.ok.injEq, Prod.mk.injEq, true_and, iff_false]
      exact ne_valueObject value
    | null => simp [operand, Literal.Scalar]
    | mixed => simp [operand, Literal.Scalar]
    | object => simp [operand, Literal.Scalar]

theorem normalRight_settled (loc name : String) {op : RuleOperator} {kind : Option String}
    {v : Literal F} (h : NormalRight op kind (some (.plain v))) :
    normalizeRight loc name op (some (.plain v)) = .ok (kind, v) ↔
      SettledSide kind (some (.plain v)) := by
  rw [normalizeRight_eq_ok]
  cases h with
  | unary hu =>
    exact ⟨fun _ hk => absurd hk (by decide), fun _ => Or.inl ⟨hu, rfl, rfl⟩⟩
  | binary kind _ hu hrange hside =>
    rw [← operand_settled (loc ++ ".right") hside]
    constructor
    · rintro (⟨h, -⟩ | ⟨-, right, kind', ⟨⟩, ho, ⟨⟩, -⟩)
      · exact absurd h hu
      · exact ho
    · intro ho
      exact Or.inr ⟨hu, .plain v, kind, rfl, ho, rfl, hrange⟩

theorem normalizeCondition_settled (loc : String) {cond : Keys F} (h : NormalItem cond) :
    normalizeCondition loc cond = .ok cond ↔ cond.Settled := by
  obtain ⟨name, op, bars, hname, hop, hright, hbars, hb⟩ := h.operator
  obtain ⟨leftKind, leftValue, hlk, hlv⟩ := normalSide_plain h.left
  obtain ⟨rightValue, hrv⟩ := normalRight_plain hright
  have hleft : operand (loc ++ ".left") (.plain leftValue) = .ok (leftKind, leftValue) ↔
      SettledSide cond.leftKind cond.left := by
    have hside := h.left
    rw [hlk, hlv] at hside ⊢
    exact operand_settled _ hside
  have hrightSide : normalizeRight loc name op cond.right = .ok (cond.rightKind, rightValue) ↔
      SettledSide cond.rightKind cond.right := by
    rw [hrv] at hright ⊢
    exact normalRight_settled _ _ hright
  rw [Keys.Settled, ← hleft, ← hrightSide, normalizeCondition_eq_ok]
  constructor
  · rintro ⟨left', name', op', leftKind', leftValue', rightKind', rightValue', bars', hleft', hname',
      hop', hl, hr, -, hcond⟩
    obtain rfl : name = name' := Option.some.inj (hname.symm.trans hname')
    obtain rfl : op = op' := Option.some.inj (hop.symm.trans hop')
    obtain rfl : .plain leftValue = left' := Option.some.inj (hlv.symm.trans hleft')
    have hlk' : cond.leftKind = some leftKind' := by rw [hcond]
    have hlv' : cond.left = some (.plain leftValue') := by rw [hcond]
    have hrk' : cond.rightKind = rightKind' := by rw [hcond]
    have hrv' : cond.right = some (.plain rightValue') := by rw [hcond]
    obtain rfl : leftKind = leftKind' := Option.some.inj (hlk.symm.trans hlk')
    obtain rfl : leftValue = leftValue' :=
      Operand.plain.inj (Option.some.inj (hlv.symm.trans hlv'))
    obtain rfl : rightValue = rightValue' :=
      Operand.plain.inj (Option.some.inj (hrv.symm.trans hrv'))
    rw [hrk']
    exact ⟨hl, hr⟩
  · rintro ⟨hl, hr⟩
    refine ⟨.plain leftValue, name, op, leftKind, leftValue, cond.rightKind, rightValue, bars, hlv,
      hname, hop, hl, hr, ?_, ?_⟩
    · rw [hbars]
      exact normalizeBars_of_normal loc hb
    · cases cond
      simp only at hname hlk hlv hrv hbars
      rw [hname, hlk, hlv, hrv, hbars]

mutual

theorem normalizeChild_settled (depth : Nat) (place : String) (negated : Bool) :
    ∀ node : Node F, NormalChild depth node →
      (normalizeChild depth place node = .ok node ↔
        ∀ e ∈ leavesOf negated node, e.2.Settled)
  | .other, h => h.elim
  | .nullGroup _, h => h.elim
  | .item cond, h => by
    rw [normalizeChild, leavesOf, List.forall_mem_singleton, ← normalizeCondition_settled place h]
    constructor
    · intro hc
      obtain ⟨cond', hc', he⟩ := item_of_map hc
      rwa [← Node.item.inj he] at hc'
    · intro hc
      rw [hc]
      rfl
  | .group keys conditions, h => by
    rw [NormalChild] at h
    obtain ⟨hdepth, ⟨name, rfl, hlogic, hnot⟩, hchildren⟩ := h
    rw [normalizeChild, if_pos ⟨rfl, rfl⟩, leavesOf_logic hlogic, assemble_eq_ok,
      ← normalizeChildren_settled (depth + 1) place 0 _ conditions hchildren, Option.getD_some,
      upper_logic hlogic]
    constructor
    · rintro ⟨-, -, nodes, hn, -, he⟩
      rwa [← (Node.group.inj he).2] at hn
    · intro hn
      exact ⟨hdepth, hlogic, conditions, hn, hnot, rfl⟩

theorem normalizeChildren_settled (depth : Nat) (loc : String) (idx : Nat) (negated : Bool) :
    ∀ nodes : List (Node F), NormalChildren depth nodes →
      (normalizeChildren depth loc idx nodes = .ok nodes ↔
        ∀ e ∈ leavesOfAll negated nodes, e.2.Settled)
  | [], _ => by
    exact ⟨fun _ e he => absurd he List.not_mem_nil, fun _ => rfl⟩
  | child :: rest, h => by
    rw [NormalChildren] at h
    rw [normalizeChildren_cons_eq_ok, leavesOfAll, List.forall_mem_append,
      ← normalizeChild_settled depth (loc ++ ".conditions[" ++ toString idx ++ "]") negated child h.1,
      ← normalizeChildren_settled depth loc (idx + 1) negated rest h.2]
    constructor
    · rintro ⟨child', later, hc, hl, he⟩
      obtain ⟨rfl, rfl⟩ := List.cons.inj he
      exact ⟨hc, hl⟩
    · rintro ⟨hc, hl⟩
      exact ⟨child, rest, hc, hl, rfl⟩

end

/-- A normal form is a fixed point exactly where its literals are scalars. -/
theorem normalizeRule_settled {node : Node F} (h : NormalRule node) :
    normalizeRule node = .ok node ↔ ∀ e ∈ leaves node, e.2.Settled := by
  cases node with
  | group keys conditions =>
    obtain ⟨⟨name, rfl, hlogic, hnot⟩, hchildren⟩ := h
    rw [leaves_logic hlogic,
      ← normalizeChildren_settled 0 "rule" 0 _ conditions hchildren, normalizeRule_eq_ok]
    constructor
    · rintro ⟨keys, conditions', nodes, he, -, hn, -, he'⟩
      obtain ⟨rfl, rfl⟩ := Node.group.inj he
      rwa [← (Node.group.inj he').2] at hn
    · intro hn
      refine ⟨_, conditions, conditions, rfl, ?_, hn, ?_, ?_⟩
      · rwa [Option.getD_some, upper_logic hlogic]
      · rwa [Option.getD_some, upper_logic hlogic]
      · rw [Option.getD_some, upper_logic hlogic]
  | _ => exact h.elim

/-! The fast path recognises every normal form. -/

mutual

private theorem normalChild_normalized (depth : Nat) :
    ∀ node : Node F, NormalChild depth node → childNormalized node
  | .other, h => h.elim
  | .nullGroup _, h => h.elim
  | .item cond, h => by
    obtain ⟨kind, v, hk, -⟩ := normalSide_plain (NormalItem.left h)
    rw [childNormalized, hk]
    rfl
  | .group keys conditions, h => by
    rw [NormalChild] at h
    obtain ⟨-, ⟨name, rfl, -, -⟩, hchildren⟩ := h
    rw [childNormalized, normalChildren_normalized (depth + 1) conditions hchildren]
    rfl

private theorem normalChildren_normalized (depth : Nat) :
    ∀ nodes : List (Node F), NormalChildren depth nodes → allNormalized nodes
  | [], _ => rfl
  | child :: rest, h => by
    rw [NormalChildren] at h
    rw [allNormalized, normalChild_normalized depth child h.1,
      normalChildren_normalized depth rest h.2]
    rfl

end

theorem normalRule_isNormalized {node : Node F} (h : NormalRule node) : isNormalized node := by
  cases node with
  | group keys conditions =>
    obtain ⟨⟨name, rfl, -, -⟩, hchildren⟩ := h
    rw [isNormalized, childNormalized, normalChildren_normalized 0 conditions hchildren]
    · rfl
    · intro keys he
      cases he
  | _ => exact h.elim

end

/-! What the operands of a document become. -/

section
variable {F : Type}

def Operand.ScalarLiteral : Operand F → Prop
  | .valueObject v => v.Scalar
  | .plain (.valueObject v) => v.Scalar
  | _ => True

def Operand.IsArray : Operand F → Prop
  | .plain (.array _) => True
  | _ => False

/-- Every explicit literal of a condition that is read is a scalar. -/
def Keys.ScalarLiterals (raw : Keys F) : Prop :=
  (∀ o, raw.left = some o → o.ScalarLiteral) ∧
    ∀ name op, raw.operator = some name → RuleOperator.ofName name = some op → ¬ op.unary →
      ∀ o, raw.right = some o → o.ScalarLiteral

/-- Where evaluation reaches a condition, its operator does not compare an array with something. -/
def Keys.ComparesNoArray (live : Bool) (raw : Keys F) : Prop :=
  live = true → ∀ name op, raw.operator = some name → RuleOperator.ofName name = some op →
    ¬ op.unary → ∀ o, raw.left = some o → ¬ o.IsArray

/-- The same of a condition of a normal form. -/
def Keys.LeftNoRange (live : Bool) (cond : Keys F) : Prop :=
  live = true → ∀ name op, cond.operator = some name → RuleOperator.ofName name = some op →
    ¬ op.unary → cond.leftKind ≠ some "range"

private theorem settledSide_of_kind {kind : String} (h : kind ≠ "literal")
    (side : Option (Operand F)) : SettledSide (some kind) side :=
  fun hk => absurd (Option.some.inj hk) h

private theorem settledSide_literal (v : Literal F) :
    SettledSide (some "literal") (some (.plain v)) ↔ v.Scalar := by
  constructor
  · intro hs
    exact hs rfl v rfl
  · rintro hs _ _ ⟨⟩
    exact hs

/-- What the normaliser makes of an operand. -/
theorem operand_becomes {loc kind : String} {raw : Operand F} {v : Literal F}
    (h : operand loc raw = .ok (kind, v)) :
    (raw.ScalarLiteral ↔ SettledSide (some kind) (some (.plain v))) ∧
      (raw.IsArray ↔ kind = "range") := by
  have hnamed : ∀ name : Literal F, namedFeature loc name = .ok (kind, v) →
      (True ↔ SettledSide (some kind) (some (.plain v))) ∧ (False ↔ kind = "range") := by
    intro name hn
    obtain ⟨s, -, rfl, rfl⟩ := namedFeature_eq_ok hn
    exact ⟨iff_of_true trivial (settledSide_of_kind (by decide) _), iff_of_false id (by decide)⟩
  cases raw with
  | featureObject name => exact hnamed name h
  | valueObject value =>
    obtain ⟨rfl, rfl⟩ := Prod.mk.inj (Except.ok.inj h)
    exact ⟨(settledSide_literal value).symm, iff_of_false id (by decide)⟩
  | plain value =>
    cases value with
    | featureObject name => exact hnamed name h
    | valueObject value =>
      obtain ⟨rfl, rfl⟩ := Prod.mk.inj (Except.ok.inj h)
      exact ⟨(settledSide_literal value).symm, iff_of_false id (by decide)⟩
    | str text =>
      rw [operand] at h
      split at h
      · cases h
      · obtain ⟨rfl, rfl⟩ := Prod.mk.inj (Except.ok.inj h)
        exact ⟨iff_of_true trivial (settledSide_of_kind (by decide) _), iff_of_false id (by decide)⟩
    | bool b =>
      obtain ⟨rfl, rfl⟩ := Prod.mk.inj (Except.ok.inj h)
      exact ⟨(settledSide_literal (.bool b)).symm, iff_of_false id (by decide)⟩
    | num x =>
      obtain ⟨rfl, rfl⟩ := Prod.mk.inj (Except.ok.inj h)
      exact ⟨(settledSide_literal (.num x)).symm, iff_of_false id (by decide)⟩
    | array items =>
      rw [operand] at h
      split at h
      · obtain ⟨rfl, rfl⟩ := Prod.mk.inj (Except.ok.inj h)
        exact ⟨iff_of_true trivial (settledSide_of_kind (by decide) _), iff_of_true trivial rfl⟩
      · cases h
    | null => cases h
    | mixed => cases h
    | object => cases h

private theorem scalarLiterals_becomes (loc : String) (raw cond : Keys F) (_live : Bool)
    (h : normalizeCondition loc raw = .ok cond) : raw.ScalarLiterals ↔ cond.Settled := by
  obtain ⟨left, name, op, leftKind, leftValue, rightKind, rightValue, bars, hleft, hname, hop, hl, hr,
    -, rfl⟩ := normalizeCondition_eq_ok.mp h
  rw [Keys.ScalarLiterals, Keys.Settled]
  apply and_congr
  · rw [← (operand_becomes hl).1, hleft]
    exact ⟨fun ho => ho left rfl, fun hs o ho => Option.some.inj ho ▸ hs⟩
  · rcases normalizeRight_eq_ok.mp hr with ⟨hu, rfl, rfl⟩ | ⟨hu, right, kind, hright, ho, rfl, -⟩
    · refine iff_of_true (fun name' op' hname' hop' hu' => ?_) (fun hk => by cases hk)
      obtain rfl : name = name' := Option.some.inj (hname.symm.trans hname')
      obtain rfl : op = op' := Option.some.inj (hop.symm.trans hop')
      exact absurd hu hu'
    · rw [← (operand_becomes ho).1, hright]
      exact ⟨fun hs => hs name op hname hop hu right rfl,
        fun hs _ _ _ _ _ o ho => Option.some.inj ho ▸ hs⟩

private theorem comparesNoArray_becomes (loc : String) (raw cond : Keys F) (live : Bool)
    (h : normalizeCondition loc raw = .ok cond) :
    raw.ComparesNoArray live ↔ cond.LeftNoRange live := by
  obtain ⟨left, name, op, leftKind, leftValue, rightKind, rightValue, bars, hleft, hname, hop, hl, -,
    -, rfl⟩ := normalizeCondition_eq_ok.mp h
  have harray := (operand_becomes hl).2
  constructor
  · rintro hc hlive name' op' ⟨⟩ hop' hu hk
    exact hc hlive name op' hname hop' hu left hleft (harray.mpr (Option.some.inj hk))
  · intro hc hlive name' op' hname' hop' hu o ho ha
    obtain rfl : name = name' := Option.some.inj (hname.symm.trans hname')
    obtain rfl : left = o := Option.some.inj (hleft.symm.trans ho)
    exact hc hlive name op' rfl hop' hu (congrArg some (harray.mp ha))

end

/-! The features of a rule. -/

section
variable {F : Type}

theorem unknownFeatures_eq_nil {rule node : Node F} (h : normalizeRule rule = .ok node)
    (known : List String) :
    unknownFeatures (some rule) known = [] ↔
      ∀ e ∈ leaves node, ∀ name ∈ e.2.featureNames, name ∈ known := by
  have hnames : unknownFeatures (some rule) known =
      (((conditionsOf node).flatMap Keys.featureNames).filter (· ∉ known)).dedup.mergeSort
        fun a b => decide (a ≤ b) := by
    simp only [unknownFeatures, Option.map_some, h]
  rw [hnames, ← List.length_eq_zero_iff, List.length_mergeSort, List.length_eq_zero_iff,
    List.dedup_eq_nil, List.filter_eq_nil_iff, conditionsOf_rule (normalizeRule_normal h)]
  simp only [List.mem_flatMap, List.mem_map, decide_not, Bool.not_eq_true', decide_eq_false_iff_not,
    not_not]
  constructor
  · intro hk e he name hn
    exact hk name ⟨e.2, ⟨e, he, rfl⟩, hn⟩
  · rintro hk name ⟨-, ⟨e, he, rfl⟩, hn⟩
    exact hk e he name hn

/-- The map has a column for every feature of the condition. -/
def Keys.Covered (cond : Keys F) (f : Features F) : Prop :=
  ∀ name ∈ cond.featureNames, ∃ column, f.get? name = some column

theorem covered_of_keys {cond : Keys F} {f : Features F}
    (h : ∀ name ∈ cond.featureNames, name ∈ f.entries.map Prod.fst) : cond.Covered f :=
  fun name hn => Option.isSome_iff_exists.mp ((f.mem_keys_iff name).mp (h name hn))

end

/-! Evaluation of a normal form: a condition that has its columns does not raise unless it compares an
array, and then it raises as soon as every value is there. -/

section
variable {F : Type}

private theorem resolveFeature_ok {name : String} {f : Features F}
    (h : ∃ column, f.get? name = some column) {i : Int} (hi : 0 ≤ i) :
    ∃ x, resolveFeature (some (.plain (.str name))) f i = .ok x := by
  obtain ⟨column, hc⟩ := h
  refine ⟨column.getD i.toNat none, ?_⟩
  simp only [resolveFeature, required, bind, Except.bind, hc, cell_nonneg column hi]

private theorem resolve_ok {kind : Option String} {side : Option (Operand F)} {f : Features F}
    (h : NormalSide kind side)
    (hf : ∀ name ∈ featureName kind side, ∃ column, f.get? name = some column) {i : Int}
    (hi : 0 ≤ i) : ∃ v, resolve kind side f i = .ok v := by
  cases h with
  | feature name hne =>
    obtain ⟨x, hx⟩ := resolveFeature_ok (hf name rfl) hi
    cases x with
    | none => exact ⟨.null, by simp only [resolve, if_true, hx, bind, Except.bind]; rfl⟩
    | some x => exact ⟨.num x, by simp only [resolve, if_true, hx, bind, Except.bind]; rfl⟩
  | literal v => exact ⟨v, rfl⟩
  | range lo hi => exact ⟨.array [lo, hi], rfl⟩

theorem lagOf_normal {op : RuleOperator} {bars : Bars} (h : NormalBars op bars) :
    ∃ lag, lagOf bars = .ok lag := by
  cases h with
  | absent _ => exact ⟨1, rfl⟩
  | count n _ => exact ⟨_, rfl⟩

private theorem covered_left {cond : Keys F} {f : Features F} (h : cond.Covered f) :
    ∀ name ∈ featureName cond.leftKind cond.left, ∃ column, f.get? name = some column :=
  fun name hn => h name (List.mem_append_left _ (Option.mem_toList.mpr hn))

private theorem covered_right {cond : Keys F} {f : Features F} (h : cond.Covered f) :
    ∀ name ∈ featureName cond.rightKind cond.right, ∃ column, f.get? name = some column :=
  fun name hn => h name (List.mem_append_right _ (Option.mem_toList.mpr hn))

variable [Floats F]

private theorem numericSide_of_settled {kind : Option String} {side : Option (Operand F)}
    (h : NormalSide kind side) (hs : SettledSide kind side) (hr : kind ≠ some "range") :
    NumericSide kind side := by
  cases h with
  | feature name _ => exact Or.inl rfl
  | literal v =>
    right
    rintro _ ⟨⟩
    refine ⟨v, rfl, Or.inl ?_⟩
    have hv := hs rfl v rfl
    cases v with
    | num x => rfl
    | bool b => rfl
    | _ => exact hv.elim
  | range lo hi => exact absurd rfl hr

private theorem conditionAt_ok {cond : Keys F} {f : Features F} (h : NormalItem cond)
    (hs : cond.Settled) (hl : cond.LeftNoRange true) (hf : cond.Covered f) {i : Int} (hi : 0 ≤ i) :
    ∃ b, conditionAt cond f i = .ok b := by
  obtain ⟨name, op, bars, hname, hop, hright, hbars, hb⟩ := h.operator
  obtain ⟨kind, v, hkind, hv⟩ := normalSide_plain h.left
  have hcond : conditionAt cond f i =
      if op.unary then unaryAt op cond kind f i else binaryAt (some op) cond f i := by
    simp only [conditionAt, hname, hkind, required, bind, Except.bind, hop]
  rw [hcond]
  by_cases hu : op.unary
  · rw [if_pos hu]
    obtain ⟨lag, hlag⟩ := lagOf_normal hb
    refine unaryAt_ok op kind ?_ hbars hlag i hi
    rintro rfl j hj
    have hcovered := covered_left hf
    obtain ⟨name, hname⟩ := normalSide_feature h.left hkind
    rw [hkind, hname] at hcovered
    rw [hname]
    exact resolveFeature_ok (hcovered name rfl) hj
  · rw [if_neg hu]
    obtain ⟨hrange, hside⟩ := normalRight_binary hright hu
    refine binaryAt_ok ?_ (fun j hj => resolve_ok h.left (covered_left hf) hj)
      (fun j hj => resolve_ok hside (covered_right hf) hj) i hi
    rintro _ ⟨⟩ -
    refine ⟨numericSide_of_settled h.left hs.1 (hl rfl name op hname hop hu), ?_⟩
    by_cases ht : op.takesRange
    · rw [if_pos ht]
      have hk := hrange.mp ht
      obtain ⟨lo, hi, hright'⟩ := normalSide_range hside hk
      refine ⟨by rw [hk]; decide, ?_⟩
      rw [hright']
      rintro _ ⟨⟩
      exact Or.inr ⟨lo, hi, [], rfl⟩
    · rw [if_neg ht]
      exact numericSide_of_settled hside hs.2 fun hk => ht (hrange.mpr hk)

/-! The converse, on columns with a value at the first two bars. -/

private theorem less_array {items : List F} {v : Literal F} (hv : v.Scalar) :
    less v (.array items) = .error .typeError ∧ less (.array items) v = .error .typeError := by
  cases v with
  | num x => exact ⟨rfl, rfl⟩
  | bool b => exact ⟨rfl, rfl⟩
  | _ => exact hv.elim

private theorem atMost_array {items : List F} {v : Literal F} (hv : v.Scalar) :
    atMost v (.array items) = .error .typeError ∧ atMost (.array items) v = .error .typeError := by
  cases v with
  | num x => exact ⟨rfl, rfl⟩
  | bool b => exact ⟨rfl, rfl⟩
  | _ => exact hv.elim

private theorem apart_array (test : F → F → Bool) {items : List F} {v : Literal F} (hv : v.Scalar) :
    apart test (.array items) v = .error .typeError := by
  cases v with
  | num x => rfl
  | bool b => rfl
  | _ => exact hv.elim

private theorem insideAt_array (items : List F) (lo hi : F) :
    insideAt (.array items) (.array [lo, hi]) = .error .typeError := by
  unfold insideAt bounds
  simp only [bind, Except.bind]
  generalize (if Floats.lt hi lo then (hi, lo) else (lo, hi)) = range
  rw [(atMost_array (v := .num range.1) trivial).1]

/-- Every feature of the condition has a value at the first two bars. -/
def Keys.Valued (cond : Keys F) (f : Features F) (x : F) : Prop :=
  ∀ name ∈ cond.featureNames, f.get? name = some [some x, some x]

omit [Floats F] in
private theorem resolve_valued {kind : Option String} {side : Option (Operand F)} {f : Features F}
    {x : F} (h : NormalSide kind side) (hs : SettledSide kind side) (hr : kind ≠ some "range")
    (hf : ∀ name ∈ featureName kind side, f.get? name = some [some x, some x]) :
    ∃ v : Literal F, v.Scalar ∧ resolve kind side f 1 = .ok v ∧
      ∃ w : Literal F, w.Scalar ∧ resolve kind side f 0 = .ok w := by
  cases h with
  | feature name hne =>
    have hread : ∀ i : Int, i = 0 ∨ i = 1 →
        resolveFeature (some (.plain (.str name))) f i = .ok (some x) := by
      rintro i (rfl | rfl)
      · simp only [resolveFeature, required, bind, Except.bind, hf name rfl]
        rfl
      · simp only [resolveFeature, required, bind, Except.bind, hf name rfl]
        rfl
    refine ⟨.num x, trivial, ?_, .num x, trivial, ?_⟩
    · simp only [resolve, if_true, hread 1 (Or.inr rfl), bind, Except.bind]
      rfl
    · simp only [resolve, if_true, hread 0 (Or.inl rfl), bind, Except.bind]
      rfl
  | literal v => exact ⟨v, hs rfl v rfl, rfl, v, hs rfl v rfl, rfl⟩
  | range lo hi => exact absurd rfl hr

omit [Floats F] in
private theorem Literal.Scalar.not_null {v : Literal F} (h : v.Scalar) : v.isNull = false := by
  cases v with
  | null => exact h.elim
  | _ => rfl

private theorem conditionAt_array {cond : Keys F} {f : Features F} {x : F} {name : String}
    {op : RuleOperator} (h : NormalItem cond) (hs : cond.Settled) (hname : cond.operator = some name)
    (hop : RuleOperator.ofName name = some op) (hu : ¬ op.unary) (hk : cond.leftKind = some "range")
    (hf : cond.Valued f x) : conditionAt cond f 1 = .error .typeError := by
  obtain ⟨name', op', bars, hname', hop', hright, -, -⟩ := h.operator
  obtain rfl : name = name' := Option.some.inj (hname.symm.trans hname')
  obtain rfl : op = op' := Option.some.inj (hop.symm.trans hop')
  obtain ⟨lo, hi, hleft⟩ := normalSide_range h.left hk
  obtain ⟨hrange, hside⟩ := normalRight_binary hright hu
  have hl : ∀ i, resolve cond.leftKind cond.left f i = .ok (.array [lo, hi]) := by
    intro i
    rw [hk, hleft]
    rfl
  have hcond : conditionAt cond f 1 = binaryAt (some op) cond f 1 := by
    simp only [conditionAt, hname, hk, required, bind, Except.bind, hop]
    rw [if_neg hu]
  rw [hcond, binaryAt]
  by_cases ht : op.takesRange
  · have hrk := hrange.mp ht
    obtain ⟨lo', hi', hright'⟩ := normalSide_range hside hrk
    have hr : resolve cond.rightKind cond.right f 1 = .ok (.array [lo', hi']) := by
      rw [hrk, hright']
      rfl
    have hnull : ((Literal.array [lo, hi]).isNull || (Literal.array [lo', hi']).isNull) = false := rfl
    simp only [hl, hr, bind, Except.bind, hnull, Bool.false_eq_true, if_false]
    cases op with
    | inRange => exact insideAt_array _ _ _
    | outsideRange => simp only [insideAt_array]
    | _ => exact absurd ht (by decide)
  · have hfright : ∀ name ∈ featureName cond.rightKind cond.right, f.get? name = some [some x, some x] :=
      fun name hn => hf name (List.mem_append_right _ (Option.mem_toList.mpr hn))
    obtain ⟨v, hv, hr, w, hw, hr0⟩ :=
      resolve_valued hside hs.2 (fun hk => ht (hrange.mpr hk)) hfright
    have hnull : ∀ u : Literal F, u.Scalar → ((Literal.array [lo, hi]).isNull || u.isNull) = false :=
      fun u hu => hu.not_null
    simp only [hl, hr, bind, Except.bind, hnull v hv, Bool.false_eq_true, if_false]
    cases op with
    | gt => exact (less_array hv).1
    | lt => exact (less_array hv).2
    | ge => exact (atMost_array hv).1
    | le => exact (atMost_array hv).2
    | eq => exact apart_array _ hv
    | ne => exact apart_array _ hv
    | crossesAbove =>
      dsimp only
      rw [if_neg (by decide), show (1 : Int) - 1 = 0 from rfl, hr0]
      simp only [hnull w hw, Bool.false_eq_true, if_false, (atMost_array hw).2]
    | crossesBelow =>
      dsimp only
      rw [if_neg (by decide), show (1 : Int) - 1 = 0 from rfl, hr0]
      simp only [hnull w hw, Bool.false_eq_true, if_false, (atMost_array hw).1]
    | inRange => exact absurd rfl ht
    | outsideRange => exact absurd rfl ht
    | _ => exact absurd rfl hu

end

/-! A rule evaluates where each of its reached conditions does: no outcome cuts the others short. -/

section
variable {F : Type} [Floats F]

/-- Where evaluation reaches the condition, it has an outcome. -/
def Decided (f : Features F) (i : Int) (leaf : Bool × Keys F) : Prop :=
  leaf.1 = true → ∃ b, conditionAt leaf.2 f i = .ok b

private theorem logicAt_decided {name : String} {conditions : List (Node F)} {f : Features F} {i : Int}
    (hhead : name = "NOT" → ((∃ b, negatedHead f i conditions = .ok b) ↔
      ∀ e ∈ leavesOfAll true conditions, Decided f i e))
    (hall : (∃ bs, outcomesAt f i conditions = .ok bs) ↔
      ∀ e ∈ leavesOfAll false conditions, Decided f i e) :
    (∃ b, childAt f i (.group { operator := some name } conditions) = .ok b) ↔
      ∀ e ∈ leavesOfAll (decide (name = "NOT")) conditions, Decided f i e := by
  rw [childAt]
  simp only [required, bind, Except.bind]
  by_cases hn : name = "NOT"
  · rw [if_pos hn, decide_eq_true hn, hhead hn]
  · rw [if_neg hn, decide_eq_false hn, ← hall]
    cases outcomesAt f i conditions with
    | error fault =>
      constructor
      · rintro ⟨b, hb⟩
        cases hb
      · rintro ⟨bs, hbs⟩
        cases hbs
    | ok outcomes =>
      refine iff_of_true ?_ ⟨outcomes, rfl⟩
      dsimp only
      split
      · exact ⟨_, rfl⟩
      · split
        · exact ⟨_, rfl⟩
        · exact ⟨_, rfl⟩

omit [Floats F] in
/-- Below anything but a `NOT` an enabled entry is reached as below a `NOT`. -/
private theorem leavesOf_enabled {depth : Nat} {node : Node F} (h : NormalChild depth node)
    (he : node.enabled) : leavesOf false node = leavesOf true node := by
  cases node with
  | item cond =>
    have hc : cond.enabled = true := he
    rw [leavesOf, leavesOf, hc]
    rfl
  | group keys conditions =>
    rw [NormalChild] at h
    obtain ⟨-, ⟨name, rfl, hlogic, -⟩, -⟩ := h
    rw [leavesOf_logic hlogic, leavesOf_logic hlogic]
  | _ => exact h.elim

private theorem leavesOf_disabled {depth : Nat} {node : Node F} (h : NormalChild depth node)
    (he : node.enabled = false) (f : Features F) (i : Int) :
    ∀ e ∈ leavesOf false node, Decided f i e := by
  cases node with
  | item cond =>
    have hc : cond.enabled = false := he
    rw [leavesOf, List.forall_mem_singleton, hc]
    intro h
    cases h
  | group keys conditions =>
    rw [NormalChild] at h
    obtain ⟨-, ⟨name, rfl, -, -⟩, -⟩ := h
    cases he
  | _ => exact h.elim

mutual

private theorem childAt_decided (f : Features F) (i : Int) (depth : Nat) :
    ∀ node : Node F, NormalChild depth node →
      ((∃ b, childAt f i node = .ok b) ↔ ∀ e ∈ leavesOf true node, Decided f i e)
  | .other, h => h.elim
  | .nullGroup _, h => h.elim
  | .item cond, _ => by
    rw [childAt, leavesOf, List.forall_mem_singleton]
    exact ⟨fun hb _ => hb, fun hb => hb rfl⟩
  | .group keys conditions, h => by
    rw [NormalChild] at h
    obtain ⟨-, ⟨name, rfl, hlogic, hnot⟩, hchildren⟩ := h
    rw [leavesOf_logic hlogic]
    exact logicAt_decided
      (fun hn => negatedHead_decided f i (depth + 1) conditions hchildren (hnot hn))
      (outcomesAt_decided f i (depth + 1) conditions hchildren)

private theorem negatedHead_decided (f : Features F) (i : Int) (depth : Nat) :
    ∀ nodes : List (Node F), NormalChildren depth nodes → nodes.length = 1 →
      ((∃ b, negatedHead f i nodes = .ok b) ↔ ∀ e ∈ leavesOfAll true nodes, Decided f i e)
  | [], _, hlen => by cases hlen
  | _ :: _ :: _, _, hlen => by cases hlen
  | [child], h, _ => by
    rw [NormalChildren] at h
    rw [negatedHead, leavesOfAll, leavesOfAll, List.append_nil, ← childAt_decided f i depth child h.1]
    cases childAt f i child with
    | error fault =>
      constructor
      · rintro ⟨b, hb⟩
        cases hb
      · rintro ⟨b, hb⟩
        cases hb
    | ok b => exact iff_of_true ⟨!b, rfl⟩ ⟨b, rfl⟩

private theorem outcomesAt_decided (f : Features F) (i : Int) (depth : Nat) :
    ∀ nodes : List (Node F), NormalChildren depth nodes →
      ((∃ bs, outcomesAt f i nodes = .ok bs) ↔ ∀ e ∈ leavesOfAll false nodes, Decided f i e)
  | [], _ => iff_of_true ⟨[], rfl⟩ fun e he => absurd he List.not_mem_nil
  | child :: rest, h => by
    rw [NormalChildren] at h
    rw [outcomesAt, leavesOfAll, List.forall_mem_append, ← outcomesAt_decided f i depth rest h.2]
    by_cases he : child.enabled
    · rw [if_pos he, leavesOf_enabled h.1 he, ← childAt_decided f i depth child h.1]
      cases childAt f i child with
      | error fault =>
        constructor
        · rintro ⟨bs, hbs⟩
          cases hbs
        · rintro ⟨⟨b, hb⟩, -⟩
          cases hb
      | ok b =>
        cases outcomesAt f i rest with
        | error fault =>
          constructor
          · rintro ⟨bs, hbs⟩
            cases hbs
          · rintro ⟨-, bs, hbs⟩
            cases hbs
        | ok bs => exact iff_of_true ⟨b :: bs, rfl⟩ ⟨⟨b, rfl⟩, bs, rfl⟩
    · rw [if_neg he]
      exact (and_iff_right (leavesOf_disabled h.1 (by simpa using he) f i)).symm

end

/-- A normal form has an outcome exactly where each of its reached conditions has one. -/
theorem groupAt_decided {node : Node F} (h : NormalRule node) (f : Features F) (i : Int) :
    (∃ b, groupAt f i node = .ok b) ↔ ∀ e ∈ leaves node, Decided f i e := by
  cases node with
  | group keys conditions =>
    obtain ⟨⟨name, rfl, hlogic, hnot⟩, hchildren⟩ := h
    rw [leaves_logic hlogic]
    exact logicAt_decided (fun hn => negatedHead_decided f i 0 conditions hchildren (hnot hn))
      (outcomesAt_decided f i 0 conditions hchildren)
  | _ => exact h.elim

end

/-! The law. -/

section
variable {F : Type} [Floats F]

/-- A document in normal form whose literals are scalars. -/
def InNormalForm (rule : Node F) : Prop := NormalRule rule ∧ ∀ e ∈ leaves rule, e.2.Settled

/-- The fast path takes no document that is rejected; every explicit literal that is read is a number
or a truth value; no condition that is reached compares an array. -/
structure Restrained (rule : Node F) : Prop where
  refused : ∀ fault, normalizeRule rule = .error fault → isNormalized rule = false
  scalars : ∀ node, normalizeRule rule = .ok node → ∀ e ∈ leaves rule, e.2.ScalarLiterals
  arrays : ∀ node, normalizeRule rule = .ok node → ∀ e ∈ leaves rule, e.2.ComparesNoArray e.1

/-- The exact condition, but for documents that the fast path takes for a normal form. -/
structure Faithful (rule : Node F) : Prop extends Restrained rule where
  recognised : ∀ node, normalizeRule rule = .ok node → isNormalized rule → InNormalForm rule

private theorem evaluateAt_canonical {rule node : Node F} (h : canonical rule = .ok node)
    (f : Features F) (i : Int) : evaluateAt (some rule) f i = groupAt f i node := by
  simp only [evaluateAt, h, bind, Except.bind]

private theorem evaluateSeries_canonical {rule node : Node F} (h : canonical rule = .ok node)
    (f : Features F) (length : Option Int) :
    evaluateSeries (some rule) f length =
      (List.range (length.getD (seriesLength f)).toNat).mapM fun (i : Nat) => groupAt f i node := by
  simp only [evaluateSeries, h, bind, Except.bind]

omit [Floats F] in
private theorem canonical_normal {node : Node F} (h : NormalRule node) : canonical node = .ok node :=
  if_pos (normalRule_isNormalized h)

omit [Floats F] in
private theorem settled_of_scalars {rule node : Node F} (h : normalizeRule rule = .ok node) :
    (∀ e ∈ leaves rule, e.2.ScalarLiterals) ↔ ∀ e ∈ leaves node, e.2.Settled :=
  forall_leaves_normalized (P := fun _ => Keys.ScalarLiterals) (Q := fun _ => Keys.Settled)
    scalarLiterals_becomes h

omit [Floats F] in
private theorem Faithful.canonical {rule node : Node F} (h : Faithful rule)
    (hn : normalizeRule rule = .ok node) : canonical rule = .ok node := by
  by_cases hshown : isNormalized rule
  · obtain ⟨hnormal, hsettled⟩ := h.recognised node hn hshown
    obtain rfl : rule = node :=
      Except.ok.inj (((normalizeRule_settled hnormal).mpr hsettled).symm.trans hn)
    exact canonical_normal hnormal
  · rw [Research.canonical, if_neg hshown, hn]

private theorem groupAt_total {rule node : Node F} (h : Faithful rule)
    (hn : normalizeRule rule = .ok node) {f : Features F}
    (hf : unknownFeatures (some rule) (f.entries.map Prod.fst) = []) (i : Nat) :
    ∃ b, groupAt f i node = .ok b := by
  have hnormal := normalizeRule_normal hn
  have hsettled := (settled_of_scalars hn).mp (h.scalars node hn)
  have harrays := (forall_leaves_normalized comparesNoArray_becomes hn).mp (h.arrays node hn)
  have hknown := (unknownFeatures_eq_nil hn _).mp hf
  rw [groupAt_decided hnormal]
  intro e he hlive
  have hleft := harrays e he
  rw [hlive] at hleft
  exact conditionAt_ok (normalItem_of_leaves hnormal e he) (hsettled e he) hleft
    (covered_of_keys (hknown e he)) (Int.natCast_nonneg i)

private theorem canonicalForm_of_faithful {rule : Node F} (h : Faithful rule) :
    CanonicalForm rule where
  rejected := by
    intro fault hr f
    have hc : canonical rule = .error fault := by
      rw [canonical, h.refused fault hr, if_neg Bool.false_ne_true, hr]
    constructor
    · intro i
      simp only [evaluateAt, hc, bind, Except.bind]
    · intro length
      simp only [evaluateSeries, hc, bind, Except.bind]
  stable := by
    intro node hn
    rw [normalizeRule_settled (normalizeRule_normal hn), ← settled_of_scalars hn]
    exact h.scalars node hn
  evaluates := by
    intro node hn f
    have hc := canonical_normal (normalizeRule_normal hn)
    constructor
    · intro i
      rw [evaluateAt_canonical (h.canonical hn), evaluateAt_canonical hc]
    · intro length
      rw [evaluateSeries_canonical (h.canonical hn), evaluateSeries_canonical hc]
  names := by
    intro node hn known
    have hstable : normalizeRule node = .ok node := by
      rw [normalizeRule_settled (normalizeRule_normal hn), ← settled_of_scalars hn]
      exact h.scalars node hn
    simp only [unknownFeatures, Option.map_some, hn, hstable]
  total := by
    intro node hn f hf
    constructor
    · intro i
      rw [evaluateAt_canonical (h.canonical hn)]
      exact groupAt_total h hn hf i
    · intro length
      choose value hvalue using groupAt_total h hn hf
      rw [evaluateSeries_canonical (h.canonical hn)]
      exact ⟨_, mapM_ok _ fun i _ => hvalue i⟩

/-- A map in which each of the names has a value at the first two bars. -/
def valuedFeatures (names : List String) : Features F :=
  (Dict.ofRows id names).mapValues fun _ _ =>
    [some (Floats.ofBool true), some (Floats.ofBool true)]

private theorem get?_valuedFeatures {names : List String} {name : String} (h : name ∈ names) :
    (valuedFeatures names : Features F).get? name =
      some [some (Floats.ofBool true), some (Floats.ofBool true)] := by
  rw [valuedFeatures, Dict.get?_mapValues, Dict.get?_ofRows]
  have hfind : (names.reverse.find? fun r => decide (id r = name)).isSome := by
    rw [List.find?_isSome]
    exact ⟨name, List.mem_reverse.mpr h, by simp⟩
  obtain ⟨found, hfound⟩ := Option.isSome_iff_exists.mp hfind
  rw [hfound]
  rfl

private theorem restrained_of_canonicalForm {rule : Node F} (h : CanonicalForm rule) :
    Restrained rule where
  refused := by
    intro fault hr
    by_contra hshown
    have hseries := (h.rejected fault hr Dict.empty).2 (some 0)
    rw [evaluateSeries_canonical (if_pos (by simpa using hshown))] at hseries
    cases hseries
  scalars := by
    intro node hn
    rw [settled_of_scalars hn, ← normalizeRule_settled (normalizeRule_normal hn)]
    exact h.stable node hn
  arrays := by
    intro node hn
    have hnormal := normalizeRule_normal hn
    have hsettled := (normalizeRule_settled hnormal).mp (h.stable node hn)
    let names := (leaves node).flatMap fun e => e.2.featureNames
    have hname : ∀ e ∈ leaves node, ∀ name ∈ e.2.featureNames, name ∈ names :=
      fun e he name hm => List.mem_flatMap.mpr ⟨e, he, hm⟩
    have hknown : unknownFeatures (some rule)
        ((valuedFeatures names : Features F).entries.map Prod.fst) = [] := by
      rw [unknownFeatures_eq_nil hn]
      intro e he name hm
      rw [Dict.mem_keys_iff, get?_valuedFeatures (hname e he name hm)]
      rfl
    obtain ⟨b, hb⟩ := (h.total node hn _ hknown).1 1
    rw [(h.evaluates node hn _).1, evaluateAt_canonical (canonical_normal hnormal)] at hb
    have hdecided := (groupAt_decided hnormal _ _).mp ⟨b, hb⟩
    rw [forall_leaves_normalized comparesNoArray_becomes hn]
    intro e he hlive name op hop hof hu hk
    obtain ⟨b, hb⟩ := hdecided e he hlive
    have hraise := conditionAt_array (normalItem_of_leaves hnormal e he) (hsettled e he) hop hof hu hk
      fun name hm => get?_valuedFeatures (hname e he name hm)
    rw [Nat.cast_one, hraise] at hb
    cases hb

/-- A faithful document has its canonical form, and only a restrained one can. -/
theorem canonicalForm_faithful (rule : Node F) :
    (Faithful rule → CanonicalForm rule) ∧ (CanonicalForm rule → Restrained rule) :=
  ⟨canonicalForm_of_faithful, restrained_of_canonicalForm⟩

end

theorem crossingRule_canonicalForm : CanonicalForm crossingRule := by
  have hnormal : normalizeRule crossingRule = .ok crossingRuleNormal := by rfl
  have hleaves : ∀ e ∈ leaves crossingRule, e.2.ScalarLiterals ∧ e.2.ComparesNoArray e.1 := by
    change ∀ e ∈ [(true, _), (true, _)], _
    rw [List.forall_mem_cons, List.forall_mem_singleton]
    refine ⟨⟨⟨?_, ?_⟩, ?_⟩, ⟨⟨?_, ?_⟩, ?_⟩⟩
    · rintro _ ⟨⟩
      trivial
    · rintro _ _ _ _ _ _ ⟨⟩
      trivial
    · rintro - _ _ _ _ _ _ ⟨⟩
      exact id
    · rintro _ ⟨⟩
      trivial
    · rintro _ _ _ _ _ _ ⟨⟩
    · rintro - _ _ _ _ _ _ ⟨⟩
      exact id
  apply (canonicalForm_faithful crossingRule).1
  refine ⟨⟨fun fault hr => ?_, fun _ _ e he => (hleaves e he).1, fun _ _ e he => (hleaves e he).2⟩,
    fun node _ hshown => absurd hshown (by decide)⟩
  rw [hnormal] at hr
  cases hr

/-- `and` in lower case over two conditions that show their `left_kind`. -/
def lowerAnd : Node ℚ :=
  .group { operator := some "and" }
    [.item { operator := some ">", leftKind := some "feature", left := some (.plain (.str "a")),
             rightKind := some "literal", right := some (.plain (.num 0)) },
     .item { operator := some ">", leftKind := some "feature", left := some (.plain (.str "b")),
             rightKind := some "literal", right := some (.plain (.num 0)) }]

/-- Taken for a normal form, the two conditions are joined by `or`. -/
theorem lowerAnd_not_canonicalForm : ¬ CanonicalForm lowerAnd := by
  intro h
  have := (h.evaluates _ rfl ((Dict.empty.insert "a" [some 1]).insert "b" [some 0])).1 0
  revert this
  decide

end Droid.Research
