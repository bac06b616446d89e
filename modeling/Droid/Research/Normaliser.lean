import Droid.Research.Rules

/-! What the normaliser accepts, and the shape of what it returns. -/
namespace Droid.Research

section
variable {F : Type}

/-! The shape of the normal form. -/

/-- Kind and value of an operand; an explicit literal is whatever the rule held. -/
inductive NormalSide : Option String → Option (Operand F) → Prop where
  | feature (name : String) (h : name ≠ "") :
    NormalSide (some "feature") (some (.plain (.str name)))
  | literal (v : Literal F) : NormalSide (some "literal") (some (.plain v))
  | range (lo hi : F) : NormalSide (some "range") (some (.plain (.array [lo, hi])))

inductive NormalBars (op : RuleOperator) : Bars → Prop where
  | absent (h : ¬ op.slope) : NormalBars op .null
  | count (n : Int) (h : 1 ≤ n) : NormalBars op (.number n)

/-- The right-hand side: absent for the operators on one column, a range for the range tests. -/
inductive NormalRight (op : RuleOperator) : Option String → Option (Operand F) → Prop where
  | unary (h : op.unary) : NormalRight op none (some (.plain .null))
  | binary (kind : String) (side : Option (Operand F)) (h : ¬ op.unary)
      (hrange : op.takesRange ↔ kind = "range") (hside : NormalSide (some kind) side) :
    NormalRight op (some kind) side

structure NormalItem (cond : Keys F) : Prop where
  left : NormalSide cond.leftKind cond.left
  operator : ∃ name op bars, cond.operator = some name ∧ RuleOperator.ofName name = some op ∧
    NormalRight op cond.rightKind cond.right ∧ cond.bars = some bars ∧ NormalBars op bars

/-- A logical operator and nothing else. -/
def LogicKeys (keys : Keys F) (children : Nat) : Prop :=
  ∃ name, keys = { operator := some name } ∧ name ∈ logicNames ∧ (name = "NOT" → children = 1)

mutual

def NormalChild (depth : Nat) : Node F → Prop
  | .item cond => NormalItem cond
  | .group keys conditions =>
    depth + 1 ≤ maxDepth ∧ LogicKeys keys conditions.length ∧ NormalChildren (depth + 1) conditions
  | .nullGroup _ => False
  | .other => False

def NormalChildren (depth : Nat) : List (Node F) → Prop
  | [] => True
  | child :: rest => NormalChild depth child ∧ NormalChildren depth rest

end

def NormalGroup (depth : Nat) : Node F → Prop
  | .group keys conditions => LogicKeys keys conditions.length ∧ NormalChildren depth conditions
  | _ => False

abbrev NormalRule (node : Node F) : Prop := NormalGroup 0 node

theorem normalSide_plain {kind : Option String} {side : Option (Operand F)}
    (h : NormalSide kind side) : ∃ name v, kind = some name ∧ side = some (.plain v) := by
  cases h with
  | feature name _ => exact ⟨"feature", .str name, rfl, rfl⟩
  | literal v => exact ⟨"literal", v, rfl, rfl⟩
  | range lo hi => exact ⟨"range", .array [lo, hi], rfl, rfl⟩

theorem normalRight_plain {op : RuleOperator} {kind : Option String}
    {side : Option (Operand F)} (h : NormalRight op kind side) : ∃ v, side = some (.plain v) := by
  cases h with
  | unary _ => exact ⟨.null, rfl⟩
  | binary kind side _ _ hside =>
    obtain ⟨-, v, -, rfl⟩ := normalSide_plain hside
    exact ⟨v, rfl⟩

theorem normalSide_feature {kind : Option String} {side : Option (Operand F)}
    (h : NormalSide kind side) (hk : kind = some "feature") :
    ∃ name, side = some (.plain (.str name)) := by
  cases h with
  | feature name _ => exact ⟨name, rfl⟩
  | literal v => exact absurd hk (by decide)
  | range lo hi => exact absurd hk (by decide)

theorem normalSide_range {kind : Option String} {side : Option (Operand F)}
    (h : NormalSide kind side) (hk : kind = some "range") :
    ∃ lo hi, side = some (.plain (.array [lo, hi])) := by
  cases h with
  | feature name _ => exact absurd hk (by decide)
  | literal v => exact absurd hk (by decide)
  | range lo hi => exact ⟨lo, hi, rfl⟩

theorem normalRight_binary {op : RuleOperator} {kind : Option String}
    {side : Option (Operand F)} (h : NormalRight op kind side) (hu : ¬ op.unary) :
    (op.takesRange ↔ kind = some "range") ∧ NormalSide kind side := by
  cases h with
  | unary h => exact absurd h hu
  | binary kind _ _ hrange hside => exact ⟨by rw [hrange, Option.some.injEq], hside⟩

/-! The normaliser accepts an operand, a condition or a group in one way each. -/

theorem namedFeature_eq_ok {loc kind : String} {name v : Literal F}
    (h : namedFeature loc name = .ok (kind, v)) : ∃ s, s ≠ "" ∧ kind = "feature" ∧ v = .str s := by
  cases name with
  | str name =>
    rw [namedFeature] at h
    split at h
    · cases h
    · rename_i hne
      obtain ⟨rfl, rfl⟩ := Prod.mk.inj (Except.ok.inj h)
      exact ⟨strip name, hne, rfl, rfl⟩
  | _ => cases h

private theorem normalSide_named {loc kind : String} {name v : Literal F}
    (h : namedFeature loc name = .ok (kind, v)) : NormalSide (some kind) (some (.plain v)) := by
  obtain ⟨s, hs, rfl, rfl⟩ := namedFeature_eq_ok h
  exact .feature s hs

theorem operand_normal {loc kind : String} {raw : Operand F} {v : Literal F}
    (h : operand loc raw = .ok (kind, v)) : NormalSide (some kind) (some (.plain v)) := by
  cases raw with
  | featureObject name => exact normalSide_named h
  | valueObject value =>
    obtain ⟨rfl, rfl⟩ := Prod.mk.inj (Except.ok.inj h)
    exact .literal value
  | plain value =>
    cases value with
    | featureObject name => exact normalSide_named h
    | valueObject value =>
      obtain ⟨rfl, rfl⟩ := Prod.mk.inj (Except.ok.inj h)
      exact .literal value
    | str text =>
      rw [operand] at h
      split at h
      · cases h
      · rename_i hne
        obtain ⟨rfl, rfl⟩ := Prod.mk.inj (Except.ok.inj h)
        exact .feature text hne
    | bool b =>
      obtain ⟨rfl, rfl⟩ := Prod.mk.inj (Except.ok.inj h)
      exact .literal _
    | num x =>
      obtain ⟨rfl, rfl⟩ := Prod.mk.inj (Except.ok.inj h)
      exact .literal _
    | array items =>
      rw [operand] at h
      split at h
      · rename_i hlen
        obtain ⟨lo, hi, rfl⟩ := List.length_eq_two.mp hlen
        obtain ⟨rfl, rfl⟩ := Prod.mk.inj (Except.ok.inj h)
        exact .range lo hi
      · cases h
    | null => cases h
    | mixed => cases h
    | object => cases h

theorem truncate_intCast (n : Int) : truncate (n : ℚ) = n := by
  unfold truncate
  split
  · exact Int.floor_intCast n
  · exact Int.ceil_intCast n

theorem normalizeBars_normal {loc : String} {op : RuleOperator} {raw : Option Bars} {bars : Bars}
    (h : normalizeBars loc op raw = .ok bars) : NormalBars op bars := by
  have hdefault : NormalBars op (if op.slope then .number 1 else .null) := by
    by_cases hs : op.slope
    · rw [if_pos hs]
      exact .count 1 le_rfl
    · rw [if_neg hs]
      exact .absent hs
  unfold normalizeBars at h
  split at h
  · obtain rfl := Except.ok.inj h
    exact hdefault
  · obtain rfl := Except.ok.inj h
    exact hdefault
  · rename_i x
    split at h
    · cases h
    · rename_i hx
      obtain rfl := Except.ok.inj h
      exact .count (truncate x) (by omega)
  · cases h

theorem normalizeBars_of_normal (loc : String) {op : RuleOperator} {bars : Bars}
    (h : NormalBars op bars) : normalizeBars loc op (some bars) = .ok bars := by
  cases h with
  | absent hs => rw [normalizeBars, if_neg hs]
  | count n hn =>
    rw [normalizeBars, truncate_intCast]
    exact if_neg (by omega)

theorem normalizeRight_eq_ok {loc name : String} {op : RuleOperator} {raw : Option (Operand F)}
    {rightKind : Option String} {v : Literal F} :
    normalizeRight loc name op raw = .ok (rightKind, v) ↔
      (op.unary ∧ rightKind = none ∧ v = .null) ∨
      (¬ op.unary ∧ ∃ right kind, raw = some right ∧ operand (loc ++ ".right") right = .ok (kind, v) ∧
        rightKind = some kind ∧ (op.takesRange ↔ kind = "range")) := by
  unfold normalizeRight
  by_cases hu : op.unary
  · simp only [hu, if_true, true_and, not_true, false_and, or_false]
    constructor
    · intro h
      obtain ⟨rfl, rfl⟩ := Prod.mk.inj (Except.ok.inj h)
      exact ⟨rfl, rfl⟩
    · rintro ⟨rfl, rfl⟩
      rfl
  · simp only [hu, if_false, false_and, not_false_iff, true_and, false_or, Bool.false_eq_true]
    cases raw with
    | none =>
      constructor
      · intro h
        cases h
      · rintro ⟨right, kind, h, -⟩
        cases h
    | some right =>
      cases ho : operand (loc ++ ".right") right with
      | error fault =>
        constructor
        · intro h
          simp only [bind, Except.bind, ho] at h
          cases h
        · rintro ⟨right', kind, ⟨⟩, h, -⟩
          rw [ho] at h
          cases h
      | ok side =>
        obtain ⟨kind, value⟩ := side
        simp only [bind, Except.bind, pure, Except.pure, ho]
        constructor
        · intro h
          split at h
          · cases h
          · split at h
            · cases h
            · obtain ⟨rfl, rfl⟩ := Prod.mk.inj (Except.ok.inj h)
              refine ⟨right, kind, rfl, ho, rfl, ?_⟩
              tauto
        · rintro ⟨right', kind', ⟨⟩, h, rfl, hrange⟩
          obtain ⟨rfl, rfl⟩ := Prod.mk.inj (Except.ok.inj (ho.symm.trans h))
          rw [if_neg (by tauto), if_neg (by tauto)]

theorem normalizeCondition_eq_ok {loc : String} {raw cond : Keys F} :
    normalizeCondition loc raw = .ok cond ↔
      ∃ left name op leftKind leftValue rightKind rightValue bars,
        raw.left = some left ∧ raw.operator = some name ∧ RuleOperator.ofName name = some op ∧
        operand (loc ++ ".left") left = .ok (leftKind, leftValue) ∧
        normalizeRight loc name op raw.right = .ok (rightKind, rightValue) ∧
        normalizeBars loc op raw.bars = .ok bars ∧
        cond = { operator := some name, leftKind := some leftKind, left := some (.plain leftValue)
                 rightKind := rightKind, right := some (.plain rightValue), bars := some bars
                 enabled := raw.enabled, label := raw.label } := by
  constructor
  · intro h
    unfold normalizeCondition at h
    split at h
    · rename_i left hleft
      split at h
      · rename_i name hname
        split at h
        · rename_i op hop
          simp only [bind, Except.bind, pure, Except.pure] at h
          split at h
          · cases h
          · rename_i leftSide hl
            split at h
            · cases h
            · rename_i rightSide hr
              split at h
              · cases h
              · rename_i bars hb
                exact ⟨left, name, op, leftSide.1, leftSide.2, rightSide.1, rightSide.2, bars, hleft,
                  hname, hop, hl, hr, hb, (Except.ok.inj h).symm⟩
        · cases h
      · cases h
    · cases h
  · rintro ⟨left, name, op, leftKind, leftValue, rightKind, rightValue, bars, hleft, hname, hop, hl,
      hr, hb, rfl⟩
    simp only [normalizeCondition, hleft, hname, hop, hl, hr, hb, bind, Except.bind, pure,
      Except.pure]

theorem normalizeCondition_normal {loc : String} {raw cond : Keys F}
    (h : normalizeCondition loc raw = .ok cond) : NormalItem cond := by
  obtain ⟨left, name, op, leftKind, leftValue, rightKind, rightValue, bars, hleft, hname, hop, hl,
    hr, hb, rfl⟩ := normalizeCondition_eq_ok.mp h
  refine ⟨operand_normal hl, name, op, bars, rfl, hop, ?_, rfl, normalizeBars_normal hb⟩
  rcases normalizeRight_eq_ok.mp hr with ⟨hu, rfl, rfl⟩ | ⟨hu, right, kind, -, ho, rfl, hrange⟩
  · exact .unary hu
  · exact .binary kind _ hu hrange (operand_normal ho)

theorem assemble_eq_ok {depth : Nat} {loc : String} {keys : Keys F}
    {children : Except Fault (List (Node F))} {node : Node F} :
    assemble depth loc keys children = .ok node ↔
      depth ≤ maxDepth ∧ upper (keys.operator.getD "AND") ∈ logicNames ∧
      ∃ nodes, children = .ok nodes ∧
        (upper (keys.operator.getD "AND") = "NOT" → nodes.length = 1) ∧
        node = .group { operator := some (upper (keys.operator.getD "AND")) } nodes := by
  unfold assemble
  simp only [bind, Except.bind, pure, Except.pure]
  constructor
  · intro h
    split at h
    · cases h
    · rename_i hdepth
      split at h
      · cases h
      · rename_i hlogic
        cases hc : children with
        | error fault =>
          rw [hc] at h
          cases h
        | ok nodes =>
          rw [hc] at h
          dsimp only at h
          split at h
          · cases h
          · rename_i hnot
            refine ⟨by omega, not_not.mp hlogic, nodes, rfl, ?_, (Except.ok.inj h).symm⟩
            exact fun ho => not_not.mp fun hne => hnot ⟨ho, hne⟩
  · rintro ⟨hdepth, hlogic, nodes, rfl, hnot, rfl⟩
    rw [if_neg (by omega), if_neg (not_not.mpr hlogic)]
    dsimp only
    rw [if_neg fun h => h.2 (hnot h.1)]

theorem normalizeChildren_cons_eq_ok {depth : Nat} {loc : String} {idx : Nat} {raw : Node F}
    {rest nodes : List (Node F)} :
    normalizeChildren depth loc idx (raw :: rest) = .ok nodes ↔
      ∃ child later, normalizeChild depth (loc ++ ".conditions[" ++ toString idx ++ "]") raw = .ok child ∧
        normalizeChildren depth loc (idx + 1) rest = .ok later ∧ nodes = child :: later := by
  rw [normalizeChildren]
  simp only [bind, Except.bind, pure, Except.pure]
  constructor
  · intro h
    split at h
    · cases h
    · rename_i child hchild
      split at h
      · cases h
      · rename_i later hlater
        exact ⟨child, later, hchild, hlater, (Except.ok.inj h).symm⟩
  · rintro ⟨child, later, hchild, hlater, rfl⟩
    rw [hchild, hlater]

theorem item_of_map {x : Except Fault (Keys F)} {node : Node F} (h : x.map Node.item = .ok node) :
    ∃ cond, x = .ok cond ∧ node = .item cond := by
  cases x with
  | error fault => cases h
  | ok cond => exact ⟨cond, rfl, (Except.ok.inj h).symm⟩

theorem normalizeRule_eq_ok {rule node : Node F} :
    normalizeRule rule = .ok node ↔ ∃ keys conditions nodes, rule = .group keys conditions ∧
      upper (keys.operator.getD "AND") ∈ logicNames ∧
      normalizeChildren 0 "rule" 0 conditions = .ok nodes ∧
      (upper (keys.operator.getD "AND") = "NOT" → nodes.length = 1) ∧
      node = .group { operator := some (upper (keys.operator.getD "AND")) } nodes := by
  constructor
  · intro h
    cases rule with
    | other => cases h
    | item keys =>
      rw [normalizeRule] at h
      obtain ⟨-, -, nodes, hn, -⟩ := assemble_eq_ok.mp h
      cases hn
    | nullGroup keys =>
      rw [normalizeRule] at h
      obtain ⟨-, -, nodes, hn, -⟩ := assemble_eq_ok.mp h
      cases hn
    | group keys conditions =>
      rw [normalizeRule] at h
      obtain ⟨-, hlogic, nodes, hn, hnot, rfl⟩ := assemble_eq_ok.mp h
      exact ⟨keys, conditions, nodes, rfl, hlogic, hn, hnot, rfl⟩
  · rintro ⟨keys, conditions, nodes, rfl, hlogic, hn, hnot, rfl⟩
    rw [normalizeRule]
    exact assemble_eq_ok.mpr ⟨Nat.zero_le _, hlogic, nodes, hn, hnot, rfl⟩

/-! What comes out has the normal shape. -/

mutual

theorem normalizeChild_normal (depth : Nat) (place : String) :
    ∀ (raw node : Node F), normalizeChild depth place raw = .ok node → NormalChild depth node
  | .other, node, h => by cases h
  | .item keys, node, h => by
    rw [normalizeChild] at h
    obtain ⟨cond, hc, rfl⟩ := item_of_map h
    exact normalizeCondition_normal hc
  | .nullGroup keys, node, h => by
    rw [normalizeChild] at h
    split at h
    · obtain ⟨-, -, nodes, hn, -⟩ := assemble_eq_ok.mp h
      cases hn
    · obtain ⟨cond, hc, rfl⟩ := item_of_map h
      exact normalizeCondition_normal hc
  | .group keys conditions, node, h => by
    rw [normalizeChild] at h
    split at h
    · obtain ⟨hdepth, hlogic, nodes, hn, hnot, rfl⟩ := assemble_eq_ok.mp h
      rw [NormalChild]
      exact ⟨hdepth, ⟨_, rfl, hlogic, hnot⟩, normalizeChildren_normal _ _ _ conditions nodes hn⟩
    · obtain ⟨cond, hc, rfl⟩ := item_of_map h
      exact normalizeCondition_normal hc

theorem normalizeChildren_normal (depth : Nat) (loc : String) (idx : Nat) :
    ∀ raws nodes : List (Node F), normalizeChildren depth loc idx raws = .ok nodes →
      NormalChildren depth nodes
  | [], nodes, h => by
    obtain rfl := Except.ok.inj h
    trivial
  | raw :: rest, nodes, h => by
    obtain ⟨child, later, hchild, hlater, rfl⟩ := normalizeChildren_cons_eq_ok.mp h
    rw [NormalChildren]
    exact ⟨normalizeChild_normal _ _ raw child hchild,
      normalizeChildren_normal _ _ _ rest later hlater⟩

end

theorem normalizeRule_normal {rule node : Node F} (h : normalizeRule rule = .ok node) :
    NormalRule node := by
  obtain ⟨keys, conditions, nodes, rfl, hlogic, hn, hnot, rfl⟩ := normalizeRule_eq_ok.mp h
  exact ⟨⟨_, rfl, hlogic, hnot⟩, normalizeChildren_normal _ _ _ conditions nodes hn⟩

/-! The conditions that the normaliser finds in a document. -/

mutual

/-- The conditions of an entry, each with whether evaluation reaches it: one below a `NOT` is
evaluated even where it is disabled. -/
def leavesOf (negated : Bool) : Node F → List (Bool × Keys F)
  | .other => []
  | .item keys => [(negated || keys.enabled, keys)]
  | .nullGroup keys => [(negated || keys.enabled, keys)]
  | .group keys conditions =>
    if keys.operator.isSome ∧ keys.left.isNone then
      leavesOfAll (decide (upper (keys.operator.getD "AND") = "NOT")) conditions
    else [(negated || keys.enabled, keys)]

def leavesOfAll (negated : Bool) : List (Node F) → List (Bool × Keys F)
  | [] => []
  | child :: rest => leavesOf negated child ++ leavesOfAll negated rest

end

/-- The conditions of a rule; the rule itself is a group whatever it holds besides. -/
def leaves : Node F → List (Bool × Keys F)
  | .group keys conditions =>
    leavesOfAll (decide (upper (keys.operator.getD "AND") = "NOT")) conditions
  | _ => []

theorem upper_logic {name : String} (h : name ∈ logicNames) : upper name = name := by
  rw [logicNames, List.mem_cons, List.mem_cons, List.mem_singleton] at h
  rcases h with rfl | rfl | rfl <;> rfl

theorem leavesOf_logic {negated : Bool} {name : String} (h : name ∈ logicNames)
    (nodes : List (Node F)) :
    leavesOf negated (.group { operator := some name } nodes) =
      leavesOfAll (decide (name = "NOT")) nodes := by
  rw [leavesOf, if_pos ⟨rfl, rfl⟩, Option.getD_some, upper_logic h]

theorem leaves_logic {name : String} (h : name ∈ logicNames) (nodes : List (Node F)) :
    leaves (.group { operator := some name } nodes) = leavesOfAll (decide (name = "NOT")) nodes := by
  rw [leaves, Option.getD_some, upper_logic h]

/-- A condition of a document and what it becomes. -/
def Becomes (raw normal : Bool × Keys F) : Prop :=
  raw.1 = normal.1 ∧ ∃ loc, normalizeCondition loc raw.2 = .ok normal.2

private theorem becomes_leaf {loc : String} {raw cond : Keys F}
    (h : normalizeCondition loc raw = .ok cond) (negated : Bool) :
    List.Forall₂ Becomes [(negated || raw.enabled, raw)] [(negated || cond.enabled, cond)] := by
  have henabled : cond.enabled = raw.enabled := by
    obtain ⟨left, name, op, leftKind, leftValue, rightKind, rightValue, bars, -, -, -, -, -, -, rfl⟩ :=
      normalizeCondition_eq_ok.mp h
    rfl
  rw [henabled]
  exact .cons ⟨rfl, loc, h⟩ .nil

mutual

theorem leavesOf_normalized (depth : Nat) (place : String) (negated : Bool) :
    ∀ raw node : Node F, normalizeChild depth place raw = .ok node →
      List.Forall₂ Becomes (leavesOf negated raw) (leavesOf negated node)
  | .other, node, h => by cases h
  | .item keys, node, h => by
    rw [normalizeChild] at h
    obtain ⟨cond, hc, rfl⟩ := item_of_map h
    exact becomes_leaf hc negated
  | .nullGroup keys, node, h => by
    rw [normalizeChild] at h
    split at h
    · obtain ⟨-, -, nodes, hn, -⟩ := assemble_eq_ok.mp h
      cases hn
    · obtain ⟨cond, hc, rfl⟩ := item_of_map h
      exact becomes_leaf hc negated
  | .group keys conditions, node, h => by
    rw [normalizeChild] at h
    rw [leavesOf]
    split at h
    · rename_i hgroup
      obtain ⟨-, hlogic, nodes, hn, -, rfl⟩ := assemble_eq_ok.mp h
      rw [if_pos hgroup, leavesOf_logic hlogic]
      exact leavesOfAll_normalized _ _ _ _ conditions nodes hn
    · rename_i hgroup
      obtain ⟨cond, hc, rfl⟩ := item_of_map h
      rw [if_neg hgroup]
      exact becomes_leaf hc negated

theorem leavesOfAll_normalized (depth : Nat) (loc : String) (idx : Nat) (negated : Bool) :
    ∀ raws nodes : List (Node F), normalizeChildren depth loc idx raws = .ok nodes →
      List.Forall₂ Becomes (leavesOfAll negated raws) (leavesOfAll negated nodes)
  | [], nodes, h => by
    obtain rfl := Except.ok.inj h
    exact .nil
  | raw :: rest, nodes, h => by
    obtain ⟨child, later, hchild, hlater, rfl⟩ := normalizeChildren_cons_eq_ok.mp h
    rw [leavesOfAll, leavesOfAll]
    exact List.rel_append (leavesOf_normalized _ _ negated raw child hchild)
      (leavesOfAll_normalized _ _ _ negated rest later hlater)

end

theorem leaves_normalized {rule node : Node F} (h : normalizeRule rule = .ok node) :
    List.Forall₂ Becomes (leaves rule) (leaves node) := by
  obtain ⟨keys, conditions, nodes, rfl, hlogic, hn, -, rfl⟩ := normalizeRule_eq_ok.mp h
  rw [leaves_logic hlogic, leaves]
  exact leavesOfAll_normalized _ _ _ _ conditions nodes hn

/-- A property of the conditions of a document is one of the conditions they become. -/
theorem forall_leaves_normalized {P Q : Bool → Keys F → Prop}
    (hPQ : ∀ loc raw cond live, normalizeCondition loc raw = .ok cond → (P live raw ↔ Q live cond))
    {rule node : Node F} (h : normalizeRule rule = .ok node) :
    (∀ e ∈ leaves rule, P e.1 e.2) ↔ ∀ e ∈ leaves node, Q e.1 e.2 := by
  have hleaves := leaves_normalized h
  generalize leaves rule = raws at hleaves ⊢
  generalize leaves node = conds at hleaves ⊢
  induction hleaves with
  | nil => exact ⟨fun _ e he => absurd he List.not_mem_nil, fun _ e he => absurd he List.not_mem_nil⟩
  | cons hab _ ih =>
    obtain ⟨hlive, loc, hn⟩ := hab
    rw [List.forall_mem_cons, List.forall_mem_cons, hlive]
    exact and_congr (hPQ loc _ _ _ hn) ih

/-! The conditions of a normal form. -/

mutual

theorem conditionsOf_leaves (depth : Nat) (negated : Bool) :
    ∀ node : Node F, NormalChild depth node → conditionsOf node = (leavesOf negated node).map Prod.snd
  | .other, h => h.elim
  | .nullGroup _, h => h.elim
  | .item cond, _ => rfl
  | .group keys conditions, h => by
    rw [NormalChild] at h
    obtain ⟨-, ⟨name, rfl, hlogic, -⟩, hchildren⟩ := h
    rw [conditionsOf, leavesOf_logic hlogic]
    exact iterConditions_leaves _ _ conditions hchildren

theorem iterConditions_leaves (depth : Nat) (negated : Bool) :
    ∀ nodes : List (Node F), NormalChildren depth nodes →
      iterConditions nodes = (leavesOfAll negated nodes).map Prod.snd
  | [], _ => rfl
  | child :: rest, h => by
    rw [NormalChildren] at h
    rw [iterConditions, leavesOfAll, List.map_append, conditionsOf_leaves depth negated child h.1,
      iterConditions_leaves depth negated rest h.2]

end

theorem conditionsOf_rule {node : Node F} (h : NormalRule node) :
    conditionsOf node = (leaves node).map Prod.snd := by
  cases node with
  | group keys conditions =>
    obtain ⟨⟨name, rfl, hlogic, -⟩, hchildren⟩ := h
    rw [conditionsOf, leaves_logic hlogic]
    exact iterConditions_leaves _ _ conditions hchildren
  | _ => exact h.elim

mutual

private theorem normalItem_of_leavesOf (depth : Nat) (negated : Bool) :
    ∀ node : Node F, NormalChild depth node → ∀ e ∈ leavesOf negated node, NormalItem e.2
  | .other, h => h.elim
  | .nullGroup _, h => h.elim
  | .item cond, h => by
    intro e he
    obtain rfl := List.mem_singleton.mp he
    exact h
  | .group keys conditions, h => by
    rw [NormalChild] at h
    obtain ⟨-, ⟨name, rfl, hlogic, -⟩, hchildren⟩ := h
    rw [leavesOf_logic hlogic]
    exact normalItem_of_leavesOfAll _ _ conditions hchildren

private theorem normalItem_of_leavesOfAll (depth : Nat) (negated : Bool) :
    ∀ nodes : List (Node F), NormalChildren depth nodes →
      ∀ e ∈ leavesOfAll negated nodes, NormalItem e.2
  | [], _ => fun e he => absurd he List.not_mem_nil
  | child :: rest, h => by
    rw [NormalChildren] at h
    rw [leavesOfAll, List.forall_mem_append]
    exact ⟨normalItem_of_leavesOf depth negated child h.1,
      normalItem_of_leavesOfAll depth negated rest h.2⟩

end

theorem normalItem_of_leaves {node : Node F} (h : NormalRule node) :
    ∀ e ∈ leaves node, NormalItem e.2 := by
  cases node with
  | group keys conditions =>
    obtain ⟨⟨name, rfl, hlogic, -⟩, hchildren⟩ := h
    rw [leaves_logic hlogic]
    exact normalItem_of_leavesOfAll _ _ conditions hchildren
  | _ => exact h.elim

end

end Droid.Research
