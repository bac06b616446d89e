import Droid.Research.NormalForm

/-! Which rules cannot fire while they are half built or their data is missing. -/
namespace Droid.Research
open Lib

section
variable {F : Type}

/-! The groups of a rule, each a rule of its own. -/

mutual

def groupsOf : Node F → List (Node F)
  | .group keys conditions => .group keys conditions :: groupsOfAll conditions
  | .item _ => []
  | .nullGroup _ => []
  | .other => []

def groupsOfAll : List (Node F) → List (Node F)
  | [] => []
  | child :: rest => groupsOf child ++ groupsOfAll rest

end

/-- The second rule has one condition of the first disabled, the third has it deleted. -/
inductive Disables : Node F → Node F → Node F → Prop where
  | here (keys cond : Keys F) (before after : List (Node F)) :
    Disables (.group keys (before ++ .item cond :: after))
      (.group keys (before ++ .item { cond with enabled := false } :: after))
      (.group keys (before ++ after))
  | inside (keys : Keys F) (before after : List (Node F)) {child disabled deleted : Node F}
      (h : Disables child disabled deleted) :
    Disables (.group keys (before ++ child :: after)) (.group keys (before ++ disabled :: after))
      (.group keys (before ++ deleted :: after))

def Keys.barsRead (cond : Keys F) (i : Nat) : List Int :=
  match cond.operator.bind RuleOperator.ofName with
  | some .turnsUp | some .turnsDown => [i, i - 1, i - 2]
  | some .crossesAbove | some .crossesBelow => [i, i - 1]
  | some .slopeUp | some .slopeDown =>
    match cond.bars.map lagOf with
    | some (.ok lag) => [i, i - lag]
    | _ => [i]
  | _ => [i]

/-- Every feature of the condition has a column, without a value on the bars that are read. -/
def Keys.Missing (cond : Keys F) (f : Features F) (i : Nat) : Prop :=
  ∀ name ∈ cond.featureNames, ∃ column, f.get? name = some column ∧
    ∀ j ∈ cond.barsRead i, 0 ≤ j → cell column j = .ok none

variable [Floats F]

/-- The convention of the language for a rule that is not finished or has no data. -/
structure FailSafe (rule : Node F) : Prop where
  inactive : (∀ e ∈ leaves rule, e.2.enabled = false) →
    ∀ (f : Features F) (i : Nat), groupAt f i rule = .ok false
  disabled : ∀ disabled deleted, Disables rule disabled deleted →
    ∀ (f : Features F) (i : Nat), groupAt f i disabled = groupAt f i deleted
  missing : ∀ (f : Features F) (i : Nat), (∀ e ∈ leaves rule, e.1 = true → e.2.Missing f i) →
    groupAt f i rule = .ok false

/-! What a condition on two literals comes to. -/

def literalTest (op : RuleOperator) (left right : Literal F) : Except Fault Bool :=
  if left.isNull || right.isNull then .ok false
  else
    match op with
    | .inRange => insideAt left right
    | .outsideRange => (insideAt left right).map (!·)
    | .crossesAbove => do
      let below ← atMost left right
      if below then less right left else return false
    | .crossesBelow => do
      let above ← atMost right left
      if above then less left right else return false
    | .gt => less right left
    | .lt => less left right
    | .ge => atMost right left
    | .le => atMost left right
    | .eq => apart Floats.near left right
    | .ne => apart Floats.far left right
    | _ => .ok false

def RuleOperator.crosses (op : RuleOperator) : Bool := op ∈ [crossesAbove, crossesBelow]

/-- The outcome of a condition that names no feature. -/
def Keys.literalOutcome (cond : Keys F) : Except Fault Bool :=
  match cond.operator.bind RuleOperator.ofName, cond.left, cond.right with
  | some op, some (.plain left), some (.plain right) =>
    if op.unary then .ok false else literalTest op left right
  | _, _, _ => .ok false

/-- A comparison of two literals that is true on every bar. -/
def Keys.AlwaysTrue (cond : Keys F) : Prop :=
  cond.featureNames = [] ∧ cond.literalOutcome = .ok true ∧
    ∀ op, cond.operator.bind RuleOperator.ofName = some op → ¬ op.crosses

/-- A feature, or a comparison of two literals that is false: without data it does not hold. -/
def Keys.NeedsData (cond : Keys F) : Prop :=
  cond.featureNames = [] → cond.literalOutcome = .ok false

/-- What a group must be like: below a `NOT` there is only a comparison that is always true; below an
`OR` nothing enabled holds without data; below an `AND` no enabled comparison of literals raises, and
where anything is enabled something enabled does not hold without data. -/
def Guarded : Node F → Prop
  | .group keys conditions =>
    (keys.operator = some "NOT" → ∀ child ∈ conditions, ∃ cond, child = .item cond ∧ cond.AlwaysTrue) ∧
    (keys.operator = some "OR" →
      ∀ cond, .item cond ∈ conditions → cond.enabled → cond.NeedsData) ∧
    (keys.operator = some "AND" →
      (∀ cond, .item cond ∈ conditions → cond.enabled → cond.featureNames = [] →
        ∃ b, cond.literalOutcome = .ok b) ∧
      ((∃ child ∈ conditions, child.enabled) →
        ∃ child ∈ conditions, child.enabled ∧ ∀ cond, child = .item cond → cond.NeedsData))
  | _ => True

end

/-! A condition without its data. -/

section
variable {F : Type}

theorem mem_barsRead (cond : Keys F) (i : Nat) : (i : Int) ∈ cond.barsRead i := by
  unfold Keys.barsRead
  split
  · exact List.mem_cons_self
  · exact List.mem_cons_self
  · exact List.mem_cons_self
  · exact List.mem_cons_self
  · split <;> exact List.mem_cons_self
  · split <;> exact List.mem_cons_self
  · exact List.mem_cons_self

theorem Keys.Missing.now {cond : Keys F} {f : Features F} {i : Nat} (h : cond.Missing f i) {name : String}
    (hn : name ∈ cond.featureNames) :
    ∃ column, f.get? name = some column ∧ cell column i = .ok none := by
  obtain ⟨column, hc, hnone⟩ := h name hn
  exact ⟨column, hc, hnone i (mem_barsRead cond i) (Int.natCast_nonneg i)⟩

private theorem resolveFeature_none {name : String} {f : Features F} {i : Nat}
    (h : ∃ column, f.get? name = some column ∧ cell column i = .ok none) :
    resolveFeature (some (.plain (.str name))) f i = .ok none := by
  obtain ⟨column, hc, hnone⟩ := h
  simp only [resolveFeature, required, bind, Except.bind, hc, hnone]

private theorem resolve_missing {kind : Option String} {side : Option (Operand F)} {f : Features F}
    {i : Nat} (h : NormalSide kind side)
    (hf : ∀ name ∈ featureName kind side, ∃ column, f.get? name = some column ∧
      cell column i = .ok none) :
    ∃ v, resolve kind side f i = .ok v ∧ (featureName kind side ≠ none → v.isNull = true) := by
  cases h with
  | feature name hne =>
    refine ⟨.null, ?_, fun _ => rfl⟩
    simp only [resolve, if_true, resolveFeature_none (hf name rfl), bind, Except.bind]
    rfl
  | literal v =>
    refine ⟨v, rfl, fun hne => absurd ?_ hne⟩
    cases v <;> rfl
  | range lo hi => exact ⟨.array [lo, hi], rfl, fun hne => absurd rfl hne⟩

variable [Floats F]

theorem conditionAt_missing {cond : Keys F} {f : Features F} {i : Nat} (h : NormalItem cond)
    (hn : cond.featureNames ≠ []) (hm : cond.Missing f i) : conditionAt cond f i = .ok false := by
  obtain ⟨name, op, bars, hname, hop, hright, hbars, hb⟩ := h.operator
  obtain ⟨kind, v, hkind, hv⟩ := normalSide_plain h.left
  have hcond : conditionAt cond f i =
      if op.unary then unaryAt op cond kind f i else binaryAt (some op) cond f i := by
    simp only [conditionAt, hname, hkind, required, bind, Except.bind, hop]
  have hl : ∀ name ∈ featureName cond.leftKind cond.left, ∃ column, f.get? name = some column ∧
      cell column i = .ok none :=
    fun name hn => hm.now (List.mem_append_left _ (Option.mem_toList.mpr hn))
  have hr : ∀ name ∈ featureName cond.rightKind cond.right, ∃ column, f.get? name = some column ∧
      cell column i = .ok none :=
    fun name hn => hm.now (List.mem_append_right _ (Option.mem_toList.mpr hn))
  rw [hcond]
  by_cases hu : op.unary
  · rw [if_pos hu, unaryAt]
    by_cases hk : kind ≠ "feature"
    · rw [if_pos hk]
      rfl
    · rw [if_neg hk]
      obtain rfl := not_not.mp hk
      obtain ⟨feature, hfeature⟩ := normalSide_feature h.left hkind
      obtain ⟨lag, hlag⟩ := lagOf_normal hb
      rw [hkind, hfeature] at hl
      rw [hfeature, resolveFeature_none (hl feature rfl), hbars]
      simp only [required, bind, Except.bind, hlag]
      rfl
  · rw [if_neg hu, binaryAt]
    obtain ⟨-, hside⟩ := normalRight_binary hright hu
    obtain ⟨l, hll, hln⟩ := resolve_missing h.left hl
    obtain ⟨r, hrr, hrn⟩ := resolve_missing hside hr
    have hnull : (l.isNull || r.isNull) = true := by
      rw [Bool.or_eq_true]
      by_cases hne : featureName cond.leftKind cond.left = none
      · exact Or.inr (hrn fun he => hn (by rw [Keys.featureNames, hne, he]; rfl))
      · exact Or.inl (hln hne)
    simp only [hll, hrr, bind, Except.bind, hnull, if_true]
    rfl

/-! A condition on two literals. -/

omit [Floats F] in
private theorem resolve_literal {kind : Option String} {side : Option (Operand F)}
    (h : NormalSide kind side) (hn : featureName kind side = none) :
    ∃ v, side = some (.plain v) ∧ ∀ (f : Features F) (j : Int), resolve kind side f j = .ok v := by
  cases h with
  | feature name hne => cases hn
  | literal v => exact ⟨v, rfl, fun f j => rfl⟩
  | range lo hi => exact ⟨.array [lo, hi], rfl, fun f j => rfl⟩

theorem conditionAt_literal {cond : Keys F} {op : RuleOperator} (h : NormalItem cond)
    (hn : cond.featureNames = []) (hop : cond.operator.bind RuleOperator.ofName = some op)
    (f : Features F) (i : Nat) :
    conditionAt cond f i = if op.crosses ∧ i = 0 then .ok false else cond.literalOutcome := by
  obtain ⟨name, op', bars, hname, hop', hright, -, -⟩ := h.operator
  obtain ⟨kind, v, hkind, hv⟩ := normalSide_plain h.left
  obtain rfl : op = op' := by
    rw [hname] at hop
    exact Option.some.inj (hop.symm.trans hop')
  obtain ⟨hnl, hnr⟩ : featureName cond.leftKind cond.left = none ∧
      featureName cond.rightKind cond.right = none := by
    simpa [Keys.featureNames] using hn
  have hcond : conditionAt cond f i =
      if op.unary then unaryAt op cond kind f i else binaryAt (some op) cond f i := by
    simp only [conditionAt, hname, hkind, required, bind, Except.bind, hop']
  obtain ⟨l, hl, hreadl⟩ := resolve_literal h.left hnl
  rw [hcond]
  by_cases hu : op.unary
  · have hk : kind ≠ "feature" := by
      rintro rfl
      obtain ⟨feature, hfeature⟩ := normalSide_feature h.left hkind
      rw [hkind, hfeature] at hnl
      cases hnl
    have hnc : ¬ op.crosses := by
      revert hu
      cases op <;> decide
    obtain ⟨r, hr⟩ := normalRight_plain hright
    rw [if_pos hu, unaryAt, if_pos hk, if_neg fun hc => hnc hc.1]
    simp only [Keys.literalOutcome, hop, hl, hr, hu, if_true]
    rfl
  · obtain ⟨-, hside⟩ := normalRight_binary hright hu
    obtain ⟨r, hr, hreadr⟩ := resolve_literal hside hnr
    have houtcome : cond.literalOutcome = literalTest op l r := by
      simp only [Keys.literalOutcome, hop, hl, hr, hu, if_false, Bool.false_eq_true]
    rw [if_neg hu, houtcome]
    unfold binaryAt literalTest
    simp only [hreadl, hreadr, bind, Except.bind]
    by_cases hnull : (l.isNull || r.isNull) = true
    · simp only [hnull, if_true, ite_self]
      rfl
    simp only [hnull, if_false, Bool.false_eq_true]
    have hbar : (i : Int) < 1 ↔ i = 0 := by omega
    cases op with
    | crossesAbove =>
      simp only [hbar]
      by_cases hi : i = 0
      · have hfirst : RuleOperator.crossesAbove.crosses = true ∧ i = 0 := ⟨rfl, hi⟩
        rw [if_pos hi, if_pos hfirst]
        rfl
      · have hlater : ¬ (RuleOperator.crossesAbove.crosses = true ∧ i = 0) := fun hc => hi hc.2
        rw [if_neg hi, if_neg hlater]
    | crossesBelow =>
      simp only [hbar]
      by_cases hi : i = 0
      · have hfirst : RuleOperator.crossesBelow.crosses = true ∧ i = 0 := ⟨rfl, hi⟩
        rw [if_pos hi, if_pos hfirst]
        rfl
      · have hlater : ¬ (RuleOperator.crossesBelow.crosses = true ∧ i = 0) := fun hc => hi hc.2
        rw [if_neg hi, if_neg hlater]
    | outsideRange =>
      cases insideAt l r <;> rfl
    | _ => rfl

omit [Floats F] in
private theorem NormalItem.op {cond : Keys F} (h : NormalItem cond) :
    ∃ op, cond.operator.bind RuleOperator.ofName = some op := by
  obtain ⟨name, op, -, hname, hop, -⟩ := h.operator
  exact ⟨op, by rw [hname]; exact hop⟩

private theorem conditionAt_later {cond : Keys F} (h : NormalItem cond) (hn : cond.featureNames = [])
    (f : Features F) : conditionAt cond f (1 : Nat) = cond.literalOutcome := by
  obtain ⟨op, hop⟩ := h.op
  rw [conditionAt_literal h hn hop, if_neg fun hc => absurd hc.2 (by decide)]

theorem conditionAt_alwaysTrue {cond : Keys F} (h : NormalItem cond) (ha : cond.AlwaysTrue)
    (f : Features F) (i : Nat) : conditionAt cond f i = .ok true := by
  obtain ⟨op, hop⟩ := h.op
  rw [conditionAt_literal h ha.1 hop, if_neg fun hc => ha.2.2 op hop hc.1, ha.2.1]

theorem alwaysTrue_of_conditionAt {cond : Keys F} (h : NormalItem cond)
    (ht : ∀ (f : Features F) (i : Nat), conditionAt cond f i = .ok true)
    {f : Features F} (hm : cond.Missing f 0) : cond.AlwaysTrue := by
  have hn : cond.featureNames = [] := by
    by_contra hne
    have := (ht f 0).symm.trans (conditionAt_missing h hne hm)
    cases this
  refine ⟨hn, ?_, fun op hop hc => ?_⟩
  · rw [← conditionAt_later h hn f]
    exact ht f 1
  · have := (ht f 0).symm.trans (conditionAt_literal h hn hop f 0)
    rw [if_pos ⟨hc, rfl⟩] at this
    cases this

theorem conditionAt_needsData {cond : Keys F} {f : Features F} {i : Nat} (h : NormalItem cond)
    (hd : cond.NeedsData) (hm : cond.Missing f i) : conditionAt cond f i = .ok false := by
  by_cases hn : cond.featureNames = []
  · obtain ⟨op, hop⟩ := h.op
    rw [conditionAt_literal h hn hop, hd hn, ite_self]
  · exact conditionAt_missing h hn hm

end

/-! When a group is false. -/

section
variable {F : Type} [Floats F] {f : Features F} {i : Int}

theorem outcomesAt_ok_iff (nodes : List (Node F)) :
    (∃ bs, outcomesAt f i nodes = .ok bs) ↔
      ∀ child ∈ nodes, child.enabled → ∃ b, childAt f i child = .ok b := by
  induction nodes with
  | nil => exact iff_of_true ⟨[], rfl⟩ fun child hc => absurd hc List.not_mem_nil
  | cons child rest ih =>
    rw [outcomesAt, List.forall_mem_cons, ← ih]
    by_cases he : child.enabled
    · rw [if_pos he]
      cases childAt f i child with
      | error fault =>
        constructor
        · rintro ⟨bs, hbs⟩
          cases hbs
        · rintro ⟨hb, -⟩
          obtain ⟨b, hb⟩ := hb he
          cases hb
      | ok b =>
        cases outcomesAt f i rest with
        | error fault =>
          constructor
          · rintro ⟨bs, hbs⟩
            cases hbs
          · rintro ⟨-, bs, hbs⟩
            cases hbs
        | ok bs => exact iff_of_true ⟨b :: bs, rfl⟩ ⟨fun _ => ⟨b, rfl⟩, bs, rfl⟩
    · rw [if_neg he]
      exact (and_iff_right fun h => absurd h he).symm

theorem mem_outcomesAt {nodes : List (Node F)} {bs : List Bool} (h : outcomesAt f i nodes = .ok bs)
    (b : Bool) : b ∈ bs ↔ ∃ child ∈ nodes, child.enabled ∧ childAt f i child = .ok b := by
  induction nodes generalizing bs with
  | nil =>
    obtain rfl := Except.ok.inj h
    simp
  | cons child rest ih =>
    rw [outcomesAt] at h
    rw [List.exists_mem_cons_iff]
    by_cases he : child.enabled
    · rw [if_pos he] at h
      simp only [bind, Except.bind, pure, Except.pure] at h
      split at h
      · cases h
      · rename_i outcome hc
        split at h
        · cases h
        · rename_i outcomes hr
          obtain rfl := Except.ok.inj h
          rw [List.mem_cons, ih hr, hc, Except.ok.injEq, eq_comm]
          exact or_congr_left (and_iff_right he).symm
    · rw [if_neg he] at h
      rw [ih h]
      exact (or_iff_right fun hc => he hc.1).symm

private theorem orAt_eq (conditions : List (Node F)) :
    childAt f i (.group { operator := some "OR" } conditions) =
      (outcomesAt f i conditions).map fun outcomes => outcomes.any id := by
  rw [childAt]
  simp only [required, bind, Except.bind]
  rw [if_neg (by decide)]
  cases outcomesAt f i conditions with
  | error fault => rfl
  | ok outcomes =>
    cases outcomes with
    | nil => rfl
    | cons b bs =>
      dsimp only [List.isEmpty]
      rw [if_neg Bool.false_ne_true, if_neg (by decide)]
      rfl

private theorem andAt_eq (conditions : List (Node F)) :
    childAt f i (.group { operator := some "AND" } conditions) =
      (outcomesAt f i conditions).map fun outcomes => !outcomes.isEmpty && outcomes.all id := by
  rw [childAt]
  simp only [required, bind, Except.bind]
  rw [if_neg (by decide)]
  cases outcomesAt f i conditions with
  | error fault => rfl
  | ok outcomes =>
    cases outcomes with
    | nil => rfl
    | cons b bs =>
      dsimp only [List.isEmpty]
      rw [if_neg Bool.false_ne_true, if_pos trivial]
      rfl

private theorem map_eq_ok {α β : Type} {x : Except Fault α} {g : α → β} {b : β} :
    x.map g = .ok b ↔ ∃ a, x = .ok a ∧ g a = b := by
  cases x with
  | error fault =>
    constructor
    · intro h
      cases h
    · rintro ⟨a, h, -⟩
      cases h
  | ok a =>
    constructor
    · intro h
      exact ⟨a, rfl, Except.ok.inj h⟩
    · rintro ⟨a', h, rfl⟩
      rw [Except.ok.inj h]
      rfl

theorem disjunction_false_iff (conditions : List (Node F)) :
    childAt f i (.group { operator := some "OR" } conditions) = .ok false ↔
      ∀ child ∈ conditions, child.enabled → childAt f i child = .ok false := by
  rw [orAt_eq, map_eq_ok]
  simp only [List.any_eq_false]
  constructor
  · rintro ⟨bs, ho, hall⟩ child hc he
    obtain ⟨b, hb⟩ := (outcomesAt_ok_iff conditions).mp ⟨bs, ho⟩ child hc he
    have hmem : b ∈ bs := (mem_outcomesAt ho b).mpr ⟨child, hc, he, hb⟩
    cases b with
    | false => exact hb
    | true => exact absurd rfl (hall true hmem)
  · intro h
    obtain ⟨bs, ho⟩ := (outcomesAt_ok_iff conditions).mpr fun child hc he => ⟨false, h child hc he⟩
    refine ⟨bs, ho, fun b hb => ?_⟩
    obtain ⟨child, hc, he, hcb⟩ := (mem_outcomesAt ho b).mp hb
    rw [h child hc he] at hcb
    rw [← Except.ok.inj hcb]
    decide

theorem conjunction_false_iff (conditions : List (Node F)) :
    childAt f i (.group { operator := some "AND" } conditions) = .ok false ↔
      (∀ child ∈ conditions, child.enabled → ∃ b, childAt f i child = .ok b) ∧
      ((∃ child ∈ conditions, child.enabled) →
        ∃ child ∈ conditions, child.enabled ∧ childAt f i child = .ok false) := by
  rw [andAt_eq, map_eq_ok, ← outcomesAt_ok_iff]
  constructor
  · rintro ⟨bs, ho, hfalse⟩
    refine ⟨⟨bs, ho⟩, ?_⟩
    rintro ⟨child, hc, he⟩
    obtain ⟨b, hb⟩ := (outcomesAt_ok_iff conditions).mp ⟨bs, ho⟩ child hc he
    have hmem : b ∈ bs := (mem_outcomesAt ho b).mpr ⟨child, hc, he, hb⟩
    have hne : bs.isEmpty = false := by
      rw [List.isEmpty_eq_false_iff]
      exact List.ne_nil_of_mem hmem
    rw [hne, Bool.not_false, Bool.true_and, List.all_eq_false] at hfalse
    obtain ⟨b', hb', hid⟩ := hfalse
    obtain rfl : b' = false := by simpa using hid
    exact (mem_outcomesAt ho false).mp hb'
  · rintro ⟨⟨bs, ho⟩, hsome⟩
    refine ⟨bs, ho, ?_⟩
    cases bs with
    | nil => rfl
    | cons b rest =>
      obtain ⟨child, hc, he, -⟩ := (mem_outcomesAt ho b).mp List.mem_cons_self
      have hmem := (mem_outcomesAt ho false).mpr (hsome ⟨child, hc, he⟩)
      rw [Bool.and_eq_false_iff, List.all_eq_false]
      exact Or.inr ⟨false, hmem, by decide⟩

theorem negation_false_iff (child : Node F) :
    childAt f i (.group { operator := some "NOT" } [child]) = .ok false ↔
      childAt f i child = .ok true := by
  rw [childAt]
  simp only [required, bind, Except.bind, if_true]
  rw [negatedHead]
  cases childAt f i child with
  | error fault =>
    constructor
    · intro h
      cases h
    · intro h
      cases h
  | ok b => cases b <;> simp [bind, Except.bind, pure, Except.pure]

end

/-! The children of a group. -/

section
variable {F : Type}

theorem normalChild_of_mem {depth : Nat} {nodes : List (Node F)} (h : NormalChildren depth nodes) :
    ∀ child ∈ nodes, NormalChild depth child := by
  induction nodes with
  | nil => exact fun child hc => absurd hc List.not_mem_nil
  | cons c rest ih =>
    rw [NormalChildren] at h
    exact List.forall_mem_cons.mpr ⟨h.1, ih h.2⟩

theorem leavesOf_subset {negated : Bool} {nodes : List (Node F)} {child : Node F} (h : child ∈ nodes) :
    leavesOf negated child ⊆ leavesOfAll negated nodes := by
  induction nodes with
  | nil => exact absurd h List.not_mem_nil
  | cons c rest ih =>
    rw [leavesOfAll]
    rcases List.mem_cons.mp h with rfl | h
    · exact List.subset_append_left _ _
    · exact List.subset_append_of_subset_right _ (ih h)

theorem groupsOf_subset {nodes : List (Node F)} {child : Node F} (h : child ∈ nodes) :
    groupsOf child ⊆ groupsOfAll nodes := by
  induction nodes with
  | nil => exact absurd h List.not_mem_nil
  | cons c rest ih =>
    rw [groupsOfAll]
    rcases List.mem_cons.mp h with rfl | h
    · exact List.subset_append_left _ _
    · exact List.subset_append_of_subset_right _ (ih h)

theorem normalGroup_of_child {depth : Nat} {child : Node F} (h : NormalChild depth child)
    (hg : ∀ cond, child ≠ .item cond) : NormalGroup (depth + 1) child := by
  cases child with
  | item cond => exact absurd rfl (hg cond)
  | group keys conditions =>
    rw [NormalChild] at h
    exact h.2
  | _ => exact h.elim

theorem NormalGroup.self_mem {depth : Nat} {g : Node F} (h : NormalGroup depth g) : g ∈ groupsOf g := by
  cases g with
  | group keys conditions =>
    rw [groupsOf]
    exact List.mem_cons_self
  | _ => exact h.elim

theorem NormalGroup.leaves_eq {depth : Nat} {g : Node F} (h : NormalGroup depth g) (negated : Bool) :
    leaves g = leavesOf negated g := by
  cases g with
  | group keys conditions =>
    obtain ⟨⟨name, rfl, hlogic, -⟩, -⟩ := h
    rw [leaves_logic hlogic, leavesOf_logic hlogic]
  | _ => exact h.elim

mutual

private theorem live_of_leavesOf (negated : Bool) :
    ∀ node : Node F, ∀ e ∈ leavesOf negated node, e.2.enabled = true → e.1 = true
  | .other => fun e he => absurd he List.not_mem_nil
  | .item keys => by
    rw [leavesOf, List.forall_mem_singleton]
    exact fun h => by rw [h, Bool.or_true]
  | .nullGroup keys => by
    rw [leavesOf, List.forall_mem_singleton]
    exact fun h => by rw [h, Bool.or_true]
  | .group keys conditions => by
    rw [leavesOf]
    split
    · exact live_of_leavesOfAll _ conditions
    · rw [List.forall_mem_singleton]
      exact fun h => by rw [h, Bool.or_true]

private theorem live_of_leavesOfAll (negated : Bool) :
    ∀ nodes : List (Node F), ∀ e ∈ leavesOfAll negated nodes, e.2.enabled = true → e.1 = true
  | [] => fun e he => absurd he List.not_mem_nil
  | child :: rest => by
    rw [leavesOfAll, List.forall_mem_append]
    exact ⟨live_of_leavesOf negated child, live_of_leavesOfAll negated rest⟩

end

/-- Evaluation reaches every enabled condition. -/
theorem live_of_enabled {node : Node F} : ∀ e ∈ leaves node, e.2.enabled = true → e.1 = true := by
  cases node with
  | group keys conditions => exact live_of_leavesOfAll _ conditions
  | _ => exact fun e he => absurd he List.not_mem_nil

mutual

private theorem groupsOf_normal (depth : Nat) :
    ∀ node : Node F, NormalChild depth node → ∀ g ∈ groupsOf node,
      ∃ depth', NormalGroup depth' g ∧ groupsOf g ⊆ groupsOf node
  | .other, h => h.elim
  | .nullGroup _, h => h.elim
  | .item _, _ => fun g hg => absurd hg List.not_mem_nil
  | .group keys conditions, h => by
    rw [NormalChild] at h
    intro g hg
    rw [groupsOf] at hg
    rcases List.mem_cons.mp hg with rfl | hg
    · exact ⟨depth + 1, h.2, List.Subset.refl _⟩
    · obtain ⟨depth', hn, hsub⟩ := groupsOfAll_normal (depth + 1) conditions h.2.2 g hg
      rw [groupsOf]
      exact ⟨depth', hn, List.subset_cons_of_subset _ hsub⟩

private theorem groupsOfAll_normal (depth : Nat) :
    ∀ nodes : List (Node F), NormalChildren depth nodes → ∀ g ∈ groupsOfAll nodes,
      ∃ depth', NormalGroup depth' g ∧ groupsOf g ⊆ groupsOfAll nodes
  | [], _ => fun g hg => absurd hg List.not_mem_nil
  | child :: rest, h => by
    rw [NormalChildren] at h
    intro g hg
    rw [groupsOfAll] at hg ⊢
    rcases List.mem_append.mp hg with hg | hg
    · obtain ⟨depth', hn, hsub⟩ := groupsOf_normal depth child h.1 g hg
      exact ⟨depth', hn, List.subset_append_of_subset_left _ hsub⟩
    · obtain ⟨depth', hn, hsub⟩ := groupsOfAll_normal depth rest h.2 g hg
      exact ⟨depth', hn, List.subset_append_of_subset_right _ hsub⟩

end

theorem groupsOf_rule {node : Node F} (h : NormalRule node) :
    ∀ g ∈ groupsOf node, ∃ depth, NormalGroup depth g ∧ groupsOf g ⊆ groupsOf node := by
  cases node with
  | group keys conditions =>
    intro g hg
    rw [groupsOf] at hg
    rcases List.mem_cons.mp hg with rfl | hg
    · exact ⟨0, h, List.Subset.refl _⟩
    · obtain ⟨depth, hn, hsub⟩ := groupsOfAll_normal 0 conditions h.2 g hg
      rw [groupsOf]
      exact ⟨depth, hn, List.subset_cons_of_subset _ hsub⟩
  | _ => exact h.elim

variable [Floats F]

/-! A guarded group is false wherever nothing enabled has its data. -/

private theorem guardedGroup_false {name : String} {conditions : List (Node F)} {f : Features F} {i : Nat}
    (hlogic : name ∈ logicNames) (hnot : name = "NOT" → conditions.length = 1)
    (hg : Guarded (.group { operator := some name } conditions))
    (hitems : ∀ cond, .item cond ∈ conditions → NormalItem cond ∧ (cond.enabled → cond.Missing f i))
    (hgroups : ∀ child ∈ conditions, (∀ cond, child ≠ .item cond) → childAt f i child = .ok false) :
    childAt f i (.group { operator := some name } conditions) = .ok false := by
  rw [logicNames, List.mem_cons, List.mem_cons, List.mem_singleton] at hlogic
  rcases hlogic with rfl | rfl | rfl
  · obtain ⟨hdecided, hsome⟩ := hg.2.2 rfl
    rw [conjunction_false_iff]
    constructor
    · intro child hc he
      cases child with
      | item cond =>
        obtain ⟨hn, hm⟩ := hitems cond hc
        rw [childAt]
        by_cases hfree : cond.featureNames = []
        · obtain ⟨op, hop⟩ := hn.op
          obtain ⟨b, hb⟩ := hdecided cond hc he hfree
          rw [conditionAt_literal hn hfree hop, hb]
          split
          · exact ⟨false, rfl⟩
          · exact ⟨b, rfl⟩
        · exact ⟨false, conditionAt_missing hn hfree (hm he)⟩
      | _ => exact ⟨false, hgroups _ hc fun cond h => by cases h⟩
    · intro hany
      obtain ⟨child, hc, he, hneeds⟩ := hsome hany
      refine ⟨child, hc, he, ?_⟩
      cases child with
      | item cond =>
        obtain ⟨hn, hm⟩ := hitems cond hc
        rw [childAt]
        exact conditionAt_needsData hn (hneeds cond rfl) (hm he)
      | _ => exact hgroups _ hc fun cond h => by cases h
  · rw [disjunction_false_iff]
    intro child hc he
    cases child with
    | item cond =>
      obtain ⟨hn, hm⟩ := hitems cond hc
      rw [childAt]
      exact conditionAt_needsData hn (hg.2.1 rfl cond hc he) (hm he)
    | _ => exact hgroups _ hc fun cond h => by cases h
  · obtain ⟨child, rfl⟩ := List.length_eq_one_iff.mp (hnot rfl)
    obtain ⟨cond, rfl, ha⟩ := hg.1 rfl child (List.mem_singleton_self _)
    rw [negation_false_iff, childAt]
    exact conditionAt_alwaysTrue (hitems cond (List.mem_singleton_self _)).1 ha f i

omit [Floats F] in
/-- What the conditions of a list of children are like. -/
private theorem items_of_leaves {depth : Nat} {negated : Bool} {conditions : List (Node F)}
    {f : Features F} {i : Nat} (h : NormalChildren depth conditions)
    (hm : ∀ e ∈ leavesOfAll negated conditions, e.2.enabled → e.2.Missing f i) (cond : Keys F)
    (hc : .item cond ∈ conditions) : NormalItem cond ∧ (cond.enabled → cond.Missing f i) := by
  refine ⟨normalChild_of_mem h _ hc, hm (negated || cond.enabled, cond) (leavesOf_subset hc ?_)⟩
  rw [leavesOf]
  exact List.mem_singleton_self _

mutual

private theorem child_false (f : Features F) (i : Nat) (depth : Nat) (negated : Bool) :
    ∀ node : Node F, NormalChild depth node → (∀ g ∈ groupsOf node, Guarded g) →
      (∀ e ∈ leavesOf negated node, e.2.enabled → e.2.Missing f i) →
      (∀ cond, node ≠ .item cond) → childAt f i node = .ok false
  | .other, h, _, _, _ => h.elim
  | .nullGroup _, h, _, _, _ => h.elim
  | .item cond, _, _, _, hne => absurd rfl (hne cond)
  | .group keys conditions, h, hg, hm, _ => by
    rw [NormalChild] at h
    obtain ⟨-, ⟨name, rfl, hlogic, hnot⟩, hchildren⟩ := h
    rw [groupsOf, List.forall_mem_cons] at hg
    rw [leavesOf_logic hlogic] at hm
    exact guardedGroup_false hlogic hnot hg.1 (items_of_leaves hchildren hm)
      (children_false f i (depth + 1) _ conditions hchildren hg.2 hm)

private theorem children_false (f : Features F) (i : Nat) (depth : Nat) (negated : Bool) :
    ∀ nodes : List (Node F), NormalChildren depth nodes → (∀ g ∈ groupsOfAll nodes, Guarded g) →
      (∀ e ∈ leavesOfAll negated nodes, e.2.enabled → e.2.Missing f i) →
      ∀ child ∈ nodes, (∀ cond, child ≠ .item cond) → childAt f i child = .ok false
  | [], _, _, _ => fun child hc => absurd hc List.not_mem_nil
  | child :: rest, h, hg, hm => by
    rw [NormalChildren] at h
    rw [groupsOfAll, List.forall_mem_append] at hg
    rw [leavesOfAll, List.forall_mem_append] at hm
    rw [List.forall_mem_cons]
    exact ⟨child_false f i depth negated child h.1 hg.1 hm.1,
      children_false f i depth negated rest h.2 hg.2 hm.2⟩

end

theorem guarded_false {depth : Nat} {g : Node F} (h : NormalGroup depth g)
    (hg : ∀ g' ∈ groupsOf g, Guarded g') {f : Features F} {i : Nat}
    (hm : ∀ e ∈ leaves g, e.2.enabled → e.2.Missing f i) : groupAt f i g = .ok false := by
  cases g with
  | group keys conditions =>
    obtain ⟨⟨name, rfl, hlogic, hnot⟩, hchildren⟩ := h
    rw [groupsOf, List.forall_mem_cons] at hg
    rw [leaves_logic hlogic] at hm
    exact guardedGroup_false hlogic hnot hg.1 (items_of_leaves hchildren hm)
      (children_false f i depth _ conditions hchildren hg.2 hm)
  | _ => exact h.elim

end

/-! Disabling a condition of a guarded rule deletes it. -/

section
variable {F : Type} [Floats F]

section
variable {f : Features F} {i : Int}

private theorem outcomesAt_disabled {child : Node F} (h : child.enabled = false)
    (before after : List (Node F)) :
    outcomesAt f i (before ++ child :: after) = outcomesAt f i (before ++ after) := by
  induction before with
  | nil => rw [List.nil_append, List.nil_append, outcomesAt, if_neg (by rw [h]; exact Bool.false_ne_true)]
  | cons c rest ih => rw [List.cons_append, List.cons_append, outcomesAt, outcomesAt, ih]

private theorem outcomesAt_congr_at {c d : Node F} (he : c.enabled = d.enabled)
    (h : childAt f i c = childAt f i d) (before after : List (Node F)) :
    outcomesAt f i (before ++ c :: after) = outcomesAt f i (before ++ d :: after) := by
  induction before with
  | nil => rw [List.nil_append, List.nil_append, outcomesAt, outcomesAt, he, h]
  | cons b rest ih => rw [List.cons_append, List.cons_append, outcomesAt, outcomesAt, ih]

private theorem negatedHead_congr_at {c d : Node F} (h : childAt f i c = childAt f i d)
    (before after : List (Node F)) :
    negatedHead f i (before ++ c :: after) = negatedHead f i (before ++ d :: after) := by
  cases before with
  | nil => rw [List.nil_append, List.nil_append, negatedHead, negatedHead, h]
  | cons b rest => rw [List.cons_append, List.cons_append, negatedHead, negatedHead]

private theorem childAt_group_congr {keys : Keys F} {a b : List (Node F)}
    (hnot : keys.operator = some "NOT" → negatedHead f i a = negatedHead f i b)
    (hall : keys.operator ≠ some "NOT" → outcomesAt f i a = outcomesAt f i b) :
    childAt f i (.group keys a) = childAt f i (.group keys b) := by
  rw [childAt, childAt]
  cases hop : keys.operator with
  | none => rfl
  | some name =>
    simp only [required, bind, Except.bind]
    by_cases hn : name = "NOT"
    · rw [if_pos hn, if_pos hn, hnot (by rw [hop, hn])]
    · rw [if_neg hn, if_neg hn, hall (by rw [hop]; exact fun h => hn (Option.some.inj h))]

end

omit [Floats F] in
private theorem Disables.enabled {node disabled deleted : Node F} (h : Disables node disabled deleted) :
    disabled.enabled = deleted.enabled := by
  cases h with
  | here => rfl
  | inside => rfl

theorem guarded_disabled (f : Features F) (i : Nat) {node disabled deleted : Node F}
    (h : Disables node disabled deleted) :
    ∀ depth, NormalGroup depth node → (∀ g ∈ groupsOf node, Guarded g) →
      childAt f i disabled = childAt f i deleted := by
  induction h with
  | here keys cond before after =>
    rintro depth ⟨⟨name, rfl, -, hlen⟩, hchildren⟩ hg
    apply childAt_group_congr
    · intro hnot
      have hone := hlen (Option.some.inj hnot)
      obtain ⟨rfl, rfl⟩ : before = [] ∧ after = [] := by
        rw [List.length_append, List.length_cons] at hone
        exact ⟨List.length_eq_zero_iff.mp (by omega), List.length_eq_zero_iff.mp (by omega)⟩
      rw [groupsOf, List.forall_mem_cons] at hg
      obtain ⟨cond', hc, ha⟩ := hg.1.1 hnot _ List.mem_cons_self
      obtain rfl := Node.item.inj hc
      have hn : NormalItem cond := normalChild_of_mem hchildren _ List.mem_cons_self
      have htrue : childAt f i (.item { cond with enabled := false }) = conditionAt cond f i := by
        rw [childAt]
        rfl
      rw [List.nil_append, List.nil_append, negatedHead, negatedHead, htrue,
        conditionAt_alwaysTrue hn ha f i]
      rfl
    · intro _
      exact outcomesAt_disabled rfl before after
  | inside keys before after hchild ih =>
    rename_i child disabled deleted
    rintro depth ⟨-, hchildren⟩ hg
    have hmem : child ∈ before ++ child :: after := List.mem_append_right _ List.mem_cons_self
    have hgroup : NormalGroup (depth + 1) child := by
      refine normalGroup_of_child (normalChild_of_mem hchildren _ hmem) fun cond he => ?_
      rw [he] at hchild
      cases hchild
    rw [groupsOf, List.forall_mem_cons] at hg
    have hsame := ih (depth + 1) hgroup fun g hgm => hg.2 g (groupsOf_subset hmem hgm)
    exact childAt_group_congr (fun _ => negatedHead_congr_at hsame before after)
      (fun _ => outcomesAt_congr_at hchild.enabled hsame before after)

end

/-! A group that keeps the convention, with those inside it, is guarded. -/

section
variable {F : Type}

/-- A map in which each of the names has a column without a value. -/
def noData (names : List String) : Features F := (Dict.ofRows id names).mapValues fun _ _ => []

theorem missing_noData {cond : Keys F} {names : List String}
    (h : ∀ name ∈ cond.featureNames, name ∈ names) (i : Nat) : cond.Missing (noData names) i := by
  intro name hn
  have hfind : (names.reverse.find? fun r => decide (id r = name)).isSome := by
    rw [List.find?_isSome]
    exact ⟨name, List.mem_reverse.mpr (h name hn), by simp⟩
  obtain ⟨found, hfound⟩ := Option.isSome_iff_exists.mp hfind
  refine ⟨[], ?_, fun j _ hj => if_pos hj⟩
  rw [noData, Dict.get?_mapValues, Dict.get?_ofRows, hfound]
  rfl

variable [Floats F]

private theorem guarded_of_failSafe {depth : Nat} {g : Node F} (h : NormalGroup depth g)
    (hsafe : ∀ g' ∈ groupsOf g, FailSafe g') : Guarded g := by
  cases g with
  | group keys conditions =>
    obtain ⟨⟨name, rfl, hlogic, hnot⟩, hchildren⟩ := id h
    let names := (leaves (.group { operator := some name } conditions)).flatMap
      fun e => e.2.featureNames
    have hm : ∀ e ∈ leaves (.group { operator := some name } conditions), ∀ i,
        e.2.Missing (noData names) i :=
      fun e he => missing_noData fun n hn => List.mem_flatMap.mpr ⟨e, he, hn⟩
    have hleaf : ∀ child ∈ conditions, ∀ e ∈ leavesOf (decide (name = "NOT")) child, ∀ i,
        e.2.Missing (noData names) i := by
      rw [leaves_logic hlogic] at hm
      exact fun child hc e he => hm e (leavesOf_subset hc he)
    have hitem : ∀ cond, .item cond ∈ conditions →
        NormalItem cond ∧ ∀ i, cond.Missing (noData names) i := by
      intro cond hc
      refine ⟨normalChild_of_mem hchildren _ hc, ?_⟩
      have hmem := hleaf _ hc
      rw [leavesOf, List.forall_mem_singleton] at hmem
      exact hmem
    have hself := hsafe _ h.self_mem
    have hfalse : ∀ i : Nat,
        childAt (noData names) i (.group { operator := some name } conditions) = .ok false :=
      fun i => hself.missing (noData names) i fun e he _ => hm e he i
    -- a comparison of two literals that is read has one outcome from the second bar on
    have hliteral : ∀ cond, .item cond ∈ conditions → cond.featureNames = [] →
        childAt (noData names) (1 : Nat) (.item cond) = cond.literalOutcome := by
      intro cond hc hn
      rw [childAt]
      exact conditionAt_later (hitem cond hc).1 hn _
    refine ⟨fun hop => ?_, fun hop cond hc he hn => ?_, fun hop => ⟨fun cond hc he hn => ?_, ?_⟩⟩
    · obtain rfl := Option.some.inj hop
      obtain ⟨only, rfl⟩ := List.length_eq_one_iff.mp (hnot rfl)
      intro child hc
      obtain rfl := List.mem_singleton.mp hc
      by_cases hgroup : ∀ cond, child ≠ .item cond
      · -- a group below a `NOT` is false without data, and so the `NOT` is true
        have hn := normalGroup_of_child (normalChild_of_mem hchildren _ hc) hgroup
        have hinner : childAt (noData names) (0 : Nat) child = .ok false := by
          have hsub : groupsOf child ⊆ groupsOf (.group { operator := some "NOT" } [child]) := by
            rw [groupsOf]
            exact List.subset_cons_of_subset _ (groupsOf_subset hc)
          have hchild := (hsafe child (hsub hn.self_mem)).missing (noData names) 0 fun e he _ => ?_
          · cases child with
            | group keys conditions => exact hchild
            | _ => exact hn.elim
          · rw [hn.leaves_eq (decide ("NOT" = "NOT"))] at he
            exact hleaf child hc e he 0
        have := hinner.symm.trans ((negation_false_iff child).mp (hfalse 0))
        cases this
      · push Not at hgroup
        obtain ⟨cond, rfl⟩ := hgroup
        refine ⟨cond, rfl, alwaysTrue_of_conditionAt (hitem cond hc).1 (fun f i => ?_)
          ((hitem cond hc).2 0)⟩
        have hsame := hself.disabled _ _ (.here { operator := some "NOT" } cond [] []) f i
        have hempty : groupAt f i (.group { operator := some "NOT" } ([] ++ [])) = .ok false := by
          rfl
        rw [hempty] at hsame
        have := (negation_false_iff (f := f) (i := i) _).mp hsame
        rw [childAt] at this
        exact this
    · obtain rfl := Option.some.inj hop
      rw [← hliteral cond hc hn]
      exact (disjunction_false_iff conditions).mp (hfalse 1) _ hc he
    · obtain rfl := Option.some.inj hop
      rw [← hliteral cond hc hn]
      exact ((conjunction_false_iff conditions).mp (hfalse 1)).1 _ hc he
    · obtain rfl := Option.some.inj hop
      intro hany
      obtain ⟨child, hc, he, hb⟩ := ((conjunction_false_iff conditions).mp (hfalse 1)).2 hany
      refine ⟨child, hc, he, ?_⟩
      rintro cond rfl hn
      rw [← hliteral cond hc hn]
      exact hb
  | _ => exact h.elim

/-- A rule and the groups inside it keep the convention exactly where they are guarded. -/
theorem failSafe_iff {rule node : Node F} (h : normalizeRule rule = .ok node) :
    (∀ g ∈ groupsOf node, FailSafe g) ↔ ∀ g ∈ groupsOf node, Guarded g := by
  have hnormal := normalizeRule_normal h
  constructor
  · intro hsafe g hg
    obtain ⟨depth, hn, hsub⟩ := groupsOf_rule hnormal g hg
    exact guarded_of_failSafe hn fun g' hg' => hsafe g' (hsub hg')
  · intro hguarded g hg
    obtain ⟨depth, hn, hsub⟩ := groupsOf_rule hnormal g hg
    have hinner : ∀ g' ∈ groupsOf g, Guarded g' := fun g' hg' => hguarded g' (hsub hg')
    refine ⟨fun hoff f i => ?_, fun disabled deleted hd f i => ?_, fun f i hm => ?_⟩
    · refine guarded_false hn hinner fun e he hon => ?_
      rw [hoff e he] at hon
      cases hon
    · have hsame := guarded_disabled f i hd depth hn hinner
      cases hd <;> exact hsame
    · exact guarded_false hn hinner fun e he hon => hm e he (live_of_enabled e he hon)

end

/-- A half-built conjunction, with a negated comparison of two literals. -/
def halfBuilt : Node ℚ :=
  .group { operator := some "AND" }
    [.item { operator := some ">", leftKind := some "feature", left := some (.plain (.str "close")),
             rightKind := some "literal", right := some (.plain (.num 100)), bars := some .null
             enabled := false },
     .group { operator := some "NOT" }
       [.item { operator := some ">", leftKind := some "literal", left := some (.plain (.num 2)),
                rightKind := some "literal", right := some (.plain (.num 1)), bars := some .null }]]

theorem halfBuilt_failSafe : FailSafe halfBuilt := by
  have hnormal : normalizeRule halfBuilt = .ok halfBuilt := by rfl
  refine (failSafe_iff hnormal).mpr ?_ halfBuilt List.mem_cons_self
  change ∀ g ∈ [halfBuilt, .group { operator := some "NOT" } _], _
  rw [List.forall_mem_cons, List.forall_mem_singleton]
  refine ⟨⟨fun h => ?_, fun h => ?_, fun _ => ⟨fun cond hc he => ?_, fun _ => ?_⟩⟩,
    ⟨fun _ child hc => ?_, fun h => ?_, fun h => ?_⟩⟩
  · exact absurd (Option.some.inj h) (by decide)
  · exact absurd (Option.some.inj h) (by decide)
  · rcases List.mem_cons.mp hc with h | h
    · rw [Node.item.inj h] at he
      cases he
    · cases List.mem_singleton.mp h
  · refine ⟨_, List.mem_cons_of_mem _ List.mem_cons_self, rfl, fun cond h => ?_⟩
    cases h
  · obtain rfl := List.mem_singleton.mp hc
    refine ⟨_, rfl, rfl, ?_, ?_⟩
    · change Except.ok (decide ((1 : ℚ) < 2)) = _
      norm_num
    · rintro op ⟨⟩
      decide
  · exact absurd (Option.some.inj h) (by decide)
  · exact absurd (Option.some.inj h) (by decide)

def negatedClose : Node ℚ :=
  .group { operator := some "NOT" }
    [.item { operator := some ">", leftKind := some "feature", left := some (.plain (.str "close")),
             rightKind := some "literal", right := some (.plain (.num 100)), bars := some .null }]

/-- It holds on every bar of a column without values. -/
theorem negatedClose_not_failSafe : normalizeRule negatedClose = .ok negatedClose ∧
    ¬ FailSafe negatedClose := by
  refine ⟨by rfl, fun h => ?_⟩
  have := h.missing (noData ["close"]) 0 fun e he _ => ?_
  · revert this
    decide
  · obtain rfl := List.mem_singleton.mp he
    exact missing_noData (fun name hn => hn) 0

end Droid.Research
