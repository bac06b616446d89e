import Droid.Validation.WalkForward

/-! The walk-forward gate leaks nothing from after a decision into it, and accounts for every candidate. -/
namespace Droid.Validation
open Lib
open Outcomes (Direction)

/-! ### What is stated -/

namespace Disposition

def record? : Disposition → Option Record
  | .recorded record => some record
  | _ => none

def unsettleable? : Disposition → Option String
  | .unsettleable reason => some reason
  | _ => none

def dropped? : Disposition → Option DropReason
  | .dropped reason => some reason
  | _ => none

end Disposition

/-- Parameters that the checks of a run admit. -/
structure Params.Admissible (params : Params) (n1h hCandles : Nat) : Prop where
  folds : 5 ≤ params.folds
  warmup : 1 ≤ params.warmup
  stride : 1 ≤ params.stride
  purge : 0 ≤ params.purgeBars
  embargo : 0 ≤ params.embargoDays
  candles : params.warmup + params.folds + hCandles ≤ n1h
  candidates : params.folds ≤ (params.candidates n1h hCandles).length

/-- What is decided at a bar. -/
def Gate.decisionAt (gate : Gate) (instrument : String) (candles : List HourlyCandle) (t : Nat) : Option Decided :=
  (candles[t]?).map (gate.decideAt instrument (candles.take (t + 1)))

/-- A bar's decision depends on the candles up to it, and its record on that decision and the forward
candles. -/
structure PointInTime (gate : Gate) (instrument : String) (candles : List HourlyCandle) (fold t : Nat) : Prop where
  decision : ∀ other : List HourlyCandle, other.take (t + 1) = candles.take (t + 1) →
    gate.decisionAt instrument other t = gate.decisionAt instrument candles t
  disposition : ∀ other : List HourlyCandle,
    other.take (t + 1 + gate.hCandles) = candles.take (t + 1 + gate.hCandles) →
      gate.dispose instrument other fold t = gate.dispose instrument candles fold t
  recorded : ∀ record, gate.dispose instrument candles fold t = .recorded record →
    ∃ decision outcome, gate.decisionAt instrument candles t = some (.made decision) ∧
      evaluateForwardCandles decision.prediction.direction decision.currPrice
        ((candles.drop (t + 1)).take gate.hCandles) = some outcome ∧
      record = decision.record fold t outcome

/-- A fold trains clear of its test block, and counts each bar of it once: as a record, as unsettleable,
or as dropped for one of the failures of a complete window. -/
structure FoldSound (gate : Gate) (params : Params) (candles : List HourlyCandle) (fold : FoldReport) : Prop where
  nonempty : fold.testIndices ≠ []
  gap : ∀ c ∈ fold.trainIndices, ∀ t ∈ fold.testIndices, c + params.gapBars < t
  window : gate.hCandles ≤ params.purgeBars → ∀ c ∈ fold.trainIndices, ∀ t ∈ fold.testIndices,
    c + gate.hCandles < t
  pointInTime : ∀ t ∈ fold.testIndices, PointInTime gate params.instrument candles fold.fold t
  sample : fold.sample = fold.testIndices.filterMap fun t =>
    (gate.dispose params.instrument candles fold.fold t).record?
  unsettleable : fold.nUnsettleable = (fold.testIndices.filterMap fun t =>
    (gate.dispose params.instrument candles fold.fold t).unsettleable?).length
  dropped : ∀ t ∈ fold.testIndices,
    gate.dispose params.instrument candles fold.fold t ≠ .dropped .shortForward
  counted : fold.sample.length + fold.nUnsettleable + (fold.testIndices.filterMap fun t =>
    (gate.dispose params.instrument candles fold.fold t).dropped?).length = fold.testIndices.length
  metrics : fold.metrics = summarizeRecords fold.sample

/-- A grouping takes the pooled sample apart by a key. -/
structure Grouping (key : Record → String) (pooled : List Record) (metrics : List (String × Metrics)) : Prop where
  metrics : metrics = summarizeGroups (groupRecords key pooled)
  union : ((groupRecords key pooled).map Prod.snd).flatten.Perm pooled
  apart : ((groupRecords key pooled).map Prod.fst).Nodup
  samples : ∀ group ∈ groupRecords key pooled, group.2 = pooled.filter fun r => groupName (key r) = group.1

/-- What the gate promises of a report. -/
structure Accounts (gate : Gate) (params : Params) (candles : List HourlyCandle) (report : Report) : Prop where
  blocks : (report.folds.map (·.testIndices)).flatten = params.candidates candles.length gate.hCandles
  ordered : (params.candidates candles.length gate.hCandles).Pairwise (· < ·)
  folds : ∀ fold ∈ report.folds, FoldSound gate params candles fold
  purge : report.purgeRespected = true
  total : report.totalCandidates = (params.candidates candles.length gate.hCandles).length
  settleable : report.nSettleable = report.pooledSample.length
  unsettleable : report.nUnsettleable = (report.folds.map (·.nUnsettleable)).sum
  reasons : ∀ reason, (report.unsettleableReasons.get? reason).getD 0 =
    (report.folds.map fun fold => (fold.testIndices.filterMap fun t =>
      (gate.dispose params.instrument candles fold.fold t).unsettleable?).count reason).sum
  pooledSample : report.pooledSample = (report.folds.map (·.sample)).flatten
  pooled : report.pooled = summarizeRecords report.pooledSample
  byInstrument : report.byInstrument = [(params.instrument, report.pooled)]
  byRegime : Grouping (·.regime) report.pooledSample report.byRegime
  bySession : Grouping (·.session) report.pooledSample report.bySession
  byDirection : Grouping (·.direction) report.pooledSample report.byDirection

/-! ### The split -/

theorem wfSplitFrom_flatten (idxs : List Nat) (base rem f pos left : Nat) :
    (wfSplitFrom idxs base rem f pos left).flatten =
      (idxs.drop pos).take (left * base + (min rem (f + left) - min rem f)) := by
  induction left generalizing f pos with
  | zero => simp [wfSplitFrom]
  | succ left ih =>
    have hsize : (left + 1) * base + (min rem (f + (left + 1)) - min rem f) =
        (base + if f < rem then 1 else 0) + (left * base + (min rem (f + 1 + left) - min rem (f + 1))) := by
      rw [Nat.add_mul]
      split <;> omega
    have hjoin : ∀ a b, (idxs.drop pos).take a ++ (idxs.drop (pos + a)).take b = (idxs.drop pos).take (a + b) := by
      intro a b
      rw [List.take_add, List.drop_drop]
    rw [wfSplitFrom, List.flatten_cons, ih, hsize]
    exact hjoin _ _

theorem wfSplitSequential_flatten (idxs : List Nat) {folds : Nat} (hpos : 0 < folds) :
    (wfSplitSequential idxs folds).flatten = idxs := by
  have hrem : idxs.length % folds < folds := Nat.mod_lt _ hpos
  have hdiv := Nat.div_add_mod idxs.length folds
  rw [wfSplitSequential, wfSplitFrom_flatten, List.drop_zero]
  refine List.take_of_length_le ?_
  have hall : folds * (idxs.length / folds) +
      (min (idxs.length % folds) (0 + folds) - min (idxs.length % folds) 0) = idxs.length := by omega
  exact hall.ge

theorem wfSplitFrom_ne_nil {idxs : List Nat} {base rem : Nat} (hbase : 0 < base) {f pos left : Nat}
    (hfits : pos + left * base ≤ idxs.length) (hrem : pos + left * base + (min rem (f + left) - min rem f) =
      idxs.length) : ∀ block ∈ wfSplitFrom idxs base rem f pos left, block ≠ [] := by
  induction left generalizing f pos with
  | zero => exact List.forall_mem_nil _
  | succ left ih =>
    rw [Nat.add_mul] at hfits hrem
    rw [wfSplitFrom, List.forall_mem_cons]
    constructor
    · refine List.ne_nil_of_length_pos ?_
      rw [List.length_take, List.length_drop]
      omega
    · refine ih ?_ ?_
      · split <;> omega
      · split <;> omega

theorem wfSplitSequential_ne_nil {idxs : List Nat} {folds : Nat} (hpos : 0 < folds)
    (hle : folds ≤ idxs.length) : ∀ block ∈ wfSplitSequential idxs folds, block ≠ [] := by
  have hrem : idxs.length % folds < folds := Nat.mod_lt _ hpos
  have hdiv := Nat.div_add_mod idxs.length folds
  refine wfSplitFrom_ne_nil (Nat.div_pos hle hpos) ?_ ?_
  · omega
  · omega

/-! ### The candidates -/

theorem mem_candidateRange {start stop stride t : Nat} (h : t ∈ candidateRange start stop stride) :
    start ≤ t ∧ t < stop := by
  obtain ⟨k, hk, rfl⟩ := List.mem_map.mp h
  have hk' := List.mem_range.mp hk
  rcases Nat.eq_zero_or_pos stride with rfl | hstride
  · rw [Nat.div_zero] at hk'
    omega
  · have hfit := (Nat.le_div_iff_mul_le hstride).mp (Nat.succ_le_of_lt hk')
    rw [Nat.succ_mul] at hfit
    omega

theorem candidateRange_sorted (start stop : Nat) {stride : Nat} (hstride : 0 < stride) :
    (candidateRange start stop stride).Pairwise (· < ·) := by
  rw [candidateRange, List.pairwise_map]
  exact List.pairwise_lt_range.imp fun hab => Nat.add_lt_add_left (Nat.mul_lt_mul_of_pos_right hab hstride) _

theorem Params.Admissible.check {params : Params} {n1h hCandles : Nat} (h : params.Admissible n1h hCandles) :
    params.check n1h hCandles = .ok () := by
  rw [Params.check, if_neg h.folds.not_gt, if_neg h.warmup.not_gt, if_neg h.stride.not_gt,
    if_neg h.purge.not_gt, if_neg h.embargo.not_gt, if_neg h.candles.not_gt, if_neg h.candidates.not_gt]
  rfl

/-! ### Counters -/

section Counters
open Disposition

/-- What a list of dispositions adds to the counters. -/
theorem foldl_count (ds : List Disposition) (counters : Counters) :
    (ds.foldl Counters.count counters).records = counters.records ++ ds.filterMap record? ∧
      (ds.foldl Counters.count counters).nUnsettleable =
        counters.nUnsettleable + (ds.filterMap unsettleable?).length ∧
      ∀ reason, ((ds.foldl Counters.count counters).unsettleableReasons.get? reason).getD 0 =
        (counters.unsettleableReasons.get? reason).getD 0 + (ds.filterMap unsettleable?).count reason := by
  induction ds generalizing counters with
  | nil => exact ⟨(List.append_nil _).symm, rfl, fun _ => rfl⟩
  | cons d ds ih =>
    obtain ⟨hrecords, hnumber, hreasons⟩ := ih (counters.count d)
    rw [List.foldl_cons]
    refine ⟨hrecords.trans ?_, hnumber.trans ?_, fun reason => (hreasons reason).trans ?_⟩
    · cases d with
      | recorded record => exact List.append_assoc _ _ _
      | unsettleable why => rfl
      | dropped why => rfl
    · cases d with
      | recorded record => rfl
      | unsettleable why => exact (Nat.add_assoc _ _ _).trans (congrArg _ (Nat.add_comm _ _))
      | dropped why => rfl
    · cases d with
      | recorded record => rfl
      | dropped why => rfl
      | unsettleable why =>
        have hcons : (Disposition.unsettleable why :: ds).filterMap unsettleable? =
            why :: ds.filterMap unsettleable? := rfl
        rw [hcons, List.count_cons, Counters.count, Dict.get?_insert]
        by_cases hsame : reason = why
        · subst hsame
          simp only [if_true, Option.getD_some, beq_self_eq_true]
          omega
        · simp [hsame, Ne.symm hsame]

theorem dispositions_length (ds : List Disposition) :
    (ds.filterMap record?).length + (ds.filterMap unsettleable?).length + (ds.filterMap dropped?).length =
      ds.length := by
  induction ds with
  | nil => rfl
  | cons d ds ih =>
    rw [List.filterMap_cons, List.filterMap_cons, List.filterMap_cons, List.length_cons, ← ih]
    cases d with
    | recorded record =>
      simp only [record?, unsettleable?, dropped?, List.length_cons]
      omega
    | unsettleable why =>
      simp only [record?, unsettleable?, dropped?, List.length_cons]
      omega
    | dropped why =>
      simp only [record?, unsettleable?, dropped?, List.length_cons]
      omega

end Counters

/-! ### Groupings -/

theorem flatten_put (k : String) (r : Record) (es : List (String × List Record)) :
    ((Dict.put k (((es.lookup k).getD []) ++ [r]) es).map Prod.snd).flatten.Perm
      ((es.map Prod.snd).flatten ++ [r]) := by
  induction es with
  | nil => exact List.Perm.refl _
  | cons e es ih =>
    obtain ⟨name, sample⟩ := e
    rw [Dict.put]
    by_cases hname : name = k
    · subst hname
      rw [if_pos rfl, List.lookup_cons_self]
      simp only [Option.getD_some, List.map_cons, List.flatten_cons, List.append_assoc]
      exact List.perm_append_comm.append_left sample
    · have hother : (k == name) = false := beq_eq_false_iff_ne.mpr (Ne.symm hname)
      rw [if_neg hname, List.lookup_cons, hother]
      simp only [List.map_cons, List.flatten_cons, List.append_assoc]
      exact ih.append_left sample

theorem foldl_addToGroup_perm (key : Record → String) (records : List Record)
    (groups : Dict String (List Record)) :
    ((records.foldl (addToGroup key) groups).entries.map Prod.snd).flatten.Perm
      ((groups.entries.map Prod.snd).flatten ++ records) := by
  induction records generalizing groups with
  | nil =>
    rw [List.append_nil]
    exact List.Perm.refl _
  | cons r records ih =>
    rw [List.foldl_cons]
    have hadd := flatten_put (groupName (key r)) r groups.entries
    have hrest := hadd.append_right records
    rw [List.append_assoc] at hrest
    exact (ih (addToGroup key groups r)).trans hrest

theorem foldl_addToGroup_get? (key : Record → String) (records : List Record)
    (groups : Dict String (List Record)) (name : String) :
    ((records.foldl (addToGroup key) groups).get? name).getD [] =
      (groups.get? name).getD [] ++ records.filter fun r => groupName (key r) = name := by
  induction records generalizing groups with
  | nil => exact (List.append_nil _).symm
  | cons r records ih =>
    rw [List.foldl_cons, ih, addToGroup, Dict.get?_insert, List.filter_cons]
    by_cases hname : name = groupName (key r)
    · subst hname
      simp
    · simp [hname, Ne.symm hname]

theorem grouping (key : Record → String) (pooled : List Record) :
    Grouping key pooled (summarizeGroups (groupRecords key pooled)) := by
  have hsorted := List.mergeSort_perm (pooled.foldl (addToGroup key) Dict.empty).entries
    fun a b => decide (a.1 ≤ b.1)
  refine { metrics := rfl, union := ?_, apart := ?_, samples := ?_ }
  · exact ((hsorted.map Prod.snd).flatten).trans (foldl_addToGroup_perm key pooled Dict.empty)
  · exact (hsorted.map Prod.fst).nodup_iff.mpr (pooled.foldl (addToGroup key) Dict.empty).nodup
  · intro group hgroup
    have hget := (Dict.mem_entries_iff _ group.1 group.2).mp (hsorted.mem_iff.mp hgroup)
    have hsample := foldl_addToGroup_get? key pooled Dict.empty group.1
    rw [hget] at hsample
    exact hsample

/-! ### Decisions -/

theorem getElem?_of_take {t : Nat} {other candles : List HourlyCandle}
    (h : other.take (t + 1) = candles.take (t + 1)) : other[t]? = candles[t]? := by
  have hget := congrArg (·[t]?) h
  simpa only [List.getElem?_take, if_pos (Nat.lt_succ_self t)] using hget

theorem Gate.pointInTime (gate : Gate) (instrument : String) (candles : List HourlyCandle) (fold t : Nat) :
    PointInTime gate instrument candles fold t := by
  refine { decision := ?_, disposition := ?_, recorded := ?_ }
  · intro other hpast
    rw [Gate.decisionAt, Gate.decisionAt, getElem?_of_take hpast, hpast]
  · intro other hwindow
    have hpast : other.take (t + 1) = candles.take (t + 1) := by
      have htake := congrArg (List.take (t + 1)) hwindow
      simpa only [List.take_take, Nat.min_eq_left (Nat.le_add_right (t + 1) gate.hCandles)] using htake
    have hforward : (other.drop (t + 1)).take gate.hCandles = (candles.drop (t + 1)).take gate.hCandles := by
      rw [List.take_drop, List.take_drop, hwindow]
    simp only [Gate.dispose, hpast, getElem?_of_take hpast, hforward]
  · intro record hrecord
    simp only [Gate.dispose] at hrecord
    split at hrecord
    · cases hrecord
    cases hdec : candles[t]? with
    | none =>
      rw [hdec] at hrecord
      cases hrecord
    | some dec =>
      rw [hdec] at hrecord
      simp only at hrecord
      split at hrecord
      · cases hrecord
      · cases hrecord
      · rename_i decision hdecided
        split at hrecord
        · cases hrecord
        · rename_i outcome houtcome
          cases hrecord
          refine ⟨decision, outcome, ?_, houtcome, rfl⟩
          rw [Gate.decisionAt, hdec, Option.map_some, hdecided]

theorem Gate.predict_ne_shortForward (gate : Gate) (past : List HourlyCandle) :
    gate.predict past ≠ .error .shortForward := by
  rw [Gate.predict]
  split
  · exact nofun
  · split <;> exact nofun

theorem Gate.decideAt_ne_shortForward (gate : Gate) (instrument : String) (past : List HourlyCandle)
    (dec : HourlyCandle) : gate.decideAt instrument past dec ≠ .dropped .shortForward := by
  rw [Gate.decideAt]
  split
  · exact nofun
  · split
    · rename_i reason hfailed
      rintro hreason
      cases hreason
      exact gate.predict_ne_shortForward past hfailed
    · split <;> exact nofun

/-- The window of a bar that has its forward candles is complete. -/
theorem Gate.dispose_ne_shortForward (gate : Gate) (instrument : String) {candles : List HourlyCandle}
    (fold : Nat) {t : Nat} (ht : t + gate.hCandles < candles.length) :
    gate.dispose instrument candles fold t ≠ .dropped .shortForward := by
  have hlength : ((candles.drop (t + 1)).take gate.hCandles).length = gate.hCandles := by
    rw [List.length_take, List.length_drop]
    omega
  have hdec : candles[t]? = some candles[t] := List.getElem?_eq_getElem (by omega)
  simp only [Gate.dispose, hlength, if_neg (Nat.lt_irrefl gate.hCandles), hdec]
  split
  · exact nofun
  · rename_i reason hdropped
    rintro hreason
    cases hreason
    exact gate.decideAt_ne_shortForward _ _ _ hdropped
  · split <;> exact nofun

/-! ### Folds -/

section Folds
variable (gate : Gate) (params : Params) (candles : List HourlyCandle) (candidates : List Nat)

/-- The report of a block of the split. -/
def Gate.reportOf (chunk : List Nat × Nat) : FoldReport :=
  gate.foldReport params candles candidates chunk (chunk.1.min?.getD 0) (chunk.1.max?.getD 0)

theorem Gate.foldl_runFold {chunks : List (List Nat × Nat)} (hne : ∀ chunk ∈ chunks, chunk.1 ≠ [])
    (acc : List FoldReport × Counters) :
    chunks.foldl (gate.runFold params candles candidates) acc =
      (acc.1 ++ chunks.map (gate.reportOf params candles candidates),
        (chunks.flatMap (gate.dispositions params candles)).foldl Counters.count acc.2) := by
  induction chunks generalizing acc with
  | nil => simp
  | cons chunk chunks ih =>
    obtain ⟨hchunk, hrest⟩ := List.forall_mem_cons.mp hne
    have hmin := Option.isSome_iff_exists.mp (List.isSome_min?_of_ne_nil hchunk)
    have hmax := Option.isSome_iff_exists.mp (List.isSome_max?_of_ne_nil hchunk)
    obtain ⟨testStart, hstart⟩ := hmin
    obtain ⟨testEnd, hend⟩ := hmax
    have hfold : gate.runFold params candles candidates acc chunk =
        (acc.1 ++ [gate.reportOf params candles candidates chunk],
          (gate.dispositions params candles chunk).foldl Counters.count acc.2) := by
      simp only [Gate.runFold, Gate.reportOf, hstart, hend, Option.getD_some]
    rw [List.foldl_cons, hfold, ih hrest, List.map_cons, List.flatMap_cons, List.foldl_append,
      List.append_assoc]
    rfl

variable {params candidates}

/-- Training ends more than the gap before the first bar of the test block. -/
theorem Gate.trainIndices_gap {chunk : List Nat × Nat} {c t : Nat}
    (hc : c ∈ (gate.reportOf params candles candidates chunk).trainIndices) (ht : t ∈ chunk.1) :
    c + params.gapBars < t := by
  obtain ⟨testStart, hstart⟩ := Option.isSome_iff_exists.mp
    (List.isSome_min?_of_ne_nil (List.ne_nil_of_mem ht))
  have hle := (List.min?_eq_some_iff.mp hstart).2 t ht
  have htrain : c ∈ Gate.trainIndices params candidates (chunk.1.min?.getD 0) := hc
  rw [hstart, Gate.trainIndices, List.mem_filter] at htrain
  have hbefore := of_decide_eq_true htrain.2
  simp only [Option.getD_some] at hbefore
  omega

theorem Gate.reportOf_respectsPurge (hpurge : 0 ≤ params.purgeBars) (chunk : List Nat × Nat) :
    Gate.foldRespectsPurge params (gate.reportOf params candles candidates chunk) = true := by
  rw [Gate.foldRespectsPurge]
  split
  · rename_i trainMax testMin hmax hmin
    have hgap := gate.trainIndices_gap candles (List.max?_eq_some_iff.mp hmax).1
      (List.min?_eq_some_iff.mp hmin).1
    have hapart : ∀ c ∈ (gate.reportOf params candles candidates chunk).trainIndices,
        c ∉ (gate.reportOf params candles candidates chunk).testIndices := by
      intro c hc htest
      have hself := gate.trainIndices_gap candles hc htest
      omega
    rw [Bool.and_eq_true, List.all_eq_true, decide_eq_true_iff]
    refine ⟨fun c hc => decide_eq_true (hapart c hc), ?_⟩
    rw [Params.gapBars] at hgap
    omega
  · rfl

theorem Gate.reportOf_sound {chunk : List Nat × Nat} (hne : chunk.1 ≠ [])
    (hcomplete : ∀ t ∈ chunk.1, t + gate.hCandles < candles.length) :
    FoldSound gate params candles (gate.reportOf params candles candidates chunk) := by
  obtain ⟨hrecords, hnumber, -⟩ := foldl_count (gate.dispositions params candles chunk) { }
  have hsample : (gate.reportOf params candles candidates chunk).sample =
      chunk.1.filterMap fun t => (gate.dispose params.instrument candles chunk.2 t).record? := by
    refine hrecords.trans ?_
    rw [Gate.dispositions, List.filterMap_map]
    rfl
  have hunsettleable : (gate.reportOf params candles candidates chunk).nUnsettleable =
      (chunk.1.filterMap fun t =>
        (gate.dispose params.instrument candles chunk.2 t).unsettleable?).length := by
    refine hnumber.trans ?_
    rw [Gate.dispositions, List.filterMap_map, Nat.zero_add]
    rfl
  refine
    { nonempty := hne
      gap := fun c hc t ht => gate.trainIndices_gap candles hc ht
      window := ?_
      pointInTime := fun t _ => gate.pointInTime params.instrument candles chunk.2 t
      sample := hsample
      unsettleable := hunsettleable
      dropped := fun t ht => gate.dispose_ne_shortForward params.instrument chunk.2 (hcomplete t ht)
      counted := ?_
      metrics := rfl }
  · intro hwindow c hc t ht
    have hgap := gate.trainIndices_gap candles hc ht
    rw [Params.gapBars] at hgap
    omega
  · have hall := dispositions_length (gate.dispositions params candles chunk)
    rw [Gate.dispositions, List.filterMap_map, List.filterMap_map, List.filterMap_map,
      List.length_map] at hall
    rw [hsample, hunsettleable]
    exact hall

end Folds

/-! ### Runs -/

/-- The blocks of a run, with their numbers. -/
def Params.blocks (params : Params) (candidates : List Nat) : List (List Nat × Nat) :=
  (wfSplitSequential candidates params.folds.toNat).zipIdx

section Blocks
variable {params : Params} {n1h hCandles : Nat} (h : params.Admissible n1h hCandles)
include h

theorem Params.Admissible.blocks_flatten :
    ((params.blocks (params.candidates n1h hCandles)).map Prod.fst).flatten = params.candidates n1h hCandles := by
  have hfolds := h.folds
  rw [Params.blocks, List.zipIdx_map_fst]
  exact wfSplitSequential_flatten _ (by omega)

theorem Params.Admissible.blocks_ne_nil :
    ∀ block ∈ params.blocks (params.candidates n1h hCandles), block.1 ≠ [] := by
  intro block hblock
  have hfolds := h.folds
  have hcovered := h.candidates
  have hmem : block.1 ∈ wfSplitSequential (params.candidates n1h hCandles) params.folds.toNat :=
    List.fst_mem_of_mem_zipIdx hblock
  exact wfSplitSequential_ne_nil (by omega) (by omega) block.1 hmem

theorem Params.Admissible.blocks_complete {block : List Nat × Nat}
    (hblock : block ∈ params.blocks (params.candidates n1h hCandles)) {t : Nat} (ht : t ∈ block.1) :
    t + hCandles < n1h := by
  have hmem : t ∈ params.candidates n1h hCandles := by
    rw [← h.blocks_flatten]
    exact List.mem_flatten.mpr ⟨block.1, List.mem_map_of_mem hblock, ht⟩
  have hlt := (mem_candidateRange hmem).2
  omega

end Blocks

/-- The counters of a run, over the dispositions of all its blocks. -/
def Gate.countersOf (gate : Gate) (params : Params) (candles : List HourlyCandle) : Counters :=
  ((params.blocks (params.candidates candles.length gate.hCandles)).flatMap
    (gate.dispositions params candles)).foldl Counters.count { }

theorem Gate.runWalkforward_ok (gate : Gate) {params : Params} {candles : List HourlyCandle}
    (h : params.Admissible candles.length gate.hCandles) :
    gate.runWalkforward params candles = .ok (Gate.report params
      (params.candidates candles.length gate.hCandles)
      ((params.blocks (params.candidates candles.length gate.hCandles)).map
        (gate.reportOf params candles (params.candidates candles.length gate.hCandles)))
      (gate.countersOf params candles)) := by
  have hrun := gate.foldl_runFold params candles (params.candidates candles.length gate.hCandles)
    h.blocks_ne_nil ([], { })
  rw [Gate.runWalkforward, h.check]
  exact congrArg (fun run => Except.ok (Gate.report params _ run.1 run.2)) hrun

/-- A run of admissible parameters succeeds, leaks nothing and accounts for every candidate. -/
theorem Gate.walkforward_accounts (gate : Gate) (params : Params) (candles : List HourlyCandle)
    (h : params.Admissible candles.length gate.hCandles) :
    ∃ report, gate.runWalkforward params candles = .ok report ∧ Accounts gate params candles report := by
  obtain ⟨hrecords, hnumber, hreasons⟩ := foldl_count
    ((params.blocks (params.candidates candles.length gate.hCandles)).flatMap
      (gate.dispositions params candles)) { }
  have hfold := fun block => foldl_count (gate.dispositions params candles block) { }
  have hstride := h.stride
  refine ⟨_, gate.runWalkforward_ok h, ?_⟩
  refine
    { blocks := ?_
      ordered := candidateRange_sorted _ _ (by omega)
      folds := ?_
      purge := ?_
      total := rfl
      settleable := rfl
      unsettleable := ?_
      reasons := ?_
      pooledSample := ?_
      pooled := rfl
      byInstrument := rfl
      byRegime := grouping _ _
      bySession := grouping _ _
      byDirection := grouping _ _ }
  · refine Eq.trans ?_ h.blocks_flatten
    simp only [Gate.report, List.map_map]
    rfl
  · intro fold hfold
    obtain ⟨block, hblock, rfl⟩ := List.mem_map.mp hfold
    exact gate.reportOf_sound candles (h.blocks_ne_nil block hblock) fun t ht => h.blocks_complete hblock ht
  · refine List.all_eq_true.mpr fun fold hfold => ?_
    obtain ⟨block, -, rfl⟩ := List.mem_map.mp hfold
    exact gate.reportOf_respectsPurge candles h.purge block
  · refine hnumber.trans ?_
    rw [Gate.report, List.map_map, List.filterMap_flatMap, List.length_flatMap, Nat.zero_add]
    refine congrArg List.sum (List.map_congr_left fun block _ => ?_)
    exact ((hfold block).2.1.trans (Nat.zero_add _)).symm
  · intro reason
    refine (hreasons reason).trans ?_
    rw [Gate.report, List.map_map, List.filterMap_flatMap, List.count_flatMap, Dict.get?_empty, Option.getD_none,
      Nat.zero_add]
    refine congrArg List.sum (List.map_congr_left fun block _ => ?_)
    rw [Function.comp_apply, Gate.dispositions, List.filterMap_map]
    rfl
  · refine hrecords.trans ?_
    rw [Gate.report, List.map_map, List.filterMap_flatMap, List.flatMap_def]
    refine congrArg List.flatten (List.map_congr_left fun block _ => ?_)
    exact (hfold block).1.symm

/-- Weekdays from 09:15 to 15:30 IST. -/
def weekdays : Outcomes.Calendar := fun day =>
  if (day + 3) % 7 < 5 then
    { isTradingDay := true
      marketOpen := some (Outcomes.minutes (1440 * day + 225))
      marketClose := some (Outcomes.minutes (1440 * day + 600)) }
  else { isTradingDay := false }

/-- The default gate, on histories of under fourteen candles. -/
def shortGate : Gate where
  calendar := weekdays
  determineMarketRegime := fun _ _ _ _ => some "RANGING"

/-- The rising hours of a Monday, past its close. -/
def mondayHours : List HourlyCandle :=
  (List.range 9).map fun k : Nat =>
    { timestamp := some (Outcomes.minutes (1440 * 4 + 225 + 60 * k))
      close := some (100 + k)
      high := some (101 + k)
      low := some (99 + k) }

theorem mondayHours_admissible : ({ warmup := 1 } : Params).Admissible mondayHours.length shortGate.hCandles where
  folds := by decide
  warmup := by decide
  stride := by decide
  purge := by decide
  embargo := by decide
  candles := by decide
  candidates := by decide

theorem mondayHours_account : ∃ report, shortGate.runWalkforward { warmup := 1 } mondayHours = .ok report ∧
    Accounts shortGate { warmup := 1 } mondayHours report :=
  shortGate.walkforward_accounts { warmup := 1 } mondayHours mondayHours_admissible

end Droid.Validation
