import Droid.Lib.Dict
import Droid.Lib.Least
import Droid.Lib.Run
import Mathlib.Data.List.Induction
import Mathlib.Order.OrderDual

/-! The point-in-time store: records with three times, the intervals of instruments, and the join as of a time. -/
namespace Droid.Ml
open Lib

structure PITRecord (α : Type) where
  symbol : String
  featureName : String
  featureValue : α
  observationTimeUtc : Int
  computedAtUtc : Int
  publishedAtUtc : Int
  featureVersion : String := "1.0"
  deriving DecidableEq, Repr

structure PITStore (α : Type) where
  records : List (PITRecord α) := []
  universeHistory : Dict String (List (Int × Int)) := .empty

namespace PITStore
variable {α : Type}

def registerInstrumentValidity (store : PITStore α) (symbol : String) (validFromUtc : Int) (validToUtc : Option Int) :
    PITStore α :=
  let known := (store.universeHistory.get? symbol).getD []
  { store with
    universeHistory := store.universeHistory.insert symbol (known ++ [(validFromUtc, validToUtc.getD 9999999999999)]) }

def isInstrumentValidAt (store : PITStore α) (symbol : String) (timestampUtc : Int) : Bool :=
  let intervals := (store.universeHistory.get? symbol).getD []
  intervals.isEmpty || intervals.any fun interval => decide (interval.1 ≤ timestampUtc ∧ timestampUtc ≤ interval.2)

def insertRecord (store : PITStore α) (record : PITRecord α) : PITStore α × Bool :=
  if record.observationTimeUtc < record.publishedAtUtc then (store, false)
  else ({ store with records := store.records ++ [record] }, true)

/-- A turn of the join. -/
def keepLatest (symbol : String) (targetTimestampUtc : Int) (latest : Dict String (Int × α)) (record : PITRecord α) :
    Dict String (Int × α) :=
  if record.symbol = symbol ∧ record.publishedAtUtc ≤ targetTimestampUtc then
    match latest.get? record.featureName with
    | none => latest.insert record.featureName (record.publishedAtUtc, record.featureValue)
    | some current =>
      if current.1 < record.publishedAtUtc then
        latest.insert record.featureName (record.publishedAtUtc, record.featureValue)
      else latest
  else latest

def asOfJoin (store : PITStore α) (symbol : String) (targetTimestampUtc : Int) : Dict String α :=
  if store.isInstrumentValidAt symbol targetTimestampUtc then
    (store.records.foldl (keepLatest symbol targetTimestampUtc) .empty).mapValues fun _ found => found.2
  else .empty

/-! ### Runs -/

inductive Call (α : Type) where
  | insertRecord (record : PITRecord α)
  | registerInstrumentValidity (symbol : String) (validFromUtc : Int) (validToUtc : Option Int)

def step (store : PITStore α) : Call α → PITStore α
  | .insertRecord record => (store.insertRecord record).1
  | .registerInstrumentValidity symbol validFromUtc validToUtc =>
    store.registerInstrumentValidity symbol validFromUtc validToUtc

def after (calls : List (Call α)) : PITStore α := run step { } calls

def Call.accepted : Call α → Option (PITRecord α)
  | .insertRecord record => if record.publishedAtUtc ≤ record.observationTimeUtc then some record else none
  | .registerInstrumentValidity .. => none

def Call.interval (symbol : String) : Call α → Option (Int × Int)
  | .insertRecord _ => none
  | .registerInstrumentValidity registered validFromUtc validToUtc =>
    if registered = symbol then some (validFromUtc, validToUtc.getD 9999999999999) else none

def intervals (calls : List (Call α)) (symbol : String) : List (Int × Int) := calls.filterMap (Call.interval symbol)

/-- The accepted records of a feature that are published by a time. -/
def seen (calls : List (Call α)) (symbol : String) (t : Int) (feature : String) : List (PITRecord α) :=
  (calls.filterMap Call.accepted).filter fun r =>
    decide (r.symbol = symbol ∧ r.publishedAtUtc ≤ t ∧ r.featureName = feature)

/-- The latest publication, the first inserted among equals. -/
def latest (records : List (PITRecord α)) : Option (PITRecord α) :=
  firstLeast (fun r => OrderDual.toDual r.publishedAtUtc) records

/-- The instrument is not tracked, or an interval of it contains the time. -/
def ValidAt (calls : List (Call α)) (symbol : String) (t : Int) : Prop :=
  intervals calls symbol = [] ∨ ∃ interval ∈ intervals calls symbol, interval.1 ≤ t ∧ t ≤ interval.2

def Call.onTime (t : Int) : Call α → Bool
  | .insertRecord record => decide (record.computedAtUtc ≤ t ∧ record.publishedAtUtc ≤ t)
  | .registerInstrumentValidity .. => true

theorem records_after (calls : List (Call α)) : (after calls).records = calls.filterMap Call.accepted := by
  induction calls using List.reverseRecOn with
  | nil => rfl
  | append_singleton calls call ih =>
    rw [after, run_append, run_cons, run_nil, ← after, List.filterMap_append, ← ih]
    cases call with
    | insertRecord record =>
      by_cases hlate : record.observationTimeUtc < record.publishedAtUtc
      · simp [step, insertRecord, Call.accepted, hlate, not_le.mpr hlate]
      · simp [step, insertRecord, Call.accepted, hlate, not_lt.mp hlate]
    | registerInstrumentValidity symbol validFromUtc validToUtc =>
      simp [step, registerInstrumentValidity, Call.accepted]

theorem history_after (calls : List (Call α)) (symbol : String) :
    ((after calls).universeHistory.get? symbol).getD [] = intervals calls symbol := by
  induction calls using List.reverseRecOn with
  | nil => rfl
  | append_singleton calls call ih =>
    rw [after, run_append, run_cons, run_nil, ← after, intervals, List.filterMap_append, ← intervals, ← ih]
    cases call with
    | insertRecord record =>
      rw [step, insertRecord]
      split_ifs <;> simp [Call.interval]
    | registerInstrumentValidity registered validFromUtc validToUtc =>
      by_cases hsame : registered = symbol
      · subst hsame
        simp [step, registerInstrumentValidity, Call.interval]
      · simp [step, registerInstrumentValidity, Call.interval, hsame, Ne.symm hsame]

theorem isInstrumentValidAt_after (calls : List (Call α)) (symbol : String) (t : Int) :
    (after calls).isInstrumentValidAt symbol t = true ↔ ValidAt calls symbol t := by
  unfold isInstrumentValidAt ValidAt
  rw [history_after]
  simp

/-! ### The join -/

theorem get?_keepLatest (symbol : String) (t : Int) (d : Dict String (Int × α)) (record : PITRecord α)
    (feature : String) :
    (keepLatest symbol t d record).get? feature =
      if record.symbol = symbol ∧ record.publishedAtUtc ≤ t ∧ record.featureName = feature then
        match d.get? feature with
        | none => some (record.publishedAtUtc, record.featureValue)
        | some current =>
          if current.1 < record.publishedAtUtc then some (record.publishedAtUtc, record.featureValue) else some current
      else d.get? feature := by
  unfold keepLatest
  by_cases hread : record.symbol = symbol ∧ record.publishedAtUtc ≤ t
  · rw [if_pos hread]
    by_cases hfeature : record.featureName = feature
    · subst hfeature
      rw [if_pos ⟨hread.1, hread.2, rfl⟩]
      cases hget : d.get? record.featureName with
      | none => simp
      | some current =>
        dsimp only
        split_ifs
        · simp
        · exact hget
    · rw [if_neg fun h => hfeature h.2.2]
      cases d.get? record.featureName with
      | none => simp [Ne.symm hfeature]
      | some current =>
        dsimp only
        split_ifs <;> simp [Ne.symm hfeature]
  · rw [if_neg hread, if_neg fun h => hread ⟨h.1, h.2.1⟩]

theorem get?_foldl_keepLatest (symbol : String) (t : Int) (records : List (PITRecord α)) (feature : String) :
    (records.foldl (keepLatest symbol t) .empty).get? feature =
      (latest (records.filter fun r =>
        decide (r.symbol = symbol ∧ r.publishedAtUtc ≤ t ∧ r.featureName = feature))).map
        fun r => (r.publishedAtUtc, r.featureValue) := by
  rw [latest, ← foldl_keepLess]
  induction records using List.reverseRecOn with
  | nil => rfl
  | append_singleton records record ih =>
    rw [List.foldl_append, List.foldl_cons, List.foldl_nil, get?_keepLatest, ih, List.filter_append, List.foldl_append]
    by_cases hread : record.symbol = symbol ∧ record.publishedAtUtc ≤ t ∧ record.featureName = feature
    · rw [if_pos hread, List.filter_cons_of_pos (by simpa using hread), List.filter_nil, List.foldl_cons, List.foldl_nil]
      generalize (records.filter _).foldl (keepLess fun r => OrderDual.toDual r.publishedAtUtc) none = held
      cases held with
      | none => rfl
      | some held =>
        simp only [Option.map_some, keepLess, OrderDual.toDual_lt_toDual]
        split_ifs <;> rfl
    · rw [if_neg hread, List.filter_cons_of_neg (by simpa using hread), List.filter_nil, List.foldl_nil]

theorem get?_asOfJoin {calls : List (Call α)} {symbol : String} {t : Int} (hvalid : ValidAt calls symbol t)
    (feature : String) :
    ((after calls).asOfJoin symbol t).get? feature = (latest (seen calls symbol t feature)).map PITRecord.featureValue := by
  rw [asOfJoin, if_pos ((isInstrumentValidAt_after calls symbol t).mpr hvalid), Dict.get?_mapValues,
    get?_foldl_keepLatest, records_after, Option.map_map, seen]
  rfl

theorem asOfJoin_invalid {calls : List (Call α)} {symbol : String} {t : Int} (hvalid : ¬ ValidAt calls symbol t) :
    (after calls).asOfJoin symbol t = .empty :=
  if_neg fun h => hvalid ((isInstrumentValidAt_after calls symbol t).mp h)

/-! ### The law -/

/-- The join as of a time sees the past only, and the latest of it. -/
structure AsOfLaw (calls : List (Call α)) (symbol : String) (t : Int) : Prop where
  past : ∀ feature, ((after (calls.filter (Call.onTime t))).asOfJoin symbol t).get? feature =
    ((after calls).asOfJoin symbol t).get? feature
  absent : ∀ feature, seen calls symbol t feature = [] → ((after calls).asOfJoin symbol t).get? feature = none
  latest : ValidAt calls symbol t → ∀ feature, ∀ r ∈ seen calls symbol t feature,
    (∀ other ∈ seen calls symbol t feature, other.publishedAtUtc ≤ r.publishedAtUtc) →
      ((after calls).asOfJoin symbol t).get? feature = some r.featureValue
  order : ∀ other, calls.Perm other → ∀ feature, ((after other).asOfJoin symbol t).get? feature =
    ((after calls).asOfJoin symbol t).get? feature
  empty : ¬ ValidAt calls symbol t → ∀ feature, ((after calls).asOfJoin symbol t).get? feature = none

/-- What is needed of a feature: its latest records have one value, and it is that of the latest one among those
computed by the time. -/
structure PointInTime (calls : List (Call α)) (symbol : String) (t : Int) (feature : String) : Prop where
  ties : ∀ r ∈ seen calls symbol t feature, ∀ r' ∈ seen calls symbol t feature,
    (∀ other ∈ seen calls symbol t feature, other.publishedAtUtc ≤ r.publishedAtUtc) →
      r'.publishedAtUtc = r.publishedAtUtc → r'.featureValue = r.featureValue
  computed : (PITStore.latest ((seen calls symbol t feature).filter fun r => decide (r.computedAtUtc ≤ t))).map
    PITRecord.featureValue = (PITStore.latest (seen calls symbol t feature)).map PITRecord.featureValue

theorem latest_spec {records : List (PITRecord α)} {r : PITRecord α} (h : PITStore.latest records = some r) :
    r ∈ records ∧ ∀ other ∈ records, other.publishedAtUtc ≤ r.publishedAtUtc :=
  ⟨firstLeast_mem h, fun other hother => firstLeast_le h other hother⟩

theorem seen_onTime (calls : List (Call α)) (symbol : String) (t : Int) (feature : String) :
    seen (calls.filter (Call.onTime t)) symbol t feature =
      (seen calls symbol t feature).filter fun r => decide (r.computedAtUtc ≤ t) := by
  unfold seen
  rw [List.filter_filter]
  induction calls with
  | nil => rfl
  | cons call calls ih =>
    cases call with
    | registerInstrumentValidity registered validFromUtc validToUtc =>
      rw [List.filter_cons_of_pos rfl, List.filterMap_cons_none rfl, List.filterMap_cons_none rfl, ih]
    | insertRecord record =>
      by_cases hok : record.publishedAtUtc ≤ record.observationTimeUtc
      · have haccepted : Call.accepted (.insertRecord record) = some record := if_pos hok
        by_cases htime : Call.onTime t (.insertRecord record) = true
        · have hcomputed : record.computedAtUtc ≤ t := (of_decide_eq_true htime).1
          rw [List.filter_cons_of_pos htime, List.filterMap_cons_some haccepted, List.filterMap_cons_some haccepted,
            List.filter_cons, List.filter_cons, ih]
          simp [hcomputed]
        · rw [List.filter_cons_of_neg htime, ih, List.filterMap_cons_some haccepted, List.filter_cons_of_neg]
          intro hkept
          simp only [Bool.and_eq_true, decide_eq_true_eq] at hkept
          exact htime (decide_eq_true ⟨hkept.1, hkept.2.2.1⟩)
      · have haccepted : Call.accepted (.insertRecord record) = none := if_neg hok
        rw [List.filterMap_cons_none haccepted, ← ih, List.filter_cons]
        split_ifs
        · rw [List.filterMap_cons_none haccepted]
        · rfl

theorem intervals_onTime (calls : List (Call α)) (symbol : String) (t : Int) :
    intervals (calls.filter (Call.onTime t)) symbol = intervals calls symbol := by
  unfold intervals
  rw [List.filterMap_filter]
  congr 1
  funext call
  cases call with
  | insertRecord record => simp [Call.interval]
  | registerInstrumentValidity registered validFromUtc validToUtc => rfl

theorem validAt_onTime (calls : List (Call α)) (symbol : String) (t : Int) :
    ValidAt (calls.filter (Call.onTime t)) symbol t ↔ ValidAt calls symbol t := by
  unfold ValidAt
  rw [intervals_onTime]

theorem validAt_perm {calls other : List (Call α)} (hp : calls.Perm other) (symbol : String) (t : Int) :
    ValidAt other symbol t ↔ ValidAt calls symbol t := by
  have hmem : ∀ interval, interval ∈ intervals other symbol ↔ interval ∈ intervals calls symbol :=
    fun _ => ((hp.filterMap _).mem_iff).symm
  unfold ValidAt
  simp only [List.eq_nil_iff_forall_not_mem, hmem]

theorem pointInTime_of_asOfLaw {calls : List (Call α)} {symbol : String} {t : Int} (h : AsOfLaw calls symbol t)
    (hvalid : ValidAt calls symbol t) (feature : String) : PointInTime calls symbol t feature where
  ties := by
    intro r hr r' hr' hmax hsame
    have hvalue := h.latest hvalid feature r hr hmax
    have hvalue' := h.latest hvalid feature r' hr' (by rw [hsame]; exact hmax)
    exact Option.some.inj (hvalue'.symm.trans hvalue)
  computed := by
    have hpast := h.past feature
    have hvalid' := (validAt_onTime calls symbol t).mpr hvalid
    rw [get?_asOfJoin hvalid', get?_asOfJoin hvalid, seen_onTime] at hpast
    exact hpast

theorem value_of_ties {calls : List (Call α)} {symbol : String} {t : Int} {feature : String}
    (h : PointInTime calls symbol t feature) {records : List (PITRecord α)}
    (hmem : ∀ r, r ∈ records ↔ r ∈ seen calls symbol t feature) {r : PITRecord α}
    (hr : r ∈ seen calls symbol t feature)
    (hmax : ∀ other ∈ seen calls symbol t feature, other.publishedAtUtc ≤ r.publishedAtUtc) :
    (PITStore.latest records).map PITRecord.featureValue = some r.featureValue := by
  obtain ⟨found, hfound⟩ := exists_firstLeast (fun r : PITRecord α => OrderDual.toDual r.publishedAtUtc) ((hmem r).mpr hr)
  obtain ⟨hin, hlatest⟩ := latest_spec hfound
  have hsame : found.publishedAtUtc = r.publishedAtUtc :=
    le_antisymm (hmax found ((hmem found).mp hin)) (hlatest r ((hmem r).mpr hr))
  rw [PITStore.latest, hfound, Option.map_some, h.ties r hr found ((hmem found).mp hin) hmax hsame]

theorem asOfLaw_of_pointInTime {calls : List (Call α)} {symbol : String} {t : Int} (hvalid : ValidAt calls symbol t)
    (h : ∀ feature, PointInTime calls symbol t feature) : AsOfLaw calls symbol t where
  past := by
    intro feature
    have hvalid' := (validAt_onTime calls symbol t).mpr hvalid
    rw [get?_asOfJoin hvalid', get?_asOfJoin hvalid, seen_onTime]
    exact (h feature).computed
  absent := by
    intro feature hnone
    rw [get?_asOfJoin hvalid, hnone]
    rfl
  latest := by
    intro _ feature r hr hmax
    rw [get?_asOfJoin hvalid]
    exact value_of_ties (h feature) (fun _ => Iff.rfl) hr hmax
  order := by
    intro other hp feature
    have hvalid' := (validAt_perm hp symbol t).mpr hvalid
    have hseen : (seen other symbol t feature).Perm (seen calls symbol t feature) :=
      ((hp.filterMap Call.accepted).filter _).symm
    rw [get?_asOfJoin hvalid', get?_asOfJoin hvalid]
    cases hlatest : PITStore.latest (seen calls symbol t feature) with
    | none =>
      rw [PITStore.latest, firstLeast_eq_none] at hlatest
      rw [hlatest] at hseen
      rw [List.perm_nil.mp hseen]
      rfl
    | some r =>
      obtain ⟨hr, hmax⟩ := latest_spec hlatest
      exact value_of_ties (h feature) (fun _ => hseen.mem_iff) hr hmax
  empty := fun hinvalid => absurd hvalid hinvalid

theorem asOfLaw_of_invalid {calls : List (Call α)} {symbol : String} {t : Int} (hvalid : ¬ ValidAt calls symbol t) :
    AsOfLaw calls symbol t where
  past := by
    intro feature
    rw [asOfJoin_invalid hvalid, asOfJoin_invalid]
    rwa [validAt_onTime]
  absent := by
    intro feature _
    rw [asOfJoin_invalid hvalid, Dict.get?_empty]
  latest := fun h => absurd h hvalid
  order := by
    intro other hp feature
    rw [asOfJoin_invalid hvalid, asOfJoin_invalid]
    rwa [validAt_perm hp]
  empty := by
    intro _ feature
    rw [asOfJoin_invalid hvalid, Dict.get?_empty]

theorem asOfLaw_iff (calls : List (Call α)) (symbol : String) (t : Int) :
    AsOfLaw calls symbol t ↔ (ValidAt calls symbol t → ∀ feature, PointInTime calls symbol t feature) := by
  constructor
  · intro h hvalid feature
    exact pointInTime_of_asOfLaw h hvalid feature
  · intro h
    by_cases hvalid : ValidAt calls symbol t
    · exact asOfLaw_of_pointInTime hvalid (h hvalid)
    · exact asOfLaw_of_invalid hvalid

def computedLater : List (Call ℕ) := [.insertRecord
  { symbol := "NIFTY", featureName := "rsi", featureValue := 55, observationTimeUtc := 50, computedAtUtc := 200
    publishedAtUtc := 50 }]

theorem computedLater_seen : ¬ AsOfLaw computedLater "NIFTY" 100 := by
  intro h
  have hpast := h.past "rsi"
  revert hpast
  decide +kernel

end PITStore
end Droid.Ml
