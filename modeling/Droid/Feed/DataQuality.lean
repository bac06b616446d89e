import Droid.Lib.Transducer
import Droid.Lib.Dict
import Mathlib.Data.Rat.Defs
import Mathlib.Algebra.Order.Ring.Rat

/-! The data quality engine: which ticks are accepted, and which gaps in their sequence numbers are reported. -/
namespace Droid.Feed
open Lib

/-- A tick; its timestamp is an instant in microseconds. -/
structure TickEvent where
  timestamp : Int
  symbol : String
  ltp : ℚ
  volume : Int := 0
  openInterest : Option Int := none
  bid : Option ℚ := none
  ask : Option ℚ := none
  sequenceNumber : Option Int := none
  deriving DecidableEq

/-- Why a tick is not valid, with the figures of the text. -/
inductive Reason where
  | nonPositiveLtp (ltp : ℚ)
  | negativeOpenInterest (openInterest : Int)
  | invertedOrderbook (bid ask : ℚ)
  | negativeVolume (volume : Int)
  | outOfOrderSequence (number last : Int)
  | outOfOrderTimestamp (timestamp last : Int)
  deriving DecidableEq

structure ValidationResult where
  isValid : Bool
  quarantine : Bool
  reason : Option Reason
  gapDetected : Bool
  sanitized : Option TickEvent
  deriving DecidableEq

structure DataQualityEngine where
  lastSequences : Dict String Int := Dict.empty
  lastTimestamps : Dict String Int := Dict.empty
  quarantinedCount : Nat := 0
  droppedCount : Nat := 0
  gapCount : Nat := 0

namespace TickEvent

/-- What is wrong with the tick on its own; the first check that fails. -/
def defect (tick : TickEvent) : Option Reason :=
  if tick.ltp ≤ 0 then some (.nonPositiveLtp tick.ltp)
  else
    match tick.openInterest.filter (· < 0) with
    | some openInterest => some (.negativeOpenInterest openInterest)
    | none =>
      match tick.bid, tick.ask with
      | some bid, some ask =>
        if 0 < bid ∧ 0 < ask ∧ ask < bid then some (.invertedOrderbook bid ask)
        else if tick.volume < 0 then some (.negativeVolume tick.volume) else none
      | _, _ => if tick.volume < 0 then some (.negativeVolume tick.volume) else none

end TickEvent

namespace DataQualityEngine

def quarantined (engine : DataQualityEngine) (reason : Reason) : DataQualityEngine × ValidationResult :=
  ({ engine with quarantinedCount := engine.quarantinedCount + 1 }, ⟨false, true, some reason, false, none⟩)

def dropped (engine : DataQualityEngine) (reason : Reason) : DataQualityEngine × ValidationResult :=
  ({ engine with droppedCount := engine.droppedCount + 1 }, ⟨false, false, some reason, false, none⟩)

/-- The last check, and the verdict of a tick that passes it. -/
def checkTimestamp (engine : DataQualityEngine) (tick : TickEvent) (gap : Bool) :
    DataQualityEngine × ValidationResult :=
  match (engine.lastTimestamps.get? tick.symbol).filter (tick.timestamp < ·) with
  | some last => engine.dropped (.outOfOrderTimestamp tick.timestamp last)
  | none =>
    ({ engine with lastTimestamps := engine.lastTimestamps.insert tick.symbol tick.timestamp },
      ⟨true, false, none, gap, some tick⟩)

def validateTick (engine : DataQualityEngine) (tick : TickEvent) : DataQualityEngine × ValidationResult :=
  match tick.defect with
  | some reason => engine.quarantined reason
  | none =>
    match tick.sequenceNumber with
    | none => engine.checkTimestamp tick false
    | some number =>
      let stored := { engine with lastSequences := engine.lastSequences.insert tick.symbol number }
      match engine.lastSequences.get? tick.symbol with
      | none => stored.checkTimestamp tick false
      | some last =>
        if last + 1 < number then { stored with gapCount := stored.gapCount + 1 }.checkTimestamp tick true
        else if number < last then engine.dropped (.outOfOrderSequence number last)
        else stored.checkTimestamp tick false

/-! ### What a tick does -/

/-- The tick's number is below the last one of its symbol. -/
def Behind (engine : DataQualityEngine) (tick : TickEvent) : Prop :=
  ∃ number last, tick.sequenceNumber = some number ∧ engine.lastSequences.get? tick.symbol = some last ∧
    number < last

/-- The tick is of before the last one of its symbol. -/
def Late (engine : DataQualityEngine) (tick : TickEvent) : Prop :=
  ∃ last, engine.lastTimestamps.get? tick.symbol = some last ∧ tick.timestamp < last

/-- The tick's number is not the next one of its symbol, but a later one. -/
def gap (engine : DataQualityEngine) (tick : TickEvent) : Bool :=
  match tick.sequenceNumber, engine.lastSequences.get? tick.symbol with
  | some number, some last => last + 1 < number
  | _, _ => false

def SameFor (symbol : String) (engine engine' : DataQualityEngine) : Prop :=
  engine.lastSequences.get? symbol = engine'.lastSequences.get? symbol ∧
    engine.lastTimestamps.get? symbol = engine'.lastTimestamps.get? symbol

section Cases
variable {engine engine' : DataQualityEngine} {tick : TickEvent} {symbol : String}

theorem SameFor.refl (symbol : String) (engine : DataQualityEngine) : SameFor symbol engine engine := ⟨rfl, rfl⟩

theorem SameFor.trans {engine'' : DataQualityEngine} (h : SameFor symbol engine engine')
    (h' : SameFor symbol engine' engine'') : SameFor symbol engine engine'' :=
  ⟨h.1.trans h'.1, h.2.trans h'.2⟩

theorem SameFor.symm (h : SameFor symbol engine engine') : SameFor symbol engine' engine := ⟨h.1.symm, h.2.symm⟩

theorem SameFor.behind_iff (h : SameFor tick.symbol engine engine') : Behind engine tick ↔ Behind engine' tick := by
  rw [Behind, Behind, h.1]

theorem SameFor.late_iff (h : SameFor tick.symbol engine engine') : Late engine tick ↔ Late engine' tick := by
  rw [Late, Late, h.2]

theorem checkTimestamp_late (h : Late engine tick) (gap : Bool) :
    (engine.checkTimestamp tick gap).2.isValid = false ∧
      ∀ symbol, SameFor symbol (engine.checkTimestamp tick gap).1 engine := by
  obtain ⟨last, hlast, hlt⟩ := h
  rw [checkTimestamp, hlast, Option.filter_some, if_pos (decide_eq_true hlt)]
  exact ⟨rfl, fun symbol => SameFor.refl symbol engine⟩

theorem checkTimestamp_timely (h : ¬Late engine tick) (gap : Bool) :
    engine.checkTimestamp tick gap =
      ({ engine with lastTimestamps := engine.lastTimestamps.insert tick.symbol tick.timestamp },
        ⟨true, false, none, gap, some tick⟩) := by
  have hnone : (engine.lastTimestamps.get? tick.symbol).filter (tick.timestamp < ·) = none := by
    rw [Option.filter_eq_none_iff]
    intro last hlast
    rw [decide_eq_true_eq]
    exact fun hlt => h ⟨last, hlast, hlt⟩
  rw [checkTimestamp, hnone]

theorem validateTick_checked (hdefect : tick.defect = none) (hbehind : ¬Behind engine tick) :
    ∃ stored : DataQualityEngine, engine.validateTick tick = stored.checkTimestamp tick (engine.gap tick) ∧
      stored.lastTimestamps = engine.lastTimestamps ∧
      ∀ symbol, stored.lastSequences.get? symbol =
        if symbol = tick.symbol then tick.sequenceNumber.or (engine.lastSequences.get? symbol)
        else engine.lastSequences.get? symbol := by
  rw [validateTick, hdefect]
  cases hnumber : tick.sequenceNumber with
  | none =>
    refine ⟨engine, ?_, rfl, ?_⟩
    · rw [gap, hnumber]
    · intro symbol
      rw [Option.none_or, ite_self]
  | some number =>
    have hinsert : ∀ symbol, (engine.lastSequences.insert tick.symbol number).get? symbol =
        if symbol = tick.symbol then (some number).or (engine.lastSequences.get? symbol)
        else engine.lastSequences.get? symbol := by
      intro symbol
      rw [Dict.get?_insert, Option.some_or]
    dsimp only
    cases hlast : engine.lastSequences.get? tick.symbol with
    | none =>
      refine ⟨{ engine with lastSequences := engine.lastSequences.insert tick.symbol number }, ?_, rfl, hinsert⟩
      rw [gap, hnumber, hlast]
    | some last =>
      have hgapped : engine.gap tick = decide (last + 1 < number) := by
        rw [gap, hnumber, hlast]
      rw [hgapped]
      dsimp only
      by_cases hgap : last + 1 < number
      · rw [if_pos hgap, decide_eq_true hgap]
        exact ⟨{ engine with
          lastSequences := engine.lastSequences.insert tick.symbol number
          gapCount := engine.gapCount + 1 }, rfl, rfl, hinsert⟩
      · have hle : ¬number < last := fun hlt => hbehind ⟨number, last, hnumber, hlast, hlt⟩
        rw [if_neg hgap, if_neg hle, decide_eq_false hgap]
        exact ⟨{ engine with lastSequences := engine.lastSequences.insert tick.symbol number }, rfl, rfl, hinsert⟩

/-- What is refused before its timestamp is looked at leaves nothing. -/
theorem validateTick_refused (h : tick.defect ≠ none ∨ Behind engine tick) :
    (engine.validateTick tick).2.isValid = false ∧
      ∀ symbol, SameFor symbol (engine.validateTick tick).1 engine := by
  rw [validateTick]
  cases hdefect : tick.defect with
  | some reason => exact ⟨rfl, fun symbol => SameFor.refl symbol engine⟩
  | none =>
    obtain ⟨number, last, hnumber, hlast, hlt⟩ := h.resolve_left (fun hne => hne hdefect)
    have hgap : ¬last + 1 < number := by omega
    simp only [hnumber, hlast, if_neg hgap, if_pos hlt]
    exact ⟨rfl, fun symbol => SameFor.refl symbol engine⟩

/-- What is refused for its timestamp leaves its number. -/
theorem validateTick_late (hdefect : tick.defect = none) (hbehind : ¬Behind engine tick)
    (hlate : Late engine tick) :
    (engine.validateTick tick).2.isValid = false ∧
      ∀ symbol,
        (engine.validateTick tick).1.lastTimestamps.get? symbol = engine.lastTimestamps.get? symbol ∧
        (engine.validateTick tick).1.lastSequences.get? symbol =
          if symbol = tick.symbol then tick.sequenceNumber.or (engine.lastSequences.get? symbol)
          else engine.lastSequences.get? symbol := by
  obtain ⟨stored, hstored, htimes, hnumbers⟩ := validateTick_checked hdefect hbehind
  have hlate : Late stored tick := by rwa [Late, htimes]
  obtain ⟨hvalid, hsame⟩ := checkTimestamp_late hlate (engine.gap tick)
  rw [hstored]
  refine ⟨hvalid, fun symbol => ⟨?_, ?_⟩⟩
  · rw [(hsame symbol).2, htimes]
  · rw [(hsame symbol).1, hnumbers]

theorem validateTick_accepted (hdefect : tick.defect = none) (hbehind : ¬Behind engine tick)
    (hlate : ¬Late engine tick) :
    (engine.validateTick tick).2 = ⟨true, false, none, engine.gap tick, some tick⟩ ∧
      ∀ symbol,
        (engine.validateTick tick).1.lastTimestamps.get? symbol =
          (if symbol = tick.symbol then some tick.timestamp else engine.lastTimestamps.get? symbol) ∧
        (engine.validateTick tick).1.lastSequences.get? symbol =
          if symbol = tick.symbol then tick.sequenceNumber.or (engine.lastSequences.get? symbol)
          else engine.lastSequences.get? symbol := by
  obtain ⟨stored, hstored, htimes, hnumbers⟩ := validateTick_checked hdefect hbehind
  have hlate : ¬Late stored tick := by rwa [Late, htimes]
  rw [hstored, checkTimestamp_timely hlate]
  refine ⟨rfl, fun symbol => ⟨?_, hnumbers symbol⟩⟩
  rw [← htimes]
  exact Dict.get?_insert _ _ _ _

theorem isValid_iff :
    (engine.validateTick tick).2.isValid = true ↔
      tick.defect = none ∧ ¬Behind engine tick ∧ ¬Late engine tick := by
  constructor
  · intro hvalid
    by_cases hrefused : tick.defect ≠ none ∨ Behind engine tick
    · rw [(validateTick_refused hrefused).1] at hvalid
      cases hvalid
    · rw [not_or, not_not] at hrefused
      refine ⟨hrefused.1, hrefused.2, fun hlate => ?_⟩
      rw [(validateTick_late hrefused.1 hrefused.2 hlate).1] at hvalid
      cases hvalid
  · rintro ⟨hdefect, hbehind, hlate⟩
    rw [(validateTick_accepted hdefect hbehind hlate).1]

/-- The verdict depends on what is stored of the tick's own symbol. -/
theorem validateTick_sameFor (h : SameFor tick.symbol engine engine') :
    (engine.validateTick tick).2 = (engine'.validateTick tick).2 := by
  obtain ⟨hnumbers, htimes⟩ := h
  have htimestamp : ∀ (a b : DataQualityEngine) (gap : Bool),
      a.lastTimestamps.get? tick.symbol = b.lastTimestamps.get? tick.symbol →
        (a.checkTimestamp tick gap).2 = (b.checkTimestamp tick gap).2 := by
    intro a b gap hab
    rw [checkTimestamp, checkTimestamp, hab]
    cases (b.lastTimestamps.get? tick.symbol).filter (tick.timestamp < ·) with
    | none => rfl
    | some last => rfl
  rw [validateTick, validateTick]
  cases tick.defect with
  | some reason => rfl
  | none =>
    cases tick.sequenceNumber with
    | none => exact htimestamp _ _ _ htimes
    | some number =>
      dsimp only
      rw [hnumbers]
      cases engine'.lastSequences.get? tick.symbol with
      | none => exact htimestamp _ _ _ htimes
      | some last =>
        dsimp only
        split_ifs
        · exact htimestamp _ _ _ htimes
        · rfl
        · exact htimestamp _ _ _ htimes

theorem validateTick_other (h : symbol ≠ tick.symbol) : SameFor symbol (engine.validateTick tick).1 engine := by
  by_cases hrefused : tick.defect ≠ none ∨ Behind engine tick
  · exact (validateTick_refused hrefused).2 symbol
  · rw [not_or, not_not] at hrefused
    by_cases hlate : Late engine tick
    · obtain ⟨htimes, hnumbers⟩ := (validateTick_late hrefused.1 hrefused.2 hlate).2 symbol
      rw [if_neg h] at hnumbers
      exact ⟨hnumbers, htimes⟩
    · obtain ⟨htimes, hnumbers⟩ := (validateTick_accepted hrefused.1 hrefused.2 hlate).2 symbol
      rw [if_neg h] at hnumbers htimes
      exact ⟨hnumbers, htimes⟩

theorem validateTick_next (h : SameFor symbol engine engine') (htick : SameFor tick.symbol engine engine') :
    SameFor symbol (engine.validateTick tick).1 (engine'.validateTick tick).1 := by
  by_cases hsymbol : symbol = tick.symbol
  · by_cases hrefused : tick.defect ≠ none ∨ Behind engine tick
    · have hrefused' : tick.defect ≠ none ∨ Behind engine' tick := by rwa [← htick.behind_iff]
      exact ((validateTick_refused hrefused).2 symbol).trans (h.trans ((validateTick_refused hrefused').2 symbol).symm)
    · rw [not_or, not_not] at hrefused
      obtain ⟨hdefect, hbehind⟩ := hrefused
      have hbehind' : ¬Behind engine' tick := by rwa [← htick.behind_iff]
      by_cases hlate : Late engine tick
      · obtain ⟨htimes, hnumbers⟩ := (validateTick_late hdefect hbehind hlate).2 symbol
        obtain ⟨htimes', hnumbers'⟩ := (validateTick_late hdefect hbehind' (htick.late_iff.mp hlate)).2 symbol
        rw [SameFor, htimes, htimes', hnumbers, hnumbers', h.1, h.2]
        exact ⟨rfl, rfl⟩
      · obtain ⟨htimes, hnumbers⟩ := (validateTick_accepted hdefect hbehind hlate).2 symbol
        obtain ⟨htimes', hnumbers'⟩ :=
          (validateTick_accepted hdefect hbehind' (mt htick.late_iff.mpr hlate)).2 symbol
        rw [SameFor, htimes, htimes', hnumbers, hnumbers', h.1, h.2]
        exact ⟨rfl, rfl⟩
  · exact (validateTick_other hsymbol).trans (h.trans (validateTick_other hsymbol).symm)

theorem validateTick_rises (engine : DataQualityEngine) (tick : TickEvent) (symbol : String) :
    (∀ last, engine.lastTimestamps.get? symbol = some last →
      ∃ last', (engine.validateTick tick).1.lastTimestamps.get? symbol = some last' ∧ last ≤ last') ∧
    ∀ last, engine.lastSequences.get? symbol = some last →
      ∃ last', (engine.validateTick tick).1.lastSequences.get? symbol = some last' ∧ last ≤ last' := by
  by_cases hrefused : tick.defect ≠ none ∨ Behind engine tick
  · obtain ⟨hnumbers, htimes⟩ := (validateTick_refused hrefused).2 symbol
    rw [hnumbers, htimes]
    exact ⟨fun last h => ⟨last, h, le_rfl⟩, fun last h => ⟨last, h, le_rfl⟩⟩
  · rw [not_or, not_not] at hrefused
    obtain ⟨hdefect, hbehind⟩ := hrefused
    -- the number that is stored is not below the last one
    have hnumber : ∀ last, engine.lastSequences.get? symbol = some last →
        ∃ last', (if symbol = tick.symbol then tick.sequenceNumber.or (engine.lastSequences.get? symbol)
          else engine.lastSequences.get? symbol) = some last' ∧ last ≤ last' := by
      intro last hlast
      split
      · rename_i hsymbol
        cases hnumber : tick.sequenceNumber with
        | none => exact ⟨last, by rw [Option.none_or, hlast], le_rfl⟩
        | some number =>
          refine ⟨number, rfl, not_lt.mp fun hlt => hbehind ⟨number, last, hnumber, ?_, hlt⟩⟩
          rw [← hsymbol, hlast]
      · exact ⟨last, hlast, le_rfl⟩
    by_cases hlate : Late engine tick
    · obtain ⟨htimes, hnumbers⟩ := (validateTick_late hdefect hbehind hlate).2 symbol
      rw [hnumbers, htimes]
      exact ⟨fun last h => ⟨last, h, le_rfl⟩, hnumber⟩
    · obtain ⟨htimes, hnumbers⟩ := (validateTick_accepted hdefect hbehind hlate).2 symbol
      rw [hnumbers, htimes]
      refine ⟨?_, hnumber⟩
      intro last hlast
      split
      · rename_i hsymbol
        refine ⟨tick.timestamp, rfl, not_lt.mp fun hlt => hlate ⟨last, ?_, hlt⟩⟩
        rw [← hsymbol, hlast]
      · exact ⟨last, hlast, le_rfl⟩

end Cases

/-! ### Runs -/

def acceptedTicks (engine : DataQualityEngine) (ticks : List TickEvent) : List TickEvent :=
  keptLabels validateTick (fun out => out.2.isValid) engine ticks

/-- Without its rejected ticks the run has the same results on the others. -/
def NoTrace (engine : DataQualityEngine) (ticks : List TickEvent) : Prop :=
  outputs validateTick engine (acceptedTicks engine ticks) =
    (outputs validateTick engine ticks).filter (fun out => out.2.isValid)

/-- A tick that is refused for its timestamp has no number above the last one. -/
def Harmless (engine : DataQualityEngine) (tick : TickEvent) : Prop :=
  tick.defect = none → Late engine tick → ∀ number, tick.sequenceNumber = some number →
    ∃ last, engine.lastSequences.get? tick.symbol = some last ∧ number ≤ last

section Runs
variable {engine : DataQualityEngine} {tick : TickEvent} {ticks : List TickEvent}

theorem harmless_same (hvalid : (engine.validateTick tick).2.isValid = false) (h : Harmless engine tick)
    (symbol : String) : SameFor symbol (engine.validateTick tick).1 engine := by
  by_cases hrefused : tick.defect ≠ none ∨ Behind engine tick
  · exact (validateTick_refused hrefused).2 symbol
  · rw [not_or, not_not] at hrefused
    obtain ⟨hdefect, hbehind⟩ := hrefused
    have hlate : Late engine tick := by
      by_contra hlate
      rw [isValid_iff.mpr ⟨hdefect, hbehind, hlate⟩] at hvalid
      cases hvalid
    obtain ⟨htimes, hnumbers⟩ := (validateTick_late hdefect hbehind hlate).2 symbol
    refine ⟨hnumbers.trans ?_, htimes⟩
    split
    · rename_i hsymbol
      cases hnumber : tick.sequenceNumber with
      | none => rw [Option.none_or]
      | some number =>
        obtain ⟨last, hlast, hle⟩ := h hdefect hlate number hnumber
        have hge : ¬number < last := fun hlt => hbehind ⟨number, last, hnumber, hlast, hlt⟩
        rw [hsymbol, hlast, Option.some_or, le_antisymm hle (not_lt.mp hge)]
    · rfl

/-- Where every rejected tick is harmless, the run without them ends in the same state with the same results. -/
theorem noTrace_of_harmless
    (h : Guarded (fun engine tick => (validateTick engine tick).1) Harmless engine ticks) :
    NoTrace engine ticks ∧ ∀ symbol,
      SameFor symbol (final validateTick engine ticks) (final validateTick engine (acceptedTicks engine ticks)) := by
  apply outputs_keptLabels (fun engine engine' => ∀ symbol, SameFor symbol engine engine')
  · exact fun _ _ _ h h' symbol => (h symbol).trans (h' symbol)
  · intro s s' tick hsame _
    exact ⟨validateTick_sameFor (hsame tick.symbol), fun symbol => validateTick_next (hsame symbol) (hsame tick.symbol)⟩
  · exact fun symbol => SameFor.refl symbol engine
  · exact h.imp fun s tick hharmless hvalid symbol => harmless_same hvalid hharmless symbol

theorem outputs_symbol (engine : DataQualityEngine) (ticks : List TickEvent) (symbol : String) :
    outputs validateTick engine (ticks.filter (fun tick => tick.symbol = symbol)) =
      (outputs validateTick engine ticks).filter (fun out => out.1.symbol = symbol) := by
  rw [← keptLabels_label validateTick (fun tick => tick.symbol = symbol) engine ticks]
  refine (outputs_keptLabels (SameFor symbol) ?_ ?_ ?_ ?_).1
  · exact fun _ _ _ => SameFor.trans
  · intro s s' tick hsame hsymbol
    have hsymbol : tick.symbol = symbol := of_decide_eq_true hsymbol
    rw [← hsymbol] at hsame ⊢
    exact ⟨validateTick_sameFor hsame, validateTick_next hsame hsame⟩
  · exact SameFor.refl symbol engine
  · apply guarded_of_mem
    intro tick _ s hother
    have hother : tick.symbol ≠ symbol := of_decide_eq_false hother
    exact validateTick_other hother.symm

theorem acceptedTicks_ltp (h : tick ∈ acceptedTicks engine ticks) : 0 < tick.ltp := by
  have hdefect : tick.defect = none := by
    induction ticks generalizing engine with
    | nil => cases h
    | cons first ticks ih =>
      rw [acceptedTicks, keptLabels, outputs_cons, List.filter_cons] at h
      split at h
      · rename_i hvalid
        rcases List.mem_cons.mp h with rfl | hmem
        · exact (isValid_iff.mp hvalid).1
        · exact ih hmem
      · exact ih h
  rw [TickEvent.defect] at hdefect
  split at hdefect
  · cases hdefect
  · rename_i hprice
    exact not_le.mp hprice

theorem acceptedTicks_ge (h : tick ∈ acceptedTicks engine ticks) :
    (∀ last, engine.lastTimestamps.get? tick.symbol = some last → last ≤ tick.timestamp) ∧
      ∀ last number, engine.lastSequences.get? tick.symbol = some last → tick.sequenceNumber = some number →
        last ≤ number := by
  induction ticks generalizing engine with
  | nil => cases h
  | cons first ticks ih =>
    rw [acceptedTicks, keptLabels, outputs_cons, List.filter_cons] at h
    have hlater : tick ∈ acceptedTicks (engine.validateTick first).1 ticks →
        (∀ last, engine.lastTimestamps.get? tick.symbol = some last → last ≤ tick.timestamp) ∧
          ∀ last number, engine.lastSequences.get? tick.symbol = some last → tick.sequenceNumber = some number →
            last ≤ number := by
      intro hmem
      obtain ⟨htimes, hnumbers⟩ := validateTick_rises engine first tick.symbol
      constructor
      · intro last hlast
        obtain ⟨last', hlast', hle⟩ := htimes last hlast
        exact le_trans hle ((ih hmem).1 last' hlast')
      · intro last number hlast hnumber
        obtain ⟨last', hlast', hle⟩ := hnumbers last hlast
        exact le_trans hle ((ih hmem).2 last' number hlast' hnumber)
    cases hvalid : (engine.validateTick first).2.isValid with
    | false =>
      rw [if_neg (by rw [hvalid]; exact Bool.false_ne_true)] at h
      exact hlater h
    | true =>
      rw [if_pos hvalid] at h
      rcases List.mem_cons.mp h with rfl | hmem
      · obtain ⟨-, hbehind, hlate⟩ := isValid_iff.mp hvalid
        constructor
        · exact fun last hlast => not_lt.mp fun hlt => hlate ⟨last, hlast, hlt⟩
        · exact fun last number hlast hnumber => not_lt.mp fun hlt => hbehind ⟨number, last, hnumber, hlast, hlt⟩
      · exact hlater hmem

theorem acceptedTicks_ordered (engine : DataQualityEngine) (ticks : List TickEvent) :
    (acceptedTicks engine ticks).Pairwise fun a b => a.symbol = b.symbol →
      a.timestamp ≤ b.timestamp ∧
        ∀ m n, a.sequenceNumber = some m → b.sequenceNumber = some n → m ≤ n := by
  induction ticks generalizing engine with
  | nil => exact List.Pairwise.nil
  | cons first ticks ih =>
    rw [acceptedTicks, keptLabels, outputs_cons, List.filter_cons]
    split
    · rename_i hvalid
      rw [List.map_cons, List.pairwise_cons]
      refine ⟨?_, ih _⟩
      intro tick hmem hsymbol
      obtain ⟨hdefect, hbehind, hlate⟩ := isValid_iff.mp hvalid
      obtain ⟨htimes, hnumbers⟩ := (validateTick_accepted hdefect hbehind hlate).2 tick.symbol
      rw [if_pos hsymbol.symm] at htimes hnumbers
      obtain ⟨hge, hge'⟩ := acceptedTicks_ge hmem
      refine ⟨hge _ htimes, ?_⟩
      intro m n hm hn
      rw [hm, Option.some_or] at hnumbers
      exact hge' m n hnumbers hn
    · exact ih _

/-- A rejected tick with another after it: the second is judged as without the first. -/
theorem verdict_of_noTrace {pre : List TickEvent} {next : TickEvent}
    (hpre : Guarded (fun engine tick => (validateTick engine tick).1) Harmless engine pre)
    (htrace : NoTrace engine (pre ++ [tick, next]))
    (hrejected : ((final validateTick engine pre).validateTick tick).2.isValid = false)
    (hnext : (((final validateTick engine pre).validateTick tick).1.validateTick next).2.isValid = true) :
    (((final validateTick engine pre).validateTick tick).1.validateTick next).2 =
      ((final validateTick engine pre).validateTick next).2 := by
  obtain ⟨hoff, hsame⟩ := noTrace_of_harmless hpre
  have hkept : keptLabels validateTick (fun out => out.2.isValid) (final validateTick engine pre) [tick, next] =
      [next] := by
    simp [keptLabels, hrejected, hnext]
  rw [NoTrace, acceptedTicks, keptLabels_append, hkept, outputs_append, outputs_append, List.filter_append] at htrace
  rw [NoTrace, acceptedTicks] at hoff
  rw [hoff, List.append_cancel_left_eq] at htrace
  simp only [outputs_cons, outputs_nil, List.filter_cons, hrejected, hnext, if_true, Bool.false_eq_true, if_false,
    List.filter_nil, List.cons.injEq, Prod.mk.injEq, true_and, and_true] at htrace
  rw [← htrace]
  exact (validateTick_sameFor (hsame next.symbol)).symm

/-- After a harmful tick the next number of its symbol gives it away. -/
theorem harmful_seen {pre : List TickEvent}
    (hpre : Guarded (fun engine tick => (validateTick engine tick).1) Harmless engine pre)
    (hharmful : ¬Harmless (final validateTick engine pre) tick) :
    ∃ next, ¬NoTrace engine (pre ++ [tick, next]) := by
  obtain ⟨s, hs⟩ : ∃ s, s = final validateTick engine pre := ⟨_, rfl⟩
  rw [← hs] at hharmful
  simp only [Harmless, not_forall, not_exists, not_and, not_le] at hharmful
  obtain ⟨hdefect, hlate, number, hnumber, habove⟩ := hharmful
  have hbehind : ¬Behind s tick := by
    rintro ⟨n, last, hn, hlast, hlt⟩
    rw [hnumber] at hn
    cases hn
    exact absurd (habove last hlast) (not_lt.mpr hlt.le)
  obtain ⟨hrejected, hstored⟩ := validateTick_late hdefect hbehind hlate
  obtain ⟨htimes, hnumbers⟩ := hstored tick.symbol
  rw [if_pos rfl, hnumber, Option.some_or] at hnumbers
  obtain ⟨lastTime, hlastTime, -⟩ := hlate
  -- the next tick: its number tells the stored one from the last accepted one
  have hseen : ∀ m, number ≤ m →
      (∀ last, s.lastSequences.get? tick.symbol = some last →
        decide (last + 1 < m) ≠ decide (number + 1 < m)) →
      (s.lastSequences.get? tick.symbol = none → number + 1 < m) → ∃ next, ¬NoTrace engine (pre ++ [tick, next]) := by
    intro m hm hsome hnone
    obtain ⟨next, hnext⟩ : ∃ next, next = { tick with timestamp := lastTime, sequenceNumber := some m } := ⟨_, rfl⟩
    have hsymbol : next.symbol = tick.symbol := by rw [hnext]
    have hm' : next.sequenceNumber = some m := by rw [hnext]
    have htime : next.timestamp = lastTime := by rw [hnext]
    have hsound : next.defect = none := by
      rw [hnext]
      exact hdefect
    have htimely : ∀ e : DataQualityEngine, e.lastTimestamps.get? tick.symbol = some lastTime → ¬Late e next := by
      rintro e he ⟨last, hlast, hlt⟩
      rw [hsymbol, he] at hlast
      cases hlast
      exact absurd hlt (not_lt.mpr htime.ge)
    have hbehind₁ : ¬Behind (s.validateTick tick).1 next := by
      rintro ⟨n, last, hn, hlast, hlt⟩
      rw [hm'] at hn
      rw [hsymbol, hnumbers] at hlast
      cases hn
      cases hlast
      exact absurd hlt (not_lt.mpr hm)
    have hbehind₂ : ¬Behind s next := by
      rintro ⟨n, last, hn, hlast, hlt⟩
      rw [hm'] at hn
      rw [hsymbol] at hlast
      cases hn
      exact absurd (lt_of_lt_of_le (habove last hlast) hm) (not_lt.mpr hlt.le)
    have hresult₁ := (validateTick_accepted hsound hbehind₁ (htimely _ (htimes.trans hlastTime))).1
    have hresult₂ := (validateTick_accepted hsound hbehind₂ (htimely s hlastTime)).1
    refine ⟨next, fun htrace => ?_⟩
    have hverdict := verdict_of_noTrace hpre htrace (by rw [← hs]; exact hrejected)
      (by rw [← hs, hresult₁])
    rw [← hs, hresult₁, hresult₂, ValidationResult.mk.injEq] at hverdict
    obtain ⟨-, -, -, hgap, -⟩ := hverdict
    rw [gap, gap, hm', hsymbol, hnumbers] at hgap
    cases hlast : s.lastSequences.get? tick.symbol with
    | none =>
      rw [hlast] at hgap
      have hfalse : decide (number + 1 < m) = false := hgap
      rw [decide_eq_true (hnone hlast)] at hfalse
      cases hfalse
    | some last =>
      rw [hlast] at hgap
      exact hsome last hlast hgap.symm
  cases hlast : s.lastSequences.get? tick.symbol with
  | none => exact hseen (number + 2) (by omega) (by rw [hlast]; intro _ h; cases h) (fun _ => by omega)
  | some last =>
    have hlt := habove last hlast
    refine hseen (number + 1) (by omega) ?_ (by rw [hlast]; intro h; cases h)
    intro last' hlast'
    rw [hlast] at hlast'
    cases hlast'
    rw [decide_eq_true (by omega), decide_eq_false (by omega)]
    exact Bool.true_eq_false_eq_False

/-- No rejected tick of the run leaves a trace, whatever tick comes next, exactly where every tick refused for its
timestamp has no number above the last one. -/
theorem noTrace_iff (engine : DataQualityEngine) (ticks : List TickEvent) :
    (∀ pre, pre <+: ticks → ∀ next, NoTrace engine (pre ++ [next])) ↔
      Guarded (fun engine tick => (validateTick engine tick).1) Harmless engine ticks := by
  constructor
  · intro htrace
    induction ticks using List.reverseRecOn with
    | nil => trivial
    | append_singleton ticks tick ih =>
      have hpre := ih fun pre hpre => htrace pre (hpre.trans (List.prefix_append ticks [tick]))
      refine (guarded_append _ _ _ _ _).mpr ⟨hpre, ?_, trivial⟩
      by_contra hharmful
      obtain ⟨next, hnext⟩ := harmful_seen hpre hharmful
      have hwhole := htrace (ticks ++ [tick]) (List.prefix_refl _) next
      rw [List.append_assoc] at hwhole
      exact hnext hwhole
  · rintro hguarded pre ⟨rest, rfl⟩ next
    have hpre := ((guarded_append _ _ _ _ _).mp hguarded).1
    obtain ⟨hoff, hsame⟩ := noTrace_of_harmless hpre
    rw [NoTrace, acceptedTicks] at hoff ⊢
    rw [keptLabels_append, outputs_append, outputs_append, List.filter_append, hoff]
    refine congrArg _ ?_
    cases hvalid : ((final validateTick engine pre).validateTick next).2.isValid with
    | true =>
      have hkept : keptLabels validateTick (fun out => out.2.isValid) (final validateTick engine pre) [next] =
          [next] := by simp [keptLabels, hvalid]
      rw [hkept, outputs_cons, outputs_cons, outputs_nil, outputs_nil, List.filter_cons, if_pos hvalid]
      exact congrArg (fun result => [(next, result)]) (validateTick_sameFor (hsame next.symbol)).symm
    | false =>
      have hkept : keptLabels validateTick (fun out => out.2.isValid) (final validateTick engine pre) [next] =
          [] := by simp [keptLabels, hvalid]
      rw [hkept, outputs_cons, outputs_nil, outputs_nil, List.filter_cons, if_neg (by simp [hvalid])]
      rfl

end Runs

/-- Rejected ticks leave no trace exactly where those refused for their timestamp have no number above the last one;
accepted ticks are always in order, and no symbol's ticks bear on another's. -/
theorem rejected_ticks (engine : DataQualityEngine) (ticks : List TickEvent) :
    ((∀ pre, pre <+: ticks → ∀ next, NoTrace engine (pre ++ [next])) ↔
      Guarded (fun engine tick => (validateTick engine tick).1) Harmless engine ticks) ∧
    ((acceptedTicks engine ticks).Pairwise fun a b => a.symbol = b.symbol →
      a.timestamp ≤ b.timestamp ∧ ∀ m n, a.sequenceNumber = some m → b.sequenceNumber = some n → m ≤ n) ∧
    ∀ symbol, outputs validateTick engine (ticks.filter (fun tick => tick.symbol = symbol)) =
      (outputs validateTick engine ticks).filter (fun out => out.1.symbol = symbol) :=
  ⟨noTrace_iff engine ticks, acceptedTicks_ordered engine ticks, outputs_symbol engine ticks⟩

/-- The second tick is refused for its timestamp, and its number hides the gap before the third. -/
theorem late_number_hides_gap :
    ¬∀ ticks : List TickEvent, NoTrace {} ticks := by
  intro h
  have htrace := h [{ timestamp := 10, symbol := "NIFTY 50", ltp := 24000, sequenceNumber := some 1 },
    { timestamp := 9, symbol := "NIFTY 50", ltp := 24001, sequenceNumber := some 5 },
    { timestamp := 11, symbol := "NIFTY 50", ltp := 24002, sequenceNumber := some 6 }]
  rw [NoTrace, acceptedTicks] at htrace
  revert htrace
  decide +kernel

end DataQualityEngine
end Droid.Feed
