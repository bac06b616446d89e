import Droid.Lib.Frames
import Droid.Lib.Rounding
import Mathlib

/-! The data firewall: what of a frame of bars is kept, and what is reported of it. -/
namespace Droid.Market.Firewall
open Lib

/-- A column of floats: its total order, in which a NaN equals itself and is the greatest, and the
arithmetic of the jump check. -/
class Prices (F : Type) extends LinearOrder F, Zero F where
  /-- `abs(close - previous) / previous > max_jump_pct` -/
  jumps : ℚ → F → F → Bool

/-- A row; `none` is a missing value. The timestamps of a cleaned frame are microseconds. -/
structure Bar (T P : Type) where
  timestamp : Option T
  open_ : Option P
  high : Option P
  low : Option P
  close : Option P
  volume : Option P
  deriving DecidableEq

/-- A frame by the type of its timestamp column; a price is a float already or another value. -/
inductive Frame (V F : Type) where
  | datetime (rows : List (Bar Int (F ⊕ V)))
  | epoch (rows : List (Bar ℚ (F ⊕ V)))
  | text (rows : List (Bar String (F ⊕ V)))

/-- The conversions of the library that may raise; a text is read in the format that the column is
found to have. -/
structure Casts (V F : Type) where
  toFloat : V → Option F
  toDatetime : List (Option String) → String → Option Int

inductive DataQualityStatus where
  | PASSED | DEGRADED | FAILED
  deriving DecidableEq, Repr

inductive ReportError where
  | empty
  | typeCasting
  | invalidGeometry (bars : Nat)
  deriving DecidableEq, Repr

inductive ReportWarning where
  | deduplicated (bars : Nat)
  | jumps (bars : Nat) (maxJumpPct : ℚ)
  | missing (bars : Int)
  deriving DecidableEq

structure DataQualityReport where
  status : DataQualityStatus
  score : ℚ
  totalInputBars : Nat
  validBars : Nat
  duplicatesRemoved : Nat
  invalidOhlcBars : Nat
  anomalousJumps : Nat
  missingBarsCount : Int
  errors : List ReportError
  warnings : List ReportWarning
  deriving DecidableEq

structure DataQualityFirewall where
  maxJumpPct : ℚ := 8 / 100
  sessionOnly : Bool := true

/-- The frame that comes back: cleaned, or as far as it was converted when a conversion raised. -/
inductive Returned (V F : Type) where
  | cleaned (rows : List (Bar Int F))
  | refused (frame : Frame V F)

variable {V F : Type}

namespace Frame

def height : Frame V F → Nat
  | .datetime rows => rows.length
  | .epoch rows => rows.length
  | .text rows => rows.length

/-- A cleaned frame as an input. -/
def ofRows (rows : List (Bar Int F)) : Frame V F :=
  .datetime (rows.map fun row =>
    { timestamp := row.timestamp, open_ := row.open_.map .inl, high := row.high.map .inl
      low := row.low.map .inl, close := row.close.map .inl, volume := row.volume.map .inl })

end Frame

/-! Conversion. -/

def fromEpoch (milliseconds : Bool) (x : ℚ) : Int :=
  x.num.tdiv x.den * if milliseconds then 1000 else 1000000

/-- Whether the first timestamp says milliseconds; to compare a missing one raises. -/
def epochUnit : List (Bar ℚ (F ⊕ V)) → Option Bool
  | [] => some true
  | row :: _ => row.timestamp.map fun first => decide (10 ^ 11 < first)

def convertTimestamps (casts : Casts V F) : Frame V F → Option (List (Bar Int (F ⊕ V)))
  | .datetime rows => some rows
  | .epoch rows => do
    let milliseconds ← epochUnit rows
    return rows.map fun row => { row with timestamp := row.timestamp.map (fromEpoch milliseconds) }
  | .text rows => rows.mapM fun row =>
    match row.timestamp with
    | none => some { row with timestamp := none }
    | some text =>
      (casts.toDatetime (rows.map Bar.timestamp) text).map fun t => { row with timestamp := some t }

/-- `cast(pl.Float64)` of one cell. -/
def castCell (casts : Casts V F) : Option (F ⊕ V) → Option (Option F)
  | none => some none
  | some (.inl x) => some (some x)
  | some (.inr v) => (casts.toFloat v).map some

def castPrices (casts : Casts V F) (row : Bar Int (F ⊕ V)) : Option (Bar Int F) := do
  let open_ ← castCell casts row.open_
  let high ← castCell casts row.high
  let low ← castCell casts row.low
  let close ← castCell casts row.close
  let volume ← castCell casts row.volume
  return { timestamp := row.timestamp, open_, high, low, close, volume }

/-- The frame in standard types; where a conversion raises, as far as it got. -/
def standardize (casts : Casts V F) (frame : Frame V F) : Except (Frame V F) (List (Bar Int F)) :=
  match convertTimestamps casts frame with
  | none => .error frame
  | some rows =>
    match rows.mapM (castPrices casts) with
    | none => .error (.datetime rows)
    | some bars => .ok bars

/-! The filters. -/

/-- `timestamp + 5:30`, in microseconds. -/
def ist (t : Int) : Int := t + 19800000000

def totalMinutes (t : Int) : Int := ist t / 3600000000 % 24 * 60 + ist t / 60000000 % 60

/-- Monday is 1. -/
def weekday (t : Int) : Int := (ist t / 86400000000 + 3) % 7 + 1

def sessionMask (row : Bar Int F) : Option Bool :=
  allOf [row.timestamp.map fun t => decide (9 * 60 + 15 ≤ totalMinutes t),
    row.timestamp.map fun t => decide (totalMinutes t ≤ 15 * 60 + 30),
    row.timestamp.map fun t => decide (weekday t ≤ 5)]

section Masks
variable [Prices F]

/-- `a <= b`, unknown where one of the two is missing. -/
def atMost (a b : Option F) : Option Bool :=
  match a, b with
  | some x, some y => some (decide (x ≤ y))
  | _, _ => none

def ohlcValidMask (row : Bar Int F) : Option Bool :=
  allOf [atMost row.low row.open_, atMost row.low row.close, atMost row.open_ row.high,
    atMost row.close row.high, atMost row.low row.high, row.low.map fun low => decide (0 < low)]

end Masks

def sortKey (row : Bar Int F) : WithBot Int := row.timestamp

def sortRows (rows : List (Bar Int F)) : List (Bar Int F) :=
  rows.insertionSort fun a b => sortKey a ≤ sortKey b

namespace DataQualityFirewall
variable [Prices F] (fw : DataQualityFirewall)

def dedup (rows : List (Bar Int F)) : List (Bar Int F) := keepFirst Bar.timestamp rows

def filterSession (rows : List (Bar Int F)) : List (Bar Int F) :=
  if fw.sessionOnly then keepTrue sessionMask rows else rows

def checked (rows : List (Bar Int F)) : List (Bar Int F) :=
  fw.filterSession (sortRows (dedup rows))

/-- The rows that the mask is known to refuse. -/
def invalidOhlc (rows : List (Bar Int F)) : List (Bar Int F) :=
  keepTrue (fun row => negation (ohlcValidMask row)) rows

/-- The filter is applied only where there is something to refuse. -/
def dropInvalid (rows : List (Bar Int F)) : List (Bar Int F) :=
  if 0 < (invalidOhlc rows).length then keepTrue ohlcValidMask rows else rows

def anomalousJumps (rows : List (Bar Int F)) : Nat :=
  ((rows.zip rows.tail).filter fun (previous, row) =>
    match previous.close, row.close with
    | some p, some c => Prices.jumps fw.maxJumpPct c p
    | _, _ => false).length

/-- Whole seconds between neighbours whose timestamps are known. -/
def diffs (rows : List (Bar Int F)) : List Int :=
  (rows.zip rows.tail).filterMap fun (previous, row) =>
    match previous.timestamp, row.timestamp with
    | some p, some t => some ((t - p).tdiv 1000000)
    | _, _ => none

def missingBarsCount (rows : List (Bar Int F)) : Int :=
  ⌊(((diffs rows).filter fun d => decide (60 < d ∧ d ≤ 18000)).map fun d => (d : ℚ) / 60 - 1).sum⌋

/-- The points that a share of the input costs, up to a limit. -/
def penalty (limit weight : ℚ) (count : ℚ) (totalInput : Nat) : ℚ :=
  min limit (count / max 1 (totalInput : ℚ) * 100 * weight)

def score (duplicates invalid jumps : Nat) (missing : Int) (totalInput : Nat) : ℚ :=
  max 0 (roundTo 2 (100 - penalty 30 2 duplicates totalInput - penalty 40 10 invalid totalInput -
    penalty 20 5 jumps totalInput - penalty 20 1 missing totalInput))

def report (totalInput : Nat) (rows : List (Bar Int F)) : DataQualityReport :=
  let duplicates := rows.length - (dedup rows).length
  let invalid := (invalidOhlc (fw.checked rows)).length
  let cleaned := dropInvalid (fw.checked rows)
  let jumps := fw.anomalousJumps cleaned
  let missing := missingBarsCount cleaned
  let score := score duplicates invalid jumps missing totalInput
  { status :=
      if score < 70 ∨ (totalInput : ℚ) / 100 < invalid then .FAILED
      else if score < 95 ∨ 10 < missing ∨ 0 < jumps then .DEGRADED
      else .PASSED
    score
    totalInputBars := totalInput
    validBars := cleaned.length
    duplicatesRemoved := duplicates
    invalidOhlcBars := invalid
    anomalousJumps := jumps
    missingBarsCount := missing
    errors := if 0 < invalid then [.invalidGeometry invalid] else []
    warnings := (if 0 < duplicates then [.deduplicated duplicates] else []) ++
      (if 0 < jumps then [.jumps jumps fw.maxJumpPct] else []) ++
      (if 0 < missing then [.missing missing] else []) }

/-- The report of a frame that is given back as it is. -/
def failedReport (totalInput : Nat) (error : ReportError) : DataQualityReport :=
  { status := .FAILED, score := 0, totalInputBars := totalInput, validBars := 0, duplicatesRemoved := 0
    invalidOhlcBars := 0, anomalousJumps := 0, missingBarsCount := 0, errors := [error], warnings := [] }

/-- `inspect_and_clean` of a frame that has the required columns. -/
def inspectAndClean (casts : Casts V F) (frame : Frame V F) : Returned V F × DataQualityReport :=
  let totalInput := frame.height
  if totalInput = 0 then (.cleaned [], failedReport 0 .empty)
  else
    match standardize casts frame with
    | .error frame => (.refused frame, failedReport totalInput .typeCasting)
    | .ok rows => (.cleaned (dropInvalid (fw.checked rows)), fw.report totalInput rows)

end DataQualityFirewall

/-! What is asked of a cleaned frame, and which frames grant it. -/

section
variable [Prices F]

/-- All four prices are there, and in order. -/
def Coherent (row : Bar Int F) : Prop :=
  ∃ o h l c, row.open_ = some o ∧ row.high = some h ∧ row.low = some l ∧ row.close = some c ∧
    l ≤ o ∧ o ≤ h ∧ l ≤ c ∧ c ≤ h ∧ 0 < l

def InSession (row : Bar Int F) : Prop :=
  ∃ t, row.timestamp = some t ∧ 9 * 60 + 15 ≤ totalMinutes t ∧ totalMinutes t ≤ 15 * 60 + 30 ∧
    weekday t ≤ 5

def inputRows (casts : Casts V F) (frame : Frame V F) : List (Bar Int F) :=
  match standardize casts frame with
  | .error _ => []
  | .ok rows => rows

def DataQualityFirewall.outsideSession (fw : DataQualityFirewall) (rows : List (Bar Int F)) : Nat :=
  if fw.sessionOnly then ((dedup rows).filter fun row => ¬ sessionMask row = some true).length else 0

open DataQualityFirewall in
structure CleanOutput (fw : DataQualityFirewall) (casts : Casts V F) (frame : Frame V F)
    (rows : List (Bar Int F)) (report : DataQualityReport) : Prop where
  increasing : ∃ stamps : List Int, rows.map Bar.timestamp = stamps.map some ∧ stamps.Pairwise (· < ·)
  sound : ∀ row ∈ rows, row ∈ inputRows casts frame ∧ Coherent row
  accounted : report.duplicatesRemoved + report.invalidOhlcBars + report.validBars +
    fw.outsideSession (inputRows casts frame) = report.totalInputBars
  stable : ∃ report', fw.inspectAndClean casts (.ofRows rows) = (.cleaned rows, report') ∧
    report'.duplicatesRemoved = 0 ∧ report'.invalidOhlcBars = 0

/-- The frame that comes back is cleaned, and clean. -/
def OutputClean (fw : DataQualityFirewall) (casts : Casts V F) (frame : Frame V F) : Prop :=
  ∃ rows report, fw.inspectAndClean casts frame = (.cleaned rows, report) ∧
    CleanOutput fw casts frame rows report

def Complete (row : Bar Int F) : Prop :=
  row.open_.isSome ∧ row.high.isSome ∧ row.low.isSome ∧ row.close.isSome

/-- The two prices are in order, where both are there. -/
def Ordered (a b : Option F) : Prop := ∀ x y, a = some x → b = some y → x ≤ y

/-- No comparison between prices that are there fails. -/
def Consistent (row : Bar Int F) : Prop :=
  Ordered row.low row.open_ ∧ Ordered row.low row.close ∧ Ordered row.open_ row.high ∧
    Ordered row.close row.high ∧ Ordered row.low row.high ∧ ∀ x, row.low = some x → 0 < x

/-- The columns convert; and of the rows that are the first of their timestamp, and in the session where
that is asked, one that lacks a price fails a comparison between the others, and so does one that lacks
its timestamp. -/
def Determined (fw : DataQualityFirewall) (casts : Casts V F) (frame : Frame V F) : Prop :=
  ∃ rows, standardize casts frame = .ok rows ∧
    ∀ row ∈ keepFirst Bar.timestamp rows, (fw.sessionOnly → InSession row) → Consistent row →
      Complete row ∧ row.timestamp.isSome

/-! The masks. -/

private theorem ordered_some {x y : F} : Ordered (some x) (some y) ↔ x ≤ y := by
  constructor
  · intro h
    exact h x y rfl rfl
  · rintro h _ _ ⟨⟩ ⟨⟩
    exact h

omit [Prices F] in
private theorem of_some {P : F → Prop} {x : F} : (∀ y, some x = some y → P y) ↔ P x := by
  constructor
  · intro h
    exact h x rfl
  · rintro h _ ⟨⟩
    exact h

theorem atMost_eq_false {a b : Option F} : some false = atMost a b ↔ ¬ Ordered a b := by
  cases a with
  | none => exact iff_of_false (fun h => by cases h) (not_not.mpr fun x y hx => by cases hx)
  | some x =>
    cases b with
    | none => exact iff_of_false (fun h => by cases h) (not_not.mpr fun x y _ hy => by cases hy)
    | some y =>
      rw [atMost, Option.some.injEq, eq_comm, decide_eq_false_iff_not, ordered_some]

theorem atMost_eq_true {a b : Option F} :
    atMost a b = some true ↔ a.isSome ∧ b.isSome ∧ Ordered a b := by
  cases a with
  | none => exact iff_of_false (fun h => by cases h) (fun h => by cases h.1)
  | some x =>
    cases b with
    | none => exact iff_of_false (fun h => by cases h) (fun h => by cases h.2.1)
    | some y =>
      rw [atMost, Option.some.injEq, decide_eq_true_eq, ordered_some]
      exact ⟨fun h => ⟨rfl, rfl, h⟩, fun h => h.2.2⟩

theorem ohlcValidMask_eq_false {row : Bar Int F} :
    ohlcValidMask row = some false ↔ ¬ Consistent row := by
  have hpositive : some false = row.low.map (fun low => decide (0 < low)) ↔
      ¬ ∀ x, row.low = some x → 0 < x := by
    cases row.low with
    | none => exact iff_of_false (fun h => by cases h) (not_not.mpr fun x hx => by cases hx)
    | some x =>
      rw [Option.map_some, Option.some.injEq, eq_comm, decide_eq_false_iff_not, of_some]
  rw [ohlcValidMask, allOf_eq_false]
  simp only [List.mem_cons, List.not_mem_nil, or_false, atMost_eq_false, hpositive, Consistent,
    not_and_or]

theorem ohlcValidMask_eq_true {row : Bar Int F} :
    ohlcValidMask row = some true ↔ Complete row ∧ Consistent row := by
  have hpositive : row.low.map (fun low => decide (0 < low)) = some true ↔
      row.low.isSome ∧ ∀ x, row.low = some x → 0 < x := by
    cases row.low with
    | none => exact iff_of_false (fun h => by cases h) (fun h => by cases h.1)
    | some x =>
      rw [Option.map_some, Option.some.injEq, decide_eq_true_eq, of_some]
      exact ⟨fun h => ⟨rfl, h⟩, fun h => h.2⟩
  rw [ohlcValidMask, allOf_eq_true]
  simp only [List.forall_mem_cons, List.not_mem_nil, false_imp_iff, implies_true, and_true,
    atMost_eq_true, hpositive, Complete, Consistent]
  tauto

theorem coherent_iff {row : Bar Int F} : Coherent row ↔ Complete row ∧ Consistent row := by
  constructor
  · rintro ⟨o, h, l, c, ho, hh, hl, hc, hlo, hoh, hlc, hch, hpos⟩
    rw [Complete, Consistent, ho, hh, hl, hc, ordered_some, ordered_some, ordered_some, ordered_some,
      ordered_some, of_some]
    exact ⟨⟨rfl, rfl, rfl, rfl⟩, hlo, hlc, hoh, hch, hlo.trans hoh, hpos⟩
  · rintro ⟨⟨ho, hh, hl, hc⟩, hlo, hlc, hoh, hch, -, hpos⟩
    obtain ⟨o, ho⟩ := Option.isSome_iff_exists.mp ho
    obtain ⟨h, hh⟩ := Option.isSome_iff_exists.mp hh
    obtain ⟨l, hl⟩ := Option.isSome_iff_exists.mp hl
    obtain ⟨c, hc⟩ := Option.isSome_iff_exists.mp hc
    exact ⟨o, h, l, c, ho, hh, hl, hc, hlo l o hl ho, hoh o h ho hh, hlc l c hl hc, hch c h hc hh,
      hpos l hl⟩

theorem ohlcValidMask_eq_none {row : Bar Int F} :
    ohlcValidMask row = none ↔ ¬ Complete row ∧ Consistent row := by
  constructor
  · intro h
    have hc : Consistent row := by
      by_contra hc
      have hfalse := ohlcValidMask_eq_false.mpr hc
      rw [h] at hfalse
      cases hfalse
    refine ⟨fun hcomplete => ?_, hc⟩
    have htrue := ohlcValidMask_eq_true.mpr ⟨hcomplete, hc⟩
    rw [h] at htrue
    cases htrue
  · rintro ⟨hcomplete, hc⟩
    rcases h : ohlcValidMask row with _ | _ | _
    · rfl
    · exact absurd hc (ohlcValidMask_eq_false.mp h)
    · exact absurd (ohlcValidMask_eq_true.mp h).1 hcomplete

omit [Prices F] in
theorem sessionMask_eq_true {row : Bar Int F} : sessionMask row = some true ↔ InSession row := by
  rw [sessionMask, allOf_eq_true]
  simp only [List.forall_mem_cons, List.not_mem_nil, false_imp_iff, implies_true, and_true]
  cases ht : row.timestamp with
  | none =>
    refine iff_of_false (fun h => by cases h.1) ?_
    rintro ⟨t, hrow, -⟩
    rw [ht] at hrow
    cases hrow
  | some t =>
    simp only [Option.map_some, Option.some.injEq, decide_eq_true_eq]
    constructor
    · rintro ⟨h1, h2, h3⟩
      exact ⟨t, ht, h1, h2, h3⟩
    · rintro ⟨t', hrow, h1, h2, h3⟩
      rw [ht] at hrow
      obtain rfl := Option.some.inj hrow
      exact ⟨h1, h2, h3⟩

end

/-! Conversion keeps the rows, and a cleaned frame needs none. -/

section
variable {α β : Type}

private theorem length_mapM {f : α → Option β} {l : List α} {l' : List β} (h : l.mapM f = some l') :
    l'.length = l.length := by
  induction l generalizing l' with
  | nil =>
    obtain rfl := Option.some.inj h
    rfl
  | cons a rest ih =>
    rw [List.mapM_cons] at h
    obtain ⟨b, -, h⟩ := Option.bind_eq_some_iff.mp h
    obtain ⟨bs, hbs, h⟩ := Option.bind_eq_some_iff.mp h
    obtain rfl := Option.some.inj h
    rw [List.length_cons, List.length_cons, ih hbs]

private theorem mapM_map_self {f : β → Option α} {g : α → β} (h : ∀ a, f (g a) = some a) (l : List α) :
    (l.map g).mapM f = some l := by
  induction l with
  | nil => rfl
  | cons a rest ih =>
    rw [List.map_cons, List.mapM_cons, h, ih]
    rfl

private theorem length_convertTimestamps {casts : Casts V F} {frame : Frame V F}
    {rows : List (Bar Int (F ⊕ V))} (h : convertTimestamps casts frame = some rows) :
    rows.length = frame.height := by
  cases frame with
  | datetime rows' =>
    obtain rfl := Option.some.inj h
    rfl
  | epoch rows' =>
    obtain ⟨unit, -, h⟩ := Option.bind_eq_some_iff.mp h
    obtain rfl := Option.some.inj h
    exact List.length_map _
  | text rows' => exact length_mapM h

theorem length_standardize {casts : Casts V F} {frame : Frame V F} {rows : List (Bar Int F)}
    (h : standardize casts frame = .ok rows) : rows.length = frame.height := by
  unfold standardize at h
  split at h
  · cases h
  · rename_i raws hraws
    split at h
    · cases h
    · rename_i bars hbars
      obtain rfl := Except.ok.inj h
      rw [length_mapM hbars, length_convertTimestamps hraws]

theorem standardize_ofRows (casts : Casts V F) (rows : List (Bar Int F)) :
    standardize casts (.ofRows rows) = .ok rows := by
  have hcell : ∀ x : Option F, castCell casts (x.map Sum.inl) = some x := by
    intro x
    cases x <;> rfl
  have hrow : ∀ row : Bar Int F, castPrices casts
      { timestamp := row.timestamp, open_ := row.open_.map .inl, high := row.high.map .inl
        low := row.low.map .inl, close := row.close.map .inl, volume := row.volume.map .inl } =
      some row := by
    intro row
    simp only [castPrices, hcell, bind, Option.bind, pure]
  simp only [standardize, Frame.ofRows, convertTimestamps, mapM_map_self hrow]

theorem standardize_empty {casts : Casts V F} {frame : Frame V F} (h : frame.height = 0) :
    standardize casts frame = .ok [] := by
  cases frame with
  | datetime rows =>
    obtain rfl := List.length_eq_zero_iff.mp h
    rfl
  | epoch rows =>
    obtain rfl := List.length_eq_zero_iff.mp h
    rfl
  | text rows =>
    obtain rfl := List.length_eq_zero_iff.mp h
    rfl

end

/-! The rows that are checked. -/

section
variable [Prices F] {fw : DataQualityFirewall} {rows : List (Bar Int F)}
open DataQualityFirewall

private instance : Std.Total (fun a b : Bar Int F => sortKey a ≤ sortKey b) :=
  ⟨fun a b => le_total (sortKey a) (sortKey b)⟩

private instance : IsTrans (Bar Int F) (fun a b => sortKey a ≤ sortKey b) :=
  ⟨fun _ _ _ h h' => le_trans h h'⟩

omit [Prices F] in
private theorem sortRows_perm (rows : List (Bar Int F)) : (sortRows rows).Perm rows :=
  List.perm_insertionSort _ rows

omit [Prices F] in
theorem mem_checked {row : Bar Int F} :
    row ∈ fw.checked rows ↔
      row ∈ keepFirst Bar.timestamp rows ∧ (fw.sessionOnly → InSession row) := by
  rw [checked, filterSession]
  cases fw.sessionOnly with
  | true =>
    rw [if_pos rfl, mem_keepTrue, sessionMask_eq_true, (sortRows_perm _).mem_iff]
    exact and_congr_right fun _ => ⟨fun h _ => h, fun h => h rfl⟩
  | false =>
    rw [if_neg Bool.false_ne_true, (sortRows_perm _).mem_iff]
    exact (and_iff_left fun h => by cases h).symm

omit [Prices F] in
theorem checked_pairwise : (fw.checked rows).Pairwise fun a b => sortKey a < sortKey b := by
  have hsub : (fw.checked rows).Sublist (sortRows (dedup rows)) := by
    rw [checked, filterSession]
    split
    · exact List.filter_sublist
    · exact List.Sublist.refl _
  refine List.Pairwise.sublist hsub ?_
  have hle : (sortRows (dedup rows)).Pairwise fun a b => sortKey a ≤ sortKey b :=
    List.pairwise_insertionSort _ _
  have hne : (sortRows (dedup rows)).Pairwise fun a b => sortKey a ≠ sortKey b := by
    have hnodup : ((sortRows (dedup rows)).map Bar.timestamp).Nodup :=
      ((sortRows_perm _).map Bar.timestamp).nodup_iff.mpr (nodup_keepFirst Bar.timestamp rows)
    exact List.pairwise_map.mp hnodup
  exact (hle.and hne).imp fun h => lt_of_le_of_ne h.1 h.2

omit [Prices F] in
theorem length_checked (fw : DataQualityFirewall) (rows : List (Bar Int F)) :
    (fw.checked rows).length + fw.outsideSession rows = (dedup rows).length := by
  have hperm := sortRows_perm (dedup rows)
  rw [checked, filterSession, outsideSession]
  cases fw.sessionOnly with
  | true =>
    have hout := (hperm.filter fun row => ¬ sessionMask row = some true).length_eq
    rw [if_pos rfl, if_pos rfl, ← hout, ← hperm.length_eq, keepTrue]
    have hsplit := List.length_eq_length_filter_add (l := sortRows (dedup rows))
      fun row => decide (sessionMask row = some true)
    simp only [decide_not]
    exact hsplit.symm
  | false =>
    rw [if_neg Bool.false_ne_true, if_neg Bool.false_ne_true]
    exact hperm.length_eq

/-- Where the mask is known everywhere, only the rows that it accepts are left. -/
theorem dropInvalid_eq (h : ∀ row ∈ rows, ohlcValidMask row ≠ none) :
    dropInvalid rows = keepTrue ohlcValidMask rows := by
  unfold dropInvalid
  split
  · rfl
  · rename_i hnone
    symm
    rw [keepTrue_eq_self]
    intro row hrow
    have hempty : invalidOhlc rows = [] := List.length_eq_zero_iff.mp (by omega)
    rcases hmask : ohlcValidMask row with _ | _ | _
    · exact absurd hmask (h row hrow)
    · have hmem : row ∈ invalidOhlc rows := (mem_keepTrue _).mpr ⟨hrow, by rw [hmask]; rfl⟩
      rw [hempty] at hmem
      exact absurd hmem List.not_mem_nil
    · rfl

/-- A frame that is clean comes back as it is. -/
theorem inspectAndClean_ofRows (casts : Casts V F)
    (hsorted : rows.Pairwise fun a b => sortKey a < sortKey b)
    (hmask : ∀ row ∈ rows, ohlcValidMask row = some true) (hsession : fw.sessionOnly → ∀ row ∈ rows, InSession row) :
    ∃ report, fw.inspectAndClean casts (.ofRows rows) = (.cleaned rows, report) ∧
      report.duplicatesRemoved = 0 ∧ report.invalidOhlcBars = 0 := by
  have hnodup : (rows.map Bar.timestamp).Nodup := List.pairwise_map.mpr (hsorted.imp fun h => h.ne)
  have hdedup : dedup rows = rows := keepFirst_eq_self Bar.timestamp hnodup
  have hsort : sortRows rows = rows := (hsorted.imp fun h => h.le).insertionSort_eq
  have hchecked : fw.checked rows = rows := by
    rw [checked, hdedup, hsort, filterSession]
    split
    · rename_i hs
      exact (keepTrue_eq_self _).mpr fun row hrow => sessionMask_eq_true.mpr (hsession hs row hrow)
    · rfl
  have hinvalid : invalidOhlc rows = [] := by
    rw [invalidOhlc, keepTrue, List.filter_eq_nil_iff]
    intro row hrow
    rw [hmask row hrow]
    decide
  have hdrop : dropInvalid rows = rows := if_neg (by rw [hinvalid]; exact lt_irrefl 0)
  unfold inspectAndClean
  by_cases h0 : (Frame.ofRows (V := V) rows).height = 0
  · have hrows : rows = [] := by
      rw [Frame.ofRows, Frame.height, List.length_map] at h0
      exact List.length_eq_zero_iff.mp h0
    rw [if_pos h0, hrows]
    exact ⟨_, rfl, rfl, rfl⟩
  · rw [if_neg h0, standardize_ofRows]
    dsimp only
    refine ⟨fw.report _ rows, by rw [hchecked, hdrop], ?_, ?_⟩
    · change rows.length - (dedup rows).length = 0
      rw [hdedup, Nat.sub_self]
    · change (invalidOhlc (fw.checked rows)).length = 0
      rw [hchecked, hinvalid]
      rfl

end

/-! The law. -/

section
variable [Prices F] {fw : DataQualityFirewall} {casts : Casts V F} {frame : Frame V F}
  {rows : List (Bar Int F)}
open DataQualityFirewall

omit [Prices F] in
private theorem increasing_of_pairwise (hsorted : rows.Pairwise fun a b => sortKey a < sortKey b)
    (hsome : ∀ row ∈ rows, row.timestamp.isSome) :
    ∃ stamps : List Int, rows.map Bar.timestamp = stamps.map some ∧ stamps.Pairwise (· < ·) := by
  have hkeys : (rows.map Bar.timestamp) = (rows.filterMap Bar.timestamp).map some := by
    clear hsorted
    induction rows with
    | nil => rfl
    | cons row rest ih =>
      obtain ⟨hrow, hrest⟩ := List.forall_mem_cons.mp hsome
      obtain ⟨t, ht⟩ := Option.isSome_iff_exists.mp hrow
      rw [List.map_cons, List.filterMap_cons_some ht, List.map_cons, ← ih hrest, ht]
  refine ⟨rows.filterMap Bar.timestamp, hkeys, ?_⟩
  rw [List.pairwise_filterMap]
  refine hsorted.imp fun hlt t ht t' ht' => ?_
  rw [sortKey, sortKey, ht, ht'] at hlt
  exact WithBot.coe_lt_coe.mp hlt

private theorem cleanOutput_of_determined (hrows : standardize casts frame = .ok rows)
    (h : ∀ row ∈ fw.checked rows, Consistent row → Complete row ∧ row.timestamp.isSome) :
    CleanOutput fw casts frame (dropInvalid (fw.checked rows)) (fw.report frame.height rows) := by
  have hinput : inputRows casts frame = rows := by simp only [inputRows, hrows]
  have hknown : ∀ row ∈ fw.checked rows, ohlcValidMask row ≠ none := by
    intro row hrow hnone
    obtain ⟨hincomplete, hconsistent⟩ := ohlcValidMask_eq_none.mp hnone
    exact hincomplete (h row hrow hconsistent).1
  have hdrop := dropInvalid_eq hknown
  have hmask : ∀ row ∈ dropInvalid (fw.checked rows), row ∈ fw.checked rows ∧
      ohlcValidMask row = some true := by
    rw [hdrop]
    exact fun row hrow => (mem_keepTrue _).mp hrow
  have hsorted : (dropInvalid (fw.checked rows)).Pairwise fun a b => sortKey a < sortKey b := by
    rw [hdrop]
    exact checked_pairwise.sublist List.filter_sublist
  refine ⟨increasing_of_pairwise hsorted fun row hrow => ?_, fun row hrow => ⟨?_, ?_⟩, ?_, ?_⟩
  · obtain ⟨hchecked, htrue⟩ := hmask row hrow
    exact (h row hchecked (ohlcValidMask_eq_true.mp htrue).2).2
  · rw [hinput]
    exact (keepFirst_sublist _ rows).subset (mem_checked.mp (hmask row hrow).1).1
  · exact coherent_iff.mpr (ohlcValidMask_eq_true.mp (hmask row hrow).2)
  · have hle : (dedup rows).length ≤ rows.length := (keepFirst_sublist _ rows).length_le
    have hunknown : ((fw.checked rows).filter fun row => ohlcValidMask row = none) = [] := by
      rw [List.filter_eq_nil_iff]
      exact fun row hrow => by rw [decide_eq_true_eq]; exact hknown row hrow
    have hparts := length_keepTrue ohlcValidMask (fw.checked rows)
    have hchecked := length_checked fw rows
    have hheight := length_standardize hrows
    rw [hunknown, List.length_nil] at hparts
    change rows.length - (dedup rows).length + (invalidOhlc (fw.checked rows)).length +
      (dropInvalid (fw.checked rows)).length + fw.outsideSession (inputRows casts frame) = frame.height
    rw [hinput, hdrop, invalidOhlc]
    omega
  · exact inspectAndClean_ofRows casts hsorted (fun row hrow => (hmask row hrow).2)
      fun hs row hrow => (mem_checked.mp (hmask row hrow).1).2 hs

private theorem determined_of_cleanOutput (hrows : standardize casts frame = .ok rows)
    (h : CleanOutput fw casts frame (dropInvalid (fw.checked rows)) (fw.report frame.height rows)) :
    ∀ row ∈ fw.checked rows, Consistent row → Complete row ∧ row.timestamp.isSome := by
  have hinput : inputRows casts frame = rows := by simp only [inputRows, hrows]
  have hknown : ∀ row ∈ fw.checked rows, ohlcValidMask row ≠ none := by
    intro row hrow hnone
    by_cases hinvalid : 0 < (invalidOhlc (fw.checked rows)).length
    · -- the row is dropped and not counted
      have hmem : row ∈ (fw.checked rows).filter fun row => ohlcValidMask row = none :=
        List.mem_filter.mpr ⟨hrow, decide_eq_true hnone⟩
      have hpos := List.length_pos_of_mem hmem
      have hle : (dedup rows).length ≤ rows.length := (keepFirst_sublist _ rows).length_le
      have hparts := length_keepTrue ohlcValidMask (fw.checked rows)
      have hchecked := length_checked fw rows
      have hheight := length_standardize hrows
      have hsum : rows.length - (dedup rows).length + (invalidOhlc (fw.checked rows)).length +
          (dropInvalid (fw.checked rows)).length + fw.outsideSession (inputRows casts frame) =
          frame.height := h.accounted
      have hdrop : dropInvalid (fw.checked rows) = keepTrue ohlcValidMask (fw.checked rows) :=
        if_pos hinvalid
      rw [hinput, hdrop, invalidOhlc] at hsum
      omega
    · -- nothing is refused, and the row stays
      have hdrop : dropInvalid (fw.checked rows) = fw.checked rows := if_neg hinvalid
      have hcoherent := (h.sound row (by rw [hdrop]; exact hrow)).2
      exact (ohlcValidMask_eq_none.mp hnone).1 (coherent_iff.mp hcoherent).1
  intro row hrow hconsistent
  have hcomplete : Complete row := by
    by_contra hincomplete
    exact hknown row hrow (ohlcValidMask_eq_none.mpr ⟨hincomplete, hconsistent⟩)
  refine ⟨hcomplete, ?_⟩
  obtain ⟨stamps, hstamps, -⟩ := h.increasing
  have hmem : row ∈ dropInvalid (fw.checked rows) := by
    rw [dropInvalid_eq hknown]
    exact (mem_keepTrue _).mpr ⟨hrow, ohlcValidMask_eq_true.mpr ⟨hcomplete, hconsistent⟩⟩
  have hstamp := List.mem_map_of_mem (f := Bar.timestamp) hmem
  rw [hstamps] at hstamp
  obtain ⟨t, -, ht⟩ := List.mem_map.mp hstamp
  rw [← ht]
  rfl

/-- The cleaned frame is clean exactly where no missing value leaves a verdict open. -/
theorem outputClean_iff (fw : DataQualityFirewall) (casts : Casts V F) (frame : Frame V F) :
    OutputClean fw casts frame ↔ Determined fw casts frame := by
  by_cases h0 : frame.height = 0
  · have hrows : standardize casts frame = .ok [] := standardize_empty h0
    have hinput : inputRows casts frame = [] := by simp only [inputRows, hrows]
    refine iff_of_true ⟨[], failedReport 0 .empty, if_pos h0, ⟨[], rfl, .nil⟩,
      fun row hrow => absurd hrow List.not_mem_nil, ?_, ?_⟩
      ⟨[], hrows, fun row hrow => absurd hrow List.not_mem_nil⟩
    · rw [hinput, outsideSession]
      split <;> rfl
    · exact inspectAndClean_ofRows casts .nil (fun row hrow => absurd hrow List.not_mem_nil)
        fun _ row hrow => absurd hrow List.not_mem_nil
  · cases hrows : standardize casts frame with
    | error partly =>
      constructor
      · rintro ⟨rows, report, hclean, -⟩
        rw [inspectAndClean, if_neg h0, hrows] at hclean
        cases hclean
      · rintro ⟨rows, hok, -⟩
        rw [hrows] at hok
        cases hok
    | ok rows =>
      have hresult : fw.inspectAndClean casts frame =
          (.cleaned (dropInvalid (fw.checked rows)), fw.report frame.height rows) := by
        rw [inspectAndClean, if_neg h0, hrows]
      have hdetermined : Determined fw casts frame ↔ ∀ row ∈ fw.checked rows, Consistent row →
          Complete row ∧ row.timestamp.isSome := by
        simp only [Determined, hrows, Except.ok.injEq, exists_eq_left', mem_checked, and_imp]
      rw [hdetermined]
      constructor
      · rintro ⟨cleaned, report, hreturned, hclean⟩
        rw [hresult] at hreturned
        obtain ⟨hcleaned, rfl⟩ := Prod.mk.inj hreturned
        obtain rfl := Returned.cleaned.inj hcleaned
        exact determined_of_cleanOutput hrows hclean
      · intro h
        exact ⟨_, _, hresult, cleanOutput_of_determined hrows h⟩

end

scoped instance : Prices ℚ where
  jumps pct close previous := decide (pct < |close - previous| / previous)

def openBar : Bar Int ℚ :=
  { timestamp := some 1789962300000000, open_ := some 100, high := some 101, low := some 99
    close := none, volume := some 1 }

/-- No value needs a conversion. -/
def plainCasts : Casts Empty ℚ where
  toFloat := Empty.elim
  toDatetime _ _ := none

/-- It comes back as a valid bar. -/
theorem openBar_not_clean : ¬ OutputClean {} plainCasts (.ofRows [openBar]) := by
  rintro ⟨rows, report, hreturned, hclean⟩
  have hkept : (DataQualityFirewall.inspectAndClean {} plainCasts (.ofRows [openBar])).1 =
      .cleaned [openBar] := by rfl
  rw [hreturned] at hkept
  obtain rfl := Returned.cleaned.inj hkept
  obtain ⟨o, h, l, c, -, -, -, hc, -⟩ := (hclean.sound openBar List.mem_cons_self).2
  cases hc

end Droid.Market.Firewall
