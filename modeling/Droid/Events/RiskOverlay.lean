import Droid.Lib.Least
import Droid.Lib.Rounding
import Droid.Lib.Text
import Mathlib.Data.Rat.Floor

/-! The event risk overlay: the envelope that the high-importance events near the evaluation time leave
to an entry. Times are in microseconds, differences in minutes. -/
namespace Droid.Events
open Lib Text

/-- The fields of a canonical event that the overlay reads. -/
structure CanonicalEvent where
  canonicalEventId : String
  title : String
  eventType : String := "CENTRAL_BANK"
  sector : String := "BANKING"
  eventTimestamp : Int
  /-- The target symbols of its impact mappings. -/
  impactMappings : List String := []
  /-- The final importance score, once it is scored. -/
  importance : Option ℚ := none
  deriving DecidableEq, Repr

inductive ProximityState where
  | NORMAL | APPROACHING_WINDOW | BLACKOUT_WINDOW | REACTION_WINDOW
  deriving DecidableEq, Repr

structure EventRiskParameters where
  underlying : String
  proximityState : ProximityState := .NORMAL
  canEnter : Bool := true
  sizingMultiplier : ℚ := 1
  maxLossDampener : ℚ := 1
  prohibitNakedOptions : Bool := false
  rejectionReason : Option String := none
  triggeringEventId : Option String := none
  triggeringEventTitle : Option String := none
  minutesToEvent : Option ℚ := none
  deriving DecidableEq, Repr

structure EventRiskOverlayService where
  blackoutPreMinutes : ℚ := 5
  blackoutPostMinutes : ℚ := 5
  approachingWindowMinutes : ℚ := 30
  reactionWindowMinutes : ℚ := 15
  highImportanceThreshold : ℚ := 70

/-- `upper().replace(" ", "")`. -/
def cleanSymbol (symbol : String) : String := String.ofList ((upper symbol).toList.filter (· ≠ ' '))

/-- `f"{x:+.1f}"`. -/
def signedTenths (x : ℚ) : String :=
  let tenths := (roundHalfEven (|x| * 10)).toNat
  (if x < 0 then "-" else "+") ++ toString (tenths / 10) ++ "." ++ toString (tenths % 10)

def affectsSymbol (underlying : String) (event : CanonicalEvent) : Bool :=
  let clean := cleanSymbol underlying
  event.impactMappings.any (fun target => hasText (cleanSymbol target) clean) ||
    (event.sector == "BANKING" && hasText clean "BANKNIFTY") ||
    (["CENTRAL_BANK", "MACRO"].contains event.eventType && ["NIFTY", "BANKNIFTY"].contains clean)

/-- In minutes, positive before the event. -/
def minutesTo (now : Int) (event : CanonicalEvent) : ℚ := (event.eventTimestamp - now : ℚ) / 60000000

namespace EventRiskOverlayService
variable (cfg : EventRiskOverlayService)

def relevant (underlying : String) (event : CanonicalEvent) : Bool :=
  decide (cfg.highImportanceThreshold ≤ event.importance.getD 75) && affectsSymbol underlying event

def inBlackout (minutes : ℚ) : Bool :=
  decide (-cfg.blackoutPostMinutes ≤ minutes ∧ minutes ≤ cfg.blackoutPreMinutes)

def isApproaching (minutes : ℚ) : Bool :=
  decide (cfg.blackoutPreMinutes < minutes ∧ minutes ≤ cfg.approachingWindowMinutes)

def inReaction (minutes : ℚ) : Bool :=
  decide (-cfg.reactionWindowMinutes ≤ minutes ∧ minutes < -cfg.blackoutPostMinutes)

def envelope (underlying : String) (minutes : ℚ) (closest : CanonicalEvent) : EventRiskParameters :=
  let minutesToEvent := some (roundTo 1 minutes)
  let triggeringEventId := some closest.canonicalEventId
  let triggeringEventTitle := some closest.title
  if cfg.inBlackout minutes then
    { underlying, proximityState := .BLACKOUT_WINDOW, canEnter := false, sizingMultiplier := 0
      maxLossDampener := 0, prohibitNakedOptions := true
      rejectionReason := some ("EVENT_BLACKOUT_ACTIVE: In blackout window (" ++ signedTenths minutes ++
        "m) of '" ++ closest.title ++ "'")
      triggeringEventId, triggeringEventTitle, minutesToEvent }
  else if cfg.isApproaching minutes then
    { underlying, proximityState := .APPROACHING_WINDOW, sizingMultiplier := 1 / 2
      maxLossDampener := 1 / 2, prohibitNakedOptions := true
      triggeringEventId, triggeringEventTitle, minutesToEvent }
  else if cfg.inReaction minutes then
    { underlying, proximityState := .REACTION_WINDOW, sizingMultiplier := 3 / 4
      maxLossDampener := 3 / 4, prohibitNakedOptions := true
      triggeringEventId, triggeringEventTitle, minutesToEvent }
  else { underlying, triggeringEventId, minutesToEvent }

/-- The relevant event that is closest in time; of two at one distance, the one listed first. -/
def closest (underlying : String) (events : List CanonicalEvent) (now : Int) : Option CanonicalEvent :=
  firstLeast (fun event => |minutesTo now event|) (events.filter (cfg.relevant underlying))

def evaluateOverlay (underlying : String) (events : List CanonicalEvent) (now : Int) :
    EventRiskParameters :=
  match cfg.closest underlying events now with
  | none => { underlying }
  | some event => cfg.envelope underlying (minutesTo now event) event

/-! What a window leaves. -/

def window (minutes : ℚ) : ProximityState :=
  if cfg.inBlackout minutes then .BLACKOUT_WINDOW
  else if cfg.isApproaching minutes then .APPROACHING_WINDOW
  else if cfg.inReaction minutes then .REACTION_WINDOW
  else .NORMAL

end EventRiskOverlayService

def ProximityState.multiplier : ProximityState → ℚ
  | .BLACKOUT_WINDOW => 0
  | .APPROACHING_WINDOW => 1 / 2
  | .REACTION_WINDOW => 3 / 4
  | .NORMAL => 1

theorem ProximityState.multiplier_le_one (w : ProximityState) : w.multiplier ≤ 1 := by
  cases w <;> norm_num [multiplier]

theorem ProximityState.multiplier_nonneg (w : ProximityState) : 0 ≤ w.multiplier := by
  cases w <;> norm_num [multiplier]

theorem ProximityState.multiplier_eq_zero {w : ProximityState} :
    w.multiplier = 0 ↔ w = .BLACKOUT_WINDOW := by
  cases w <;> simp [multiplier]

namespace EventRiskOverlayService
variable (cfg : EventRiskOverlayService)

theorem envelope_eq (underlying : String) (minutes : ℚ) (event : CanonicalEvent) :
    cfg.envelope underlying minutes event =
      { underlying
        proximityState := cfg.window minutes
        canEnter := cfg.window minutes ≠ .BLACKOUT_WINDOW
        sizingMultiplier := (cfg.window minutes).multiplier
        maxLossDampener := (cfg.window minutes).multiplier
        prohibitNakedOptions := cfg.window minutes ≠ .NORMAL
        rejectionReason :=
          if cfg.window minutes = .BLACKOUT_WINDOW then
            some ("EVENT_BLACKOUT_ACTIVE: In blackout window (" ++ signedTenths minutes ++ "m) of '" ++
              event.title ++ "'")
          else none
        triggeringEventId := some event.canonicalEventId
        triggeringEventTitle := if cfg.window minutes = .NORMAL then none else some event.title
        minutesToEvent := some (roundTo 1 minutes) } := by
  rw [envelope, window]
  split
  · rfl
  · split
    · rfl
    · split <;> rfl

theorem window_cases (a : ℚ) :
    (cfg.window a = .BLACKOUT_WINDOW ∧ -cfg.blackoutPostMinutes ≤ a ∧ a ≤ cfg.blackoutPreMinutes) ∨
      (cfg.window a = .APPROACHING_WINDOW ∧ cfg.blackoutPreMinutes < a ∧ a ≤ cfg.approachingWindowMinutes) ∨
      (cfg.window a = .REACTION_WINDOW ∧ -cfg.reactionWindowMinutes ≤ a ∧ a < -cfg.blackoutPostMinutes ∧
        (cfg.blackoutPreMinutes < a → cfg.approachingWindowMinutes < a)) ∨
      (cfg.window a = .NORMAL ∧ (-cfg.blackoutPostMinutes ≤ a → cfg.blackoutPreMinutes < a) ∧
        (cfg.blackoutPreMinutes < a → cfg.approachingWindowMinutes < a) ∧
        (a < -cfg.blackoutPostMinutes → a < -cfg.reactionWindowMinutes)) := by
  rw [window, inBlackout, isApproaching, inReaction]
  simp only [decide_eq_true_eq]
  split
  · rename_i h
    exact Or.inl ⟨rfl, h⟩
  · rename_i hb
    split
    · rename_i h
      exact Or.inr (Or.inl ⟨rfl, h⟩)
    · rename_i ha
      push Not at ha hb
      split
      · rename_i h
        exact Or.inr (Or.inr (Or.inl ⟨rfl, h.1, h.2, ha⟩))
      · rename_i hr
        push Not at hr
        refine Or.inr (Or.inr (Or.inr ⟨rfl, hb, ha, fun h => ?_⟩))
        by_contra hle
        exact absurd h (not_lt.mpr (hr (not_lt.mp hle)))

section
variable {cfg} (hpre : 0 ≤ cfg.blackoutPreMinutes) (hpost : 0 ≤ cfg.blackoutPostMinutes)
include hpre hpost

/-- The times that leave at most so much are connected. -/
theorem multiplier_between {x a y : ℚ} (hx : x ≤ a) (hy : a ≤ y) :
    (cfg.window a).multiplier ≤ max (cfg.window x).multiplier (cfg.window y).multiplier := by
  rw [le_max_iff]
  rcases cfg.window_cases a with ⟨ha, _⟩ | ⟨ha, _⟩ | ⟨ha, _⟩ | ⟨ha, _⟩ <;>
    rcases cfg.window_cases x with ⟨hwx, _⟩ | ⟨hwx, _⟩ | ⟨hwx, _⟩ | ⟨hwx, _⟩ <;>
    rcases cfg.window_cases y with ⟨hwy, _⟩ | ⟨hwy, _⟩ | ⟨hwy, _⟩ | ⟨hwy, _⟩ <;>
    rw [ha, hwx, hwy] <;> norm_num [ProximityState.multiplier] <;> grind

/-- Where the mirror image of a time leaves no more, no time between the two does. -/
theorem multiplier_le_of_abs_le {a b : ℚ} (hab : |a| ≤ |b|)
    (hmirror : (cfg.window (-b)).multiplier ≤ (cfg.window b).multiplier) :
    (cfg.window a).multiplier ≤ (cfg.window b).multiplier := by
  obtain ⟨hlow, hhigh⟩ := abs_le.mp hab
  rcases abs_cases b with ⟨hb, -⟩ | ⟨hb, -⟩
  · rw [hb] at hlow hhigh
    exact (multiplier_between hpre hpost hlow hhigh).trans (max_le hmirror le_rfl)
  · rw [hb] at hlow hhigh
    rw [neg_neg] at hlow
    exact (multiplier_between hpre hpost hlow hhigh).trans (max_le le_rfl hmirror)

end

/-! What decides whether the event in front is as restrictive as all of them. -/

/-- What is reported of two events at these distances is the same. -/
structure Alike (a b : ℚ) (event event' : CanonicalEvent) : Prop where
  id_eq : event.canonicalEventId = event'.canonicalEventId
  window_eq : cfg.window a = cfg.window b
  minutes_eq : roundTo 1 a = roundTo 1 b
  title_eq : cfg.window b ≠ .NORMAL → event.title = event'.title
  text_eq : cfg.window b = .BLACKOUT_WINDOW → signedTenths a = signedTenths b

/-- The closest event leaves no more than any relevant one, its mirror image would leave no more than it,
and the relevant events at its distance are reported alike. -/
def Decisive (underlying : String) (events : List CanonicalEvent) (now : Int) : Prop :=
  ∀ front ∈ cfg.closest underlying events now,
    let minutes := minutesTo now front
    (cfg.window (-minutes)).multiplier ≤ (cfg.window minutes).multiplier ∧
      ∀ event ∈ events, cfg.relevant underlying event = true →
        (cfg.window minutes).multiplier ≤ (cfg.window (minutesTo now event)).multiplier ∧
          (|minutesTo now event| = |minutes| → cfg.Alike (minutesTo now event) minutes event front)

instance (a b : ℚ) (event event' : CanonicalEvent) : Decidable (cfg.Alike a b event event') :=
  decidable_of_iff (event.canonicalEventId = event'.canonicalEventId ∧ cfg.window a = cfg.window b ∧
      roundTo 1 a = roundTo 1 b ∧ (cfg.window b ≠ .NORMAL → event.title = event'.title) ∧
      (cfg.window b = .BLACKOUT_WINDOW → signedTenths a = signedTenths b))
    ⟨fun ⟨hid, hwindow, hminutes, htitle, htext⟩ => ⟨hid, hwindow, hminutes, htitle, htext⟩,
      fun h => ⟨h.id_eq, h.window_eq, h.minutes_eq, h.title_eq, h.text_eq⟩⟩

instance (underlying : String) (events : List CanonicalEvent) (now : Int) :
    Decidable (cfg.Decisive underlying events now) :=
  inferInstanceAs (Decidable (∀ front ∈ cfg.closest underlying events now, _ ∧ ∀ event ∈ events, _ → _ ∧ (_ → _)))

structure MostRestrictive (underlying : String) (events : List CanonicalEvent) (now : Int) : Prop where
  sizing : (cfg.evaluateOverlay underlying events now).sizingMultiplier =
    ((events.filter (cfg.relevant underlying)).map fun event =>
      (cfg.evaluateOverlay underlying [event] now).sizingMultiplier).foldr min 1
  loss : (cfg.evaluateOverlay underlying events now).maxLossDampener =
    ((events.filter (cfg.relevant underlying)).map fun event =>
      (cfg.evaluateOverlay underlying [event] now).maxLossDampener).foldr min 1
  blackout : ∀ event ∈ events, cfg.relevant underlying event = true →
    cfg.inBlackout (minutesTo now event) = true →
    (cfg.evaluateOverlay underlying events now).canEnter = false
  order : ∀ events', events'.Perm events →
    cfg.evaluateOverlay underlying events' now = cfg.evaluateOverlay underlying events now
  adding : ∀ pre post event, events = pre ++ post →
    ((cfg.evaluateOverlay underlying (pre ++ event :: post) now).canEnter = true →
      (cfg.evaluateOverlay underlying events now).canEnter = true) ∧
    (cfg.evaluateOverlay underlying (pre ++ event :: post) now).sizingMultiplier ≤
      (cfg.evaluateOverlay underlying events now).sizingMultiplier ∧
    (cfg.evaluateOverlay underlying (pre ++ event :: post) now).maxLossDampener ≤
      (cfg.evaluateOverlay underlying events now).maxLossDampener

theorem envelope_eq_iff {underlying : String} {a b : ℚ} {event event' : CanonicalEvent} :
    cfg.envelope underlying a event = cfg.envelope underlying b event' ↔ cfg.Alike a b event event' := by
  rw [envelope_eq, envelope_eq, EventRiskParameters.mk.injEq]
  constructor
  · rintro ⟨-, hwindow, -, -, -, -, hreason, hid, htitle, hminutes⟩
    rw [hwindow] at hreason htitle
    have htitles : cfg.window b ≠ .NORMAL → event.title = event'.title := by
      intro hne
      rw [if_neg hne, if_neg hne] at htitle
      exact Option.some.inj htitle
    refine ⟨Option.some.inj hid, hwindow, Option.some.inj hminutes, htitles, fun hblack => ?_⟩
    rw [if_pos hblack, if_pos hblack, htitles (by rw [hblack]; decide)] at hreason
    have htext := congrArg String.toList (Option.some.inj hreason)
    simpa [String.toList_append, String.ext_iff] using htext
  · rintro ⟨hid, hwindow, hminutes, htitle, htext⟩
    rw [hwindow, hid, hminutes]
    refine ⟨rfl, rfl, rfl, rfl, rfl, rfl, ?_, rfl, ?_, rfl⟩
    · split
      · rename_i hblack
        rw [htext hblack, htitle (by rw [hblack]; decide)]
      · rfl
    · split
      · rfl
      · rename_i hne
        rw [htitle hne]

section
variable {cfg} {underlying : String} {events : List CanonicalEvent} {now : Int}

theorem evaluateOverlay_single {event : CanonicalEvent} (h : cfg.relevant underlying event = true) :
    cfg.evaluateOverlay underlying [event] now =
      cfg.envelope underlying (minutesTo now event) event := by
  rw [evaluateOverlay, closest, List.filter_cons_of_pos h, List.filter_nil, firstLeast_cons]
  rfl

theorem evaluateOverlay_of_closest {front : CanonicalEvent}
    (h : cfg.closest underlying events now = some front) :
    cfg.evaluateOverlay underlying events now =
      cfg.envelope underlying (minutesTo now front) front := by
  rw [evaluateOverlay, h]

theorem closest_spec {front : CanonicalEvent} (h : cfg.closest underlying events now = some front) :
    (front ∈ events ∧ cfg.relevant underlying front = true) ∧
      ∀ event ∈ events, cfg.relevant underlying event = true →
        |minutesTo now front| ≤ |minutesTo now event| :=
  ⟨List.mem_filter.mp (firstLeast_mem h), fun event hmem hrel =>
    firstLeast_le h event (List.mem_filter.mpr ⟨hmem, hrel⟩)⟩

theorem closest_eq_none :
    cfg.closest underlying events now = none ↔ events.filter (cfg.relevant underlying) = [] :=
  firstLeast_eq_none

/-- A relevant event in front of a list, not farther than any of the list's. -/
theorem closest_cons {event : CanonicalEvent} (h : cfg.relevant underlying event = true)
    (hle : ∀ other ∈ events, cfg.relevant underlying other = true →
      |minutesTo now event| ≤ |minutesTo now other|) :
    cfg.closest underlying (event :: events) now = some event := by
  rw [closest, List.filter_cons_of_pos h]
  apply firstLeast_cons_of_le
  intro other hother
  exact hle other (List.mem_filter.mp hother).1 (List.mem_filter.mp hother).2

/-- One more event is the closest, or changes nothing. -/
theorem closest_insert (cfg : EventRiskOverlayService) (underlying : String) (now : Int)
    (event : CanonicalEvent) (pre post : List CanonicalEvent) :
    cfg.closest underlying (pre ++ event :: post) now = some event ∨
      cfg.closest underlying (pre ++ event :: post) now = cfg.closest underlying (pre ++ post) now := by
  rw [closest, closest, List.filter_append, List.filter_append, List.filter_cons]
  split
  · exact firstLeast_insert event _ _
  · exact Or.inr rfl

theorem foldr_min_le {l : List ℚ} {x : ℚ} (h : x ∈ l) : l.foldr min 1 ≤ x := by
  induction l with
  | nil => cases h
  | cons y l ih =>
    rw [List.foldr_cons]
    rcases List.mem_cons.mp h with rfl | h
    · exact min_le_left _ _
    · exact (min_le_right _ _).trans (ih h)

theorem le_foldr_min {l : List ℚ} {v : ℚ} (hv : v ≤ 1) (h : ∀ x ∈ l, v ≤ x) : v ≤ l.foldr min 1 := by
  induction l with
  | nil => exact hv
  | cons y l ih =>
    obtain ⟨hy, hl⟩ := List.forall_mem_cons.mp h
    exact le_min hy (ih hl)

theorem alone_sizing : ((events.filter (cfg.relevant underlying)).map fun event =>
      (cfg.evaluateOverlay underlying [event] now).sizingMultiplier) =
    (events.filter (cfg.relevant underlying)).map fun event =>
      (cfg.window (minutesTo now event)).multiplier := by
  apply List.map_congr_left
  intro event hmem
  rw [evaluateOverlay_single (List.mem_filter.mp hmem).2, envelope_eq]

theorem alone_loss : ((events.filter (cfg.relevant underlying)).map fun event =>
      (cfg.evaluateOverlay underlying [event] now).maxLossDampener) =
    (events.filter (cfg.relevant underlying)).map fun event =>
      (cfg.window (minutesTo now event)).multiplier := by
  apply List.map_congr_left
  intro event hmem
  rw [evaluateOverlay_single (List.mem_filter.mp hmem).2, envelope_eq]

/-- The event, as far from the evaluation time in the other direction. -/
def mirrored (now : Int) (event : CanonicalEvent) : CanonicalEvent :=
  { event with eventTimestamp := 2 * now - event.eventTimestamp }

theorem minutesTo_mirrored (now : Int) (event : CanonicalEvent) :
    minutesTo now (mirrored now event) = -minutesTo now event := by
  rw [minutesTo, minutesTo, mirrored]
  push_cast
  ring

theorem multipliers_le_one (cfg : EventRiskOverlayService) (underlying : String)
    (events : List CanonicalEvent) (now : Int) :
    (cfg.evaluateOverlay underlying events now).sizingMultiplier ≤ 1 ∧
      (cfg.evaluateOverlay underlying events now).maxLossDampener ≤ 1 := by
  cases hc : cfg.closest underlying events now with
  | none =>
    rw [evaluateOverlay, hc]
    exact ⟨le_rfl, le_rfl⟩
  | some front =>
    rw [evaluateOverlay_of_closest hc, envelope_eq]
    exact ⟨ProximityState.multiplier_le_one _, ProximityState.multiplier_le_one _⟩

/-- Without a relevant event all promises hold. -/
theorem mostRestrictive_of_none (h : cfg.closest underlying events now = none) :
    cfg.MostRestrictive underlying events now := by
  have hnone := closest_eq_none.mp h
  have hnormal : cfg.evaluateOverlay underlying events now = { underlying } := by rw [evaluateOverlay, h]
  refine ⟨?_, ?_, ?_, ?_, ?_⟩
  · rw [hnormal, hnone]
    rfl
  · rw [hnormal, hnone]
    rfl
  · intro event hmem hrel
    have hfiltered := List.mem_filter.mpr ⟨hmem, hrel⟩
    rw [hnone] at hfiltered
    cases hfiltered
  · intro events' hperm
    have hempty : events'.filter (cfg.relevant underlying) = [] :=
      (hnone ▸ hperm.filter (cfg.relevant underlying)).eq_nil
    rw [hnormal, evaluateOverlay, closest_eq_none.mpr hempty]
  · intro pre post event _
    rw [hnormal]
    exact ⟨fun _ => rfl, multipliers_le_one cfg underlying _ now⟩

theorem decisive_of_mostRestrictive (h : cfg.MostRestrictive underlying events now) :
    cfg.Decisive underlying events now := by
  intro front hfront
  rw [Option.mem_def] at hfront
  obtain ⟨⟨hmem, hrel⟩, hclosest⟩ := closest_spec hfront
  have hoverlay := evaluateOverlay_of_closest hfront
  refine ⟨?_, fun event hevent hevrel => ⟨?_, fun htie => ?_⟩⟩
  · -- the event in front, moved to the other side of the evaluation time, is as close
    have hmirrored : cfg.closest underlying (mirrored now front :: events) now = some (mirrored now front) := by
      apply closest_cons
      · exact hrel
      · rw [minutesTo_mirrored, abs_neg]
        exact hclosest
    have hadding := (h.adding [] events (mirrored now front) rfl).2.1
    rw [List.nil_append, evaluateOverlay_of_closest hmirrored, hoverlay, envelope_eq, envelope_eq,
      minutesTo_mirrored] at hadding
    exact hadding
  · have hsizing := h.sizing
    rw [alone_sizing, hoverlay, envelope_eq] at hsizing
    change (cfg.window (minutesTo now front)).multiplier = _ at hsizing
    rw [hsizing]
    apply foldr_min_le
    exact List.mem_map_of_mem (List.mem_filter.mpr ⟨hevent, hevrel⟩)
  · obtain ⟨pre, post, rfl⟩ := List.append_of_mem hevent
    have hfirst : cfg.closest underlying (event :: (pre ++ post)) now = some event := by
      apply closest_cons hevrel
      intro other hother horel
      rw [htie]
      apply hclosest other _ horel
      rcases List.mem_append.mp hother with hother | hother
      · exact List.mem_append_left _ hother
      · exact List.mem_append_right _ (List.mem_cons_of_mem _ hother)
    have horder := h.order _ List.perm_middle.symm
    rw [evaluateOverlay_of_closest hfirst, hoverlay] at horder
    exact cfg.envelope_eq_iff.mp horder

theorem mostRestrictive_of_decisive (hpre : 0 ≤ cfg.blackoutPreMinutes)
    (hpost : 0 ≤ cfg.blackoutPostMinutes) (h : cfg.Decisive underlying events now) :
    cfg.MostRestrictive underlying events now := by
  cases hfront : cfg.closest underlying events now with
  | none => exact mostRestrictive_of_none hfront
  | some front =>
    obtain ⟨⟨hmem, hrel⟩, hclosest⟩ := closest_spec hfront
    obtain ⟨hmirror, hall⟩ := h front hfront
    have hoverlay := evaluateOverlay_of_closest hfront
    have hmin : (cfg.window (minutesTo now front)).multiplier =
        ((events.filter (cfg.relevant underlying)).map fun event =>
          (cfg.window (minutesTo now event)).multiplier).foldr min 1 := by
      apply le_antisymm
      · apply le_foldr_min (ProximityState.multiplier_le_one _)
        intro x hx
        obtain ⟨event, hevent, rfl⟩ := List.mem_map.mp hx
        exact (hall event (List.mem_filter.mp hevent).1 (List.mem_filter.mp hevent).2).1
      · exact foldr_min_le (List.mem_map_of_mem (List.mem_filter.mpr ⟨hmem, hrel⟩))
    refine ⟨?_, ?_, ?_, ?_, ?_⟩
    · rw [alone_sizing, hoverlay, envelope_eq]
      exact hmin
    · rw [alone_loss, hoverlay, envelope_eq]
      exact hmin
    · intro event hevent hevrel hblack
      have hzero : (cfg.window (minutesTo now event)).multiplier = 0 := by
        rw [window, if_pos hblack]
        rfl
      have hle := (hall event hevent hevrel).1
      rw [hzero] at hle
      have hfrontBlack := ProximityState.multiplier_eq_zero.mp
        (le_antisymm hle (ProximityState.multiplier_nonneg _))
      rw [hoverlay, envelope_eq, hfrontBlack]
      rfl
    · intro events' hperm
      cases hfront' : cfg.closest underlying events' now with
      | none =>
        have hempty := closest_eq_none.mp hfront'
        have hmem' := List.mem_filter.mpr ⟨hperm.mem_iff.mpr hmem, hrel⟩
        rw [hempty] at hmem'
        cases hmem'
      | some front' =>
        obtain ⟨⟨hmem', hrel'⟩, hclosest'⟩ := closest_spec hfront'
        have htie := le_antisymm (hclosest' front (hperm.mem_iff.mpr hmem) hrel)
          (hclosest front' (hperm.mem_iff.mp hmem') hrel')
        rw [evaluateOverlay_of_closest hfront', hoverlay]
        exact cfg.envelope_eq_iff.mpr ((hall front' (hperm.mem_iff.mp hmem') hrel').2 htie)
    · rintro pre post event rfl
      rcases closest_insert cfg underlying now event pre post with hnew | hsame
      · have hcloser : |minutesTo now event| ≤ |minutesTo now front| := by
          apply (closest_spec hnew).2 front _ hrel
          rcases List.mem_append.mp hmem with hmem | hmem
          · exact List.mem_append_left _ hmem
          · exact List.mem_append_right _ (List.mem_cons_of_mem _ hmem)
        have hle := multiplier_le_of_abs_le hpre hpost hcloser hmirror
        rw [evaluateOverlay_of_closest hnew, hoverlay, envelope_eq, envelope_eq]
        refine ⟨fun henter => ?_, hle, hle⟩
        rw [decide_eq_true_eq] at henter ⊢
        intro hblack
        rw [hblack] at hle
        exact henter (ProximityState.multiplier_eq_zero.mp
          (le_antisymm hle (ProximityState.multiplier_nonneg _)))
      · rw [evaluateOverlay, hsame, hfront, hoverlay]
        exact ⟨id, le_rfl, le_rfl⟩

end

/-- The overlay is the most restrictive of its events just where the event in front decides. -/
theorem mostRestrictive_iff (underlying : String) (events : List CanonicalEvent) (now : Int)
    (hpre : 0 ≤ cfg.blackoutPreMinutes) (hpost : 0 ≤ cfg.blackoutPostMinutes) :
    cfg.MostRestrictive underlying events now ↔ cfg.Decisive underlying events now :=
  ⟨decisive_of_mostRestrictive, mostRestrictive_of_decisive hpre hpost⟩

def policyMeeting (minutes : Int) : CanonicalEvent where
  canonicalEventId := "RBI_MPC"
  title := "Policy meeting"
  eventTimestamp := minutes * 60000000

theorem mostRestrictive_meeting :
    ((0 : ℚ) ≤ ({} : EventRiskOverlayService).blackoutPreMinutes ∧
        (0 : ℚ) ≤ ({} : EventRiskOverlayService).blackoutPostMinutes) ∧
      ({} : EventRiskOverlayService).MostRestrictive "NIFTY" [policyMeeting (-10), policyMeeting 3] 0 :=
  have hdecisive : ({} : EventRiskOverlayService).Decisive "NIFTY" [policyMeeting (-10), policyMeeting 3] 0 := by
    decide +kernel
  ⟨by norm_num, (mostRestrictive_iff {} "NIFTY" [policyMeeting (-10), policyMeeting 3] 0 (by norm_num) (by norm_num)).mpr
    hdecisive⟩

/-- An event six minutes ago stands in front of one in seven minutes, which alone would halve the size. -/
theorem reaction_hides_approach :
    ¬ ∀ (cfg : EventRiskOverlayService) (underlying : String) (events : List CanonicalEvent) (now : Int),
      0 ≤ cfg.blackoutPreMinutes → 0 ≤ cfg.blackoutPostMinutes → cfg.MostRestrictive underlying events now := by
  intro h
  have hsizing := (h {} "NIFTY" [policyMeeting (-6), policyMeeting 7] 0 (by norm_num) (by norm_num)).sizing
  revert hsizing
  decide +kernel

end EventRiskOverlayService
end Droid.Events
