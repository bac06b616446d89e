import Droid.Lib.Dict
import Droid.Lib.Run
import Mathlib.Algebra.Order.Field.Rat
import Mathlib.Tactic.Linarith

/-! The section broadcaster of the stream hub: changed sections become deltas, one for each section and
coalescing interval. A delta has low priority, so a call has no suspension. -/
namespace Droid.Stream
open Lib

/-- A section of the command view; V is what its value may be. -/
structure Section (V : Type) where
  version : Option Int
  value : V
  updatedAt : Option String := none
  freshnessS : Option ℚ := none
  degraded : Bool := false
  deriving DecidableEq

/-- The data of a `view.section.changed` frame. -/
structure SectionDelta (V : Type) where
  name : String
  version : Option Int
  value : V
  updatedAt : Option String
  freshnessS : Option ℚ
  degraded : Bool
  deriving DecidableEq

def Section.delta {V : Type} (name : String) (s : Section V) : SectionDelta V where
  name := name
  version := s.version
  value := s.value
  updatedAt := s.updatedAt
  freshnessS := s.freshnessS
  degraded := s.degraded

/-- What was last observed of a section; D is where the content digest takes its values. -/
structure Seen (D : Type) where
  version : Option Int
  digest : D
  deriving DecidableEq

/-- A delta handed to `publish`. -/
structure Emission (V : Type) where
  name : String
  payload : SectionDelta V
  time : ℚ
  deriving DecidableEq

/-- The section fields of the hub, and what it has published. -/
structure SectionHub (V D : Type) where
  sectionState : Dict String (Seen D)
  lastEmit : Dict String ℚ
  pendingSections : Dict String (SectionDelta V)
  sectionSeeded : Bool
  published : List (Emission V)

/-- A call of `broadcast_section_changes`. -/
structure Call (V : Type) where
  now : ℚ
  sections : Dict String (Section V)

namespace SectionHub
variable {V D : Type} (digest : V → D) (sectionCoalesceS : ℚ)

def initial : SectionHub V D := ⟨.empty, .empty, .empty, false, []⟩

def seenOf (s : Section V) : Seen D := ⟨s.version, digest s.value⟩

def recordSection (h : SectionHub V D) (name : String) (s : Section V) : SectionHub V D :=
  { h with sectionState := h.sectionState.insert name (seenOf digest s) }

def emitSection (h : SectionHub V D) (name : String) (payload : SectionDelta V) (now : ℚ) :
    SectionHub V D :=
  { h with
    published := h.published ++ [⟨name, payload, now⟩]
    lastEmit := h.lastEmit.insert name now }

/-- Within the interval of the section's last emission. -/
def coalescing (h : SectionHub V D) (name : String) (now : ℚ) : Bool :=
  (h.lastEmit.get? name).any fun last => decide (now - last < sectionCoalesceS)

def changed [DecidableEq D] (h : SectionHub V D) (name : String) (s : Section V) : Bool :=
  decide (h.sectionState.get? name ≠ some (seenOf digest s))

/-- One section of a call. -/
def observe [DecidableEq D] (now : ℚ) (h : SectionHub V D) (entry : String × Section V) : SectionHub V D :=
  let (name, s) := entry
  if h.changed digest name s then
    let h := h.recordSection digest name s
    if h.coalescing sectionCoalesceS name now then
      { h with pendingSections := h.pendingSections.insert name (s.delta name) }
    else h.emitSection name (s.delta name) now
  else h

/-- One pending section at the end of a call. -/
def flush (now : ℚ) (h : SectionHub V D) (name : String) : SectionHub V D :=
  if h.coalescing sectionCoalesceS name now then h
  else
    match h.pendingSections.get? name with
    | none => h
    | some payload =>
      emitSection { h with pendingSections := h.pendingSections.erase name } name payload now

def broadcastSectionChanges [DecidableEq D] (h : SectionHub V D) (call : Call V) : SectionHub V D :=
  if call.sections.entries = [] then h
  else if h.sectionSeeded then
    let h := call.sections.entries.foldl (observe digest sectionCoalesceS call.now) h
    (h.pendingSections.entries.map Prod.fst).foldl (flush sectionCoalesceS call.now) h
  else
    { call.sections.entries.foldl (fun h e => h.recordSection digest e.1 e.2) h with sectionSeeded := true }

/-! One section of the hub. -/

/-- What the hub has of a section. -/
structure Slot (V D : Type) where
  seen : Option (Seen D)
  lastEmit : Option ℚ
  pending : Option (SectionDelta V)
  emitted : List (Emission V)

def slot (h : SectionHub V D) (name : String) : Slot V D where
  seen := h.sectionState.get? name
  lastEmit := h.lastEmit.get? name
  pending := h.pendingSections.get? name
  emitted := h.published.filter fun e => e.name = name

namespace Slot

def coalescing (slot : Slot V D) (now : ℚ) : Bool :=
  slot.lastEmit.any fun last => decide (now - last < sectionCoalesceS)

def changed [DecidableEq D] (slot : Slot V D) (s : Section V) : Bool := decide (slot.seen ≠ some (seenOf digest s))

def observe [DecidableEq D] (now : ℚ) (name : String) (s : Section V) (slot : Slot V D) : Slot V D :=
  if slot.changed digest s then
    if slot.coalescing sectionCoalesceS now then
      { slot with seen := some (seenOf digest s), pending := some (s.delta name) }
    else
      { slot with
        seen := some (seenOf digest s)
        lastEmit := some now
        emitted := slot.emitted ++ [⟨name, s.delta name, now⟩] }
  else slot

def flush (now : ℚ) (name : String) (slot : Slot V D) : Slot V D :=
  if slot.coalescing sectionCoalesceS now then slot
  else
    match slot.pending with
    | none => slot
    | some payload =>
      { slot with pending := none, lastEmit := some now
                  emitted := slot.emitted ++ [⟨name, payload, now⟩] }

end Slot

section
variable {digest sectionCoalesceS}

theorem slot_emitSection (h : SectionHub V D) (name : String) (payload : SectionDelta V) (now : ℚ)
    (x : String) :
    (h.emitSection name payload now).slot x =
      if x = name then
        { h.slot x with lastEmit := some now
                        emitted := (h.slot x).emitted ++ [⟨name, payload, now⟩] }
      else h.slot x := by
  rw [slot, emitSection]
  by_cases hx : x = name
  · subst hx
    simp [slot]
  · simp [slot, hx, Ne.symm hx]

theorem slot_recordSection (h : SectionHub V D) (name : String) (s : Section V) (x : String) :
    (h.recordSection digest name s).slot x =
      if x = name then { h.slot x with seen := some (seenOf digest s) } else h.slot x := by
  rw [slot, recordSection]
  by_cases hx : x = name
  · subst hx
    simp [slot]
  · simp [slot, hx]

theorem slot_park (h : SectionHub V D) (name : String) (payload : SectionDelta V) (x : String) :
    slot { h with pendingSections := h.pendingSections.insert name payload } x =
      if x = name then { h.slot x with pending := some payload } else h.slot x := by
  rw [slot]
  by_cases hx : x = name
  · subst hx
    simp [slot]
  · simp [slot, hx]

theorem slot_unpark (h : SectionHub V D) (name : String) (x : String) :
    slot { h with pendingSections := h.pendingSections.erase name } x =
      if x = name then { h.slot x with pending := none } else h.slot x := by
  rw [slot]
  by_cases hx : x = name
  · subst hx
    simp [slot]
  · simp [slot, hx]

theorem slot_observe [DecidableEq D] (now : ℚ) (h : SectionHub V D) (entry : String × Section V) (x : String) :
    (observe digest sectionCoalesceS now h entry).slot x =
      if x = entry.1 then (h.slot x).observe digest sectionCoalesceS now entry.1 entry.2
      else h.slot x := by
  obtain ⟨name, s⟩ := entry
  rw [observe]
  dsimp only
  by_cases hx : x = name
  · subst hx
    rw [if_pos rfl, Slot.observe]
    have hchanged : (h.slot x).changed digest s = h.changed digest x s := rfl
    have hcoalescing : (h.recordSection digest x s).coalescing sectionCoalesceS x now =
        (h.slot x).coalescing sectionCoalesceS now := rfl
    rw [hchanged, hcoalescing]
    split
    · split
      · rw [slot_park, if_pos rfl, slot_recordSection, if_pos rfl]
      · rw [slot_emitSection, if_pos rfl, slot_recordSection, if_pos rfl]
    · rfl
  · rw [if_neg hx]
    split
    · split
      · rw [slot_park, if_neg hx, slot_recordSection, if_neg hx]
      · rw [slot_emitSection, if_neg hx, slot_recordSection, if_neg hx]
    · rfl

theorem slot_flush (now : ℚ) (h : SectionHub V D) (name x : String) :
    (flush sectionCoalesceS now h name).slot x =
      if x = name then (h.slot x).flush sectionCoalesceS now name else h.slot x := by
  rw [flush]
  by_cases hx : x = name
  · subst hx
    rw [if_pos rfl, Slot.flush]
    have hcoalescing : h.coalescing sectionCoalesceS x now = (h.slot x).coalescing sectionCoalesceS now := rfl
    have hpending : h.pendingSections.get? x = (h.slot x).pending := rfl
    rw [hcoalescing, hpending]
    split
    · rfl
    · split
      · rfl
      · rw [slot_emitSection, if_pos rfl, slot_unpark, if_pos rfl]
  · rw [if_neg hx]
    split
    · rfl
    · split
      · rfl
      · rw [slot_emitSection, if_neg hx, slot_unpark, if_neg hx]

theorem Slot.flush_of_none {slot : Slot V D} (h : slot.pending = none) (now : ℚ) (name : String) :
    slot.flush sectionCoalesceS now name = slot := by
  rw [flush, h]
  split <;> rfl

variable [DecidableEq D]

/-- What a call does with one section once the hub is seeded. -/
def Slot.broadcast (digest : V → D) (sectionCoalesceS : ℚ) (call : Call V) (name : String)
    (slot : Slot V D) : Slot V D :=
  if call.sections.entries = [] then slot
  else
    match call.sections.get? name with
    | none => slot.flush sectionCoalesceS call.now name
    | some s => (slot.observe digest sectionCoalesceS call.now name s).flush sectionCoalesceS call.now name

/-- The sections are independent of one another. -/
theorem slot_broadcast {h : SectionHub V D} (hseeded : h.sectionSeeded = true) (call : Call V) (x : String) :
    (h.broadcastSectionChanges digest sectionCoalesceS call).slot x =
      (h.slot x).broadcast digest sectionCoalesceS call x := by
  rw [broadcastSectionChanges, Slot.broadcast]
  by_cases hempty : call.sections.entries = []
  · rw [if_pos hempty, if_pos hempty]
  · rw [if_neg hempty, if_neg hempty, if_pos hseeded]
    dsimp only
    obtain ⟨hobserved, hunobserved⟩ := foldl_ownBy Prod.fst
      (observe digest sectionCoalesceS call.now) slot (R := fun e a b => b = a.observe digest sectionCoalesceS call.now e.1 e.2)
      (fun h e x hx => by rw [slot_observe, if_neg hx]) (fun h e => by rw [slot_observe, if_pos rfl]) h
      call.sections.nodup
    generalize call.sections.entries.foldl (observe digest sectionCoalesceS call.now) h = g at *
    obtain ⟨hflushed, hunflushed⟩ := foldl_ownBy Prod.fst
      (fun g (e : String × SectionDelta V) => flush sectionCoalesceS call.now g e.1) slot
      (R := fun e a b => b = a.flush sectionCoalesceS call.now e.1)
      (fun h e x hx => by rw [slot_flush, if_neg hx]) (fun h e => by rw [slot_flush, if_pos rfl]) g
      g.pendingSections.nodup
    have hlast : ((g.pendingSections.entries.map Prod.fst).foldl (flush sectionCoalesceS call.now) g).slot x =
        (g.slot x).flush sectionCoalesceS call.now x := by
      rw [List.foldl_map]
      by_cases hx : x ∈ g.pendingSections.entries.map Prod.fst
      · obtain ⟨e, he, rfl⟩ := List.mem_map.mp hx
        exact hflushed e he
      · have hnone : (g.slot x).pending = none := by
          rw [Dict.mem_keys_iff, Option.not_isSome_iff_eq_none] at hx
          exact hx
        rw [hunflushed x hx, Slot.flush_of_none hnone]
    rw [hlast]
    cases hget : call.sections.get? x with
    | none =>
      rw [hunobserved x]
      rw [Dict.mem_keys_iff, hget]
      exact Bool.false_ne_true
    | some s => rw [hobserved (x, s) ((Dict.mem_entries_iff _ _ _).mpr hget)]

theorem sectionSeeded_broadcast {h : SectionHub V D} (hseeded : h.sectionSeeded = true) (call : Call V) :
    (h.broadcastSectionChanges digest sectionCoalesceS call).sectionSeeded = true := by
  have hobserve (entries : List (String × Section V)) (g : SectionHub V D) (hg : g.sectionSeeded = true) :
      (entries.foldl (observe digest sectionCoalesceS call.now) g).sectionSeeded = true := by
    induction entries generalizing g with
    | nil => exact hg
    | cons e entries ih =>
      apply ih
      rw [observe]
      dsimp only
      split
      · split <;> exact hg
      · exact hg
  have hflush (names : List String) (g : SectionHub V D) (hg : g.sectionSeeded = true) :
      (names.foldl (flush sectionCoalesceS call.now) g).sectionSeeded = true := by
    induction names generalizing g with
    | nil => exact hg
    | cons name names ih =>
      apply ih
      rw [flush]
      split
      · exact hg
      · split <;> exact hg
  rw [broadcastSectionChanges]
  by_cases hempty : call.sections.entries = []
  · rw [if_pos hempty]
    exact hseeded
  · rw [if_neg hempty, if_pos hseeded]
    exact hflush _ _ (hobserve _ h hseeded)

theorem slot_seed {h : SectionHub V D} (hseeded : h.sectionSeeded = false) (call : Call V) (x : String) :
    (h.broadcastSectionChanges digest sectionCoalesceS call).slot x =
      { h.slot x with seen := ((call.sections.get? x).map (seenOf digest)).or (h.slot x).seen } := by
  rw [broadcastSectionChanges]
  by_cases hempty : call.sections.entries = []
  · have hnone : call.sections.get? x = none := by
      rw [Dict.get?, hempty]
      rfl
    rw [if_pos hempty, hnone]
    rfl
  · rw [if_neg hempty, if_neg (by rw [hseeded]; exact Bool.false_ne_true)]
    obtain ⟨hlearned, hother⟩ := foldl_ownBy Prod.fst
      (fun h (e : String × Section V) => h.recordSection digest e.1 e.2) slot
      (R := fun e a b => b = { a with seen := some (seenOf digest e.2) })
      (fun h e x hx => by rw [slot_recordSection, if_neg hx])
      (fun h e => by rw [slot_recordSection, if_pos rfl]) h call.sections.nodup
    generalize call.sections.entries.foldl (fun h e => h.recordSection digest e.1 e.2) h = g at *
    change g.slot x = _
    cases hget : call.sections.get? x with
    | none =>
      rw [hother x]
      · rfl
      · rw [Dict.mem_keys_iff, hget]
        exact Bool.false_ne_true
    | some s => exact hlearned (x, s) ((Dict.mem_entries_iff _ _ _).mpr hget)

end

/-! The emission times of a slot. -/

namespace Slot
variable {digest sectionCoalesceS} {slot : Slot V D} {now : ℚ}

def times (slot : Slot V D) : List ℚ := slot.emitted.map Emission.time

def payloads (slot : Slot V D) : List (SectionDelta V) := slot.emitted.map Emission.payload

def emit (slot : Slot V D) (seen : Option (Seen D)) (pending : Option (SectionDelta V))
    (e : Emission V) : Slot V D where
  seen := seen
  lastEmit := some e.time
  pending := pending
  emitted := slot.emitted ++ [e]

theorem times_emit (seen : Option (Seen D)) (pending : Option (SectionDelta V)) (e : Emission V) :
    (slot.emit seen pending e).times = slot.times ++ [e.time] := by
  rw [times, emit, List.map_append]
  rfl

theorem payloads_emit (seen : Option (Seen D)) (pending : Option (SectionDelta V)) (e : Emission V) :
    (slot.emit seen pending e).payloads = slot.payloads ++ [e.payload] := by
  rw [payloads, emit, List.map_append]
  rfl

structure Timed (sectionCoalesceS : ℚ) (slot : Slot V D) : Prop where
  last : slot.lastEmit = slot.times.getLast?
  sorted : slot.times.Pairwise (· ≤ ·)
  spaced : slot.times.Pairwise fun a b => sectionCoalesceS ≤ b - a

/-- An emission outside of the interval. -/
theorem Timed.emit (h : Timed sectionCoalesceS slot) {e : Emission V} (hnow : ∀ t ∈ slot.times, t ≤ e.time)
    (hcoalescing : ¬ slot.coalescing sectionCoalesceS e.time = true) (seen : Option (Seen D))
    (pending : Option (SectionDelta V)) : Timed sectionCoalesceS (slot.emit seen pending e) := by
  refine ⟨?_, ?_, ?_⟩
  · rw [times_emit, List.getLast?_concat]
    rfl
  · rw [times_emit, List.pairwise_append]
    refine ⟨h.sorted, List.pairwise_singleton _ _, fun t ht x hx => ?_⟩
    rw [List.mem_singleton.mp hx]
    exact hnow t ht
  · rw [times_emit, List.pairwise_append]
    refine ⟨h.spaced, List.pairwise_singleton _ _, fun t ht x hx => ?_⟩
    rw [List.mem_singleton.mp hx]
    cases hlast : slot.times.getLast? with
    | none =>
      rw [List.getLast?_eq_none_iff.mp hlast] at ht
      cases ht
    | some l =>
      -- the last emission is at least an interval ago, the others are earlier
      rw [coalescing, h.last, hlast, Option.any_some, decide_eq_true_eq, not_lt] at hcoalescing
      obtain ⟨earlier, htimes⟩ := List.getLast?_eq_some_iff.mp hlast
      have hle : t ≤ l := by
        have hsorted := h.sorted
        rw [htimes] at ht hsorted
        rcases List.mem_append.mp ht with ht | ht
        · exact (List.pairwise_append.mp hsorted).2.2 t ht l (List.mem_singleton_self l)
        · exact (List.mem_singleton.mp ht).le
      linarith

/-- The pending delta is newer than the emitted ones and the newest change; without one, the newest
change is emitted. -/
structure Tracked (digest : V → D) (sectionCoalesceS : ℚ) (slot : Slot V D)
    (composed changes : List (SectionDelta V)) : Prop where
  timed : Timed sectionCoalesceS slot
  changes_composed : changes.Sublist composed
  ordered : (slot.payloads ++ slot.pending.toList).Sublist changes
  newest : (slot.payloads ++ slot.pending.toList).getLast? = changes.getLast?
  shown : ∀ p ∈ composed.getLast?, slot.seen = some ⟨p.version, digest p.value⟩
  latest : ∀ p ∈ changes.getLast?, slot.seen = some ⟨p.version, digest p.value⟩

variable {composed changes : List (SectionDelta V)}

theorem Tracked.flush (h : Tracked digest sectionCoalesceS slot composed changes)
    (hnow : ∀ t ∈ slot.times, t ≤ now) (name : String) :
    Tracked digest sectionCoalesceS (slot.flush sectionCoalesceS now name) composed changes := by
  rw [Slot.flush]
  split
  · exact h
  · rename_i hcoalescing
    split
    · exact h
    · rename_i payload hpending
      change Tracked digest sectionCoalesceS (slot.emit slot.seen none ⟨name, payload, now⟩) _ _
      have hemitted : (slot.emit slot.seen none ⟨name, payload, now⟩).payloads ++ Option.toList none =
          slot.payloads ++ slot.pending.toList := by
        rw [payloads_emit, Option.toList_none, List.append_nil, hpending, Option.toList_some]
      have htimed := h.timed.emit (e := ⟨name, payload, now⟩) hnow hcoalescing slot.seen none
      refine ⟨htimed, h.changes_composed, ?_, ?_, h.shown, h.latest⟩
      · exact hemitted ▸ h.ordered
      · exact hemitted ▸ h.newest

variable [DecidableEq D]

theorem Tracked.observe (h : Tracked digest sectionCoalesceS slot composed changes)
    (hnow : ∀ t ∈ slot.times, t ≤ now) (name : String) {s : Section V}
    (hovertake : slot.changed digest s = true → slot.pending.isSome = true →
      slot.coalescing sectionCoalesceS now = true) :
    Tracked digest sectionCoalesceS (slot.observe digest sectionCoalesceS now name s)
      (composed ++ [s.delta name])
      (if slot.changed digest s then changes ++ [s.delta name] else changes) := by
  rw [Slot.observe]
  split
  · rename_i hchanged
    have hcomposed : (changes ++ [s.delta name]).Sublist (composed ++ [s.delta name]) :=
      h.changes_composed.append_right _
    have hseen (l : List (SectionDelta V)) : ∀ p ∈ (l ++ [s.delta name]).getLast?,
        some (seenOf digest s) = some ⟨p.version, digest p.value⟩ := by
      intro p hp
      rw [List.getLast?_concat, Option.mem_def] at hp
      cases hp
      rfl
    have hpayloads : slot.payloads.Sublist changes :=
      (List.sublist_append_left _ _).trans h.ordered
    split
    · refine ⟨⟨h.timed.last, h.timed.sorted, h.timed.spaced⟩, hcomposed, ?_, ?_, hseen composed,
        hseen changes⟩
      · exact hpayloads.append_right _
      · rw [Option.toList_some, List.getLast?_concat, List.getLast?_concat]
    · rename_i hcoalescing
      have hnone : slot.pending = none := by
        by_contra hsome
        exact hcoalescing (hovertake hchanged (Option.isSome_iff_ne_none.mpr hsome))
      change Tracked digest sectionCoalesceS
        (slot.emit (some (seenOf digest s)) slot.pending ⟨name, s.delta name, now⟩) _ _
      have hemitted : (slot.emit (some (seenOf digest s)) slot.pending ⟨name, s.delta name, now⟩).payloads ++
          slot.pending.toList = slot.payloads ++ [s.delta name] := by
        rw [payloads_emit, hnone, Option.toList_none, List.append_nil]
      have htimed := h.timed.emit (e := ⟨name, s.delta name, now⟩) hnow hcoalescing (some (seenOf digest s))
        slot.pending
      refine ⟨htimed, hcomposed, ?_, ?_, hseen composed, hseen changes⟩
      · exact hemitted ▸ hpayloads.append_right _
      · rw [List.getLast?_concat]
        exact hemitted ▸ List.getLast?_concat
  · rename_i hsame
    have hseen : slot.seen = some (seenOf digest s) := by
      rw [Slot.changed, decide_eq_true_eq, not_not] at hsame
      exact hsame
    refine ⟨h.timed, h.changes_composed.trans (List.sublist_append_left _ _), h.ordered, h.newest, ?_,
      h.latest⟩
    intro p hp
    rw [List.getLast?_concat, Option.mem_def] at hp
    cases hp
    exact hseen

theorem mem_emitted_observe {name : String} {s : Section V} {e : Emission V}
    (he : e ∈ (slot.observe digest sectionCoalesceS now name s).emitted) :
    e ∈ slot.emitted ∨ e.time = now := by
  rw [Slot.observe] at he
  split at he
  · split at he
    · exact Or.inl he
    · rcases List.mem_append.mp he with he | he
      · exact Or.inl he
      · rw [List.mem_singleton.mp he]
        exact Or.inr rfl
  · exact Or.inl he

omit [DecidableEq D] in
theorem mem_emitted_flush {name : String} {e : Emission V}
    (he : e ∈ (slot.flush sectionCoalesceS now name).emitted) : e ∈ slot.emitted ∨ e.time = now := by
  rw [Slot.flush] at he
  split at he
  · exact Or.inl he
  · split at he
    · exact Or.inl he
    · rcases List.mem_append.mp he with he | he
      · exact Or.inl he
      · rw [List.mem_singleton.mp he]
        exact Or.inr rfl

theorem mem_emitted_broadcast {call : Call V} {name : String} {e : Emission V}
    (he : e ∈ (slot.broadcast digest sectionCoalesceS call name).emitted) :
    e ∈ slot.emitted ∨ e.time = call.now := by
  rw [Slot.broadcast] at he
  split at he
  · exact Or.inl he
  · split at he
    · exact mem_emitted_flush he
    · rcases mem_emitted_flush he with he | he
      · exact mem_emitted_observe he
      · exact Or.inr he

theorem Tracked.broadcast (h : Tracked digest sectionCoalesceS slot composed changes) {call : Call V}
    {name : String} (hnow : ∀ t ∈ slot.times, t ≤ call.now)
    (hovertake : ∀ s, call.sections.get? name = some s → slot.changed digest s = true →
      slot.pending.isSome = true → slot.coalescing sectionCoalesceS call.now = true) :
    Tracked digest sectionCoalesceS (slot.broadcast digest sectionCoalesceS call name)
      (composed ++ ((call.sections.get? name).map (Section.delta name)).toList)
      (changes ++ (((call.sections.get? name).filter (slot.changed digest)).map (Section.delta name)).toList) := by
  rw [Slot.broadcast]
  cases hget : call.sections.get? name with
  | none =>
    rw [Option.filter_none, Option.map_none, Option.toList_none, List.append_nil, List.append_nil]
    split
    · exact h
    · exact h.flush hnow name
  | some s =>
    have hne : call.sections.entries ≠ [] := by
      intro hempty
      have hmem := (Dict.mem_entries_iff _ _ _).mpr hget
      rw [hempty] at hmem
      cases hmem
    rw [if_neg hne]
    have hobserved := h.observe hnow name (hovertake s hget)
    have hchanges : changes ++ (((some s).filter (slot.changed digest)).map (Section.delta name)).toList =
        if slot.changed digest s then changes ++ [s.delta name] else changes := by
      rw [Option.filter_some]
      split
      · rfl
      · exact List.append_nil _
    rw [hchanges]
    apply hobserved.flush
    intro t ht
    obtain ⟨e, he, rfl⟩ := List.mem_map.mp ht
    rcases mem_emitted_observe he with he | he
    · exact hnow _ (List.mem_map_of_mem he)
    · exact he.le

end Slot

/-! Runs, with what was composed of each section once the hub was seeded, and what of it was a change. -/

structure Monitored (V D : Type) where
  hub : SectionHub V D
  composed : String → List (SectionDelta V)
  changes : String → List (SectionDelta V)

namespace Monitored

def initial : Monitored V D := ⟨SectionHub.initial, fun _ => [], fun _ => []⟩

def step [DecidableEq D] (m : Monitored V D) (call : Call V) : Monitored V D :=
  let sectionOf (name : String) : Option (Section V) :=
    if m.hub.sectionSeeded then call.sections.get? name else none
  { hub := m.hub.broadcastSectionChanges digest sectionCoalesceS call
    composed := fun name => m.composed name ++ ((sectionOf name).map (Section.delta name)).toList
    changes := fun name => m.changes name ++
      (((sectionOf name).filter (m.hub.changed digest name)).map (Section.delta name)).toList }

/-- The deltas that were published of a section, in order. -/
def payloadsOf (m : Monitored V D) (name : String) : List (SectionDelta V) := (m.hub.slot name).payloads

def timesOf (m : Monitored V D) (name : String) : List ℚ := (m.hub.slot name).times

/-- The deltas of a section come in the order of their composition and an interval apart, and where
none is pending, the last one is the latest change and has the version and content of what was composed
last. -/
structure Converging (m : Monitored V D) (name : String) : Prop where
  in_order : (m.payloadsOf name).Sublist (m.changes name) ∧ (m.changes name).Sublist (m.composed name)
  spaced : (m.timesOf name).Pairwise fun a b => sectionCoalesceS ≤ b - a
  settled : m.hub.pendingSections.get? name = none → (m.payloadsOf name).getLast? = (m.changes name).getLast?
  latest : ∀ p ∈ (m.changes name).getLast?, ∀ q ∈ (m.composed name).getLast?,
    p.version = q.version ∧ digest p.value = digest q.value

/-- No section changes whose older delta is still pending while its interval is over. -/
def NoOvertake [DecidableEq D] (m : Monitored V D) (call : Call V) : Prop :=
  m.hub.sectionSeeded = true → ∀ entry ∈ call.sections.entries,
    m.hub.changed digest entry.1 entry.2 = true → (m.hub.pendingSections.get? entry.1).isSome = true →
      m.hub.coalescing sectionCoalesceS entry.1 call.now = true

instance [DecidableEq D] (m : Monitored V D) (call : Call V) :
    Decidable (m.NoOvertake digest sectionCoalesceS call) :=
  inferInstanceAs (Decidable (_ → ∀ entry ∈ _, _ → _ → _))

/-- The invariant. -/
structure Kept (m : Monitored V D) : Prop where
  tracked : ∀ name, Slot.Tracked digest sectionCoalesceS (m.hub.slot name) (m.composed name) (m.changes name)
  unseeded : m.hub.sectionSeeded = false → ∀ name, m.composed name = []

section
variable {digest sectionCoalesceS} {m : Monitored V D} {call : Call V}

theorem kept_initial : (initial : Monitored V D).Kept digest sectionCoalesceS where
  tracked _ := ⟨⟨rfl, List.Pairwise.nil, List.Pairwise.nil⟩, List.Sublist.slnil, List.Sublist.slnil,
    rfl, nofun, nofun⟩
  unseeded := fun _ _ => rfl

theorem Kept.converging (h : m.Kept digest sectionCoalesceS) (name : String) :
    m.Converging digest sectionCoalesceS name where
  in_order := ⟨(List.sublist_append_left _ _).trans (h.tracked name).ordered,
    (h.tracked name).changes_composed⟩
  spaced := (h.tracked name).timed.spaced
  settled := by
    intro hnone
    have hnewest := (h.tracked name).newest
    have hpending : (m.hub.slot name).pending = none := hnone
    rw [hpending, Option.toList_none, List.append_nil] at hnewest
    exact hnewest
  latest := by
    intro p hp q hq
    have hseen := ((h.tracked name).latest p hp).symm.trans ((h.tracked name).shown q hq)
    rw [Option.some.injEq, Seen.mk.injEq] at hseen
    exact hseen

variable [DecidableEq D]

theorem Kept.step (h : m.Kept digest sectionCoalesceS)
    (hovertake : m.NoOvertake digest sectionCoalesceS call)
    (hnow : ∀ e ∈ m.hub.published, e.time ≤ call.now) :
    (m.step digest sectionCoalesceS call).Kept digest sectionCoalesceS := by
  cases hseeded : m.hub.sectionSeeded with
  | false =>
    have hnone := h.unseeded hseeded
    constructor
    · intro name
      rw [Monitored.step, hseeded]
      dsimp only
      rw [slot_seed hseeded, if_neg Bool.false_ne_true, Option.filter_none, Option.map_none,
        Option.toList_none, List.append_nil, List.append_nil, hnone name]
      have htracked := h.tracked name
      rw [hnone name] at htracked
      have hchanges := List.sublist_nil.mp htracked.changes_composed
      refine ⟨⟨htracked.timed.last, htracked.timed.sorted, htracked.timed.spaced⟩,
        htracked.changes_composed, htracked.ordered, htracked.newest, nofun, ?_⟩
      rw [hchanges]
      exact nofun
    · intro _ name
      rw [Monitored.step, hseeded]
      dsimp only
      rw [if_neg Bool.false_ne_true, Option.map_none, Option.toList_none, List.append_nil, hnone name]
  | true =>
    constructor
    · intro name
      rw [Monitored.step, hseeded]
      dsimp only
      rw [slot_broadcast hseeded, if_pos rfl]
      apply (h.tracked name).broadcast
      · intro t ht
        obtain ⟨e, he, rfl⟩ := List.mem_map.mp ht
        exact hnow e (List.mem_filter.mp he).1
      · intro s hget
        exact hovertake hseeded (name, s) ((Dict.mem_entries_iff _ _ _).mpr hget)
    · intro hunseeded
      rw [Monitored.step] at hunseeded
      dsimp only at hunseeded
      rw [sectionSeeded_broadcast hseeded] at hunseeded
      cases hunseeded

/-- What a call publishes has the time of the call. -/
theorem mem_published_step {e : Emission V}
    (he : e ∈ (m.step digest sectionCoalesceS call).hub.published) :
    e ∈ m.hub.published ∨ e.time = call.now := by
  have hslot : e ∈ ((m.step digest sectionCoalesceS call).hub.slot e.name).emitted :=
    List.mem_filter.mpr ⟨he, decide_eq_true rfl⟩
  rw [Monitored.step] at hslot
  cases hseeded : m.hub.sectionSeeded with
  | false =>
    rw [slot_seed hseeded] at hslot
    exact Or.inl (List.mem_filter.mp hslot).1
  | true =>
    rw [slot_broadcast hseeded] at hslot
    rcases Slot.mem_emitted_broadcast hslot with hold | hnew
    · exact Or.inl (List.mem_filter.mp hold).1
    · exact Or.inr hnew

/-- Where the times do not decrease, no emission is later than a call. -/
theorem published_le_now (calls : List (Call V)) (htimes : (calls.map Call.now).Pairwise (· ≤ ·))
    (hm : ∀ e ∈ m.hub.published, ∀ call ∈ calls, e.time ≤ call.now) :
    Guarded (Monitored.step digest sectionCoalesceS) (fun m call => ∀ e ∈ m.hub.published, e.time ≤ call.now)
      m calls := by
  induction calls generalizing m with
  | nil => trivial
  | cons call calls ih =>
    obtain ⟨hfirst, hrest⟩ := List.pairwise_cons.mp htimes
    refine ⟨fun e he => hm e he call List.mem_cons_self, ih hrest fun e he next hnext => ?_⟩
    rcases mem_published_step he with he | he
    · exact hm e he next (List.mem_cons_of_mem _ hnext)
    · rw [he]
      exact hfirst _ (List.mem_map_of_mem hnext)

/-- Where no section is overtaken, and the times do not decrease, all sections converge. -/
theorem sections_converge (digest : V → D) (sectionCoalesceS : ℚ) (calls : List (Call V))
    (htimes : (calls.map Call.now).Pairwise (· ≤ ·))
    (hcalls : Guarded (step digest sectionCoalesceS) (NoOvertake digest sectionCoalesceS) initial calls) :
    Always (step digest sectionCoalesceS) (fun m => ∀ name, m.Converging digest sectionCoalesceS name)
      initial calls := by
  have hguard := (guarded_and _ _ _ initial calls).mpr ⟨hcalls, published_le_now calls htimes nofun⟩
  have hinv : Always (step digest sectionCoalesceS) (Kept digest sectionCoalesceS) initial calls :=
    always_of_guarded (fun m call h hcall => h.step hcall.1 hcall.2) kept_initial hguard
  exact hinv.mono fun m h name => h.converging name

end

/-! A section of one number, composed at tenths of a second. -/

def tenth (t : Nat) (value : Nat) : Call Nat where
  now := t / 10
  sections := Dict.empty.insert "market" { version := some value, value }

/-- A delta every second, and one between that waits. -/
def steadyCalls : List (Call Nat) := [tenth 0 1, tenth 10 2, tenth 15 3, tenth 20 3, tenth 30 4]

theorem sections_converge_steady :
    ((steadyCalls.map Call.now).Pairwise (· ≤ ·) ∧
        Guarded (step id 1) (NoOvertake id 1) initial steadyCalls) ∧
      Always (step id 1) (fun m => ∀ name, m.Converging id 1 name) initial steadyCalls :=
  have htimes : (steadyCalls.map Call.now).Pairwise (· ≤ ·) := by decide +kernel
  have hcalls : Guarded (step id 1) (NoOvertake id 1) initial steadyCalls := by decide +kernel
  ⟨⟨htimes, hcalls⟩, sections_converge id 1 steadyCalls htimes hcalls⟩

/-- A delta waits, a newer one goes ahead when the interval is over, and the older one comes last. -/
def overtakenCalls : List (Call Nat) := [tenth 0 1, tenth 10 2, tenth 15 3, tenth 22 4, tenth 35 4]

theorem pending_delta_comes_last :
    ¬ ∀ (digest : Nat → Nat) (sectionCoalesceS : ℚ) (calls : List (Call Nat)),
      (calls.map Call.now).Pairwise (· ≤ ·) →
        Always (step digest sectionCoalesceS) (fun m => ∀ name, m.Converging digest sectionCoalesceS name)
          initial calls := by
  intro h
  have htimes : (overtakenCalls.map Call.now).Pairwise (· ≤ ·) := by decide +kernel
  have hlast := run_of_always (h id 1 overtakenCalls htimes)
  have hsublist := (hlast "market").in_order.1
  revert hsublist
  decide +kernel

end Monitored

end SectionHub
end Droid.Stream
