import Droid.Algo.SignalFusion
import Droid.Lib.Least
import Droid.Lib.Tally
import Mathlib.Data.List.Dedup
import Mathlib.Data.List.Sort

/-! Strategies that vote against each other on one instrument: grouping by bucket and the policies. -/
namespace Droid.Algo.Fusion
open Lib Lib.Text

/-- Any other text than the three is no policy. -/
inductive ConflictPolicy where
  | net | prioritizeByRank | rejectBothAndAlert
  | unknown (name : String)
  deriving DecidableEq, Repr

def DEFAULT_POLICY : ConflictPolicy := .rejectBothAndAlert

/-- `policy or self.DEFAULT_POLICY`. -/
def orDefault : Option ConflictPolicy → ConflictPolicy
  | none => DEFAULT_POLICY
  | some (.unknown name) => if name = "" then DEFAULT_POLICY else .unknown name
  | some policy => policy

structure ConflictingSignal where
  strategyId : String
  direction : String
  rank : Int
  signal : Signal
  deriving DecidableEq

/-- `instrument_equivalence_fn`; without a value where it raises. -/
abbrev EquivalenceFn := Option (String → Option String)

/-- `value or other`, for texts. -/
def orText (value : Option String) (other : String) : String :=
  match value with
  | none => other
  | some text => if text = "" then other else text

namespace ConflictingSignal
variable (cs : ConflictingSignal) (fn : EquivalenceFn)

/-- The first of instrument and symbol that is there. -/
def ownBucket : String :=
  if orText cs.signal.instrumentId "" ≠ "" then strip (upper (orText cs.signal.instrumentId ""))
  else if cs.signal.symbol ≠ "" then strip (upper cs.signal.symbol)
  else "UNKNOWN"

def bucket : String :=
  match fn with
  | none => cs.ownBucket
  | some f =>
    match f (orText (some cs.signal.symbol) (orText cs.signal.instrumentId "UNKNOWN")) with
    | some text => upper text
    | none => cs.ownBucket

end ConflictingSignal

def directions (group : List ConflictingSignal) : List String := (group.map (·.direction)).dedup

def votes (direction : String) (group : List ConflictingSignal) : List ConflictingSignal :=
  group.filter fun s => s.direction = direction

/-- The head of the candidates by falling confidence. A comparison with a missing confidence raises,
and one candidate is compared with nothing. -/
def mostConfident : List ConflictingSignal → Option ConflictingSignal
  | [only] => some only
  | candidates =>
    if candidates.all (·.signal.confidence.isSome) then
      firstLeast (fun s => -(s.signal.confidence.getD 0)) candidates
    else none

def resolveBucket (policy : ConflictPolicy) (bucket : String) (group : List ConflictingSignal) :
    Option (List ConflictingSignal × String) :=
  match policy with
  | .rejectBothAndAlert => some ([], s!"{bucket}:REJECT_BOTH_DUE_TO_CONFLICT")
  | .prioritizeByRank => do
    let winner ← firstLeast (·.rank) group
    return ([winner], s!"{bucket}:PRIORITIZED_{winner.strategyId}")
  | .net =>
    let net : Int := (votes "LONG" group).length - (votes "SHORT" group).length
    if net = 0 then some ([], s!"{bucket}:NET_ZERO_NO_ORDER")
    else do
      let wantedDir := if 0 < net then "LONG" else "SHORT"
      let winner ← mostConfident (votes wantedDir group)
      return ([winner], s!"{bucket}:NET_{wantedDir}_RESIDUAL_{net.natAbs}")
  | .unknown _ => some ([], s!"{bucket}:UNKNOWN_POLICY")

def turn (policy : ConflictPolicy) (bucket : String) (group : List ConflictingSignal) :
    Option (List ConflictingSignal × List String) :=
  if (directions group).length = 1 then some (group, [])
  else (resolveBucket policy bucket group).map fun out => (out.1, [out.2])

def resolveBuckets (policy : ConflictPolicy) :
    List (String × List ConflictingSignal) → Option (List ConflictingSignal × List String)
  | [] => some ([], [])
  | (bucket, group) :: rest => do
    let (approved, reasons) ← turn policy bucket group
    let (moreApproved, moreReasons) ← resolveBuckets policy rest
    return (approved ++ moreApproved, reasons ++ moreReasons)

def finalReason (approved : List ConflictingSignal) (reasons : List String) : String :=
  if approved.isEmpty && !reasons.isEmpty then
    if reasons.all fun r => hasText r "REJECT_BOTH" || hasText r "NET_ZERO" then "REJECT_BOTH_DUE_TO_CONFLICT"
    else ";".intercalate reasons
  else if reasons.isEmpty then "NO_CONFLICT"
  else ";".intercalate reasons

/-- `resolve` with the votes themselves; no value where it raises. -/
def resolveVotes (signals : List ConflictingSignal) (policy : Option ConflictPolicy) (fn : EquivalenceFn) :
    Option (List ConflictingSignal × String) :=
  if signals.length ≤ 1 then some (signals, "NO_CONFLICT")
  else
    let byBucket := grouped (·.bucket fn) signals
    if byBucket.values.any (fun group => 1 < (directions group).length) then do
      let (approved, reasons) ←
        resolveBuckets (orDefault policy) (byBucket.entries.insertionSort fun a b => a.1 ≤ b.1)
      return (approved, finalReason approved reasons)
    else some (signals, "SAME_DIRECTION_NO_CONFLICT")

def resolve (signals : List ConflictingSignal) (policy : Option ConflictPolicy) (fn : EquivalenceFn) :
    Option (List Signal × String) :=
  (resolveVotes signals policy fn).map fun out => (out.1.map (·.signal), out.2)

def inBucket (fn : EquivalenceFn) (bucket : String) (signals : List ConflictingSignal) : List ConflictingSignal :=
  signals.filter fun s => s.bucket fn = bucket

def majority (group : List ConflictingSignal) : List ConflictingSignal :=
  if (votes "SHORT" group).length < (votes "LONG" group).length then votes "LONG" group else votes "SHORT" group

section Bucket
variable {group group' approved approved' : List ConflictingSignal} {policy : ConflictPolicy} {bucket reason : String}
  {reasons reasons' : List String}

theorem length_directions_pos (h : group ≠ []) : 0 < (directions group).length := by
  obtain ⟨s, hs⟩ := List.exists_mem_of_ne_nil group h
  exact List.length_pos_of_mem (List.mem_dedup.mpr (List.mem_map_of_mem hs))

theorem length_directions_le : (directions group).length ≤ group.length := by
  rw [directions]
  exact (List.dedup_sublist _).length_le.trans (List.length_map _).le

theorem directions_perm (hp : group'.Perm group) : (directions group').length = (directions group).length :=
  (hp.map _).dedup.length_eq

theorem direction_eq (h : (directions group).length = 1) {s t : ConflictingSignal} (hs : s ∈ group) (ht : t ∈ group) :
    s.direction = t.direction := by
  obtain ⟨d, hd⟩ := List.length_eq_one_iff.mp h
  have hall : ∀ s ∈ group, s.direction = d := by
    intro s hs
    have hmem : s.direction ∈ directions group := List.mem_dedup.mpr (List.mem_map_of_mem hs)
    rwa [hd, List.mem_singleton] at hmem
  rw [hall s hs, hall t ht]

theorem mostConfident_of_length (h : group.length ≠ 1) : mostConfident group =
    if group.all (·.signal.confidence.isSome) then firstLeast (fun s => -(s.signal.confidence.getD 0)) group
    else none := by
  match group, h with
  | [], _ => rfl
  | [_], h => exact absurd rfl h
  | _ :: _ :: _, _ => rfl

theorem mostConfident_mem {s : ConflictingSignal} (h : mostConfident group = some s) : s ∈ group := by
  by_cases hlen : group.length = 1
  · obtain ⟨only, rfl⟩ := List.length_eq_one_iff.mp hlen
    rw [mostConfident] at h
    rw [Option.some.inj h]
    exact List.mem_singleton_self s
  · rw [mostConfident_of_length hlen] at h
    split at h
    · exact firstLeast_mem h
    · cases h

theorem mostConfident_eq_none (hne : group ≠ []) :
    mostConfident group = none ↔ 1 < group.length ∧ ∃ s ∈ group, s.signal.confidence = none := by
  by_cases hlen : group.length = 1
  · obtain ⟨only, rfl⟩ := List.length_eq_one_iff.mp hlen
    simp [mostConfident]
  · have hpos := List.length_pos_of_ne_nil hne
    rw [mostConfident_of_length hlen]
    split
    · rename_i hall
      rw [firstLeast_eq_none, iff_false_left hne]
      rintro ⟨-, s, hs, hnone⟩
      have hsome := List.all_eq_true.mp hall s hs
      rw [hnone] at hsome
      cases hsome
    · rename_i hall
      rw [iff_true_left rfl]
      refine ⟨by omega, ?_⟩
      simpa using hall

theorem mostConfident_perm (hp : group.Perm group') (hconf : (group.map (·.signal.confidence)).Nodup) :
    mostConfident group = mostConfident group' := by
  by_cases hlen : group.length = 1
  · obtain ⟨only, rfl⟩ := List.length_eq_one_iff.mp hlen
    rw [List.singleton_perm.mp hp]
  · have hlen' : group'.length ≠ 1 := by rwa [← hp.length_eq]
    have hall : group.all (·.signal.confidence.isSome) = group'.all (·.signal.confidence.isSome) := hp.all_eq
    rw [mostConfident_of_length hlen, mostConfident_of_length hlen', ← hall]
    split
    · rename_i hsome
      apply firstLeast_perm hp
      have hmap : group.map (fun s => -(s.signal.confidence.getD 0)) =
          (group.map (·.signal.confidence)).map fun c => -(c.getD 0) := by
        rw [List.map_map]
        rfl
      rw [hmap]
      refine hconf.map_on ?_
      intro a ha b hb heq
      obtain ⟨s, hs, rfl⟩ := List.mem_map.mp ha
      obtain ⟨t, ht, rfl⟩ := List.mem_map.mp hb
      obtain ⟨x, hx⟩ := Option.isSome_iff_exists.mp (List.all_eq_true.mp hsome s hs)
      obtain ⟨y, hy⟩ := Option.isSome_iff_exists.mp (List.all_eq_true.mp hsome t ht)
      rw [hx, hy] at heq ⊢
      exact congrArg some (neg_injective heq)
    · rfl

/-- A bucket in conflict gives up all its signals but at most one. -/
theorem resolveBucket_approved (h : resolveBucket policy bucket group = some (approved, reason)) :
    approved = [] ∨ ∃ s ∈ group, approved = [s] := by
  cases policy with
  | rejectBothAndAlert =>
    cases h
    exact Or.inl rfl
  | unknown name =>
    cases h
    exact Or.inl rfl
  | prioritizeByRank =>
    simp only [resolveBucket, Option.bind_eq_bind, Option.bind_eq_some_iff, Option.pure_def] at h
    obtain ⟨winner, hwinner, hout⟩ := h
    cases hout
    exact Or.inr ⟨winner, firstLeast_mem hwinner, rfl⟩
  | net =>
    simp only [resolveBucket] at h
    split at h
    · cases h
      exact Or.inl rfl
    · simp only [Option.bind_eq_bind, Option.bind_eq_some_iff, Option.pure_def] at h
      obtain ⟨winner, hwinner, hout⟩ := h
      cases hout
      exact Or.inr ⟨winner, List.mem_of_mem_filter (mostConfident_mem hwinner), rfl⟩

private theorem majority_eq :
    votes (if (0 : Int) < (votes "LONG" group).length - (votes "SHORT" group).length then "LONG" else "SHORT") group =
      majority group := by
  rw [majority]
  split_ifs with hnet hlt <;> first | rfl | omega

private theorem majority_ne_nil (hne : (votes "LONG" group).length ≠ (votes "SHORT" group).length) :
    majority group ≠ [] := by
  rw [majority]
  split <;> exact List.ne_nil_of_length_pos (by omega)

/-- Only netting raises, where it has to compare a confidence that is missing. -/
theorem resolveBucket_eq_none (hne : group ≠ []) : resolveBucket policy bucket group = none ↔
    policy = .net ∧ (votes "LONG" group).length ≠ (votes "SHORT" group).length ∧
      1 < (majority group).length ∧ ∃ s ∈ majority group, s.signal.confidence = none := by
  cases policy with
  | rejectBothAndAlert => simp [resolveBucket]
  | unknown name => simp [resolveBucket]
  | prioritizeByRank =>
    cases hwinner : firstLeast (·.rank) group with
    | none => exact absurd (firstLeast_eq_none.mp hwinner) hne
    | some winner => simp [resolveBucket, hwinner]
  | net =>
    by_cases hnet : (votes "LONG" group).length = (votes "SHORT" group).length
    · simp [resolveBucket, hnet]
    · have hdiff : (((votes "LONG" group).length : Int) - (votes "SHORT" group).length) ≠ 0 := by omega
      rw [← mostConfident_eq_none (majority_ne_nil hnet), ← majority_eq]
      simp only [resolveBucket, if_neg hdiff]
      cases mostConfident (votes (if (0 : Int) < (votes "LONG" group).length - (votes "SHORT" group).length
        then "LONG" else "SHORT") group) with
      | none => simp [hnet]
      | some winner => simp

theorem turn_approved (h : turn policy bucket group = some (approved, reasons)) :
    ((directions group).length = 1 ∧ approved = group) ∨
      ((directions group).length ≠ 1 ∧ (approved = [] ∨ ∃ s ∈ group, approved = [s])) := by
  rw [turn] at h
  split at h
  · rename_i hone
    cases h
    exact Or.inl ⟨hone, rfl⟩
  · rename_i hone
    obtain ⟨⟨a, r⟩, hout, heq⟩ := Option.map_eq_some_iff.mp h
    cases heq
    exact Or.inr ⟨hone, resolveBucket_approved hout⟩

theorem turn_sublist (h : turn policy bucket group = some (approved, reasons)) : approved.Sublist group := by
  rcases turn_approved h with ⟨-, rfl⟩ | ⟨-, rfl | ⟨s, hs, rfl⟩⟩
  · exact List.Sublist.refl _
  · exact List.nil_sublist _
  · exact List.singleton_sublist.mpr hs

theorem turn_eq_none (hne : group ≠ []) : turn policy bucket group = none ↔
    1 < (directions group).length ∧ policy = .net ∧
      (votes "LONG" group).length ≠ (votes "SHORT" group).length ∧
      1 < (majority group).length ∧ ∃ s ∈ majority group, s.signal.confidence = none := by
  have hpos := length_directions_pos hne
  rw [turn]
  split
  · rename_i hone
    simp [hone]
  · rename_i hone
    rw [Option.map_eq_none_iff, resolveBucket_eq_none hne, iff_and_self]
    intro
    omega

/-- Distinct ranks and confidences leave nothing to the order of the votes. -/
theorem turn_perm (hp : group.Perm group') (hranks : (group.map (·.rank)).Nodup)
    (hconf : (group.map (·.signal.confidence)).Nodup)
    (h : turn policy bucket group = some (approved, reasons))
    (h' : turn policy bucket group' = some (approved', reasons')) : approved.Perm approved' := by
  have hvotes : ∀ d, (votes d group).Perm (votes d group') := fun d => hp.filter _
  have hbucket : (resolveBucket policy bucket group).map Prod.fst =
      (resolveBucket policy bucket group').map Prod.fst := by
    cases policy with
    | rejectBothAndAlert => rfl
    | unknown name => rfl
    | prioritizeByRank => simp only [resolveBucket, firstLeast_perm hp hranks]
    | net =>
      have hsame : ∀ d, mostConfident (votes d group) = mostConfident (votes d group') := fun d =>
        mostConfident_perm (hvotes d) ((List.filter_sublist.map _).nodup hconf)
      simp only [resolveBucket, (hvotes _).length_eq, hsame]
  rw [turn] at h h'
  rw [directions_perm hp] at h
  split at h
  · rename_i hone
    rw [if_pos hone] at h'
    cases h
    cases h'
    exact hp
  · rename_i hone
    rw [if_neg hone] at h'
    obtain ⟨out, hout, heq⟩ := Option.map_eq_some_iff.mp h
    obtain ⟨out', hout', heq'⟩ := Option.map_eq_some_iff.mp h'
    cases heq
    cases heq'
    rw [hout, hout'] at hbucket
    rw [Option.some.inj hbucket]

end Bucket

section Loop
variable {policy : ConflictPolicy} {entries : List (String × List ConflictingSignal)}
  {approved : List ConflictingSignal} {reasons : List String} {fn : EquivalenceFn}

/-- The loop raises with the first bucket that does. -/
theorem resolveBuckets_eq_none :
    resolveBuckets policy entries = none ↔ ∃ e ∈ entries, turn policy e.1 e.2 = none := by
  induction entries with
  | nil => simp [resolveBuckets]
  | cons e rest ih =>
    obtain ⟨bucket, group⟩ := e
    cases hturn : turn policy bucket group with
    | none => simp [resolveBuckets, hturn]
    | some out =>
      rw [List.exists_mem_cons_iff, or_iff_right (by rw [hturn]; exact Option.some_ne_none _), ← ih]
      cases hrest : resolveBuckets policy rest with
      | none => simp [resolveBuckets, hturn, hrest]
      | some more => simp [resolveBuckets, hturn, hrest]

theorem mem_resolveBuckets (h : resolveBuckets policy entries = some (approved, reasons)) :
    ∀ s ∈ approved, ∃ e ∈ entries, s ∈ e.2 := by
  induction entries generalizing approved reasons with
  | nil =>
    cases h
    intro s hs
    cases hs
  | cons e rest ih =>
    obtain ⟨bucket, group⟩ := e
    simp only [resolveBuckets, Option.bind_eq_bind, Option.bind_eq_some_iff, Option.pure_def] at h
    obtain ⟨⟨a, r⟩, hturn, ⟨more, rs⟩, hrest, hout⟩ := h
    cases hout
    intro s hs
    rcases List.mem_append.mp hs with ha | hmore
    · exact ⟨_, List.mem_cons_self, (turn_sublist hturn).subset ha⟩
    · obtain ⟨e, he, hse⟩ := ih hrest s hmore
      exact ⟨e, List.mem_cons_of_mem _ he, hse⟩

theorem resolveBuckets_inBucket (h : resolveBuckets policy entries = some (approved, reasons))
    (hkeys : (entries.map Prod.fst).Nodup) (hgroups : ∀ e ∈ entries, ∀ s ∈ e.2, s.bucket fn = e.1) :
    ∀ e ∈ entries, ∃ rs, turn policy e.1 e.2 = some (inBucket fn e.1 approved, rs) := by
  induction entries generalizing approved reasons with
  | nil =>
    intro e he
    cases he
  | cons e rest ih =>
    obtain ⟨bucket, group⟩ := e
    obtain ⟨hnew, hkeys'⟩ := List.nodup_cons.mp hkeys
    simp only [resolveBuckets, Option.bind_eq_bind, Option.bind_eq_some_iff, Option.pure_def] at h
    obtain ⟨⟨a, r⟩, hturn, ⟨more, rs⟩, hrest, hout⟩ := h
    cases hout
    have hgroups' : ∀ e ∈ rest, ∀ s ∈ e.2, s.bucket fn = e.1 := fun e he => hgroups e (List.mem_cons_of_mem _ he)
    have hown : ∀ s ∈ a, s.bucket fn = bucket := fun s hs =>
      hgroups _ List.mem_cons_self s ((turn_sublist hturn).subset hs)
    have hother : ∀ s ∈ more, ∃ e ∈ rest, s.bucket fn = e.1 := by
      intro s hs
      obtain ⟨e, he, hse⟩ := mem_resolveBuckets hrest s hs
      exact ⟨e, he, hgroups' e he s hse⟩
    intro e he
    rcases List.mem_cons.mp he with rfl | he
    · refine ⟨r, ?_⟩
      have hmine : a.filter (fun s => s.bucket fn = bucket) = a :=
        List.filter_eq_self.mpr fun s hs => by simpa using hown s hs
      have htheirs : more.filter (fun s => s.bucket fn = bucket) = [] := by
        refine List.filter_eq_nil_iff.mpr fun s hs => ?_
        obtain ⟨e, he, heq⟩ := hother s hs
        intro hb
        exact hnew (List.mem_map.mpr ⟨e, he, heq.symm.trans (by simpa using hb)⟩)
      rw [inBucket, List.filter_append, hmine, htheirs, List.append_nil, hturn]
    · obtain ⟨rs', hturn'⟩ := ih hrest hkeys' hgroups' e he
      refine ⟨rs', ?_⟩
      have hnone : a.filter (fun s => s.bucket fn = e.1) = [] := by
        refine List.filter_eq_nil_iff.mpr fun s hs => ?_
        intro hb
        have heq : e.1 = bucket := (by simpa using hb : s.bucket fn = e.1).symm.trans (hown s hs)
        exact hnew (List.mem_map.mpr ⟨e, he, heq⟩)
      rw [inBucket, List.filter_append, hnone, List.nil_append]
      exact hturn'

end Loop

section Resolve
variable {signals approved : List ConflictingSignal} {policy : Option ConflictPolicy} {fn : EquivalenceFn}
  {reason : String}

/-- The buckets the loop goes through, in the order it does. -/
private theorem mem_sorted {e : String × List ConflictingSignal} :
    e ∈ (grouped (·.bucket fn) signals).entries.insertionSort (fun a b => a.1 ≤ b.1) ↔
      e.2 = inBucket fn e.1 signals ∧ e.2 ≠ [] := by
  rw [List.mem_insertionSort]
  constructor
  · exact mem_grouped
  · rintro ⟨heq, hne⟩
    obtain ⟨s, hs⟩ := List.exists_mem_of_ne_nil _ hne
    rw [heq] at hs
    obtain ⟨hsig, hb⟩ := List.mem_filter.mp hs
    have hkey : s.bucket fn = e.1 := by simpa using hb
    have hentry : (s.bucket fn, inBucket fn (s.bucket fn) signals) ∈ (grouped (·.bucket fn) signals).entries :=
      mem_grouped_of_mem hsig
    rw [hkey] at hentry
    rwa [← Prod.mk.eta (p := e), heq]

private theorem inBucket_ne_nil {s : ConflictingSignal} (hs : s ∈ signals) : inBucket fn (s.bucket fn) signals ≠ [] :=
  List.ne_nil_of_mem (List.mem_filter.mpr ⟨hs, by simp⟩)

/-- Without a bucket in conflict every turn would approve its group. -/
private theorem turn_of_agreed {bucket : String} {p : ConflictPolicy} (hne : inBucket fn bucket signals ≠ [])
    (hagreed : (directions (inBucket fn bucket signals)).length ≤ 1) :
    turn p bucket (inBucket fn bucket signals) = some (inBucket fn bucket signals, []) := by
  have hpos := length_directions_pos hne
  rw [turn, if_pos (by omega)]

private theorem any_opposed_iff : (grouped (·.bucket fn) signals).values.any (fun group => 1 < (directions group).length) ↔
    ∃ bucket, 1 < (directions (inBucket fn bucket signals)).length := by
  rw [List.any_eq_true]
  constructor
  · rintro ⟨group, hgroup, hlong⟩
    obtain ⟨⟨bucket, group'⟩, he, rfl⟩ := List.mem_map.mp hgroup
    have heq := (mem_grouped he).1
    exact ⟨bucket, by simpa [inBucket, heq] using hlong⟩
  · rintro ⟨bucket, hlong⟩
    have hne : inBucket fn bucket signals ≠ [] := by
      intro hnil
      rw [hnil] at hlong
      exact absurd hlong (by decide)
    have hentry := (List.mem_insertionSort _).mp (mem_sorted (e := (bucket, inBucket fn bucket signals)).mpr ⟨rfl, hne⟩)
    exact ⟨_, List.mem_map_of_mem hentry, by simpa using hlong⟩

/-- The early answers are what the loop would have found. -/
private theorem agreed_of_short (h : signals.length ≤ 1) (bucket : String) :
    (directions (inBucket fn bucket signals)).length ≤ 1 :=
  (length_directions_le.trans (List.filter_sublist.length_le)).trans h

theorem resolveVotes_spec (h : resolveVotes signals policy fn = some (approved, reason)) :
    (∀ s ∈ approved, s ∈ signals) ∧ ∀ bucket, inBucket fn bucket signals ≠ [] →
      ∃ rs, turn (orDefault policy) bucket (inBucket fn bucket signals) = some (inBucket fn bucket approved, rs) := by
  rw [resolveVotes] at h
  split at h
  · rename_i hshort
    cases h
    exact ⟨fun s hs => hs, fun bucket hne => ⟨[], turn_of_agreed hne (agreed_of_short hshort bucket)⟩⟩
  · dsimp only at h
    split at h
    · simp only [Option.bind_eq_bind, Option.bind_eq_some_iff, Option.pure_def] at h
      obtain ⟨⟨a, rs⟩, hloop, hout⟩ := h
      cases hout
      refine ⟨?_, ?_⟩
      · intro s hs
        obtain ⟨e, he, hse⟩ := mem_resolveBuckets hloop s hs
        rw [(mem_sorted.mp he).1] at hse
        exact List.mem_of_mem_filter hse
      · intro bucket hne
        refine resolveBuckets_inBucket hloop ?_ ?_ (bucket, inBucket fn bucket signals) (mem_sorted.mpr ⟨rfl, hne⟩)
        · exact ((List.perm_insertionSort _ _).map _).nodup_iff.mpr (grouped (·.bucket fn) signals).nodup
        · intro e he s hs
          rw [(mem_sorted.mp he).1] at hs
          simpa using (List.mem_filter.mp hs).2
    · rename_i hnone
      cases h
      rw [any_opposed_iff, not_exists] at hnone
      exact ⟨fun s hs => hs, fun bucket hne => ⟨[], turn_of_agreed hne (not_lt.mp (hnone bucket))⟩⟩

theorem resolveVotes_eq_none : resolveVotes signals policy fn = none ↔
    ∃ bucket, inBucket fn bucket signals ≠ [] ∧
      turn (orDefault policy) bucket (inBucket fn bucket signals) = none := by
  rw [resolveVotes]
  split
  · rename_i hshort
    refine iff_of_false (Option.some_ne_none _) ?_
    rintro ⟨bucket, hne, hturn⟩
    rw [turn_of_agreed hne (agreed_of_short hshort bucket)] at hturn
    cases hturn
  · dsimp only
    split
    · have hloop : resolveBuckets (orDefault policy)
          ((grouped (·.bucket fn) signals).entries.insertionSort fun a b => a.1 ≤ b.1) = none ↔
          ∃ bucket, inBucket fn bucket signals ≠ [] ∧
            turn (orDefault policy) bucket (inBucket fn bucket signals) = none := by
        rw [resolveBuckets_eq_none]
        constructor
        · rintro ⟨⟨bucket, group⟩, he, hturn⟩
          obtain ⟨heq, hne⟩ := mem_sorted.mp he
          dsimp only at heq hne hturn
          subst heq
          exact ⟨bucket, hne, hturn⟩
        · rintro ⟨bucket, hne, hturn⟩
          exact ⟨(bucket, _), mem_sorted.mpr ⟨rfl, hne⟩, hturn⟩
      rw [← hloop]
      cases resolveBuckets (orDefault policy)
        ((grouped (·.bucket fn) signals).entries.insertionSort fun a b => a.1 ≤ b.1) with
      | none => simp
      | some out => simp
    · rename_i hnone
      rw [any_opposed_iff, not_exists] at hnone
      refine iff_of_false (Option.some_ne_none _) ?_
      rintro ⟨bucket, hne, hturn⟩
      rw [turn_of_agreed hne (not_lt.mp (hnone bucket))] at hturn
      cases hturn

/-- LONG against SHORT; a vote for no trade opposes nothing. -/
def Opposed (group : List ConflictingSignal) : Prop :=
  (∃ s ∈ group, s.direction = "LONG") ∧ ∃ s ∈ group, s.direction = "SHORT"

def DistinctVotes (signals : List ConflictingSignal) : Prop :=
  (signals.map (·.rank)).Nodup ∧ (signals.map (·.signal.confidence)).Nodup

structure Arbitrated (fn : EquivalenceFn) (signals approved : List ConflictingSignal) : Prop where
  subperm : approved.Subperm signals
  unopposed : ∀ bucket, ¬Opposed (inBucket fn bucket approved)
  kept : ∀ bucket, ¬Opposed (inBucket fn bucket signals) → (inBucket fn bucket signals).Subperm approved

/-- The resolver answers, arbitrates, and looks neither at the order of the votes nor at other buckets. -/
def ResolvesSoundly (signals : List ConflictingSignal) (policy : Option ConflictPolicy) (fn : EquivalenceFn) : Prop :=
  ∃ approved reason, resolveVotes signals policy fn = some (approved, reason) ∧
    resolve signals policy fn = some (approved.map (·.signal), reason) ∧ Arbitrated fn signals approved ∧
    (DistinctVotes signals → ∀ others approved' reason', resolveVotes others policy fn = some (approved', reason') →
      ∀ bucket, (inBucket fn bucket signals).Perm (inBucket fn bucket others) →
        (inBucket fn bucket approved).Perm (inBucket fn bucket approved'))

/-- Directions differ only where LONG meets SHORT, and netting has no missing confidence to compare. -/
def Settleable (signals : List ConflictingSignal) (policy : Option ConflictPolicy) (fn : EquivalenceFn) : Prop :=
  ∀ bucket, 1 < (directions (inBucket fn bucket signals)).length → Opposed (inBucket fn bucket signals) ∧
    (orDefault policy = .net →
      (votes "LONG" (inBucket fn bucket signals)).length ≠ (votes "SHORT" (inBucket fn bucket signals)).length →
      (majority (inBucket fn bucket signals)).length ≤ 1 ∨
        ∀ s ∈ majority (inBucket fn bucket signals), s.signal.confidence ≠ none)

private theorem opposed_of_soundly (h : resolveVotes signals policy fn = some (approved, reason))
    (ha : Arbitrated fn signals approved) {bucket : String}
    (hlong : 1 < (directions (inBucket fn bucket signals)).length) : Opposed (inBucket fn bucket signals) := by
  by_contra hunopposed
  have hne : inBucket fn bucket signals ≠ [] := by
    intro hnil
    rw [hnil] at hlong
    exact absurd hlong (by decide)
  obtain ⟨rs, hturn⟩ := (resolveVotes_spec h).2 bucket hne
  have hkept := (ha.kept bucket hunopposed).filter fun s => s.bucket fn = bucket
  have hall : (inBucket fn bucket signals).filter (fun s => s.bucket fn = bucket) = inBucket fn bucket signals := by
    rw [inBucket, List.filter_filter]
    simp
  rw [hall] at hkept
  have hlength := hkept.length_le
  have hdirections : (directions (inBucket fn bucket signals)).length ≤ (inBucket fn bucket signals).length :=
    length_directions_le
  rcases turn_approved hturn with ⟨hone, -⟩ | ⟨-, hnil | ⟨s, -, hsingle⟩⟩
  · omega
  · change (inBucket fn bucket signals).length ≤ (inBucket fn bucket approved).length at hlength
    rw [hnil, List.length_nil] at hlength
    omega
  · change (inBucket fn bucket signals).length ≤ (inBucket fn bucket approved).length at hlength
    rw [hsingle, List.length_singleton] at hlength
    omega

private theorem subperm_of_resolved (h : resolveVotes signals policy fn = some (approved, reason)) :
    approved.Subperm signals := by
  obtain ⟨hmem, hturns⟩ := resolveVotes_spec h
  rw [List.subperm_ext_iff]
  intro s hs
  obtain ⟨rs, hturn⟩ := hturns (s.bucket fn) (inBucket_ne_nil (hmem s hs))
  have hcount := (turn_sublist hturn).count_le s
  rwa [inBucket, inBucket, List.count_filter (by simp), List.count_filter (by simp)] at hcount

private theorem unopposed_of_resolved (h : resolveVotes signals policy fn = some (approved, reason))
    (bucket : String) : ¬Opposed (inBucket fn bucket approved) := by
  rintro ⟨⟨s, hs, hlong⟩, t, ht, hshort⟩
  obtain ⟨hmem, hturns⟩ := resolveVotes_spec h
  have hin : ∀ s ∈ inBucket fn bucket approved, s ∈ inBucket fn bucket signals := by
    intro s hs
    obtain ⟨happroved, hb⟩ := List.mem_filter.mp hs
    exact List.mem_filter.mpr ⟨hmem s happroved, hb⟩
  have hsame : s.direction = t.direction := by
    obtain ⟨rs, hturn⟩ := hturns bucket (List.ne_nil_of_mem (hin s hs))
    rcases turn_approved hturn with ⟨hone, -⟩ | ⟨-, hnil | ⟨only, -, hsingle⟩⟩
    · exact direction_eq hone (hin s hs) (hin t ht)
    · rw [hnil] at hs
      cases hs
    · rw [hsingle, List.mem_singleton] at hs ht
      rw [hs, ht]
  rw [hlong, hshort] at hsame
  exact absurd hsame (by decide)

private theorem kept_of_resolved (h : resolveVotes signals policy fn = some (approved, reason)) {bucket : String}
    (hagreed : (directions (inBucket fn bucket signals)).length ≤ 1) :
    (inBucket fn bucket signals).Subperm approved := by
  by_cases hne : inBucket fn bucket signals = []
  · rw [hne]
    exact List.nil_subperm
  · obtain ⟨rs, hturn⟩ := (resolveVotes_spec h).2 bucket hne
    rw [turn_of_agreed hne hagreed, Option.some_inj, Prod.mk.injEq] at hturn
    rw [hturn.1]
    exact List.filter_sublist.subperm

private theorem perm_of_resolved {others approved' : List ConflictingSignal} {reason' : String}
    (h : resolveVotes signals policy fn = some (approved, reason))
    (h' : resolveVotes others policy fn = some (approved', reason')) (hdistinct : DistinctVotes signals)
    {bucket : String} (hp : (inBucket fn bucket signals).Perm (inBucket fn bucket others)) :
    (inBucket fn bucket approved).Perm (inBucket fn bucket approved') := by
  obtain ⟨hmem, hturns⟩ := resolveVotes_spec h
  obtain ⟨hmem', hturns'⟩ := resolveVotes_spec h'
  have hgone : ∀ {signals approved : List ConflictingSignal}, (∀ s ∈ approved, s ∈ signals) →
      inBucket fn bucket signals = [] → inBucket fn bucket approved = [] := by
    intro signals approved hmem hnil
    refine List.filter_eq_nil_iff.mpr fun s hs hb => ?_
    exact List.filter_eq_nil_iff.mp hnil s (hmem s hs) hb
  by_cases hne : inBucket fn bucket signals = []
  · have hne' : inBucket fn bucket others = [] := by
      rw [hne] at hp
      exact List.nil_perm.mp hp
    rw [hgone hmem hne, hgone hmem' hne']
  · have hne' : inBucket fn bucket others ≠ [] := by
      intro hnil
      rw [hnil] at hp
      exact hne (List.perm_nil.mp hp)
    obtain ⟨rs, hturn⟩ := hturns bucket hne
    obtain ⟨rs', hturn'⟩ := hturns' bucket hne'
    exact turn_perm hp ((List.filter_sublist.map _).nodup hdistinct.1)
      ((List.filter_sublist.map _).nodup hdistinct.2) hturn hturn'

/-- Any two directions are taken for a conflict, a vote for no trade included, and netting compares
confidences that may be missing. Elsewhere the arbitration is sound. -/
theorem resolvesSoundly_iff (signals : List ConflictingSignal) (policy : Option ConflictPolicy) (fn : EquivalenceFn) :
    ResolvesSoundly signals policy fn ↔ Settleable signals policy fn := by
  constructor
  · rintro ⟨approved, reason, h, -, ha, -⟩ bucket hlong
    refine ⟨opposed_of_soundly h ha hlong, ?_⟩
    intro hnet hmajority
    by_contra hmissing
    rw [not_or, not_le] at hmissing
    obtain ⟨hmany, hsome⟩ := hmissing
    have hne : inBucket fn bucket signals ≠ [] := by
      intro hnil
      rw [hnil] at hlong
      exact absurd hlong (by decide)
    have hraise : resolveVotes signals policy fn = none :=
      resolveVotes_eq_none.mpr ⟨bucket, hne, (turn_eq_none hne).mpr ⟨hlong, hnet, hmajority, hmany, by
        simpa using hsome⟩⟩
    rw [hraise] at h
    cases h
  · intro hs
    cases h : resolveVotes signals policy fn with
    | none =>
      obtain ⟨bucket, hne, hturn⟩ := resolveVotes_eq_none.mp h
      obtain ⟨hlong, hnet, hmajority, hmany, s, hs', hmissing⟩ := (turn_eq_none hne).mp hturn
      rcases (hs bucket hlong).2 hnet hmajority with hone | hall
      · omega
      · exact absurd hmissing (hall s hs')
    | some out =>
      obtain ⟨approved, reason⟩ := out
      refine ⟨approved, reason, h, by rw [resolve, h]; rfl, ⟨subperm_of_resolved h, unopposed_of_resolved h, ?_⟩, ?_⟩
      · intro bucket hunopposed
        refine kept_of_resolved h (not_lt.mp fun hlong => ?_)
        exact hunopposed (hs bucket hlong).1
      · intro hdistinct others approved' reason' h' bucket hp
        exact perm_of_resolved h h' hdistinct hp

def longVote : ConflictingSignal :=
  { strategyId := "BREAKOUT", direction := "LONG", rank := 1
    signal := { strategyId := "BREAKOUT", instrumentId := none, symbol := "NIFTY", direction := .long,
                score := some 70, confidence := some (7 / 10) } }

def abstention : ConflictingSignal :=
  { strategyId := "MEAN_REVERSION", direction := "NO_TRADE", rank := 2
    signal := { strategyId := "MEAN_REVERSION", instrumentId := none, symbol := "NIFTY", direction := .noTrade,
                score := some 50, confidence := some (1 / 2) } }

/-- An abstention has the buyer rejected. -/
theorem not_resolvesSoundly_abstention :
    resolve [longVote, abstention] none none = some ([], "REJECT_BOTH_DUE_TO_CONFLICT") ∧
      ¬ResolvesSoundly [longVote, abstention] none none := by
  have hout : resolveVotes [longVote, abstention] none none = some ([], "REJECT_BOTH_DUE_TO_CONFLICT") ∧
      inBucket none "NIFTY" [longVote, abstention] = [longVote, abstention] := by
    decide +kernel
  refine ⟨by rw [resolve, hout.1]; rfl, ?_⟩
  rintro ⟨approved, reason, h, -, ha, -⟩
  rw [hout.1] at h
  cases h
  have hkept := ha.kept "NIFTY"
  rw [hout.2] at hkept
  have hlength := (hkept (by simp [Opposed, longVote, abstention])).length_le
  exact absurd hlength (by decide)

end Resolve

end Droid.Algo.Fusion
