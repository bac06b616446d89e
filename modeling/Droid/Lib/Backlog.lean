import Droid.Lib.Dict
import Mathlib.Data.List.Sort
import Mathlib.Data.Prod.Lex

/-! A backlog of dated rows: a run takes the oldest unsettled rows up to a limit, and a row's turn settles it
or leaves it where it is. Rows of one time are listed in any order. -/
namespace Droid.Lib

structure Backlog (ρ κ τ : Type) where
  rows : List ρ
  key : ρ → κ
  time : ρ → τ
  nodup : (rows.map key).Nodup

namespace Backlog
variable {ρ κ τ ω : Type} (B : Backlog ρ κ τ)

def filter (p : ρ → Bool) : Backlog ρ κ τ where
  rows := B.rows.filter p
  key := B.key
  time := B.time
  nodup := B.nodup.sublist (List.filter_sublist.map B.key)

section
variable [DecidableEq κ]

def pending (outcomes : Dict κ ω) : List ρ := B.rows.filter (fun r => !outcomes.contains (B.key r))

/-- The unsettled rows, the oldest first. -/
structure IsListing [LE τ] (outcomes : Dict κ ω) (listing : List ρ) : Prop where
  perm : listing.Perm (B.pending outcomes)
  sorted : listing.Pairwise (fun r s => B.time r ≤ B.time s)

/-- The outcomes after a number of runs, and what the runs wrote on the way. -/
inductive Runs [LE τ] (run : Dict κ ω → List ρ → Dict κ ω × List (κ × ω)) (limit : Nat) :
    Nat → Dict κ ω → List (κ × ω) → Prop where
  | zero : Runs run limit 0 Dict.empty []
  | succ {n outcomes written listing} (before : Runs run limit n outcomes written)
      (isListing : B.IsListing outcomes listing) :
      Runs run limit (n + 1) (run outcomes (listing.take limit)).1
        (written ++ (run outcomes (listing.take limit)).2)

def settle (turn : ρ → Option ω) (outcomes : Dict κ ω) (r : ρ) : Dict κ ω :=
  match turn r with
  | none => outcomes
  | some outcome => if outcomes.contains (B.key r) then outcomes else outcomes.insert (B.key r) outcome

end

def writes (turn : ρ → Option ω) (batch : List ρ) : List (κ × ω) :=
  batch.filterMap (fun r => (turn r).map (fun outcome => (B.key r, outcome)))

def turns [DecidableEq κ] (turn : ρ → Option ω) (outcomes : Dict κ ω) (batch : List ρ) : Dict κ ω × List (κ × ω) :=
  (batch.foldl (B.settle turn) outcomes, B.writes turn batch)

/-- The rows not later than a row that no turn settles. -/
def ahead [LinearOrder τ] (turn : ρ → Option ω) (r : ρ) : List ρ :=
  B.rows.filter (fun s => (turn s).isNone && decide (B.time s ≤ B.time r))

variable {B} {turn : ρ → Option ω} {batch : List ρ}

theorem key_injOn {r s : ρ} (hr : r ∈ B.rows) (hs : s ∈ B.rows) (h : B.key r = B.key s) : r = s :=
  List.inj_on_of_nodup_map B.nodup hr hs h

theorem mem_writes {k : κ} {outcome : ω} :
    (k, outcome) ∈ B.writes turn batch ↔ ∃ r ∈ batch, B.key r = k ∧ turn r = some outcome := by
  simp only [writes, List.mem_filterMap, Option.map_eq_some_iff, Prod.mk.injEq]
  constructor
  · rintro ⟨r, hr, _, hturn, rfl, rfl⟩
    exact ⟨r, hr, rfl, hturn⟩
  · rintro ⟨r, hr, rfl, hturn⟩
    exact ⟨r, hr, outcome, hturn, rfl, rfl⟩

variable [DecidableEq κ] {outcomes : Dict κ ω} {listing : List ρ}

theorem mem_pending {r : ρ} : r ∈ B.pending outcomes ↔ r ∈ B.rows ∧ outcomes.get? (B.key r) = none := by
  simp [pending, Dict.contains]

namespace IsListing
variable [LE τ] (h : B.IsListing outcomes listing)
include h

theorem mem_iff {r : ρ} : r ∈ listing ↔ r ∈ B.rows ∧ outcomes.get? (B.key r) = none :=
  h.perm.mem_iff.trans mem_pending

theorem keys_nodup : (listing.map B.key).Nodup :=
  (h.perm.map B.key).nodup_iff.mpr (B.nodup.sublist (List.filter_sublist.map B.key))

theorem nodup : listing.Nodup := h.keys_nodup.of_map

end IsListing

theorem entries_settle_turns (hfresh : ∀ r ∈ batch, outcomes.get? (B.key r) = none)
    (hnodup : (batch.map B.key).Nodup) :
    (batch.foldl (B.settle turn) outcomes).entries = outcomes.entries ++ B.writes turn batch := by
  induction batch generalizing outcomes with
  | nil => exact (List.append_nil _).symm
  | cons r batch ih =>
    obtain ⟨hr, hrest⟩ := List.forall_mem_cons.mp hfresh
    rw [List.map_cons, List.nodup_cons] at hnodup
    rw [List.foldl_cons]
    cases hturn : turn r with
    | none =>
      have hsame : B.settle turn outcomes r = outcomes := by rw [settle, hturn]
      have hskip : B.writes turn (r :: batch) = B.writes turn batch := by simp [writes, hturn]
      rw [hsame, hskip]
      exact ih hrest hnodup.2
    | some outcome =>
      have hstore : B.settle turn outcomes r = outcomes.insert (B.key r) outcome := by
        rw [settle, hturn]
        simp [Dict.contains, hr]
      have hfirst : B.writes turn (r :: batch) = (B.key r, outcome) :: B.writes turn batch := by
        simp [writes, hturn]
      have hfresh' : ∀ s ∈ batch, (outcomes.insert (B.key r) outcome).get? (B.key s) = none := by
        intro s hs
        rw [Dict.get?_insert, if_neg, hrest s hs]
        intro heq
        exact hnodup.1 (List.mem_map.mpr ⟨s, hs, heq⟩)
      rw [hstore, hfirst, ih hfresh' hnodup.2, Dict.entries_insert hr, List.append_assoc, List.singleton_append]

variable [LinearOrder τ] {limit n : Nat} {written : List (κ × ω)}

/-- Every write is a new one: the outcomes are what the runs wrote, in their order. -/
theorem Runs.entries_eq (h : B.Runs (B.turns turn) limit n outcomes written) : outcomes.entries = written := by
  induction h with
  | zero => rfl
  | succ before isListing ih =>
    rw [turns, entries_settle_turns (fun r hr => (isListing.mem_iff.mp (List.mem_of_mem_take hr)).2)
      (isListing.keys_nodup.sublist ((List.take_sublist _ _).map B.key)), ih]

/-- What the runs wrote is what the rows' own turns settle. -/
theorem Runs.written_turn (h : B.Runs (B.turns turn) limit n outcomes written) {k : κ} {outcome : ω}
    (hmem : (k, outcome) ∈ written) : ∃ r ∈ B.rows, B.key r = k ∧ turn r = some outcome := by
  induction h with
  | zero => cases hmem
  | succ before isListing ih =>
    rcases List.mem_append.mp hmem with hbefore | hrun
    · exact ih hbefore
    · obtain ⟨r, hr, hkey, hturn⟩ := mem_writes.mp hrun
      exact ⟨r, (isListing.mem_iff.mp (List.mem_of_mem_take hr)).1, hkey, hturn⟩

theorem Runs.written_nodup (h : B.Runs (B.turns turn) limit n outcomes written) :
    (written.map Prod.fst).Nodup := by
  rw [← h.entries_eq]
  exact outcomes.nodup

theorem writes_ne_nil (hlisting : B.IsListing outcomes listing)
    (hahead : ∀ r ∈ B.rows, (turn r).isSome → (B.ahead turn r).length < limit) {r : ρ} (hr : r ∈ B.rows)
    (hsome : (turn r).isSome) (hpending : outcomes.get? (B.key r) = none) :
    B.writes turn (listing.take limit) ≠ [] := by
  have hmem : r ∈ listing := hlisting.mem_iff.mpr ⟨hr, hpending⟩
  -- the first row of the listing that its turn settles
  obtain ⟨first, hfirst⟩ := Option.isSome_iff_exists.mp
    (List.find?_isSome (p := fun s => (turn s).isSome).mpr ⟨r, hmem, hsome⟩)
  obtain ⟨hgood, pre, post, hsplit, hpre⟩ := List.find?_eq_some_iff_append.mp hfirst
  have hfirstmem : first ∈ listing := by
    rw [hsplit]
    exact List.mem_append_right _ List.mem_cons_self
  have hsub : pre ⊆ B.ahead turn first := by
    intro s hs
    have hsmem : s ∈ listing := by
      rw [hsplit]
      exact List.mem_append_left _ hs
    have hle : B.time s ≤ B.time first := by
      have hsorted := hlisting.sorted
      rw [hsplit, List.pairwise_append] at hsorted
      exact hsorted.2.2 s hs first List.mem_cons_self
    have hbad : (turn s).isNone := by simpa using hpre s hs
    simp [ahead, (hlisting.mem_iff.mp hsmem).1, hbad, hle]
  have hnodup : pre.Nodup := by
    have hall := hlisting.nodup
    rw [hsplit] at hall
    exact hall.of_append_left
  have hshort : pre.length < limit :=
    lt_of_le_of_lt (List.subperm_of_subset hnodup hsub).length_le (hahead first (hlisting.mem_iff.mp hfirstmem).1 hgood)
  have htaken : first ∈ listing.take limit := by
    rw [hsplit, List.take_append, List.mem_append]
    obtain ⟨m, hm⟩ : ∃ m, limit - pre.length = m + 1 := ⟨limit - pre.length - 1, by omega⟩
    exact .inr (by rw [hm, List.take_succ_cons]; exact List.mem_cons_self)
  obtain ⟨outcome, hturn⟩ := Option.isSome_iff_exists.mp hgood
  exact List.ne_nil_of_mem (mem_writes.mpr ⟨first, htaken, rfl, hturn⟩)

theorem Runs.settled_iff (h : B.Runs (B.turns turn) limit n outcomes written) {k : κ} :
    (outcomes.get? k).isSome ↔ k ∈ written.map Prod.fst := by
  rw [← h.entries_eq]
  exact (outcomes.mem_keys_iff k).symm

/-- Either a row was settled in each run, or none is left. -/
theorem Runs.le_written (h : B.Runs (B.turns turn) limit n outcomes written)
    (hahead : ∀ r ∈ B.rows, (turn r).isSome → (B.ahead turn r).length < limit) :
    n ≤ written.length ∨ ∀ r ∈ B.rows, (turn r).isSome → (outcomes.get? (B.key r)).isSome := by
  induction h with
  | zero => exact .inl (Nat.zero_le _)
  | @succ n outcomes written listing before isListing ih =>
    by_cases hleft : ∀ r ∈ B.rows, (turn r).isSome → (outcomes.get? (B.key r)).isSome
    · right
      intro r hr hsome
      rw [(before.succ isListing).settled_iff, List.map_append, List.mem_append]
      exact .inl (before.settled_iff.mp (hleft r hr hsome))
    · left
      have hn := ih.resolve_right hleft
      push Not at hleft
      obtain ⟨r, hr, hsome, hpending⟩ := hleft
      have hne := writes_ne_nil isListing hahead hr hsome (Option.not_isSome_iff_eq_none.mp hpending)
      rw [List.length_append]
      exact Nat.add_le_add hn (List.length_pos_of_ne_nil hne)

theorem Runs.written_subset (h : B.Runs (B.turns turn) limit n outcomes written) :
    written.map Prod.fst ⊆ B.rows.map B.key := by
  intro k hk
  obtain ⟨⟨_, outcome⟩, hmem, rfl⟩ := List.mem_map.mp hk
  obtain ⟨r, hr, hkey, -⟩ := h.written_turn hmem
  exact List.mem_map.mpr ⟨r, hr, hkey⟩

theorem Runs.settled (h : B.Runs (B.turns turn) limit n outcomes written) (hn : B.rows.length ≤ n)
    (hahead : ∀ r ∈ B.rows, (turn r).isSome → (B.ahead turn r).length < limit) {r : ρ} (hr : r ∈ B.rows)
    (hsome : (turn r).isSome) : (outcomes.get? (B.key r)).isSome := by
  rcases h.le_written hahead with hmany | hall
  · have hsub := List.subperm_of_subset h.written_nodup h.written_subset
    have hperm : (written.map Prod.fst).Perm (B.rows.map B.key) := by
      apply hsub.perm_of_length_le
      rw [List.length_map, List.length_map]
      exact le_trans hn hmany
    exact h.settled_iff.mpr (hperm.mem_iff.mpr (List.mem_map_of_mem hr))
  · exact hall r hr hsome

/-- The oldest rows first, and of one time first those that no turn settles. -/
def behind (turn : ρ → Option ω) (r : ρ) : τ ×ₗ Bool := toLex (B.time r, (turn r).isSome)

variable (B turn outcomes) in
def blockedListing : List ρ :=
  (B.pending outcomes).insertionSort (fun r s => B.behind turn r ≤ B.behind turn s)

theorem blockedListing_isListing : B.IsListing outcomes (B.blockedListing turn outcomes) where
  perm := List.perm_insertionSort _ _
  sorted := by
    have hsorted := List.pairwise_insertionSort (fun r s => B.behind turn r ≤ B.behind turn s) (B.pending outcomes)
    refine hsorted.imp ?_
    intro r s hle
    exact Prod.Lex.monotone_fst _ _ hle

theorem blockedListing_skips {r : ρ} (hsome : (turn r).isSome) (hlimit : limit ≤ (B.ahead turn r).length)
    (hunsettled : ∀ s ∈ B.rows, (turn s).isNone → outcomes.get? (B.key s) = none) :
    r ∉ (B.blockedListing turn outcomes).take limit := by
  intro htaken
  have hlisting : B.IsListing outcomes (B.blockedListing turn outcomes) := blockedListing_isListing
  obtain ⟨pre, post, hsplit⟩ := List.append_of_mem (List.mem_of_mem_take htaken)
  have hnodup := hlisting.nodup
  have hsorted := List.pairwise_insertionSort (fun r s => B.behind turn r ≤ B.behind turn s) (B.pending outcomes)
  rw [← blockedListing, hsplit, List.pairwise_append] at hsorted
  have hsub : B.ahead turn r ⊆ pre := by
    intro s hs
    obtain ⟨hrow, hcond⟩ := List.mem_filter.mp hs
    rw [Bool.and_eq_true, decide_eq_true_eq] at hcond
    have hmem : s ∈ B.blockedListing turn outcomes := hlisting.mem_iff.mpr ⟨hrow, hunsettled s hrow hcond.1⟩
    rw [hsplit, List.mem_append, List.mem_cons] at hmem
    rcases hmem with hpre | rfl | hpost
    · exact hpre
    · rw [Option.isNone_iff_eq_none.mp hcond.1] at hsome
      cases hsome
    · -- a later row of the listing would be later in time as well
      have hle := (List.pairwise_cons.mp hsorted.2.1).1 s hpost
      rw [behind, behind, Prod.Lex.toLex_le_toLex, hsome, Option.isNone_iff_eq_none.mp hcond.1] at hle
      rcases hle with hlt | ⟨-, hbool⟩
      · exact absurd hcond.2 (not_le.mpr hlt)
      · cases hbool rfl
  have hahead : (B.ahead turn r).Nodup := (B.nodup.of_map).filter _
  have hlong : limit ≤ pre.length := le_trans hlimit (List.subperm_of_subset hahead hsub).length_le
  rw [hsplit, List.take_append_of_le_length hlong] at htaken
  rw [hsplit, List.nodup_append] at hnodup
  exact hnodup.2.2 r (List.mem_of_mem_take htaken) r List.mem_cons_self rfl

/-- However many runs, a row with as many ahead as the limit may never be reached. -/
theorem exists_runs_unsettled {r : ρ} (hr : r ∈ B.rows) (hsome : (turn r).isSome)
    (hlimit : limit ≤ (B.ahead turn r).length) (n : Nat) :
    ∃ (outcomes : Dict κ ω) (written : List (κ × ω)),
      B.Runs (B.turns turn) limit n outcomes written ∧ outcomes.get? (B.key r) = none := by
  induction n with
  | zero => exact ⟨Dict.empty, [], .zero, rfl⟩
  | succ n ih =>
    obtain ⟨outcomes, written, hruns, hpending⟩ := ih
    have hunsettled : ∀ s ∈ B.rows, (turn s).isNone → outcomes.get? (B.key s) = none := by
      intro s hs hnone
      rw [← Option.not_isSome_iff_eq_none, hruns.settled_iff, List.mem_map]
      rintro ⟨⟨k, outcome⟩, hmem, hkey⟩
      obtain ⟨s', hs', hkey', hturn⟩ := hruns.written_turn hmem
      cases key_injOn hs' hs (hkey'.trans hkey)
      rw [hturn] at hnone
      cases hnone
    have hlisting : B.IsListing outcomes (B.blockedListing turn outcomes) := blockedListing_isListing
    have hnext := hruns.succ hlisting
    refine ⟨_, _, hnext, ?_⟩
    rw [← Option.not_isSome_iff_eq_none, hnext.settled_iff, List.map_append, List.mem_append]
    rintro (hbefore | hrun)
    · have hsettled := hruns.settled_iff.mpr hbefore
      rw [hpending] at hsettled
      cases hsettled
    · obtain ⟨⟨k, outcome⟩, hmem, hkey⟩ := List.mem_map.mp hrun
      obtain ⟨s, hs, hkey', -⟩ := mem_writes.mp hmem
      have hrow := (hlisting.mem_iff.mp (List.mem_of_mem_take hs)).1
      cases key_injOn hrow hr (hkey'.trans hkey)
      exact blockedListing_skips hsome hlimit hunsettled hs

/-- As many runs as there are rows settle every row that its turn settles, in whatever order rows of one time
are listed, exactly where each of these rows has fewer than the limit ahead of it. -/
theorem settled_iff_ahead (hn : B.rows.length ≤ n) :
    (∀ (outcomes : Dict κ ω) written, B.Runs (B.turns turn) limit n outcomes written →
        ∀ r ∈ B.rows, (turn r).isSome → (outcomes.get? (B.key r)).isSome) ↔
      ∀ r ∈ B.rows, (turn r).isSome → (B.ahead turn r).length < limit := by
  constructor
  · intro h r hr hsome
    by_contra hlimit
    obtain ⟨outcomes, written, hruns, hnone⟩ := exists_runs_unsettled hr hsome (not_lt.mp hlimit) n
    have hsettled := h outcomes written hruns r hr hsome
    rw [hnone] at hsettled
    cases hsettled
  · intro hahead outcomes written hruns r hr hsome
    exact hruns.settled hn hahead hr hsome

end Backlog
end Droid.Lib
