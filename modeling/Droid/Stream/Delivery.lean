import Droid.Stream.Queues
import Mathlib.Data.List.Perm.Subperm
import Mathlib.Data.List.Sort

/-! Delivery to each subscriber: order, completeness, removals and evictions, in every schedule where no
frame overtakes a waiting one. -/
namespace Droid.Stream
open Lib

variable {δ : Type}

namespace AppStreamHub

/-- A P0 frame is on its way to a queue. -/
def Coming (s : AppStreamHub δ) (k n : Nat) : Prop :=
  ∃ flight, s.flights.get? n = some flight ∧ k ∈ flight.remaining

/-- What holds of every subscriber in one state. -/
structure Delivering (s : AppStreamHub δ) : Prop where
  published : ∀ k q, s.queues.get? k = some q → q.read.Sublist s.published
  increasing : ∀ k q, s.queues.get? k = some q → q.read.Pairwise fun f g => f.seq < g.seq
  /-- A P0 frame that was published while it is subscribed is read, or in its queue, or on its way. -/
  p0 : ∀ k q, s.queues.get? k = some q → q.subscribed = true →
    ∀ f ∈ s.published, f.rank = 0 → q.joined < f.seq → f ∈ q.read ∨ .frame f ∈ q.items ∨ s.Coming k f.seq
  /-- Once nothing is on its way, reading on reads them all. -/
  p0_read : ∀ k q, s.queues.get? k = some q → q.subscribed = true → (∀ n, ¬s.Coming k n) →
    ∀ f ∈ s.published, f.rank = 0 → q.joined < f.seq → f ∈ (Queue.get^[q.items.length] q).read

/-- What holds of every subscriber in one step: its frames are kept, read or added in order, or the oldest
of lower priority makes room for one; it is evicted after drops in a row or a P0 timeout. -/
def Fair (s : AppStreamHub δ) (e : StreamEvent δ) : Prop :=
  ∀ k q q', s.queues.get? k = some q → (s.step e).queues.get? k = some q' →
    (∃ o, q.Turn q' o) ∧ (q.evicted = false → q'.evicted = true →
      List.replicate MAX_CONSECUTIVE_DROPS true <:+ q'.drops ∨
        ∃ n f remaining since, e = .timeout n ∧ s.flights.get? n = some ⟨f, k :: remaining, since⟩ ∧
          since + s.p0PutTimeout ≤ s.now)

/-- No earlier frame is on its way to the queue. -/
def Clear (s : AppStreamHub δ) (n k : Nat) : Prop :=
  ∀ e ∈ s.flights.entries, k ∈ e.2.remaining → n ≤ e.1

/-- The queues that a P0 frame enters before it waits. -/
def reach (s : AppStreamHub δ) (order : List Nat) : List Nat :=
  order.takeWhile fun k => (s.queues.get? k).all fun q => !q.full

/-- The queues that a frame enters when it is delivered at once. -/
def ClearAll (s : AppStreamHub δ) (n rank : Nat) : Prop :=
  ∀ e ∈ s.queues.entries, e.2.subscribed = true → e.2.accepts rank = true → s.Clear n e.1

/-- No frame enters a queue while an earlier one is on its way to it, and `publish_nowait` is given no P0
frame for a full queue. -/
def InTurn (s : AppStreamHub δ) : StreamEvent δ → Prop
  | .publish order _ _ priority _ =>
    if priority.rank = 0 then ∀ k ∈ s.reach order, s.Clear (s.seq + 1) k
    else s.ClearAll (s.seq + 1) priority.rank
  | .publishNowait _ _ priority _ => s.ClearAll (s.seq + 1) priority.rank ∧
    (priority.rank = 0 → ∀ e ∈ s.queues.entries, e.2.subscribed = true → e.2.full = false)
  | .resume n => ∀ flight ∈ s.flights.get? n, ∀ k ∈ s.reach flight.remaining, s.Clear n k
  | .timeout n => ∀ flight ∈ s.flights.get? n, ∀ k ∈ s.reach flight.remaining.tail, s.Clear n k
  | _ => True

/-- The invariant. -/
structure Kept (s : AppStreamHub δ) : Prop where
  sane : ∀ k q, s.queues.get? k = some q → q.Sane
  made : ∀ k q, s.queues.get? k = some q → k < s.made
  sorted : s.published.Pairwise fun f g => f.seq < g.seq
  bounded : ∀ f ∈ s.published, f.seq ≤ s.seq
  known : ∀ k q, s.queues.get? k = some q → ∀ f ∈ q.content, f ∈ s.published
  ordered : ∀ k q, s.queues.get? k = some q → q.content.Pairwise fun f g => f.seq < g.seq
  flying : ∀ n flight, s.flights.get? n = some flight → flight.frame.seq = n ∧ flight.frame ∈ s.published ∧
    flight.remaining.Nodup
  behind : ∀ k q n, s.queues.get? k = some q → s.Coming k n → ∀ f ∈ q.content, f.seq < n
  carried : ∀ k q, s.queues.get? k = some q → q.subscribed = true → ∀ f ∈ s.published, f.rank = 0 →
    q.joined < f.seq → f ∈ q.content ∨ s.Coming k f.seq

section
variable {s s' : AppStreamHub δ}

theorem kept_initial (p0PutTimeout : ℚ) : (initial p0PutTimeout : AppStreamHub δ).Kept where
  sane := by
    intro k q hk
    cases hk
  made := by
    intro k q hk
    cases hk
  sorted := List.Pairwise.nil
  bounded := by
    intro f hf
    cases hf
  known := by
    intro k q hk
    cases hk
  ordered := by
    intro k q hk
    cases hk
  flying := by
    intro n flight hn
    cases hn
  behind := by
    intro k q n hk
    cases hk
  carried := by
    intro k q hk
    cases hk

theorem sublist_published {l published : List (Frame δ)} (hl : l.Pairwise fun f g => f.seq < g.seq)
    (hpublished : published.Pairwise fun f g => f.seq < g.seq) (hsub : ∀ f ∈ l, f ∈ published) :
    l.Sublist published := by
  have hnodup : l.Nodup := hl.imp fun hlt heq => by
    rw [heq] at hlt
    exact Nat.lt_irrefl _ hlt
  have hantisymm : Std.Antisymm fun f g : Frame δ => f.seq < g.seq :=
    ⟨fun _ _ hlt hgt => absurd hlt (Nat.lt_asymm hgt)⟩
  exact List.sublist_of_subperm_of_pairwise (List.subperm_of_subset hnodup hsub) hl hpublished

theorem Kept.eq_of_seq (h : s.Kept) {f g : Frame δ} (hf : f ∈ s.published) (hg : g ∈ s.published)
    (hseq : f.seq = g.seq) : f = g := by
  have hnodup : (s.published.map Frame.seq).Nodup := by
    rw [List.Nodup, List.pairwise_map]
    exact h.sorted.imp Nat.ne_of_lt
  exact List.inj_on_of_nodup_map hnodup hf hg hseq

theorem Kept.delivering (h : s.Kept) : s.Delivering := by
  have hread : ∀ k q, s.queues.get? k = some q → q.read.Sublist q.content := by
    intro k q _
    rw [Queue.content]
    split
    · exact List.Sublist.refl _
    · exact List.sublist_append_left _ _
  have hcontent : ∀ q : Queue δ, q.evicted = false → q.content = q.read ++ frames q.items := by
    intro q hlive
    rw [Queue.content, hlive]
    rfl
  refine ⟨?_, ?_, ?_, ?_⟩
  · intro k q hk
    exact (hread k q hk).trans (sublist_published (h.ordered k q hk) h.sorted (h.known k q hk))
  · intro k q hk
    exact (h.ordered k q hk).sublist (hread k q hk)
  · intro k q hk hsubscribed f hf hrank hjoined
    rcases h.carried k q hk hsubscribed f hf hrank hjoined with hmem | hcoming
    · rw [hcontent q ((h.sane k q hk).live hsubscribed), List.mem_append, mem_frames] at hmem
      exact hmem.imp_right .inl
    · exact .inr (.inr hcoming)
  · intro k q hk hsubscribed hnone f hf hrank hjoined
    have hlive := (h.sane k q hk).live hsubscribed
    rw [Queue.read_get (h.sane k q hk) hlive, ← hcontent q hlive]
    exact (h.carried k q hk hsubscribed f hf hrank hjoined).resolve_right (hnone f.seq)

/-- A frame may enter a queue: it comes after what is in it and before what is on its way to it. -/
structure Enters (s s' : AppStreamHub δ) (k : Nat) (q : Queue δ) (f : Frame δ) : Prop where
  published : f ∈ s.published
  after : ∀ g ∈ q.content, g.seq < f.seq
  before : ∀ n, s'.Coming k n → f.seq < n

/-- Queues change, frames come nearer: nothing comes that was not on its way, and what does not come any
more has come. -/
theorem Kept.moved (h : s.Kept) (hpublished : s'.published = s.published) (hseq : s'.seq = s.seq)
    (hmade : s'.made = s.made)
    (hqueues : ∀ k q', s'.queues.get? k = some q' → ∃ q o, s.queues.get? k = some q ∧ q.Change q' o ∧
      ∀ f, o = some f → s.Enters s' k q f)
    (hflights : ∀ n flight', s'.flights.get? n = some flight' → ∃ flight, s.flights.get? n = some flight ∧
      flight'.frame = flight.frame ∧ flight'.remaining.Sublist flight.remaining)
    (hcame : ∀ n flight k q', s.flights.get? n = some flight → k ∈ flight.remaining →
      s'.queues.get? k = some q' → q'.subscribed = true → flight.frame ∈ q'.content ∨ s'.Coming k n) :
    s'.Kept := by
  have hcoming : ∀ k n, s'.Coming k n → s.Coming k n := by
    rintro k n ⟨flight', hn, hk⟩
    obtain ⟨flight, hflight, -, hsub⟩ := hflights n flight' hn
    exact ⟨flight, hflight, hsub.subset hk⟩
  have hmem : ∀ k q', s'.queues.get? k = some q' → ∀ f ∈ q'.content, ∃ q, s.queues.get? k = some q ∧
      (f ∈ q.content ∨ s.Enters s' k q f) := by
    intro k q' hk f hf
    obtain ⟨q, o, hq, hchange, henters⟩ := hqueues k q' hk
    refine ⟨q, hq, ?_⟩
    rcases List.mem_append.mp (hchange.turn.sublist.subset hf) with hold | hnew
    · exact .inl hold
    · exact .inr (henters f (Option.mem_toList.mp hnew))
  refine ⟨?_, ?_, ?_, ?_, ?_, ?_, ?_, ?_, ?_⟩
  · intro k q' hk
    obtain ⟨q, o, -, hchange, -⟩ := hqueues k q' hk
    exact hchange.sane
  · intro k q' hk
    obtain ⟨q, o, hq, -, -⟩ := hqueues k q' hk
    rw [hmade]
    exact h.made k q hq
  · rw [hpublished]
    exact h.sorted
  · rw [hpublished, hseq]
    exact h.bounded
  · intro k q' hk f hf
    obtain ⟨q, hq, hold | henters⟩ := hmem k q' hk f hf
    · rw [hpublished]
      exact h.known k q hq f hold
    · rw [hpublished]
      exact henters.published
  · intro k q' hk
    obtain ⟨q, o, hq, hchange, henters⟩ := hqueues k q' hk
    refine List.Pairwise.sublist hchange.turn.sublist ?_
    cases o with
    | none =>
      rw [Option.toList_none, List.append_nil]
      exact h.ordered k q hq
    | some f =>
      refine List.pairwise_append.mpr ⟨h.ordered k q hq, List.pairwise_singleton _ _, ?_⟩
      intro g hg f' hf'
      cases List.mem_singleton.mp hf'
      exact (henters f rfl).after g hg
  · intro n flight' hn
    obtain ⟨flight, hflight, hframe, hsub⟩ := hflights n flight' hn
    obtain ⟨hnumber, hmember, hnodup⟩ := h.flying n flight hflight
    rw [hframe, hpublished]
    exact ⟨hnumber, hmember, hnodup.sublist hsub⟩
  · intro k q' n hk hn f hf
    obtain ⟨q, hq, hold | henters⟩ := hmem k q' hk f hf
    · exact h.behind k q n hq (hcoming k n hn) f hold
    · exact henters.before n hn
  · intro k q' hk hsubscribed f hf hrank hjoined
    obtain ⟨q, o, hq, hchange, -⟩ := hqueues k q' hk
    rw [hpublished] at hf
    rw [hchange.joined] at hjoined
    have hlive := hchange.sane.live hsubscribed
    rcases h.carried k q hq (hchange.subscribed hsubscribed) f hf hrank hjoined with hold | ⟨flight, hflight, hmember⟩
    · exact .inl (hchange.turn.keeps hlive (List.mem_append_left _ hold) hrank)
    · rcases hcame f.seq flight k q' hflight hmember hk hsubscribed with hcame | hcoming
      · have hsame : flight.frame = f := by
          obtain ⟨hnumber, hpub, -⟩ := h.flying f.seq flight hflight
          exact h.eq_of_seq hpub hf hnumber
        exact .inl (hsame ▸ hcame)
      · exact .inr hcoming

theorem clear_iff {n k : Nat} : s.Clear n k ↔ ∀ m, s.Coming k m → n ≤ m := by
  constructor
  · rintro h m ⟨flight, hm, hk⟩
    exact h (m, flight) (Dict.mem_entries_of_get? hm) hk
  · intro h e he hk
    exact h e.1 ⟨e.2, (Dict.mem_entries_iff _ _ _).mp he, hk⟩

theorem coming_onward {f : Frame δ} {remaining : List Nat} {k n : Nat} :
    (s.onward f remaining).Coming k n ↔ if n = f.seq then k ∈ remaining else s.Coming k n := by
  rw [Coming, onward, Dict.get?_insert]
  split
  · constructor
    · rintro ⟨flight, hflight, hk⟩
      cases hflight
      exact hk
    · intro hk
      exact ⟨_, rfl, hk⟩
  · exact Iff.rfl

theorem reach_congr {order : List Nat} (h : ∀ k ∈ order, s'.queues.get? k = s.queues.get? k) :
    s'.reach order = s.reach order := by
  induction order with
  | nil => rfl
  | cons k order ih =>
    obtain ⟨hk, horder⟩ := List.forall_mem_cons.mp h
    rw [reach, List.takeWhile_cons, hk]
    rw [reach, List.takeWhile_cons]
    split
    · exact congrArg _ (ih horder)
    · rfl

theorem Kept.pass (h : s.Kept) {f : Frame δ} {k : Nat} {remaining : List Nat} {since : ℚ}
    (hflight : s.flights.get? f.seq = some ⟨f, k :: remaining, since⟩) {q q' : Queue δ}
    (hk : s.queues.get? k = some q) {o : Option (Frame δ)} (hchange : q.Change q' o)
    (ho : o = none ∨ o = some f) (hclear : o = some f → s.Clear f.seq k)
    (hcame : q'.subscribed = true → f ∈ q'.content) : ((s.setQueue k q').onward f remaining).Kept := by
  obtain ⟨-, hpublished, hnodup⟩ := h.flying _ _ hflight
  obtain ⟨hnotin, -⟩ := List.nodup_cons.mp hnodup
  refine h.moved rfl rfl rfl ?_ ?_ ?_
  · intro j r' hj
    rw [onward, setQueue, Dict.get?_insert] at hj
    by_cases hjk : j = k
    · rw [if_pos hjk] at hj
      cases hj
      refine ⟨q, o, hjk ▸ hk, hchange, ?_⟩
      intro g hg
      obtain rfl : g = f := by
        rcases ho with ho | ho
        · cases ho.symm.trans hg
        · exact (Option.some.inj (ho.symm.trans hg)).symm
      refine ⟨hpublished, ?_, ?_⟩
      · exact h.behind k q g.seq hk ⟨_, hflight, List.mem_cons_self⟩
      · intro n hn
        rw [coming_onward] at hn
        split at hn
        · exact absurd (hjk ▸ hn) hnotin
        · rename_i hne
          exact lt_of_le_of_ne (clear_iff.mp (hclear hg) n (hjk ▸ hn)) (Ne.symm hne)
    · rw [if_neg hjk] at hj
      exact ⟨r', none, hj, .refl (h.sane j r' hj), nofun⟩
  · intro n flight' hn
    rw [onward, Dict.get?_insert] at hn
    split at hn
    · rename_i hnf
      cases hn
      exact ⟨⟨f, k :: remaining, since⟩, hnf.symm ▸ hflight, rfl, List.sublist_cons_self _ _⟩
    · exact ⟨flight', hn, rfl, List.Sublist.refl _⟩
  · intro n flight j r' hn hj hr hsubscribed
    by_cases hnf : n = f.seq
    · subst hnf
      cases hflight.symm.trans hn
      by_cases hjk : j = k
      · rw [onward, setQueue, Dict.get?_insert, if_pos hjk] at hr
        cases hr
        exact .inl (hcame hsubscribed)
      · refine .inr (coming_onward.mpr ?_)
        rw [if_pos rfl]
        exact (List.mem_cons.mp hj).resolve_left hjk
    · refine .inr (coming_onward.mpr ?_)
      rw [if_neg hnf]
      exact ⟨flight, hn, hj⟩

theorem Kept.setQueue (h : s.Kept) {k : Nat} {q q' : Queue δ} (hk : s.queues.get? k = some q)
    (hchange : q.Change q' none) : (s.setQueue k q').Kept := by
  refine h.moved rfl rfl rfl ?_ ?_ ?_
  · intro j r' hj
    rw [AppStreamHub.setQueue, Dict.get?_insert] at hj
    split at hj
    · rename_i hjk
      cases hj
      refine ⟨q, none, hjk ▸ hk, hchange, ?_⟩
      intro f hf
      cases hf
    · refine ⟨r', none, hj, .refl (h.sane j r' hj), ?_⟩
      intro f hf
      cases hf
  · intro n flight hn
    exact ⟨flight, hn, rfl, List.Sublist.refl _⟩
  · intro n flight j r' hn hj _ _
    exact .inr ⟨flight, hn, hj⟩

/-- The same flight, from another moment. -/
theorem Kept.wait (h : s.Kept) {f : Frame δ} {remaining : List Nat} {since : ℚ}
    (hflight : s.flights.get? f.seq = some ⟨f, remaining, since⟩) : (s.onward f remaining).Kept := by
  have hcoming : ∀ k n, (s.onward f remaining).Coming k n ↔ s.Coming k n := by
    intro k n
    rw [coming_onward]
    split
    · rename_i hnf
      subst hnf
      constructor
      · exact fun hk => ⟨_, hflight, hk⟩
      · rintro ⟨flight, hn, hk⟩
        cases hflight.symm.trans hn
        exact hk
    · exact Iff.rfl
  refine ⟨h.sane, h.made, h.sorted, h.bounded, h.known, h.ordered, ?_, ?_, ?_⟩
  · intro n flight hn
    rw [onward, Dict.get?_insert] at hn
    split at hn
    · rename_i hnf
      cases hn
      rw [hnf]
      exact h.flying f.seq ⟨f, remaining, since⟩ hflight
    · exact h.flying n flight hn
  · intro k q n hk hn
    exact h.behind k q n hk ((hcoming k n).mp hn)
  · intro k q hk hsubscribed f' hf hrank hjoined
    rw [hcoming]
    exact h.carried k q hk hsubscribed f' hf hrank hjoined

/-- A queue that is no longer there is passed by. -/
theorem Kept.skip (h : s.Kept) {f : Frame δ} {k : Nat} {remaining : List Nat} {since : ℚ}
    (hflight : s.flights.get? f.seq = some ⟨f, k :: remaining, since⟩) (hk : s.queues.get? k = none) :
    (s.onward f remaining).Kept := by
  refine h.moved rfl rfl rfl ?_ ?_ ?_
  · intro j q hj
    exact ⟨q, none, hj, .refl (h.sane j q hj), nofun⟩
  · intro n flight' hn
    rw [onward, Dict.get?_insert] at hn
    split at hn
    · rename_i hnf
      cases hn
      exact ⟨⟨f, k :: remaining, since⟩, hnf.symm ▸ hflight, rfl, List.sublist_cons_self _ _⟩
    · exact ⟨flight', hn, rfl, List.Sublist.refl _⟩
  · intro n flight j q hn hj hq _
    refine .inr (coming_onward.mpr ?_)
    split
    · rename_i hnf
      subst hnf
      cases hflight.symm.trans hn
      refine (List.mem_cons.mp hj).resolve_left ?_
      rintro rfl
      cases hk.symm.trans hq
    · exact ⟨flight, hn, hj⟩

/-- What is clear for a frame stays so while it goes on. -/
theorem clear_onward {f : Frame δ} {k : Nat} (h : s.Clear f.seq k) (hflights : s'.flights = s.flights)
    (remaining : List Nat) : (s'.onward f remaining).Clear f.seq k := by
  refine clear_iff.mpr fun m hm => ?_
  rw [coming_onward] at hm
  split at hm
  · rename_i hmf
    exact le_of_eq hmf.symm
  · rw [Coming, hflights] at hm
    exact clear_iff.mp h m hm

theorem reach_cons {k : Nat} {remaining : List Nat} (hk : ∀ q, s.queues.get? k = some q → q.full = false) :
    s.reach (k :: remaining) = k :: s.reach remaining := by
  rw [reach, List.takeWhile_cons, if_pos, reach]
  cases hq : s.queues.get? k with
  | none => rfl
  | some q => simp [hk q hq]

theorem reach_room {k : Nat} {q : Queue δ} {remaining : List Nat} (hk : s.queues.get? k = some q)
    (hroom : q.full = false) : s.reach (k :: remaining) = k :: s.reach remaining := by
  refine reach_cons fun r hr => ?_
  cases hk.symm.trans hr
  exact hroom

/-- What is clear for the queues after the first stays so when the frame has passed that one. -/
theorem clear_pass {f : Frame δ} {k : Nat} {remaining : List Nat} (hnotin : k ∉ remaining)
    (h : ∀ j ∈ s.reach remaining, s.Clear f.seq j) (q' : Queue δ) :
    ∀ j ∈ ((s.setQueue k q').onward f remaining).reach remaining,
      ((s.setQueue k q').onward f remaining).Clear f.seq j := by
  intro j hj
  refine clear_onward (h j ?_) rfl remaining
  rw [reach_congr] at hj
  · exact hj
  · intro i hi
    rw [onward, AppStreamHub.setQueue, Dict.get?_insert, if_neg]
    rintro rfl
    exact hnotin hi

/-- A P0 frame that goes from queue to queue. -/
theorem Kept.deliver (h : s.Kept) {f : Frame δ} {remaining : List Nat} {since : ℚ}
    (hflight : s.flights.get? f.seq = some ⟨f, remaining, since⟩)
    (hclear : ∀ k ∈ s.reach remaining, s.Clear f.seq k) : (s.deliver f remaining).Kept := by
  induction remaining generalizing s since with
  | nil =>
    rw [AppStreamHub.deliver]
    refine h.moved rfl rfl rfl ?_ ?_ ?_
    · intro k q hk
      exact ⟨q, none, hk, .refl (h.sane k q hk), nofun⟩
    · intro n flight hn
      rw [Dict.get?_erase] at hn
      split at hn
      · cases hn
      · exact ⟨flight, hn, rfl, List.Sublist.refl _⟩
    · intro n flight k q hn hk _ _
      refine .inr ⟨flight, ?_, hk⟩
      rw [Dict.get?_erase, if_neg]
      · exact hn
      · rintro rfl
        cases hflight.symm.trans hn
        cases hk
  | cons k remaining ih =>
    obtain ⟨hnotin, -⟩ := List.nodup_cons.mp (h.flying _ _ hflight).2.2
    have hflight' : ∀ s'' : AppStreamHub δ, (s''.onward f remaining).flights.get? f.seq =
        some ⟨f, remaining, s''.now⟩ := by
      intro s''
      rw [onward, Dict.get?_insert, if_pos rfl]
    rw [AppStreamHub.deliver]
    cases hk : s.queues.get? k with
    | none =>
      refine ih (h.skip hflight hk) (hflight' s) ?_
      intro j hj
      refine clear_onward (hclear j ?_) rfl remaining
      rw [reach_cons (by simp [hk])]
      exact List.mem_cons_of_mem _ hj
    | some q =>
      have hsane := h.sane k q hk
      dsimp only
      cases hfull : q.full with
      | true =>
        rw [if_pos rfl]
        exact (h.setQueue hk (Queue.change_puts hsane _ _)).wait hflight
      | false =>
        rw [if_neg Bool.false_ne_true]
        rw [reach_room hk hfull] at hclear
        obtain ⟨hfirst, hrest⟩ := List.forall_mem_cons.mp hclear
        have hchange := Queue.change_entered hsane hfull f q.putters q.woken
        refine ih (h.pass hflight hk hchange (.inr rfl) (fun _ => hfirst) ?_) (hflight' _)
          (clear_pass hnotin hrest _)
        intro hsubscribed
        exact Queue.mem_content_entered (hsane.live hsubscribed) f

theorem Kept.resume (h : s.Kept) {n : Nat}
    (hclear : ∀ flight ∈ s.flights.get? n, ∀ k ∈ s.reach flight.remaining, s.Clear n k) :
    (s.resume n).Kept := by
  rw [AppStreamHub.resume]
  split
  · rename_i f k remaining since hflight
    obtain ⟨hnumber, -, hnodup⟩ := h.flying _ _ hflight
    subst hnumber
    obtain ⟨hnotin, -⟩ := List.nodup_cons.mp hnodup
    replace hclear := hclear _ hflight
    split
    · rename_i q hk
      have hsane := h.sane k q hk
      split
      · dsimp only
        split
        · exact h.setQueue hk (Queue.change_puts hsane _ _)
        · rename_i hfull
          have hroom : q.full = false := Bool.eq_false_of_not_eq_true hfull
          rw [reach_room hk hroom] at hclear
          obtain ⟨hfirst, hrest⟩ := List.forall_mem_cons.mp hclear
          have hchange := Queue.change_entered hsane hroom f q.putters (q.woken.erase f.seq)
          refine (h.pass hflight hk hchange (.inr rfl) (fun _ => hfirst) ?_).deliver
            (by rw [onward, Dict.get?_insert, if_pos rfl]) (clear_pass hnotin hrest _)
          intro hsubscribed
          exact Queue.mem_content_entered (hsane.live hsubscribed) f
      · exact h
    · exact h
  · exact h

theorem Kept.timeout (h : s.Kept) {n : Nat}
    (hclear : ∀ flight ∈ s.flights.get? n, ∀ k ∈ s.reach flight.remaining.tail, s.Clear n k) :
    (s.timeout n).Kept := by
  rw [AppStreamHub.timeout]
  split
  · rename_i f k remaining since hflight
    obtain ⟨hnumber, -, hnodup⟩ := h.flying _ _ hflight
    subst hnumber
    obtain ⟨hnotin, -⟩ := List.nodup_cons.mp hnodup
    replace hclear := hclear _ hflight
    split
    · rw [withQueue]
      split
      · rename_i q hk
        have hchange := Queue.change_timeout (h.sane k q hk) f.seq
        refine (h.pass hflight hk hchange (.inl rfl) nofun ?_).deliver
          (by rw [onward, Dict.get?_insert, if_pos rfl]) (clear_pass hnotin hclear _)
        intro hsubscribed
        cases (Queue.subscribed_evictQueue _).symm.trans hsubscribed
      · rename_i hk
        refine (h.skip hflight hk).deliver (by rw [onward, Dict.get?_insert, if_pos rfl]) ?_
        exact fun j hj => clear_onward (hclear j hj) rfl remaining
    · exact h
  · exact h

/-- A frame that is made is published; a P0 one sets out to the subscribers. -/
theorem Kept.record (h : s.Kept) {f : Frame δ} (hseq : f.seq = s.seq + 1) (order : List Nat)
    (hnodup : order.Nodup)
    (hall : f.rank = 0 → ∀ k q, s.queues.get? k = some q → q.subscribed = true → k ∈ order) :
    ((s.record f).onward f order).Kept := by
  have hfar : ∀ k q, s.queues.get? k = some q → ∀ g ∈ q.content, g.seq < f.seq := by
    intro k q hk g hg
    have := h.bounded g (h.known k q hk g hg)
    omega
  have hfresh : ∀ n flight, s.flights.get? n = some flight → n ≠ f.seq := by
    intro n flight hn
    obtain ⟨hnumber, hmember, -⟩ := h.flying n flight hn
    have := h.bounded _ hmember
    omega
  refine ⟨h.sane, h.made, ?_, ?_, ?_, h.ordered, ?_, ?_, ?_⟩
  · refine List.pairwise_append.mpr ⟨h.sorted, List.pairwise_singleton _ _, ?_⟩
    intro g hg f' hf'
    cases List.mem_singleton.mp hf'
    have := h.bounded g hg
    omega
  · intro g hg
    rcases List.mem_append.mp hg with hold | hnew
    · have hbound := h.bounded g hold
      change g.seq ≤ f.seq
      omega
    · exact le_of_eq (congrArg Frame.seq (List.mem_singleton.mp hnew))
  · intro k q hk g hg
    exact List.mem_append_left _ (h.known k q hk g hg)
  · intro n flight hn
    rw [onward, Dict.get?_insert] at hn
    split at hn
    · rename_i hnf
      cases hn
      exact ⟨hnf.symm, List.mem_append_right _ List.mem_cons_self, hnodup⟩
    · obtain ⟨hnumber, hmember, hnodup'⟩ := h.flying n flight hn
      exact ⟨hnumber, List.mem_append_left _ hmember, hnodup'⟩
  · intro k q n hk hn g hg
    rw [coming_onward] at hn
    split at hn
    · rename_i hnf
      rw [hnf]
      exact hfar k q hk g hg
    · exact h.behind k q n hk hn g hg
  · intro k q hk hsubscribed g hg hrank hjoined
    rw [coming_onward]
    rcases List.mem_append.mp hg with hold | hnew
    · rcases h.carried k q hk hsubscribed g hold hrank hjoined with hread | ⟨flight, hflight, hmember⟩
      · exact .inl hread
      · rw [if_neg (hfresh _ _ hflight)]
        exact .inr ⟨flight, hflight, hmember⟩
    · obtain rfl := List.mem_singleton.mp hnew
      rw [if_pos rfl]
      exact .inr (hall hrank k q hk hsubscribed)

theorem mem_subscribers {k : Nat} :
    k ∈ s.subscribers ↔ ∃ q, s.queues.get? k = some q ∧ q.subscribed = true := by
  rw [subscribers, List.mem_map]
  constructor
  · rintro ⟨e, he, rfl⟩
    obtain ⟨hmem, hsubscribed⟩ := List.mem_filter.mp he
    exact ⟨e.2, (Dict.mem_entries_iff _ _ _).mp hmem, hsubscribed⟩
  · rintro ⟨q, hk, hsubscribed⟩
    exact ⟨(k, q), List.mem_filter.mpr ⟨Dict.mem_entries_of_get? hk, hsubscribed⟩, rfl⟩

theorem subscribers_nodup (s : AppStreamHub δ) : s.subscribers.Nodup :=
  (List.Sublist.map _ List.filter_sublist).nodup s.queues.nodup

/-- A frame that is delivered at once: nothing overtakes, and a P0 frame finds room. -/
theorem Kept.deliverAll (h : s.Kept) {f : Frame δ} (hseq : f.seq = s.seq + 1)
    (hclear : s.ClearAll f.seq f.rank)
    (hroom : f.rank = 0 → ∀ e ∈ s.queues.entries, e.2.subscribed = true → e.2.full = false) :
    ((s.record f).deliverAll f).Kept := by
  have hset := h.record hseq (if f.rank = 0 then s.subscribers else [])
    (by split; exacts [subscribers_nodup s, List.nodup_nil])
    (by
      intro hrank k q hk hsubscribed
      rw [if_pos hrank]
      exact mem_subscribers.mpr ⟨q, hk, hsubscribed⟩)
  have hfresh : ∀ n flight, s.flights.get? n = some flight → n ≠ f.seq := by
    intro n flight hn
    obtain ⟨hnumber, hmember, -⟩ := h.flying n flight hn
    have := h.bounded _ hmember
    omega
  refine hset.moved rfl rfl rfl ?_ ?_ ?_
  · intro k q' hk
    rw [AppStreamHub.deliverAll, Dict.get?_mapValues, Option.map_eq_some_iff] at hk
    obtain ⟨q, hk, rfl⟩ := hk
    by_cases hsubscribed : q.subscribed = true
    · rw [if_pos hsubscribed]
      obtain ⟨o, hchange, ho, -, -⟩ := Queue.change_deliverNowait (h.sane k q hk) hsubscribed f
      refine ⟨q, o, hk, hchange, ?_⟩
      intro g hg
      rcases ho with hnone | ⟨hsome, haccepts⟩
      · cases hnone.symm.trans hg
      · obtain rfl := Option.some.inj (hsome.symm.trans hg)
        refine ⟨List.mem_append_right _ List.mem_cons_self, ?_, ?_⟩
        · intro g' hg'
          have := h.bounded g' (h.known k q hk g' hg')
          omega
        · rintro n ⟨flight, hflight, hmember⟩
          have hle := clear_iff.mp (hclear (k, q) (Dict.mem_entries_of_get? hk) hsubscribed haccepts) n
            ⟨flight, hflight, hmember⟩
          exact lt_of_le_of_ne hle (Ne.symm (hfresh n flight hflight))
    · rw [if_neg hsubscribed]
      exact ⟨q, none, hk, .refl (h.sane k q hk), nofun⟩
  · intro n flight hn
    refine ⟨flight, ?_, rfl, List.Sublist.refl _⟩
    rw [onward, Dict.get?_insert, if_neg (hfresh n flight hn)]
    exact hn
  · intro n flight k q' hn hmember hk hsubscribed
    rw [onward, Dict.get?_insert] at hn
    split at hn
    · cases hn
      change k ∈ (if f.rank = 0 then s.subscribers else []) at hmember
      split at hmember
      · rename_i hrank
        obtain ⟨q, hq, hwas⟩ := mem_subscribers.mp hmember
        have hq' : q' = q.deliverNowait f := by
          rw [AppStreamHub.deliverAll, Dict.get?_mapValues] at hk
          change (s.queues.get? k).map _ = _ at hk
          rw [hq, Option.map_some, if_pos hwas] at hk
          exact (Option.some.inj hk).symm
        subst hq'
        obtain ⟨o, hchange, -, hsome, -⟩ := Queue.change_deliverNowait (h.sane k q hq) hwas f
        have ho := hsome hrank (hroom hrank (k, q) (Dict.mem_entries_of_get? hq) hwas)
        refine .inl (hchange.turn.keeps (hchange.sane.live hsubscribed) ?_ hrank)
        rw [ho]
        exact List.mem_append_right _ List.mem_cons_self
      · cases hmember
    · exact .inr ⟨flight, hn, hmember⟩

theorem Kept.publish (h : s.Kept) {order : List Nat} {eventType : String} {data : δ} {priority : Priority}
    {timestamp : Int} (hturn : s.InTurn (.publish order eventType data priority timestamp)) :
    (s.publish order eventType data priority timestamp).Kept := by
  rw [AppStreamHub.publish]
  split
  · exact h
  · dsimp only
    have hrank : (s.makeFrame eventType data priority timestamp).rank = priority.rank := rfl
    rw [InTurn] at hturn
    split
    · rename_i hlow
      rw [if_neg (hrank ▸ hlow)] at hturn
      exact h.deliverAll rfl hturn fun hzero => absurd hzero hlow
    · rename_i hzero
      rw [not_not] at hzero
      rw [if_pos (hrank ▸ hzero)] at hturn
      split
      · rename_i hperm
        have hnodup := hperm.nodup_iff.mpr (subscribers_nodup s)
        refine (h.record rfl order hnodup ?_).deliver (by rw [onward, Dict.get?_insert, if_pos rfl]) ?_
        · intro _ k q hk hsubscribed
          exact hperm.mem_iff.mpr (mem_subscribers.mpr ⟨q, hk, hsubscribed⟩)
        · intro k hk
          exact clear_onward (hturn k hk) rfl order
      · exact h

theorem Kept.publishNowait (h : s.Kept) {eventType : String} {data : δ} {priority : Priority}
    {timestamp : Int} (hturn : s.InTurn (.publishNowait eventType data priority timestamp)) :
    (s.publishNowait eventType data priority timestamp).Kept := by
  rw [AppStreamHub.publishNowait]
  split
  · exact h
  · exact h.deliverAll rfl hturn.1 hturn.2

theorem Kept.subscribe (h : s.Kept) : s.subscribe.Kept := by
  have hnew : ∀ k q, s.subscribe.queues.get? k = some q →
      (k = s.made ∧ q.content = [] ∧ q.joined = s.seq ∧ q.Sane) ∨ s.queues.get? k = some q := by
    intro k q hk
    rw [AppStreamHub.subscribe, Dict.get?_insert] at hk
    split at hk
    · rename_i hmade
      cases hk
      refine .inl ⟨hmade, rfl, rfl, Nat.zero_le _, ?_, fun _ => rfl, ?_, ?_, fun _ => rfl⟩
      · exact fun _ => List.not_mem_nil
      · intro hended
        cases hended
      · intro hevicted
        cases hevicted
    · exact .inr hk
  refine ⟨?_, ?_, h.sorted, h.bounded, ?_, ?_, h.flying, ?_, ?_⟩
  · intro k q hk
    rcases hnew k q hk with ⟨-, -, -, hsane⟩ | hold
    · exact hsane
    · exact h.sane k q hold
  · intro k q hk
    rcases hnew k q hk with ⟨hmade, -⟩ | hold
    · exact hmade ▸ Nat.lt_succ_self _
    · exact Nat.lt_succ_of_lt (h.made k q hold)
  · intro k q hk f hf
    rcases hnew k q hk with ⟨-, hempty, -⟩ | hold
    · rw [hempty] at hf
      cases hf
    · exact h.known k q hold f hf
  · intro k q hk
    rcases hnew k q hk with ⟨-, hempty, -⟩ | hold
    · rw [hempty]
      exact List.Pairwise.nil
    · exact h.ordered k q hold
  · intro k q n hk hn f hf
    rcases hnew k q hk with ⟨-, hempty, -⟩ | hold
    · rw [hempty] at hf
      cases hf
    · exact h.behind k q n hold hn f hf
  · intro k q hk hsubscribed f hf hrank hjoined
    rcases hnew k q hk with ⟨-, -, hseq, -⟩ | hold
    · -- nothing was published after it subscribed
      have hbound : f.seq ≤ s.seq := h.bounded f hf
      omega
    · exact h.carried k q hold hsubscribed f hf hrank hjoined

theorem Kept.withQueue (h : s.Kept) {k : Nat} {change : Queue δ → Queue δ}
    (hchange : ∀ q : Queue δ, q.Sane → q.Change (change q) none) : (s.withQueue k change).Kept := by
  rw [AppStreamHub.withQueue]
  split
  · rename_i q hk
    exact h.setQueue hk (hchange q (h.sane k q hk))
  · exact h

theorem Kept.step (h : s.Kept) (e : StreamEvent δ) (hturn : s.InTurn e) : (s.step e).Kept := by
  cases e with
  | tick time =>
    exact ⟨h.sane, h.made, h.sorted, h.bounded, h.known, h.ordered, h.flying, h.behind, h.carried⟩
  | subscribe => exact h.subscribe
  | unsubscribe k => exact h.withQueue fun q hsane => Queue.change_unsubscribe hsane
  | publish order eventType data priority timestamp => exact h.publish hturn
  | publishNowait eventType data priority timestamp => exact h.publishNowait hturn
  | get k => exact h.withQueue fun q hsane => Queue.change_get hsane
  | resume n => exact h.resume hturn
  | timeout n => exact h.timeout hturn

/-- A queue that is not evicted in a step. -/
def Steady (q q' : Queue δ) : Prop := (∃ o, q.Turn q' o) ∧ q'.evicted = q.evicted

theorem steady_refl (q : Queue δ) : Steady q q := ⟨⟨none, .refl q⟩, rfl⟩

theorem steady_puts (q : Queue δ) (putters woken : List Nat) :
    Steady q ({ q with putters, woken } : Queue δ) :=
  ⟨⟨none, .kept rfl rfl rfl⟩, rfl⟩

theorem steady_entered (q : Queue δ) (f : Frame δ) (putters woken : List Nat) :
    Steady q (({ q with putters, woken } : Queue δ).entered f) :=
  ⟨⟨some f, .entered f rfl rfl rfl⟩, rfl⟩

theorem get?_setQueue {k : Nat} {q : Queue δ} (f : Frame δ) (remaining : List Nat) (j : Nat) :
    ((s.setQueue k q).onward f remaining).queues.get? j = if j = k then some q else s.queues.get? j :=
  Dict.get?_insert _ _ _ _

/-- A P0 frame that goes on leaves each queue as it is, enters it, or sleeps at it. -/
theorem get?_deliver (f : Frame δ) {remaining : List Nat} (hnodup : remaining.Nodup) {k : Nat}
    {q : Queue δ} (hk : s.queues.get? k = some q) : ∃ q', (s.deliver f remaining).queues.get? k = some q' ∧
      Steady q q' ∧ (k ∉ remaining → q' = q) := by
  induction remaining generalizing s q with
  | nil => exact ⟨q, hk, steady_refl q, fun _ => rfl⟩
  | cons j remaining ih =>
    obtain ⟨hnotin, hrest⟩ := List.nodup_cons.mp hnodup
    rw [AppStreamHub.deliver]
    cases hj : s.queues.get? j with
    | none =>
      obtain ⟨q', hq', hsteady, hsame⟩ := ih hrest (s := s.onward f remaining) hk
      exact ⟨q', hq', hsteady, fun hout => hsame fun hin => hout (List.mem_cons_of_mem _ hin)⟩
    | some r =>
      dsimp only
      split
      · rw [get?_setQueue]
        split
        · rename_i hkj
          cases (hkj ▸ hj).symm.trans hk
          exact ⟨_, rfl, steady_puts q _ _, fun hout => absurd (hkj ▸ List.mem_cons_self) hout⟩
        · exact ⟨q, hk, steady_refl q, fun _ => rfl⟩
      · by_cases hkj : k = j
        · -- it is not visited again
          cases (hkj ▸ hj).symm.trans hk
          obtain ⟨q', hq', -, hsame⟩ := ih hrest (s := (s.setQueue j (q.entered f)).onward f remaining)
            (by rw [get?_setQueue, if_pos hkj])
          refine ⟨q', hq', ?_, fun hout => absurd (hkj ▸ List.mem_cons_self) hout⟩
          rw [hsame (hkj ▸ hnotin)]
          exact steady_entered q f _ _
        · obtain ⟨q', hq', hsteady, hsame⟩ := ih hrest (s := (s.setQueue j (r.entered f)).onward f remaining)
            (by rw [get?_setQueue, if_neg hkj, hk])
          exact ⟨q', hq', hsteady, fun hout => hsame fun hin => hout (List.mem_cons_of_mem _ hin)⟩

theorem Steady.fair {q q' : Queue δ} (h : Steady q q') (p : Prop) :
    (∃ o, q.Turn q' o) ∧ (q.evicted = false → q'.evicted = true → p) := by
  refine ⟨h.1, fun hlive hevicted => ?_⟩
  cases (hlive.symm.trans h.2.symm).trans hevicted

theorem Kept.fair_deliverAll (h : s.Kept) (f : Frame δ) {k : Nat} {q q' : Queue δ}
    (hk : s.queues.get? k = some q) (hk' : ((s.record f).deliverAll f).queues.get? k = some q') :
    (∃ o, q.Turn q' o) ∧ (q.evicted = false → q'.evicted = true →
      List.replicate MAX_CONSECUTIVE_DROPS true <:+ q'.drops) := by
  rw [AppStreamHub.deliverAll, Dict.get?_mapValues] at hk'
  change (s.queues.get? k).map _ = _ at hk'
  rw [hk, Option.map_some] at hk'
  obtain rfl := Option.some.inj hk'
  split
  · rename_i hsubscribed
    obtain ⟨o, hchange, -, -, hdrops⟩ := Queue.change_deliverNowait (h.sane k q hk) hsubscribed f
    exact ⟨⟨o, hchange.turn⟩, fun _ => hdrops⟩
  · exact (steady_refl q).fair _

theorem steady_withQueue {k j : Nat} {change : Queue δ → Queue δ} (hchange : ∀ q, q.Sane → Steady q (change q))
    (h : s.Kept) {q q' : Queue δ} (hk : s.queues.get? k = some q)
    (hk' : (s.withQueue j change).queues.get? k = some q') : Steady q q' := by
  rw [withQueue] at hk'
  split at hk'
  · rename_i r hj
    rw [AppStreamHub.setQueue, Dict.get?_insert] at hk'
    split at hk'
    · rename_i hkj
      cases hk'
      obtain rfl := Option.some.inj (hk.symm.trans (hkj ▸ hj))
      exact hchange q (h.sane k q hk)
    · cases hk.symm.trans hk'
      exact steady_refl q
  · cases hk.symm.trans hk'
    exact steady_refl q

theorem Kept.fair_resume (h : s.Kept) {n k : Nat} {q q' : Queue δ} (hk : s.queues.get? k = some q)
    (hk' : (s.resume n).queues.get? k = some q') : Steady q q' := by
  have hsame : s.queues.get? k = some q' → Steady q q' := by
    intro hk''
    cases hk.symm.trans hk''
    exact steady_refl q
  rw [AppStreamHub.resume] at hk'
  split at hk'
  · rename_i f j remaining since hflight
    obtain ⟨hnotin, hrest⟩ := List.nodup_cons.mp (h.flying _ _ hflight).2.2
    split at hk'
    · rename_i r hj
      split at hk'
      · dsimp only at hk'
        split at hk'
        · rw [AppStreamHub.setQueue, Dict.get?_insert] at hk'
          split at hk'
          · rename_i hkj
            obtain rfl := Option.some.inj (hk.symm.trans (hkj ▸ hj))
            cases hk'
            exact steady_puts q _ _
          · exact hsame hk'
        · by_cases hkj : k = j
          · obtain rfl := Option.some.inj (hk.symm.trans (hkj ▸ hj))
            obtain ⟨r', hr', -, hunchanged⟩ := get?_deliver f hrest (k := k)
              (s := (s.setQueue j (({ q with woken := q.woken.erase n } : Queue δ).entered f)).onward f remaining)
              (by rw [get?_setQueue, if_pos hkj])
            cases hr'.symm.trans hk'
            rw [hunchanged (hkj ▸ hnotin)]
            exact steady_entered q f _ _
          · obtain ⟨r', hr', hsteady, -⟩ := get?_deliver f hrest (k := k) (q := q)
              (s := (s.setQueue j (({ r with woken := r.woken.erase n } : Queue δ).entered f)).onward f remaining)
              (by rw [get?_setQueue, if_neg hkj, hk])
            cases hr'.symm.trans hk'
            exact hsteady
      · exact hsame hk'
    · exact hsame hk'
  · exact hsame hk'

theorem Kept.fair_timeout (h : s.Kept) {n k : Nat} {q q' : Queue δ} (hk : s.queues.get? k = some q)
    (hk' : (s.timeout n).queues.get? k = some q') :
    (∃ o, q.Turn q' o) ∧ (q.evicted = false → q'.evicted = true → ∃ f remaining since,
      s.flights.get? n = some ⟨f, k :: remaining, since⟩ ∧ since + s.p0PutTimeout ≤ s.now) := by
  rw [AppStreamHub.timeout] at hk'
  split at hk'
  · rename_i f j remaining since hflight
    obtain ⟨hnotin, hrest⟩ := List.nodup_cons.mp (h.flying _ _ hflight).2.2
    split at hk'
    · rename_i hover
      by_cases hkj : k = j
      · subst hkj
        obtain ⟨r', hr', -, hunchanged⟩ := get?_deliver f hrest (k := k)
          (s := (s.withQueue k fun q => (q.cancelPut n).evictQueue).onward f remaining)
          (q := (q.cancelPut n).evictQueue) (by rw [AppStreamHub.withQueue, hk, get?_setQueue, if_pos rfl])
        cases hr'.symm.trans hk'
        rw [hunchanged hnotin]
        exact ⟨⟨none, (Queue.change_timeout (h.sane k q hk) n).turn⟩, fun _ _ =>
          ⟨f, remaining, since, hflight, hover⟩⟩
      · obtain ⟨r', hr', hsteady, -⟩ := get?_deliver f hrest (k := k) (q := q)
          (s := (s.withQueue j fun q => (q.cancelPut n).evictQueue).onward f remaining) (by
            rw [AppStreamHub.withQueue]
            split
            · rw [get?_setQueue, if_neg hkj, hk]
            · exact hk)
        cases hr'.symm.trans hk'
        exact hsteady.fair _
    · cases hk.symm.trans hk'
      exact (steady_refl q).fair _
  · cases hk.symm.trans hk'
    exact (steady_refl q).fair _

theorem Kept.fair (h : s.Kept) (e : StreamEvent δ) : s.Fair e := by
  intro k q q' hk hk'
  have hsame : s.queues.get? k = some q' → Steady q q' := by
    intro hk''
    cases hk.symm.trans hk''
    exact steady_refl q
  cases e with
  | tick time => exact (hsame hk').fair _
  | subscribe =>
    rw [AppStreamHub.step, AppStreamHub.subscribe, Dict.get?_insert,
      if_neg (Nat.ne_of_lt (h.made k q hk))] at hk'
    exact (hsame hk').fair _
  | unsubscribe j =>
    refine (steady_withQueue ?_ h hk hk').fair _
    intro q _
    exact ⟨⟨none, .kept rfl rfl rfl⟩, rfl⟩
  | publish order eventType data priority timestamp =>
    rw [AppStreamHub.step, AppStreamHub.publish] at hk'
    split at hk'
    · exact (hsame hk').fair _
    · dsimp only at hk'
      split at hk'
      · exact (h.fair_deliverAll _ hk hk').imp_right fun hdrops hlive hevicted => .inl (hdrops hlive hevicted)
      · split at hk'
        · rename_i hperm
          obtain ⟨r', hr', hsteady, -⟩ := get?_deliver _ (hperm.nodup_iff.mpr (subscribers_nodup s))
            (s := (s.record _).onward _ order) hk
          cases hr'.symm.trans hk'
          exact hsteady.fair _
        · exact (hsame hk').fair _
  | publishNowait eventType data priority timestamp =>
    rw [AppStreamHub.step, AppStreamHub.publishNowait] at hk'
    split at hk'
    · exact (hsame hk').fair _
    · exact (h.fair_deliverAll _ hk hk').imp_right fun hdrops hlive hevicted => .inl (hdrops hlive hevicted)
  | get j =>
    refine (steady_withQueue (fun q hsane => ⟨⟨none, ?_⟩, Queue.evicted_get q⟩) h hk hk').fair _
    exact (Queue.change_get hsane).turn
  | resume n => exact (h.fair_resume hk hk').fair _
  | timeout n =>
    refine (h.fair_timeout hk hk').imp_right fun htimeout hlive hevicted => .inr ?_
    obtain ⟨f, remaining, since, hflight, hover⟩ := htimeout hlive hevicted
    exact ⟨n, f, remaining, since, rfl, hflight, hover⟩

/-- Every subscriber reads what was published in order, loses no P0 frame and is evicted only for its
slowness, in every schedule where frames come in turn. -/
theorem delivery (p0PutTimeout : ℚ) (events : List (StreamEvent δ))
    (hturn : Guarded step InTurn (initial p0PutTimeout : AppStreamHub δ) events) :
    Always step Delivering (initial p0PutTimeout : AppStreamHub δ) events ∧
      Guarded step Fair (initial p0PutTimeout : AppStreamHub δ) events := by
  have hkept := always_of_guarded (P := Kept) (fun s e h hturn => h.step e hturn)
    (kept_initial p0PutTimeout) hturn
  exact ⟨hkept.mono fun _ h => h.delivering, hturn.mono hkept fun _ e h _ => h.fair e⟩

end

instance (s : AppStreamHub δ) (n k : Nat) : Decidable (s.Clear n k) :=
  inferInstanceAs (Decidable (∀ e ∈ s.flights.entries, _))

instance (s : AppStreamHub δ) (n rank : Nat) : Decidable (s.ClearAll n rank) :=
  inferInstanceAs (Decidable (∀ e ∈ s.queues.entries, _))

instance (s : AppStreamHub δ) : (e : StreamEvent δ) → Decidable (s.InTurn e)
  | .publish order _ _ priority _ => inferInstanceAs (Decidable
      (if priority.rank = 0 then ∀ k ∈ s.reach order, s.Clear (s.seq + 1) k
      else s.ClearAll (s.seq + 1) priority.rank))
  | .publishNowait .. => inferInstanceAs (Decidable (_ ∧ _))
  | .resume n => inferInstanceAs (Decidable (∀ flight ∈ s.flights.get? n, _))
  | .timeout n => inferInstanceAs (Decidable (∀ flight ∈ s.flights.get? n, _))
  | .tick _ | .subscribe | .unsubscribe _ | .get _ => isTrue trivial

/-- The first subscriber's queue is filled with P0 frames, and a second one subscribes. -/
def filling : List (StreamEvent Nat) :=
  .subscribe :: (List.range 50).map (fun n : Nat => .publish [0] "hint.raised" n .P0 0) ++ [.subscribe]

/-- A P0 frame waits until the slow subscriber reads; the next one waits until it is evicted. -/
def waitingRun : List (StreamEvent Nat) :=
  filling ++ [.publish [1, 0] "hint.raised" 50 .P0 0, .get 0, .resume 51, .get 1,
    .publish [1, 0] "hint.raised" 51 .P0 0, .tick 1, .timeout 52, .get 1, .get 0,
    .publishNowait "signal.event" 52 .P1 0]

theorem delivery_waiting :
    Always step Delivering (initial (1 / 2) : AppStreamHub Nat) waitingRun ∧
      Guarded step Fair (initial (1 / 2) : AppStreamHub Nat) waitingRun :=
  delivery (1 / 2) waitingRun (by decide +kernel)

/-- A P1 frame comes while a P0 frame waits at the first subscriber, before it goes on to the second. -/
def overtakenRun : List (StreamEvent Nat) :=
  filling ++ [.publish [0, 1] "hint.raised" 50 .P0 0, .publish [0, 1] "hint.cleared" 51 .P1 0, .get 0,
    .resume 51, .get 1, .get 1]

/-- The second subscriber reads the frame 52 and then the frame 51. -/
theorem waiting_frame_overtaken :
    ¬∀ (p0PutTimeout : ℚ) (events : List (StreamEvent Nat)),
      Always step Delivering (initial p0PutTimeout : AppStreamHub Nat) events ∧
        Guarded step Fair (initial p0PutTimeout : AppStreamHub Nat) events := by
  intro h
  have hend := (always_iff_prefixes _ _ _ _).mp (h (1 / 2) overtakenRun).1 overtakenRun (List.prefix_refl _)
  have hread : ((run step (initial (1 / 2)) overtakenRun).queues.get? 1).map
      (fun q => q.read.map Frame.seq) = some [52, 51] := by decide +kernel
  obtain ⟨q, hq, hseqs⟩ := Option.map_eq_some_iff.mp hread
  have hincreasing : (q.read.map Frame.seq).Pairwise (· < ·) := List.pairwise_map.mpr (hend.increasing 1 q hq)
  rw [hseqs] at hincreasing
  exact absurd hincreasing (by decide)

end AppStreamHub
end Droid.Stream
