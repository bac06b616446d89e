import Droid.Market.Coordinator

/-! Single flight: what every schedule keeps of it where no cancellation and no refused fallback gets in
its way. -/
namespace Droid.Market
open Lib

variable {α : Type}

namespace Point

def refreshes : Point α → Option Nat
  | .fetching future .. | .sleeping future .. => some future
  | _ => none

def fetches : Point α → Bool
  | .fetching .. => true
  | _ => false

def joins : Point α → Option Nat
  | .joined future => some future
  | _ => none

end Point

namespace Coordinator

def pendingAt (s : Coordinator α) (future : Nat) : Bool :=
  match s.futures.get? future with
  | some .pending => true
  | _ => false

def cancelledAt (s : Coordinator α) (future : Nat) : Bool :=
  match s.futures.get? future with
  | some .cancelled => true
  | _ => false

/-- The promises in one state. -/
structure Sound (s : Coordinator α) : Prop where
  one_fetcher : ∀ i j c d, s.callers.get? i = some c → s.callers.get? j = some d →
    c.point.fetches = true → d.point.fetches = true → i = j
  resolved : ∀ future, s.pendingAt future = true → s.inFlight = some future
  /-- The pending future of a joined caller has someone at it. -/
  awaited : ∀ i c future, s.callers.get? i = some c → c.point.joins = some future →
    s.pendingAt future = true → ∃ j d, s.callers.get? j = some d ∧ d.point.refreshes = some future
  own_cancellation : ∀ i c, s.callers.get? i = some c → c.point = .raised → c.cancelled = true
  fresh : ∀ i c stored v time, s.callers.get? i = some c →
    c.point = .returned (.cache stored) v time → time - stored < c.request.ttl
  not_stale : ∀ i c origin v time, s.callers.get? i = some c → c.request.fallbackStale = false →
    c.point = .returned origin v time → v.status = .FRESH ∨ v.status = .UNAVAILABLE

/-- A caller that starts a refresh without forcing it arrived after every fetch that had succeeded, by
its TTL at least. -/
def StartsLate (s s' : Coordinator α) : Prop :=
  ∀ i c, s'.callers.get? i = some c → c.point.refreshes.isSome = true → c.request.forceRefresh = false →
    (s.callers.get? i).bind (fun d => d.point.refreshes) = none →
    ∀ success ∈ s.successes, success.2 ≤ i ∧ c.request.ttl ≤ c.arrived - success.1

/-- The end of a fetch that resolves its future with a value that everyone on it takes. -/
def Shared (s : Coordinator α) (c : Caller α) (outcome : Outcome α) : Prop :=
  match c.point, outcome with
  | .fetching future _ _, .cancelled => s.pendingAt future = false
  | .fetching future attempt cachedEntry, .error =>
    c.request.maxRetries < attempt + 1 → cachedEntry.isSome = true →
      c.request.fallbackStale = true ∧
        ∀ e ∈ s.callers.entries, e.2.point.joins = some future → e.2.request.fallbackStale = true
  | _, _ => True

/-- No refresh is cancelled before its future is done; no caller is cancelled while another one waits
for the same future, and none joins a future that is cancelled; no refresh falls back to a stale value
for a caller that refuses it. -/
def Undisturbed (s : Coordinator α) : Event α → Prop
  | .cancel i => ∀ c ∈ s.callers.get? i,
    (∀ future ∈ c.point.refreshes, s.pendingAt future = false) ∧
      ∀ future ∈ c.point.joins, s.pendingAt future = true →
        ∀ e ∈ s.callers.entries, e.2.point.joins = some future → e.1 = i
  | .fetched i _ outcome => ∀ c ∈ s.callers.get? i, s.Shared c outcome
  | .arrive request => s.lookup request = none → ∀ future ∈ s.inFlight, s.cancelledAt future = false
  | _ => True

def Accepts (c : Caller α) (v : CachedValue α) : Prop :=
  c.request.fallbackStale = false → v.status = .FRESH ∨ v.status = .UNAVAILABLE

structure CallerKept (s : Coordinator α) (c : Caller α) : Prop where
  joined : ∀ future, c.point.joins = some future → ∃ state, s.futures.get? future = some state ∧
    state ≠ .cancelled ∧ ∀ v, state = .result v → Accepts c v
  not_locking : c.point ≠ .locking
  own : c.point = .raised → c.cancelled = true
  fresh : ∀ stored v time, c.point = .returned (.cache stored) v time → time - stored < c.request.ttl
  not_stale : ∀ origin v time, c.point = .returned origin v time → Accepts c v

structure Kept (s : Coordinator α) : Prop where
  caller : ∀ i c, s.callers.get? i = some c → s.CallerKept c
  numbered : ∀ i c, s.callers.get? i = some c → i < s.arrivals
  refresher : ∀ i c future, s.callers.get? i = some c → c.point.refreshes = some future →
    s.lock = some i ∧ s.inFlight = some future
  refreshed : ∀ future, s.inFlight = some future →
    (s.futures.get? future = some .pending ∨ s.futures.get? future = some .cancelled) ∧
      ∃ i c, s.callers.get? i = some c ∧ c.point.refreshes = some future
  unlocked : s.inFlight = none → s.lock = none
  resolved : ∀ future, s.pendingAt future = true → s.inFlight = some future
  counted : ∀ future, (s.futures.get? future).isSome = true → future < s.refreshes
  stored : ∀ success ∈ s.successes, success.2 ≤ s.arrivals ∧
    ∃ stored v, s.cache = some (stored, v) ∧ success.1 ≤ stored
  past : ∀ stored v, s.cache = some (stored, v) → stored ≤ s.now

section
variable {s : Coordinator α}

/-- A refreshing caller promises nothing of its own yet. -/
theorem CallerKept.refreshing {c : Caller α} {future : Nat} (hpoint : c.point.refreshes = some future) :
    s.CallerKept c := by
  refine { joined := ?_, not_locking := ?_, own := ?_, fresh := ?_, not_stale := ?_ }
  · intro g hg
    cases hc : c.point <;> rw [hc] at hpoint hg <;> cases hpoint <;> cases hg
  · intro hc
    rw [hc] at hpoint
    cases hpoint
  · intro hc
    rw [hc] at hpoint
    cases hpoint
  · intro stored v time hc
    rw [hc] at hpoint
    cases hpoint
  · intro origin v time hc
    rw [hc] at hpoint
    cases hpoint

theorem CallerKept.raised {c : Caller α} (hpoint : c.point = .raised) (hcancelled : c.cancelled = true) :
    s.CallerKept c := by
  refine { joined := ?_, not_locking := ?_, own := fun _ => hcancelled, fresh := ?_, not_stale := ?_ }
  · intro g hg
    rw [hpoint] at hg
    cases hg
  · intro hc
    rw [hpoint] at hc
    cases hc
  · intro stored v time hc
    rw [hpoint] at hc
    cases hc
  · intro origin v time hc
    rw [hpoint] at hc
    cases hc

/-- A caller that returns keeps the two promises on its value. -/
theorem CallerKept.returned {c : Caller α} {origin : Origin} {v : CachedValue α} {time : ℚ}
    (hpoint : c.point = .returned origin v time)
    (hfresh : ∀ stored, origin = .cache stored → time - stored < c.request.ttl) (hown : Accepts c v) :
    s.CallerKept c := by
  refine { joined := ?_, not_locking := ?_, own := ?_, fresh := ?_, not_stale := ?_ }
  · intro g hg
    rw [hpoint] at hg
    cases hg
  · intro hc
    rw [hpoint] at hc
    cases hc
  · intro hc
    rw [hpoint] at hc
    cases hc
  · intro stored w t hc
    rw [hpoint] at hc
    cases hc
    exact hfresh stored rfl
  · intro other w t hc
    rw [hpoint] at hc
    cases hc
    exact hown

theorem CallerKept.sharing {c : Caller α} {future : Nat} (hpoint : c.point = .joined future)
    (hshared : ∃ state, s.futures.get? future = some state ∧ state ≠ .cancelled ∧
      ∀ v, state = .result v → Accepts c v) : s.CallerKept c := by
  refine { joined := ?_, not_locking := ?_, own := ?_, fresh := ?_, not_stale := ?_ }
  · intro g hg
    rw [hpoint] at hg
    cases hg
    exact hshared
  · intro hc
    rw [hpoint] at hc
    cases hc
  · intro hc
    rw [hpoint] at hc
    cases hc
  · intro stored w t hc
    rw [hpoint] at hc
    cases hc
  · intro other w t hc
    rw [hpoint] at hc
    cases hc

theorem kept_initial : (initial : Coordinator α).Kept where
  caller := by
    intro i c hi
    cases hi
  numbered := by
    intro i c hi
    cases hi
  refresher := by
    intro i c future hi
    cases hi
  refreshed := by
    intro future hfuture
    cases hfuture
  unlocked := fun _ => rfl
  resolved := by
    intro future hfuture
    cases hfuture
  counted := by
    intro future hfuture
    cases hfuture
  stored := by
    intro success hsuccess
    cases hsuccess
  past := by
    intro stored v hcache
    cases hcache

theorem pendingAt_iff {future : Nat} :
    s.pendingAt future = true ↔ s.futures.get? future = some .pending := by
  rw [pendingAt]
  split
  · rename_i h
    exact iff_of_true rfl h
  · rename_i h
    exact iff_of_false Bool.false_ne_true h

theorem Point.refreshes_of_fetches {p : Point α} (h : p.fetches = true) : p.refreshes.isSome = true := by
  cases p <;> first | rfl | cases h

theorem Kept.sound (h : s.Kept) : s.Sound where
  one_fetcher := by
    intro i j c d hi hj hc hd
    obtain ⟨f, hf⟩ := Option.isSome_iff_exists.mp (Point.refreshes_of_fetches hc)
    obtain ⟨g, hg⟩ := Option.isSome_iff_exists.mp (Point.refreshes_of_fetches hd)
    have hlock := (h.refresher i c f hi hf).1.symm.trans (h.refresher j d g hj hg).1
    exact Option.some.inj hlock
  resolved := h.resolved
  awaited := fun _ _ future _ _ hpending => (h.refreshed future (h.resolved future hpending)).2
  own_cancellation := fun i c hi => (h.caller i c hi).own
  fresh := fun i c stored v time hi => (h.caller i c hi).fresh stored v time
  not_stale := fun i c origin v time hi hrefuses hpoint =>
    (h.caller i c hi).not_stale origin v time hpoint hrefuses

theorem CallerKept.congr {s' : Coordinator α} {c : Caller α} (h : s.CallerKept c)
    (hfutures : s'.futures = s.futures) : s'.CallerKept c :=
  ⟨hfutures ▸ h.joined, h.not_locking, h.own, h.fresh, h.not_stale⟩

theorem get?_settle (i : Nat) (c : Caller α) (point : Point α) (j : Nat) :
    (s.settle i c point).callers.get? j = if j = i then some { c with point } else s.callers.get? j :=
  Dict.get?_insert _ _ _ _

/-- A caller that goes on refreshing, or not refreshing, as before. -/
theorem Kept.settle (h : s.Kept) {i : Nat} {c : Caller α} {point : Point α} (hi : i < s.arrivals)
    (hkept : s.CallerKept { c with point })
    (hsame : (s.callers.get? i).bind (fun d => d.point.refreshes) = point.refreshes) :
    (s.settle i c point).Kept where
  caller := by
    intro j d hj
    rw [get?_settle] at hj
    split at hj
    · cases hj
      exact hkept.congr rfl
    · exact (h.caller j d hj).congr rfl
  numbered := by
    intro j d hj
    rw [get?_settle] at hj
    split at hj
    · rename_i hji
      exact hji ▸ hi
    · exact h.numbered j d hj
  refresher := by
    intro j d future hj hd
    rw [get?_settle] at hj
    split at hj
    · rename_i hji
      subst hji
      cases hj
      rw [← hsame, Option.bind_eq_some_iff] at hd
      obtain ⟨old, hold, hfuture⟩ := hd
      exact h.refresher j old future hold hfuture
    · exact h.refresher j d future hj hd
  refreshed := by
    intro future hfuture
    obtain ⟨hsome, j, d, hj, hd⟩ := h.refreshed future hfuture
    refine ⟨hsome, ?_⟩
    by_cases hji : j = i
    · subst hji
      refine ⟨j, { c with point }, by rw [get?_settle, if_pos rfl], ?_⟩
      change point.refreshes = _
      rw [← hsame, hj, Option.bind_some, hd]
    · exact ⟨j, d, by rw [get?_settle, if_neg hji, hj], hd⟩
  unlocked := h.unlocked
  resolved := h.resolved
  counted := h.counted
  stored := h.stored
  past := h.past

/-- A refresh that is over: the futures after it differ at its own one at most, and that one is done. -/
theorem Kept.over (h : s.Kept) {i : Nat} {d : Caller α} {future : Nat} (hd : s.callers.get? i = some d)
    (hrefreshes : d.point.refreshes = some future) (futures : Dict Nat (FutureState α))
    (hothers : ∀ g, g ≠ future → futures.get? g = s.futures.get? g)
    (hdone : futures.get? future ≠ some .pending)
    (hjoined : ∀ j e, s.callers.get? j = some e → e.point.joins = some future →
      ∃ state, futures.get? future = some state ∧ state ≠ .cancelled ∧
        ∀ v, state = .result v → Accepts e v)
    {c : Caller α} {point : Point α} (hkept : s.CallerKept { c with point })
    (hrefreshes' : point.refreshes = none) (hjoins' : point.joins = none) :
    (({ s with futures } : Coordinator α).leave.settle i c point).Kept where
  caller := by
    intro j e hj
    rw [get?_settle] at hj
    split at hj
    · cases hj
      refine ⟨?_, hkept.not_locking, hkept.own, hkept.fresh, hkept.not_stale⟩
      intro g hg
      cases hjoins'.symm.trans hg
    · have he := h.caller j e hj
      refine ⟨?_, he.not_locking, he.own, he.fresh, he.not_stale⟩
      intro g hg
      by_cases hgf : g = future
      · subst hgf
        exact hjoined j e hj hg
      · obtain ⟨state, hstate, hkeeps⟩ := he.joined g hg
        exact ⟨state, (hothers g hgf).trans hstate, hkeeps⟩
  numbered := by
    intro j e hj
    rw [get?_settle] at hj
    split at hj
    · rename_i hji
      exact hji ▸ h.numbered i d hd
    · exact h.numbered j e hj
  refresher := by
    intro j e g hj he
    rw [get?_settle] at hj
    split at hj
    · cases hj
      cases hrefreshes'.symm.trans he
    · rename_i hji
      -- only the one that is over held the lock
      have hlock := (h.refresher j e g hj he).1.symm.trans (h.refresher i d future hd hrefreshes).1
      exact absurd (Option.some.inj hlock) hji
  refreshed := by
    intro g hg
    cases hg
  unlocked := fun _ => rfl
  resolved := by
    intro g hg
    have hpending : futures.get? g = some .pending := pendingAt_iff.mp hg
    by_cases hgf : g = future
    · exact absurd (hgf ▸ hpending) hdone
    · rw [hothers g hgf] at hpending
      have hflight := (h.resolved g (pendingAt_iff.mpr hpending)).symm.trans
        (h.refresher i d future hd hrefreshes).2
      exact absurd (Option.some.inj hflight) hgf
  counted := by
    intro g hg
    by_cases hgf : g = future
    · have hflight := (h.refresher i d future hd hrefreshes).2
      rcases (h.refreshed future hflight).1 with hstate | hstate
      · exact hgf ▸ h.counted future (by rw [hstate]; rfl)
      · exact hgf ▸ h.counted future (by rw [hstate]; rfl)
    · refine h.counted g ?_
      rw [← hothers g hgf]
      exact hg
  stored := h.stored
  past := h.past

/-- The future of a refresh is resolved only where it is pending. -/
theorem resolve_eq (future : Nat) (v : CachedValue α) :
    s.resolve future v = { s with futures := (s.resolve future v).futures } := by
  rw [resolve]
  split <;> rfl

theorem get?_resolve (future : Nat) (v : CachedValue α) (g : Nat) :
    (s.resolve future v).futures.get? g =
      if g = future ∧ s.pendingAt future = true then some (.result v) else s.futures.get? g := by
  rw [resolve]
  split
  · rename_i hpending
    rw [Dict.get?_insert, pendingAt_iff.mpr hpending]
    simp
  · rename_i hne
    rw [if_neg]
    rintro ⟨-, hpending⟩
    exact hne (pendingAt_iff.mp hpending)

theorem Kept.finish (h : s.Kept) {i : Nat} {c : Caller α} {future : Nat} (hi : s.callers.get? i = some c)
    (hrefreshes : c.point.refreshes = some future) {v : CachedValue α} (hown : Accepts c v)
    (hjoined : ∀ j e, s.callers.get? j = some e → e.point.joins = some future → Accepts e v) :
    (s.finish i c future v).Kept := by
  rw [Coordinator.finish, resolve_eq]
  apply h.over hi hrefreshes (s.resolve future v).futures
  · intro g hg
    rw [get?_resolve, if_neg (fun hboth => hg hboth.1)]
  · rw [get?_resolve]
    intro hpending
    split at hpending
    · cases hpending
    · rename_i hne
      exact hne ⟨rfl, pendingAt_iff.mpr hpending⟩
  · intro j e hj he
    obtain ⟨state, hstate, hkeeps⟩ := (h.caller j e hj).joined future he
    rw [get?_resolve]
    split
    · refine ⟨.result v, rfl, ?_, ?_⟩
      · intro hcancelled
        cases hcancelled
      · intro w hw
        cases hw
        exact hjoined j e hj he
    · exact ⟨state, hstate, hkeeps⟩
  · refine CallerKept.returned rfl ?_ hown
    intro stored hcached
    cases hcached
  · rfl
  · rfl

theorem Kept.leave (h : s.Kept) {i : Nat} {c : Caller α} {future : Nat} (hi : s.callers.get? i = some c)
    (hrefreshes : c.point.refreshes = some future) (hdone : s.pendingAt future = false) :
    (s.leave.settle i { c with cancelled := true } .raised).Kept := by
  refine h.over hi hrefreshes s.futures (fun _ _ => rfl) ?_ ?_ ?_ rfl rfl
  · intro hpending
    exact absurd (pendingAt_iff.mpr hpending) (by rw [hdone]; exact Bool.false_ne_true)
  · intro j e hj he
    exact (h.caller j e hj).joined future he
  · exact CallerKept.raised rfl rfl

theorem Kept.cancelFuture (h : s.Kept) {future : Nat}
    (halone : s.pendingAt future = true → ∀ i c, s.callers.get? i = some c → c.point.joins ≠ some future) :
    (s.cancelFuture future).Kept := by
  rw [Coordinator.cancelFuture]
  split
  · rename_i hpending
    have hflight := h.resolved future (pendingAt_iff.mpr hpending)
    refine
      { caller := ?_, numbered := h.numbered, refresher := h.refresher, refreshed := ?_
        unlocked := h.unlocked, resolved := ?_, counted := ?_, stored := h.stored, past := h.past }
    · intro i c hi
      have hc := h.caller i c hi
      refine ⟨?_, hc.not_locking, hc.own, hc.fresh, hc.not_stale⟩
      intro g hg
      obtain ⟨state, hstate, hkeeps⟩ := hc.joined g hg
      refine ⟨state, ?_, hkeeps⟩
      rw [Dict.get?_insert, if_neg]
      · exact hstate
      · rintro rfl
        exact halone (pendingAt_iff.mpr hpending) i c hi hg
    · intro g hg
      have hgf : g = future := Option.some.inj (hg.symm.trans hflight)
      refine ⟨.inr ?_, (h.refreshed g hg).2⟩
      rw [Dict.get?_insert, if_pos hgf]
    · intro g hg
      have hg' := pendingAt_iff.mp hg
      rw [Dict.get?_insert] at hg'
      split at hg'
      · cases hg'
      · exact h.resolved g (pendingAt_iff.mpr hg')
    · intro g hg
      rw [Dict.get?_insert] at hg
      split at hg
      · rename_i hgf
        exact hgf ▸ h.counted future (by rw [hpending]; rfl)
      · exact h.counted g hg
  · exact h

/-- A call that finds neither the cache nor a refresh is counted last and refreshes itself. -/
theorem Kept.enter (h : s.Kept) {i : Nat} {c : Caller α} (hi : i < s.arrivals)
    (hflight : s.inFlight = none) (hlookup : s.lookup c.request = none) : (s.enter i c).Kept := by
  have hfresh : s.futures.get? s.refreshes = none := by
    by_contra hsome
    exact absurd (h.counted s.refreshes (Option.isSome_iff_ne_none.mpr hsome)) (Nat.lt_irrefl _)
  rw [Coordinator.enter, hlookup]
  refine
    { caller := ?_, numbered := ?_, refresher := ?_, refreshed := ?_, unlocked := nofun, resolved := ?_
      counted := ?_, stored := h.stored, past := h.past }
  · intro j e hj
    rw [Dict.get?_insert] at hj
    split at hj
    · cases hj
      exact CallerKept.refreshing rfl
    · have he := h.caller j e hj
      refine ⟨?_, he.not_locking, he.own, he.fresh, he.not_stale⟩
      intro g hg
      obtain ⟨state, hstate, hkeeps⟩ := he.joined g hg
      refine ⟨state, ?_, hkeeps⟩
      rw [Dict.get?_insert, if_neg]
      · exact hstate
      · rintro rfl
        rw [hfresh] at hstate
        cases hstate
  · intro j e hj
    rw [Dict.get?_insert] at hj
    split at hj
    · rename_i hji
      exact hji ▸ hi
    · exact h.numbered j e hj
  · intro j e g hj he
    rw [Dict.get?_insert] at hj
    split at hj
    · rename_i hji
      cases hj
      cases he
      exact ⟨congrArg some hji.symm, rfl⟩
    · -- nobody was refreshing
      have hold := (h.refresher j e g hj he).2
      rw [hflight] at hold
      cases hold
  · intro g hg
    cases hg
    exact ⟨.inl (by rw [Dict.get?_insert, if_pos rfl]), i, _, by rw [Dict.get?_insert, if_pos rfl], rfl⟩
  · intro g hg
    have hg' := pendingAt_iff.mp hg
    rw [Dict.get?_insert] at hg'
    split at hg'
    · rename_i hgf
      exact congrArg some hgf.symm
    · have hold := h.resolved g (pendingAt_iff.mpr hg')
      rw [hflight] at hold
      cases hold
  · intro g hg
    rw [Dict.get?_insert] at hg
    split at hg
    · rename_i hgf
      exact hgf ▸ Nat.lt_succ_self _
    · exact Nat.lt_succ_of_lt (h.counted g hg)

theorem Kept.tick (h : s.Kept) (time : ℚ) : ({ s with now := max s.now time } : Coordinator α).Kept where
  caller := fun i c hi => (h.caller i c hi).congr rfl
  numbered := h.numbered
  refresher := h.refresher
  refreshed := h.refreshed
  unlocked := h.unlocked
  resolved := h.resolved
  counted := h.counted
  stored := h.stored
  past := fun stored v hcache => le_trans (h.past stored v hcache) (le_max_left _ _)

theorem Kept.counting (h : s.Kept) : ({ s with arrivals := s.arrivals + 1 } : Coordinator α).Kept where
  caller := fun i c hi => (h.caller i c hi).congr rfl
  numbered := fun i c hi => Nat.lt_succ_of_lt (h.numbered i c hi)
  refresher := h.refresher
  refreshed := h.refreshed
  unlocked := h.unlocked
  resolved := h.resolved
  counted := h.counted
  stored := fun success hsuccess =>
    ⟨Nat.le_succ_of_le (h.stored success hsuccess).1, (h.stored success hsuccess).2⟩
  past := h.past

theorem Kept.succeed (h : s.Kept) (v : CachedValue α) :
    ({ s with cache := some (s.now, v), successes := s.successes ++ [(s.now, s.arrivals)] } :
      Coordinator α).Kept where
  caller := fun i c hi => (h.caller i c hi).congr rfl
  numbered := h.numbered
  refresher := h.refresher
  refreshed := h.refreshed
  unlocked := h.unlocked
  resolved := h.resolved
  counted := h.counted
  stored := by
    intro success hsuccess
    rcases List.mem_append.mp hsuccess with hold | hnew
    · obtain ⟨hcount, stored, w, hcache, hle⟩ := h.stored success hold
      exact ⟨hcount, s.now, v, rfl, le_trans hle (h.past stored w hcache)⟩
    · rw [List.mem_singleton.mp hnew]
      exact ⟨le_refl _, s.now, v, rfl, le_refl _⟩
  past := by
    intro stored w hcache
    cases hcache
    exact le_refl _

/-- What the cache gives is younger than the TTL. -/
theorem lookup_fresh {request : Request} {stored : ℚ} {v : CachedValue α}
    (h : s.lookup request = some (stored, v)) : s.now - stored < request.ttl ∧ v.status = .FRESH := by
  rw [lookup] at h
  split at h
  · cases h
  · split at h
    · cases h
    · dsimp only at h
      split at h
      · rename_i hage
        cases h
        exact ⟨hage, rfl⟩
      · cases h

/-- What the cache does not give is older than the TTL. -/
theorem lookup_late {request : Request} (h : s.lookup request = none)
    (hforce : request.forceRefresh = false) {stored : ℚ} {v : CachedValue α}
    (hcache : s.cache = some (stored, v)) : request.ttl ≤ s.now - stored := by
  rw [lookup, hforce, hcache] at h
  by_contra hyoung
  simp [not_le.mp hyoung] at h

theorem Kept.arrive (h : s.Kept) {request : Request}
    (hguard : s.lookup request = none → ∀ future ∈ s.inFlight, s.cancelledAt future = false) :
    (s.arrive request).Kept := by
  have hnew : s.callers.get? s.arrivals = none := by
    by_contra hsome
    obtain ⟨c, hc⟩ := Option.ne_none_iff_exists'.mp hsome
    exact absurd (h.numbered _ c hc) (Nat.lt_irrefl _)
  have hlook : ∀ n, ({ s with arrivals := n } : Coordinator α).lookup request = s.lookup request :=
    fun _ => rfl
  rw [Coordinator.arrive]
  dsimp only
  rw [hlook]
  split
  · rename_i stored v hlookup
    obtain ⟨hage, hstatus⟩ := lookup_fresh hlookup
    refine h.counting.settle (Nat.lt_succ_self _) (CallerKept.returned rfl ?_ fun _ => .inl hstatus)
      (by simp [hnew, Point.refreshes])
    intro stored' hcached
    cases hcached
    exact hage
  · rename_i hlookup
    split
    · rename_i future hflight
      refine h.counting.settle (Nat.lt_succ_self _) (CallerKept.sharing rfl ?_)
        (by simp [hnew, Point.refreshes])
      have hnot := hguard hlookup future hflight
      rcases (h.refreshed future hflight).1 with hstate | hstate
      · refine ⟨.pending, hstate, ?_, ?_⟩
        · intro hcancelled
          cases hcancelled
        · intro w hw
          cases hw
      · rw [cancelledAt, hstate] at hnot
        cases hnot
    · rename_i hflight
      rw [if_pos (by rw [h.unlocked hflight]; rfl)]
      exact h.counting.enter (Nat.lt_succ_self _) hflight hlookup

theorem Kept.fetched (h : s.Kept) {i : Nat} {c : Caller α} (hi : s.callers.get? i = some c)
    (wallClock : Int) (outcome : Outcome α) (hguard : s.Undisturbed (.fetched i wallClock outcome)) :
    (s.fetched i c wallClock outcome).Kept := by
  replace hguard : s.Shared c outcome := hguard c hi
  rw [Coordinator.fetched]
  split
  · rename_i future attempt cachedEntry hpoint
    have hrefreshes : c.point.refreshes = some future := by
      rw [hpoint]
      rfl
    split
    · exact (h.succeed _).finish hi hrefreshes (fun _ => .inl rfl) (fun _ _ _ _ _ => .inl rfl)
    · split
      · refine h.settle (h.numbered i c hi) (CallerKept.refreshing rfl) ?_
        rw [hi, Option.bind_some, hrefreshes]
        rfl
      · rename_i hlast
        rw [not_le] at hlast
        cases cachedEntry with
        | none => exact h.finish hi hrefreshes (fun _ => .inr rfl) (fun _ _ _ _ _ => .inr rfl)
        | some entry =>
          rw [Shared.eq_def, hpoint] at hguard
          obtain ⟨hown, hothers⟩ := hguard hlast rfl
          refine h.finish hi hrefreshes ?_ ?_
          · intro hrefuses
            cases hown.symm.trans hrefuses
          · intro j e hj he hrefuses
            cases (hothers (j, e) (Dict.mem_entries_of_get? hj) he).symm.trans hrefuses
    · rw [Shared.eq_def, hpoint] at hguard
      exact h.leave hi hrefreshes hguard
  · exact h

theorem cancelFuture_settle (future i : Nat) (c : Caller α) (point : Point α) :
    (s.cancelFuture future).settle i c point = (s.settle i c point).cancelFuture future := by
  simp only [cancelFuture, settle]
  generalize s.futures.get? future = state
  rcases state with _ | _ | _ | _ <;> rfl

theorem Kept.cancel (h : s.Kept) {i : Nat} {c : Caller α} (hi : s.callers.get? i = some c)
    (hguard : s.Undisturbed (.cancel i)) : (s.cancel i c).Kept := by
  obtain ⟨hdone, halone⟩ := hguard c hi
  have hraised : s.CallerKept { c with cancelled := true, point := .raised } :=
    CallerKept.raised rfl rfl
  rw [Coordinator.cancel]
  split
  · rename_i future hpoint
    rw [hpoint] at halone
    have hsettled : (s.settle i { c with cancelled := true } .raised).Kept := by
      refine h.settle (h.numbered i c hi) hraised ?_
      rw [hi, Option.bind_some, hpoint]
      rfl
    rw [cancelFuture_settle]
    apply hsettled.cancelFuture
    intro hpending j d hj hd
    rw [get?_settle] at hj
    split at hj
    · cases hj
      cases hd
    · rename_i hji
      exact hji (halone future rfl hpending (j, d) (Dict.mem_entries_of_get? hj) hd)
  · rename_i hpoint
    exact absurd hpoint (h.caller i c hi).not_locking
  · rename_i future attempt cachedEntry hpoint
    rw [hpoint] at hdone
    exact h.leave hi (by rw [hpoint]; rfl) (hdone future rfl)
  · rename_i future attempt cachedEntry hpoint
    rw [hpoint] at hdone
    exact h.leave hi (by rw [hpoint]; rfl) (hdone future rfl)
  · exact h
  · exact h

theorem Kept.resume (h : s.Kept) {i : Nat} {c : Caller α} (hi : s.callers.get? i = some c) :
    (s.resume i c).Kept := by
  rw [Coordinator.resume]
  split
  · rename_i future hpoint
    have hnone : (s.callers.get? i).bind (fun d => d.point.refreshes) = none := by
      rw [hi, Option.bind_some, hpoint]
      rfl
    obtain ⟨state, hstate, hlive, haccepts⟩ := (h.caller i c hi).joined future (by rw [hpoint]; rfl)
    split
    · rename_i v hresult
      have hresult := Option.some.inj (hstate.symm.trans hresult)
      refine h.settle (h.numbered i c hi) (CallerKept.returned rfl ?_ (haccepts v hresult)) hnone
      intro stored hcached
      cases hcached
    · rename_i hcancelled
      exact absurd (Option.some.inj (hstate.symm.trans hcancelled)) hlive
    · exact h
  · exact h

theorem Kept.slept (h : s.Kept) {i : Nat} {c : Caller α} (hi : s.callers.get? i = some c) :
    (s.slept i c).Kept := by
  rw [Coordinator.slept]
  split
  · rename_i future attempt cachedEntry hpoint
    refine h.settle (h.numbered i c hi) (CallerKept.refreshing rfl) ?_
    rw [hi, Option.bind_some, hpoint]
    rfl
  · exact h

theorem Kept.acquire_eq (h : s.Kept) {i : Nat} {c : Caller α} (hi : s.callers.get? i = some c) :
    s.acquire i c = s := by
  have hnot := (h.caller i c hi).not_locking
  rw [Coordinator.acquire]
  split
  · rename_i hpoint _
    exact absurd hpoint hnot
  · rfl

theorem withCaller_some {i : Nat} {c : Caller α} (hi : s.callers.get? i = some c)
    (f : Nat → Caller α → Coordinator α) : s.withCaller i f = f i c := by
  rw [withCaller, hi]

theorem withCaller_none {i : Nat} (hi : s.callers.get? i = none) (f : Nat → Caller α → Coordinator α) :
    s.withCaller i f = s := by
  rw [withCaller, hi]

theorem Kept.withCaller (h : s.Kept) {i : Nat} {f : Nat → Caller α → Coordinator α}
    (hf : ∀ c, s.callers.get? i = some c → (f i c).Kept) : (s.withCaller i f).Kept := by
  cases hi : s.callers.get? i with
  | none =>
    rw [withCaller_none hi]
    exact h
  | some c =>
    rw [withCaller_some hi]
    exact hf c hi

theorem Kept.step (h : s.Kept) (e : Event α) (hguard : s.Undisturbed e) : (s.step e).Kept := by
  cases e with
  | tick time => exact h.tick time
  | arrive request => exact h.arrive hguard
  | acquire i => exact h.withCaller fun c hi => (h.acquire_eq hi).symm ▸ h
  | fetched i wallClock outcome =>
    exact h.withCaller (f := fun i c => s.fetched i c wallClock outcome) fun c hi =>
      h.fetched hi wallClock outcome hguard
  | slept i => exact h.withCaller fun c hi => h.slept hi
  | resume i => exact h.withCaller fun c hi => h.resume hi
  | cancel i => exact h.withCaller fun c hi => h.cancel hi hguard

theorem startsLate_refl : s.StartsLate s := by
  intro i c hi hsome _ hnone
  rw [hi, Option.bind_some] at hnone
  rw [hnone] at hsome
  cases hsome

theorem startsLate_insert {s' : Coordinator α} {i : Nat} {d : Caller α}
    (hcallers : s'.callers = s.callers.insert i d)
    (hold : d.point.refreshes.isSome = true → (s.callers.get? i).bind (fun c => c.point.refreshes) ≠ none) :
    s.StartsLate s' := by
  intro j c hj hsome hforce hnone
  rw [hcallers, Dict.get?_insert] at hj
  split at hj
  · rename_i hji
    cases hj
    exact absurd (hji ▸ hnone) (hold hsome)
  · exact startsLate_refl j c hj hsome hforce hnone

theorem startsLate_settle {i : Nat} {c : Caller α} {point : Point α}
    (hold : point.refreshes.isSome = true → (s.callers.get? i).bind (fun d => d.point.refreshes) ≠ none) :
    s.StartsLate (s.settle i c point) :=
  startsLate_insert rfl hold

theorem callers_cancelFuture (future : Nat) : (s.cancelFuture future).callers = s.callers := by
  rw [cancelFuture]
  split <;> rfl

theorem startsLate_finish {s' : Coordinator α} (hcallers : s'.callers = s.callers) (i : Nat) (c : Caller α)
    (future : Nat) (v : CachedValue α) : s.StartsLate (s'.finish i c future v) := by
  refine startsLate_insert (i := i) (d := { c with point := .returned .computed v s'.now }) ?_ nofun
  rw [finish, resolve_eq, ← hcallers]
  rfl

/-- A refresh that starts comes after the TTL of everything that was fetched. -/
theorem Kept.startsLate_arrive (h : s.Kept) (request : Request) : s.StartsLate (s.arrive request) := by
  have hlook : ∀ n, ({ s with arrivals := n } : Coordinator α).lookup request = s.lookup request :=
    fun _ => rfl
  rw [Coordinator.arrive]
  dsimp only
  rw [hlook]
  split
  · exact startsLate_insert rfl nofun
  · rename_i hlookup
    split
    · exact startsLate_insert rfl nofun
    · rename_i hflight
      rw [if_pos (by rw [h.unlocked hflight]; rfl)]
      intro j c hj hsome hforce hnone success hsuccess
      rw [Coordinator.enter, hlook, hlookup] at hj
      dsimp only at hj
      rw [Dict.get?_insert] at hj
      split at hj
      · rename_i hji
        cases hj
        obtain ⟨hcount, stored, v, hcache, hle⟩ := h.stored success hsuccess
        have hlate := lookup_late hlookup hforce hcache
        refine ⟨hji ▸ hcount, ?_⟩
        change request.ttl ≤ s.now - success.1
        linarith
      · exact startsLate_refl j c hj hsome hforce hnone success hsuccess

theorem Kept.startsLate (h : s.Kept) (e : Event α) : s.StartsLate (s.step e) := by
  have hcaller : ∀ i (f : Nat → Caller α → Coordinator α),
      (∀ c, s.callers.get? i = some c → s.StartsLate (f i c)) → s.StartsLate (s.withCaller i f) := by
    intro i f hf
    cases hi : s.callers.get? i with
    | none =>
      rw [withCaller_none hi]
      exact startsLate_refl
    | some c =>
      rw [withCaller_some hi]
      exact hf c hi
  cases e with
  | tick time => exact startsLate_refl
  | arrive request => exact h.startsLate_arrive request
  | acquire i =>
    refine hcaller i _ fun c hi => ?_
    rw [h.acquire_eq hi]
    exact startsLate_refl
  | fetched i wallClock outcome =>
    refine hcaller i _ fun c hi => ?_
    rw [Coordinator.fetched]
    split
    · rename_i future attempt cachedEntry hpoint
      split
      · refine startsLate_finish ?_ i c future _
        rfl
      · split
        · refine startsLate_settle fun _ => ?_
          rw [hi, Option.bind_some, hpoint]
          exact Option.some_ne_none future
        · exact startsLate_finish rfl i c future _
      · exact startsLate_insert rfl nofun
    · exact startsLate_refl
  | slept i =>
    refine hcaller i _ fun c hi => ?_
    rw [Coordinator.slept]
    split
    · rename_i future attempt cachedEntry hpoint
      refine startsLate_settle fun _ => ?_
      rw [hi, Option.bind_some, hpoint]
      exact Option.some_ne_none future
    · exact startsLate_refl
  | resume i =>
    refine hcaller i _ fun c hi => ?_
    rw [Coordinator.resume]
    split
    · split
      · exact startsLate_settle nofun
      · exact startsLate_settle nofun
      · exact startsLate_refl
    · exact startsLate_refl
  | cancel i =>
    refine hcaller i _ fun c hi => ?_
    rw [Coordinator.cancel]
    split
    · refine startsLate_insert (i := i) (d := { c with cancelled := true, point := .raised }) ?_ nofun
      rw [Coordinator.settle, callers_cancelFuture]
    · exact startsLate_settle nofun
    · exact startsLate_insert rfl nofun
    · exact startsLate_insert rfl nofun
    · exact startsLate_refl
    · exact startsLate_refl

end

/-- One upstream evaluation at a time, shared by everyone who comes while it runs: in every undisturbed
schedule. -/
theorem single_flight (events : List (Event α))
    (hundisturbed : Guarded step Undisturbed (initial : Coordinator α) events) :
    Always step Sound (initial : Coordinator α) events ∧
      Guarded step (fun s e => s.StartsLate (s.step e)) (initial : Coordinator α) events := by
  have hkept := always_of_guarded (P := Kept) (fun s e h hguard => h.step e hguard) kept_initial hundisturbed
  exact ⟨hkept.mono fun _ h => h.sound, hundisturbed.mono hkept fun _ e h _ => h.startsLate e⟩

instance (s : Coordinator α) (c : Caller α) (outcome : Outcome α) : Decidable (s.Shared c outcome) := by
  unfold Shared
  split <;> infer_instance

instance [DecidableEq α] (s : Coordinator α) : (e : Event α) → Decidable (s.Undisturbed e)
  | .fetched i _ outcome => inferInstanceAs (Decidable (∀ c ∈ s.callers.get? i, s.Shared c outcome))
  | .cancel i => inferInstanceAs (Decidable (∀ c ∈ s.callers.get? i, _))
  | .arrive _ => inferInstanceAs (Decidable (_ → _))
  | .tick _ | .acquire _ | .slept _ | .resume _ => isTrue trivial

/-- Two callers share a fetch, a third one comes within the TTL, a fourth refreshes after it, fails once
and is joined by one that is cancelled. -/
def sharedRun : List (Event Nat) :=
  let request : Request := { ttl := 5 }
  [.arrive request, .tick 1, .arrive request, .fetched 0 100 (.ok 7), .resume 1, .tick 2, .arrive request,
    .tick 9, .arrive request, .arrive request, .fetched 3 101 .error, .cancel 4, .slept 3,
    .fetched 3 102 (.ok 8)]

theorem single_flight_shared :
    Always step Sound (initial : Coordinator Nat) sharedRun ∧
      Guarded step (fun s e => s.StartsLate (s.step e)) (initial : Coordinator Nat) sharedRun :=
  single_flight sharedRun (by decide +kernel)

/-- The refresher is cancelled while another caller waits for its future. -/
def strandedRun : List (Event Nat) :=
  [.arrive { ttl := 5 }, .arrive { ttl := 5 }, .cancel 0]

/-- The future of a removed entry stays pending; a caller that joined it waits for ever. -/
theorem cancelled_refresh_strands :
    ¬∀ events : List (Event Nat), Always step Sound (initial : Coordinator Nat) events ∧
      Guarded step (fun s e => s.StartsLate (s.step e)) (initial : Coordinator Nat) events := by
  intro h
  have hprefix := (always_iff_prefixes _ _ _ _).mp (h strandedRun).1 strandedRun (List.prefix_refl _)
  have hflight := hprefix.resolved 0 (by decide +kernel)
  have hnone : (run step initial strandedRun).inFlight = none := by decide +kernel
  cases hnone.symm.trans hflight

end Coordinator
end Droid.Market
