import Droid.Algo.OrderManager
import Droid.Lib.Run

/-! Idempotent creation and at most one broker submission for every client order. -/
namespace Droid.Algo
open Lib

def OrderRecord.key (r : OrderRecord) : AccountId × Uuid := (r.accountId, r.clientOrderId)

theorem OrderRecord.SameOrder.key {r r' : OrderRecord} (h : r.SameOrder r') : r'.key = r.key := by
  rw [OrderRecord.key, h.accountId, h.clientOrderId]
  rfl

namespace Session

/-- Every order goes to the broker at most once, and `create_intent` answers an
account's id with the same record for good. -/
structure Idempotent (s : Session) : Prop where
  once : s.submitted.Nodup
  same : ∀ k r r', (k, r) ∈ s.issued → (k, r') ∈ s.issued → r = r'

/-- An id that the account has used before is still cached after this call's
pruning: under its scoped key, or through a bare alias of the same record. -/
def Remembers (s : Session) : ManagerEvent → Prop
  | .createIntent args fresh =>
    let cid := args.clientOrderId.getD fresh
    ∀ r, ((args.accountId, cid), r) ∈ s.issued →
      s.manager.prune.orders.contains (.scoped args.accountId cid) ∨
        s.manager.prune.orders.get? (.bare cid) = some r
  | _ => True

/-- What ties the cache, the records and the two logs together in every session. -/
structure Coherent (s : Session) : Prop where
  keyed : ∀ a c r, s.manager.orders.get? (.scoped a c) = some r → ((a, c), r) ∈ s.issued
  bounded : ∀ k r, s.manager.orders.get? k = some r → r < s.manager.records.length
  issued : ∀ k r, (k, r) ∈ s.issued → r < s.manager.records.length
  owned : ∀ (r : Ref) record, s.manager.records[r]? = some record → (record.key, r) ∈ s.issued
  spent : ∀ k ∈ s.submitted, ∃ (r : Ref) (record : _), s.manager.records[r]? = some record ∧
    record.key = k ∧ ¬ record.status.submittable

theorem coherent_start : Coherent { } where
  keyed := by intro a c r h; cases h
  bounded := by intro k r h; cases h
  issued := by intro k r h; cases h
  owned := by intro r record h; cases h
  spent := by intro k h; cases h

/-- Writing one record back as an operation leaves it keeps a session coherent. -/
theorem coherent_put {s : Session} (hs : Coherent s) {ref : Ref} {record : OrderRecord} {t : Traced}
    (hrec : s.manager.records[ref]? = some record) (hsame : record.SameOrder t.record)
    (hsub : t.record.status.submittable → record.status.submittable) : Coherent (s.put ref t) where
  keyed := hs.keyed
  bounded k r h := by simpa [put] using hs.bounded k r h
  issued k r h := by simpa [put] using hs.issued k r h
  owned r record' h := by
    have hlt : ref < s.manager.records.length := (List.getElem?_eq_some_iff.mp hrec).1
    by_cases hr : r = ref
    · subst hr
      simp only [put, List.getElem?_set_self hlt, Option.some.injEq] at h
      rw [← h, hsame.key]
      exact hs.owned r record hrec
    · simp only [put, List.getElem?_set_ne (Ne.symm hr)] at h
      exact hs.owned r record' h
  spent k hk := by
    have hlt : ref < s.manager.records.length := (List.getElem?_eq_some_iff.mp hrec).1
    obtain ⟨r, record', hr', hkey, hspent⟩ := hs.spent k hk
    by_cases hr : r = ref
    · subst hr
      have he : record' = record := Option.some.inj (hr'.symm.trans hrec)
      subst he
      refine ⟨r, t.record, ?_, hsame.key.trans hkey, fun h => hspent (hsub h)⟩
      simp [put, hlt]
    · refine ⟨r, record', ?_, hkey, hspent⟩
      simpa only [put, List.getElem?_set_ne (Ne.symm hr)] using hr'

/-- An intent answered from the cache adds at most the caller's key for the answer. -/
private theorem coherent_cached {s : Session} (hs : Coherent s) {orders : Dict CacheKey Ref}
    {a : AccountId} {c : Uuid} {ref : Ref} (hold : ∃ k, s.manager.orders.get? k = some ref)
    (horders : ∀ k r, orders.get? k = some r →
      s.manager.orders.get? k = some r ∨ (k = .scoped a c ∧ r = ref)) :
    Coherent { s with
      manager := { s.manager with orders }, issued := ((a, c), ref) :: s.issued } := by
  obtain ⟨k₀, hk₀⟩ := hold
  have hlt := hs.bounded k₀ ref hk₀
  refine ⟨?_, ?_, ?_, ?_, hs.spent⟩
  · intro a' c' r h
    rcases horders _ r h with h | ⟨hk, rfl⟩
    · exact List.mem_cons_of_mem _ (hs.keyed a' c' r h)
    · cases hk
      exact List.mem_cons_self
  · intro k r h
    rcases horders k r h with h | ⟨-, rfl⟩
    · exact hs.bounded k r h
    · exact hlt
  · intro k r h
    rcases List.mem_cons.mp h with h | h
    · cases h
      exact hlt
    · exact hs.issued k r h
  · intro r record h
    exact List.mem_cons_of_mem _ (hs.owned r record h)

private theorem coherent_new {s : Session} (hs : Coherent s) {orders : Dict CacheKey Ref}
    (args : IntentArgs) (c : Uuid)
    (horders : ∀ k r, orders.get? k = some r → s.manager.orders.get? k = some r ∨
      ((k = .scoped args.accountId c ∨ k = .bare c) ∧ r = s.manager.records.length)) :
    Coherent { s with
      manager := { records := s.manager.records ++ [args.record c], orders }
      issued := ((args.accountId, c), s.manager.records.length) :: s.issued } := by
  refine ⟨?_, ?_, ?_, ?_, ?_⟩
  · intro a' c' r h
    rcases horders _ r h with h | ⟨hk | hk, rfl⟩
    · exact List.mem_cons_of_mem _ (hs.keyed a' c' r h)
    · cases hk
      exact List.mem_cons_self
    · cases hk
  · intro k r h
    rw [List.length_append, List.length_singleton]
    rcases horders k r h with h | ⟨-, rfl⟩
    · exact Nat.lt_succ_of_lt (hs.bounded k r h)
    · exact Nat.lt_succ_self _
  · intro k r h
    rw [List.length_append, List.length_singleton]
    rcases List.mem_cons.mp h with h | h
    · cases h
      exact Nat.lt_succ_self _
    · exact Nat.lt_succ_of_lt (hs.issued k r h)
  · intro r record h
    by_cases hr : r < s.manager.records.length
    · rw [List.getElem?_append_left hr] at h
      exact List.mem_cons_of_mem _ (hs.owned r record h)
    · have he : r = s.manager.records.length := by
        have hlt : r < s.manager.records.length + 1 := by
          simpa using (List.getElem?_eq_some_iff.mp h).1
        exact Nat.le_antisymm (Nat.le_of_lt_succ hlt) (Nat.le_of_not_lt hr)
      subst he
      rw [List.getElem?_concat_length, Option.some.injEq] at h
      rw [← h]
      exact List.mem_cons_self
  · intro k hk
    obtain ⟨r, record, hr, hkey, hspent⟩ := hs.spent k hk
    refine ⟨r, record, ?_, hkey, hspent⟩
    rw [List.getElem?_append_left (List.getElem?_eq_some_iff.mp hr).1]
    exact hr

theorem coherent_createIntent {s : Session} (hs : Coherent s) (reg : BrokerRegistry)
    (args : IntentArgs) (fresh : Uuid) : Coherent (s.step reg (.createIntent args fresh)) := by
  have hrec := s.manager.prune_records
  rcases s.manager.createIntent_cases args fresh with ⟨r, hk, he⟩ | ⟨r, -, hb, he⟩ | ⟨-, -, he⟩
  · simp only [step, he]
    have hm : s.manager.prune = ⟨s.manager.records, s.manager.prune.orders⟩ := by
      rw [← hrec]
    rw [hm]
    exact coherent_cached hs ⟨_, OrderManager.get?_of_prune hk⟩
      fun k r' h => .inl (OrderManager.get?_of_prune h)
  · simp only [step, he, hrec]
    refine coherent_cached hs ⟨_, OrderManager.get?_of_prune hb⟩ fun k r' h => ?_
    rw [Dict.get?_insert] at h
    split at h
    · rename_i hk
      exact .inr ⟨hk, (Option.some.inj h).symm⟩
    · exact .inl (OrderManager.get?_of_prune h)
  · simp only [step, he]
    refine coherent_new hs args _ fun k r' h => ?_
    simp only [Dict.get?_insert] at h
    split at h
    · rename_i hk
      exact .inr ⟨.inr hk, (Option.some.inj h).symm⟩
    · split at h
      · rename_i hk
        exact .inr ⟨.inl hk, (Option.some.inj h).symm⟩
      · exact .inl (OrderManager.get?_of_prune h)

theorem coherent_step (reg : BrokerRegistry) (s : Session) (e : ManagerEvent) (hs : Coherent s) :
    Coherent (s.step reg e) := by
  cases e with
  | createIntent args fresh => exact coherent_createIntent hs reg args fresh
  | get cid accountId => exact hs
  | listForAccount accountId => exact hs
  | transition caller cid target metadata =>
    simp only [step]
    cases h : s.manager.transition cid target metadata with
    | error e => exact hs
    | ok res =>
      obtain ⟨manager, ref⟩ := res
      obtain ⟨record, t, -, hrec, ht, rfl⟩ := OrderManager.transition_ok h
      exact coherent_put hs hrec (transitionRecord_sameOrder ht) (transitionRecord_submittable ht)
  | call ref a =>
    simp only [step]
    cases hrec : s.manager.records[ref]? with
    | none => exact hs
    | some record =>
      have hput := coherent_put hs hrec (begin_sameOrder reg record a) fun h => (begin_submittable h).1
      refine ⟨hput.keyed, hput.bounded, hput.issued, hput.owned, ?_⟩
      simp only [begin_sent]
      split
      · rename_i hsub
        intro k hk
        rcases List.mem_cons.mp hk with rfl | hk
        · have hlt : ref < s.manager.records.length := (List.getElem?_eq_some_iff.mp hrec).1
          refine ⟨ref, (a.begin reg record).record, ?_, (begin_sameOrder reg record a).key, ?_⟩
          · simp [put, hlt]
          · rw [hsub.1, submitBegin_eq, if_pos hsub.2]
            exact Bool.false_ne_true
        · exact hput.spent k hk
      · exact hput.spent
  | answer i answer =>
    simp only [step]
    cases ha : s.awaiting[i]? with
    | none => exact hs
    | some w =>
      obtain ⟨ref, a⟩ := w
      simp only
      cases hrec : s.manager.records[ref]? with
      | none => exact hs
      | some record =>
        have hput := coherent_put hs hrec (finish_sameOrder { record } answer a) finish_submittable
        exact ⟨hput.keyed, hput.bounded, hput.issued, hput.owned, hput.spent⟩

/-- What the session knows about one key names one record, when it is idempotent. -/
private theorem same_record {s : Session} (hs : Coherent s) (hp : Idempotent s) {r r' : Ref}
    {record record' : OrderRecord} (h : s.manager.records[r]? = some record)
    (h' : s.manager.records[r']? = some record') (hkey : record.key = record'.key) :
    record = record' := by
  have hrr : r = r' := hp.same record.key r r' (hs.owned r record h) (hkey ▸ hs.owned r' record' h')
  subst hrr
  exact Option.some.inj (h.symm.trans h')

private theorem idempotent_issued {s : Session} (hp : Idempotent s) (reg : BrokerRegistry)
    (args : IntentArgs) (fresh : Uuid) :
    Idempotent (s.step reg (.createIntent args fresh)) ↔
      ∀ r, ((args.accountId, args.clientOrderId.getD fresh), r) ∈ s.issued →
        r = (s.manager.createIntent args fresh).2 := by
  constructor
  · intro h r hr
    exact h.same _ r _ (List.mem_cons_of_mem _ hr) List.mem_cons_self
  · intro h
    refine ⟨hp.once, ?_⟩
    intro k r r' hr hr'
    rcases List.mem_cons.mp hr with he | hr <;> rcases List.mem_cons.mp hr' with he' | hr'
    · exact (Prod.mk.inj he).2.trans (Prod.mk.inj he').2.symm
    · rw [(Prod.mk.inj he).1] at hr'
      exact (Prod.mk.inj he).2.trans (h r' hr').symm
    · rw [(Prod.mk.inj he').1] at hr
      exact (h r hr).trans (Prod.mk.inj he').2.symm
    · exact hp.same k r r' hr hr'

theorem idempotent_createIntent {s : Session} (hs : Coherent s) (hp : Idempotent s)
    (reg : BrokerRegistry) (args : IntentArgs) (fresh : Uuid) :
    Idempotent (s.step reg (.createIntent args fresh)) ↔
      s.Remembers (.createIntent args fresh) := by
  have hback : ∀ {r₀ : Ref}, s.manager.prune.orders.get?
        (.scoped args.accountId (args.clientOrderId.getD fresh)) = some r₀ →
      ∀ r, ((args.accountId, args.clientOrderId.getD fresh), r) ∈ s.issued → r = r₀ :=
    fun h r hr => hp.same _ r _ hr (hs.keyed _ _ _ (OrderManager.get?_of_prune h))
  rw [idempotent_issued hp]
  rcases s.manager.createIntent_cases args fresh with ⟨r₀, hk, he⟩ | ⟨r₀, hk, hb, he⟩ | ⟨hk, hb, he⟩
  · refine iff_of_true ?_ ?_
    · rw [he]
      exact hback hk
    · intro r hr
      exact .inl (by simp [Dict.contains, hk])
  · simp only [Remembers, he, hk, hb, Dict.contains, Option.isSome_none, Bool.false_eq_true,
      false_or, Option.some.injEq]
    exact ⟨fun h r hr => (h r hr).symm, fun h r hr => (h r hr).symm⟩
  · simp only [Remembers, he, hk, hb, Dict.contains, Option.isSome_none, Bool.false_eq_true,
      false_or, reduceCtorEq]
    -- the new record is younger than every record issued before
    exact ⟨fun h r hr => Nat.ne_of_lt (hs.issued _ r hr) (h r hr), fun h r hr => (h r hr).elim⟩

theorem idempotent_call {s : Session} (hs : Coherent s) (hp : Idempotent s)
    (reg : BrokerRegistry) (ref : Ref) (a : Awaiting) :
    Idempotent (s.step reg (.call ref a)) := by
  simp only [step]
  cases hrec : s.manager.records[ref]? with
  | none => exact hp
  | some record =>
    refine ⟨?_, hp.same⟩
    simp only [begin_sent]
    split
    · rename_i hsub
      have hnew : record.key ∉ s.submitted := by
        intro hm
        obtain ⟨r', record', hr', hkey, hspent⟩ := hs.spent _ hm
        rw [same_record hs hp hr' hrec hkey] at hspent
        exact hspent hsub.2
      exact List.nodup_cons.mpr ⟨hnew, hp.once⟩
    · exact hp.once

/-- One event keeps a session idempotent exactly when it remembers the id it uses. -/
theorem idempotent_step_iff (reg : BrokerRegistry) (s : Session) (e : ManagerEvent)
    (hs : Coherent s) (hp : Idempotent s) : Idempotent (s.step reg e) ↔ s.Remembers e := by
  cases e with
  | createIntent args fresh => exact idempotent_createIntent hs hp reg args fresh
  | get cid accountId => exact iff_of_true hp trivial
  | listForAccount accountId => exact iff_of_true hp trivial
  | transition caller cid target metadata =>
    refine iff_of_true ?_ trivial
    simp only [step]
    split
    · exact ⟨hp.once, hp.same⟩
    · exact hp
  | call ref a => exact iff_of_true (idempotent_call hs hp reg ref a) trivial
  | answer i answer =>
    refine iff_of_true ?_ trivial
    simp only [step]
    split
    · exact hp
    · split
      · exact hp
      · exact ⟨hp.once, hp.same⟩

/-- In every run and interleaving the manager stays idempotent exactly as long as
no id is used again that pruning has forgotten. -/
theorem always_idempotent_iff (reg : BrokerRegistry) (events : List ManagerEvent) :
    Always (step reg) Idempotent { } events ↔ Guarded (step reg) Remembers { } events :=
  always_iff_guarded (coherent_step reg) (idempotent_step_iff reg) coherent_start
    ⟨List.nodup_nil, fun _ _ _ h => nomatch h⟩ events

/-! ### An id that pruning forgets -/

private def order (id : Uuid) : IntentArgs where
  accountId := "a"
  symbol := "NIFTY"
  side := "BUY"
  quantity := 50
  price := some 100
  clientOrderId := some id

/-- One rejected order, then new orders up to the capacity of the cache, then the first id again. -/
private def refill : List ManagerEvent :=
  [.createIntent (order 0) 0, .call 0 .submit, .answer 0 (.result ⟨none, some .rejected, .absent, .absent⟩)] ++
    (List.range 4999).map (fun i => .createIntent (order (i + 1)) 0) ++ [.createIntent (order 0) 0]

private structure Padded (s : Session) (n : Nat) : Prop where
  entries : ∃ rest, s.manager.orders.entries =
      (.scoped "a" 0, 0) :: (.bare 0, 0) :: rest ∧ rest.length = 2 * n ∧
        ∀ e ∈ rest, ∃ id, 0 < id ∧ id ≤ n ∧ (e.1 = .scoped "a" id ∨ e.1 = .bare id)
  rejected : (s.manager.records[0]?).any fun r => OrderManager.terminal r.status
  first : (("a", 0), 0) ∈ s.issued

private theorem padded_start : Padded (run (step { }) { }
    [.createIntent (order 0) 0, .call 0 .submit,
      .answer 0 (.result ⟨none, some .rejected, .absent, .absent⟩)]) 0 where
  entries := ⟨[], rfl, rfl, by simp⟩
  rejected := rfl
  first := List.mem_cons_self

private theorem padded_lookup {s : Session} {n : Nat} (h : Padded s n) {id : Uuid} (hid : n < id) :
    s.manager.orders.get? (.scoped "a" id) = none ∧ s.manager.orders.get? (.bare id) = none := by
  obtain ⟨rest, he, -, hrest⟩ := h.entries
  have hne : ∀ i, i ≤ n → i ≠ id := fun i hi heq => Nat.not_lt.mpr hi (heq ▸ hid)
  have hkeys : ∀ k v, (k, v) ∈ s.manager.orders.entries → k ≠ .scoped "a" id ∧ k ≠ .bare id := by
    intro k v hm
    rw [he, List.mem_cons, List.mem_cons] at hm
    rcases hm with hm | hm | hm
    · cases hm
      simpa using hne 0 (Nat.zero_le n)
    · cases hm
      simpa using hne 0 (Nat.zero_le n)
    · obtain ⟨i, -, hi, hk | hk⟩ := hrest _ hm
      · cases hk
        simpa using hne i hi
      · cases hk
        simpa using hne i hi
  constructor
  · cases hg : s.manager.orders.get? (.scoped "a" id) with
    | none => rfl
    | some v => exact absurd rfl (hkeys _ _ (Dict.mem_entries_of_get? hg)).1
  · cases hg : s.manager.orders.get? (.bare id) with
    | none => rfl
    | some v => exact absurd rfl (hkeys _ _ (Dict.mem_entries_of_get? hg)).2

private theorem padded_step {s : Session} {n : Nat} (h : Padded s n) (hn : n < 4999) :
    Padded (s.step { } (.createIntent (order (n + 1)) 0)) (n + 1) := by
  obtain ⟨hs, hb⟩ := padded_lookup h (Nat.lt_succ_self n)
  obtain ⟨rest, he, hlen, hrest⟩ := h.entries
  have hprune : s.manager.prune = s.manager := by
    rw [OrderManager.prune, if_neg]
    simp only [OrderManager.maxCachedOrders, Dict.size, he, List.length_cons, hlen]
    omega
  have hnew : s.manager.createIntent (order (n + 1)) 0 =
      ({ records := s.manager.records ++ [(order (n + 1)).record (n + 1)]
         orders := (s.manager.orders.insert (.scoped "a" (n + 1)) s.manager.records.length).insert
            (.bare (n + 1)) s.manager.records.length }, s.manager.records.length) := by
    rcases s.manager.createIntent_cases (order (n + 1)) 0 with ⟨r, hk, -⟩ | ⟨r, -, hk, -⟩ | ⟨-, -, hc⟩
    · rw [hprune] at hk
      exact absurd (hs.symm.trans hk) (by simp)
    · rw [hprune] at hk
      exact absurd (hb.symm.trans hk) (by simp)
    · rw [hprune] at hc
      exact hc
  have hentries : ((s.manager.orders.insert (.scoped "a" (n + 1)) s.manager.records.length).insert
      (.bare (n + 1)) s.manager.records.length).entries =
        (s.manager.orders.entries ++ [(.scoped "a" (n + 1), s.manager.records.length)]) ++
          [(.bare (n + 1), s.manager.records.length)] := by
    rw [Dict.entries_insert, Dict.entries_insert hs]
    simp [hb]
  simp only [step, hnew]
  refine ⟨⟨rest ++ [(.scoped "a" (n + 1), s.manager.records.length),
    (.bare (n + 1), s.manager.records.length)], ?_, ?_, ?_⟩, ?_, ?_⟩
  · rw [hentries, he]
    simp
  · simp [hlen]
    omega
  · intro e hm
    rcases List.mem_append.mp hm with hm | hm
    · obtain ⟨id, h0, hi, hk⟩ := hrest e hm
      exact ⟨id, h0, Nat.le_succ_of_le hi, hk⟩
    · simp only [List.mem_cons, List.not_mem_nil, or_false] at hm
      rcases hm with rfl | rfl
      · exact ⟨n + 1, Nat.succ_pos n, Nat.le_refl _, .inl rfl⟩
      · exact ⟨n + 1, Nat.succ_pos n, Nat.le_refl _, .inr rfl⟩
  · have hr := h.rejected
    cases h0 : s.manager.records[0]? with
    | none =>
      rw [h0] at hr
      cases hr
    | some record =>
      rw [List.getElem?_append_left (List.getElem?_eq_some_iff.mp h0).1]
      exact hr
  · exact List.mem_cons_of_mem _ h.first

private theorem padded_run {s : Session} (h : Padded s 0) (n : Nat) (hn : n ≤ 4999) :
    Padded (run (step { }) s ((List.range n).map fun i => .createIntent (order (i + 1)) 0)) n := by
  induction n with
  | zero => exact h
  | succ n ih =>
    rw [List.range_succ, List.map_append, run_append]
    exact padded_step (ih (Nat.le_of_succ_le hn)) hn

/-- At capacity pruning drops both keys of the rejected order, and its id gets a second record. -/
private theorem padded_full {s : Session} (h : Padded s 4999) :
    ¬ Idempotent (s.step { } (.createIntent (order 0) 0)) := by
  obtain ⟨rest, he, hlen, hrest⟩ := h.entries
  have hterminal : s.manager.terminalKeys.take 1000 = .scoped "a" 0 :: .bare 0 ::
      ((rest.filter fun e => (s.manager.records[e.2]?).any
        fun r => OrderManager.terminal r.status).map Prod.fst).take 998 := by
    simp [OrderManager.terminalKeys, he, h.rejected]
  have hgone : ∀ k ∈ [CacheKey.scoped "a" 0, .bare 0], s.manager.prune.orders.get? k = none := by
    intro k hk
    rw [OrderManager.prune, if_pos]
    · simp only [Dict.get?_filterKeys, hterminal]
      simp only [List.mem_cons, List.not_mem_nil, or_false] at hk
      rcases hk with rfl | rfl <;> simp
    · simp only [OrderManager.maxCachedOrders, Dict.size, he, List.length_cons, hlen]
      omega
  intro hp
  rcases s.manager.createIntent_cases (order 0) 0 with ⟨r, hk, -⟩ | ⟨r, -, hk, -⟩ | ⟨-, -, hc⟩
  · exact absurd ((hgone (.scoped "a" 0) (by simp)).symm.trans hk) (by simp)
  · exact absurd ((hgone (.bare 0) (by simp)).symm.trans hk) (by simp)
  · have hsame := hp.same ("a", 0) 0 s.manager.records.length
      (List.mem_cons_of_mem _ h.first) (by simp only [step, hc]; exact List.mem_cons_self)
    have hr := h.rejected
    rw [List.eq_nil_of_length_eq_zero hsame.symm] at hr
    cases hr

/-- After a rejected order and 4999 others, the rejected order's id names a new record. -/
theorem pruned_id_reused : ¬ Always (step { }) Idempotent { } refill := by
  intro h
  have hfull := run_of_always h
  have hlast : ∀ s : Session, run (step { }) s [.createIntent (order 0) 0] =
      s.step { } (.createIntent (order 0) 0) := fun _ => rfl
  rw [refill, run_append, run_append, hlast] at hfull
  exact padded_full (padded_run padded_start 4999 (Nat.le_refl _)) hfull

end Session

end Droid.Algo
