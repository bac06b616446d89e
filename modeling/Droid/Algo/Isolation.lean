import Droid.Algo.Submission

/-! Account isolation of the order cache. -/
namespace Droid.Algo
open Lib

def ManagerEvent.caller : ManagerEvent → Option AccountId
  | .createIntent args _ => some args.accountId
  | .get _ accountId => accountId
  | .transition caller _ _ _ => some caller
  | .listForAccount accountId => some accountId
  | .call _ _ | .answer _ _ => none

def ManagerEvent.creates : ManagerEvent → Bool
  | .createIntent _ _ => true
  | _ => false

namespace Session

/-- The records a call hands back. -/
def returned (s : Session) : ManagerEvent → List Ref
  | .createIntent args fresh => [(s.manager.createIntent args fresh).2]
  | .get cid accountId => (s.manager.get cid accountId).toList
  | .transition _ cid target metadata =>
    match s.manager.transition cid target metadata with
    | .ok (_, ref) => [ref]
    | .error _ => []
  | .listForAccount accountId => s.manager.listForAccount accountId
  | .call _ _ | .answer _ _ => []

/-- A call made for account b does nothing with another account's record: it does
not return it, store it under a key of b, or change it. -/
def Isolated (reg : BrokerRegistry) (s : Session) (e : ManagerEvent) : Prop :=
  ∀ b, e.caller = some b → ∀ (r : Ref) record, s.manager.records[r]? = some record →
    record.accountId ≠ b →
      r ∉ s.returned e ∧ (s.step reg e).manager.records[r]? = some record ∧
        ∀ c, (s.step reg e).manager.orders.get? (.scoped b c) = some r →
          s.manager.orders.get? (.scoped b c) = some r

def ListedOnce (s : Session) : Prop :=
  ∀ a (r : Ref) record, s.manager.records[r]? = some record → record.accountId = a →
    (s.manager.listForAccount a).count r = 1

/-- The cached record that a client id stands for belongs to account a, unless a
has a key of its own for it. -/
def AliasOwned (m : OrderManager) (orders : Dict CacheKey Ref) (a : AccountId) (c : Uuid) : Prop :=
  orders.get? (.scoped a c) = none → ∀ r record, orders.get? (.bare c) = some r →
    m.records[r]? = some record → record.accountId = a

def OwnId (s : Session) : ManagerEvent → Prop
  | .createIntent args fresh => AliasOwned s.manager s.manager.prune.orders args.accountId
      (args.clientOrderId.getD fresh)
  | .get cid (some a) => AliasOwned s.manager s.manager.orders a cid
  | .transition caller cid target _ => ∀ r record, s.manager.lookup cid = some r →
      s.manager.records[r]? = some record → record.accountId = caller ∨
        (record.status ≠ target ∧ target ∉ allowedTransitions record.status)
  | _ => True

/-- Scoped keys hold the account's own records. -/
def KeysOwned (s : Session) : Prop :=
  ∀ a c r record, s.manager.orders.get? (.scoped a c) = some r →
    s.manager.records[r]? = some record → record.accountId = a

theorem isolated_createIntent {s : Session} (ho : KeysOwned s) (reg : BrokerRegistry)
    (args : IntentArgs) (fresh : Uuid) :
    Isolated reg s (.createIntent args fresh) ↔ OwnId s (.createIntent args fresh) := by
  rcases s.manager.createIntent_cases args fresh with ⟨r₀, hk, he⟩ | ⟨r₀, hk, hb, he⟩ | ⟨hk, hb, he⟩
  · refine iff_of_true ?_ ?_
    · intro b hb r record hr hne
      cases hb
      simp only [returned, step, he, List.mem_singleton, OrderManager.prune_records]
      refine ⟨?_, hr, fun c h => OrderManager.get?_of_prune h⟩
      rintro rfl
      exact hne (ho _ _ _ _ (OrderManager.get?_of_prune hk) hr)
    · intro hn
      rw [hn] at hk
      cases hk
  · constructor
    · intro h _ r record hr hrec
      by_contra hne
      have hmem := (h args.accountId rfl r record hrec hne).1
      rw [hb] at hr
      cases hr
      simp [returned, he] at hmem
    · intro h b hb' r record hr hne
      cases hb'
      have hne₀ : r ≠ r₀ := by
        rintro rfl
        exact hne (h hk r record hb hr)
      simp only [returned, step, he, List.mem_singleton, OrderManager.prune_records]
      refine ⟨hne₀, hr, ?_⟩
      intro c hc
      rw [Dict.get?_insert] at hc
      split at hc
      · exact absurd (Option.some.inj hc).symm hne₀
      · exact OrderManager.get?_of_prune hc
  · refine iff_of_true ?_ ?_
    · intro b hb' r record hr hne
      cases hb'
      have hlt : r < s.manager.records.length := (List.getElem?_eq_some_iff.mp hr).1
      have hne₀ : r ≠ s.manager.records.length := Nat.ne_of_lt hlt
      simp only [returned, step, he, List.mem_singleton]
      refine ⟨hne₀, ?_, ?_⟩
      · rw [List.getElem?_append_left hlt]
        exact hr
      · intro c hc
        simp only [Dict.get?_insert, reduceCtorEq, if_false] at hc
        split at hc
        · exact absurd (Option.some.inj hc).symm hne₀
        · exact OrderManager.get?_of_prune hc
    · intro _ r record hr
      rw [hb] at hr
      cases hr

theorem isolated_get {s : Session} (ho : KeysOwned s) (reg : BrokerRegistry) (cid : Uuid)
    (accountId : Option AccountId) :
    Isolated reg s (.get cid accountId) ↔ OwnId s (.get cid accountId) := by
  cases accountId with
  | none => exact iff_of_true (fun b hb => nomatch hb) trivial
  | some a =>
    constructor
    · intro h hk r record hr hrec
      by_contra hne
      have hmem := (h a rfl r record hrec hne).1
      simp [returned, OrderManager.get, OrderManager.find, hk, hr] at hmem
    · intro h b hb r record hrec hne
      cases hb
      refine ⟨?_, hrec, fun c hc => hc⟩
      simp only [returned, OrderManager.get, OrderManager.find, Option.mem_toList]
      cases hk : s.manager.orders.get? (.scoped a cid) with
      | some r₀ =>
        rintro ⟨⟩
        exact hne (ho a cid r record hk hrec)
      | none =>
        intro hr
        exact hne (h hk r record (by simpa using hr) hrec)

theorem isolated_transition (reg : BrokerRegistry) (s : Session) (caller : AccountId) (cid : Uuid)
    (target : OrderStatus) (metadata : Option TransitionMetadata) :
    Isolated reg s (.transition caller cid target metadata) ↔
      OwnId s (.transition caller cid target metadata) := by
  cases h : s.manager.transition cid target metadata with
  | error e =>
    refine iff_of_true ?_ ?_
    · intro b hb r record hr hne
      simp [returned, step, h, hr]
    · intro r record hl hr
      refine .inr ?_
      simp only [OrderManager.transition, hl, hr] at h
      by_contra hmoves
      obtain ⟨t, ht⟩ := transitionRecord_defined metadata (not_and_or.mp hmoves)
      rw [ht] at h
      cases h
  | ok res =>
    obtain ⟨manager, ref⟩ := res
    obtain ⟨record₀, t, hl, hr₀, ht, rfl⟩ := OrderManager.transition_ok h
    constructor
    · intro hiso r record hl' hr
      rw [hl] at hl'
      cases hl'
      by_contra hne
      have hmem := (hiso caller rfl ref record hr fun heq => hne (.inl heq)).1
      simp [returned, h] at hmem
    · intro hown b hb r record hr hne
      cases hb
      have hne₀ : r ≠ ref := by
        rintro rfl
        rcases hown r record hl hr with heq | ⟨hs, hin⟩
        · exact hne heq
        · cases hr₀.symm.trans hr
          simp [transitionRecord, hs, hin] at ht
      simp only [returned, step, h, List.mem_singleton]
      refine ⟨hne₀, ?_, fun c hc => hc⟩
      rw [List.getElem?_set_ne (Ne.symm hne₀)]
      exact hr

/-- A call is isolated exactly when it meets no other account's order under its client id. -/
theorem isolated_iff {s : Session} (ho : KeysOwned s) (reg : BrokerRegistry)
    (e : ManagerEvent) : Isolated reg s e ↔ OwnId s e := by
  cases e with
  | createIntent args fresh => exact isolated_createIntent ho reg args fresh
  | get cid accountId => exact isolated_get ho reg cid accountId
  | transition caller cid target metadata => exact isolated_transition reg s caller cid target metadata
  | listForAccount accountId =>
    refine iff_of_true ?_ trivial
    intro b hb r record hr hne
    cases hb
    refine ⟨?_, hr, fun c h => h⟩
    simp [returned, OrderManager.listForAccount, hr, hne]
  | call ref a => exact iff_of_true (fun b hb => nomatch hb) trivial
  | answer i answer => exact iff_of_true (fun b hb => nomatch hb) trivial

private theorem keysOwned_put {s : Session} (ho : KeysOwned s) {ref : Ref} {record : OrderRecord}
    {t : Traced} (hrec : s.manager.records[ref]? = some record) (hsame : record.SameOrder t.record) :
    KeysOwned (s.put ref t) := by
  intro a c r record' hk hr
  have hlt : ref < s.manager.records.length := (List.getElem?_eq_some_iff.mp hrec).1
  by_cases hr' : r = ref
  · subst hr'
    simp only [put, List.getElem?_set_self hlt, Option.some.injEq] at hr
    rw [← hr, hsame.accountId]
    exact ho a c r record hk hrec
  · simp only [put, List.getElem?_set_ne (Ne.symm hr')] at hr
    exact ho a c r record' hk hr

private theorem keysOwned_createIntent {s : Session} (hs : Coherent s) (ho : KeysOwned s)
    (reg : BrokerRegistry) (args : IntentArgs) (fresh : Uuid)
    (hown : OwnId s (.createIntent args fresh)) : KeysOwned (s.step reg (.createIntent args fresh)) := by
  intro a c r record hk hr
  rcases s.manager.createIntent_cases args fresh with ⟨r₀, -, he⟩ | ⟨r₀, hnone, hb, he⟩ | ⟨-, -, he⟩
  · simp only [step, he, OrderManager.prune_records] at hk hr
    exact ho a c r record (OrderManager.get?_of_prune hk) hr
  · simp only [step, he, OrderManager.prune_records] at hk hr
    rw [Dict.get?_insert] at hk
    split at hk
    · rename_i heq
      cases heq
      cases hk
      exact hown hnone r record hb hr
    · exact ho a c r record (OrderManager.get?_of_prune hk) hr
  · simp only [step, he] at hk hr
    simp only [Dict.get?_insert, reduceCtorEq, if_false] at hk
    split at hk
    · rename_i heq
      cases heq
      cases hk
      rw [List.getElem?_concat_length] at hr
      cases hr
      rfl
    · have hlt := hs.bounded _ _ (OrderManager.get?_of_prune hk)
      rw [List.getElem?_append_left hlt] at hr
      exact ho a c r record (OrderManager.get?_of_prune hk) hr

theorem keysOwned_step {s : Session} (hs : Coherent s) (ho : KeysOwned s) (reg : BrokerRegistry)
    (e : ManagerEvent) (hown : OwnId s e) : KeysOwned (s.step reg e) := by
  cases e with
  | createIntent args fresh => exact keysOwned_createIntent hs ho reg args fresh hown
  | get cid accountId => exact ho
  | listForAccount accountId => exact ho
  | transition caller cid target metadata =>
    simp only [step]
    cases h : s.manager.transition cid target metadata with
    | error e => exact ho
    | ok res =>
      obtain ⟨manager, ref⟩ := res
      obtain ⟨record, t, -, hrec, ht, rfl⟩ := OrderManager.transition_ok h
      exact keysOwned_put ho hrec (transitionRecord_sameOrder ht)
  | call ref a =>
    simp only [step]
    cases hrec : s.manager.records[ref]? with
    | none => exact ho
    | some record => exact keysOwned_put ho hrec (begin_sameOrder reg record a)
  | answer i answer =>
    simp only [step]
    cases ha : s.awaiting[i]? with
    | none => exact ho
    | some w =>
      simp only
      cases hrec : s.manager.records[w.1]? with
      | none => exact ho
      | some record => exact keysOwned_put ho hrec (finish_sameOrder { record } answer w.2)

/-- Isolation holds along a run exactly when no call meets another account's order. -/
theorem guarded_isolated_iff (reg : BrokerRegistry) (events : List ManagerEvent) :
    Guarded (step reg) (Isolated reg) { } events ↔ Guarded (step reg) OwnId { } events := by
  refine guarded_congr (I := fun s => Coherent s ∧ KeysOwned s) ?_ ?_ ?_ events
  · rintro s e ⟨hs, ho⟩ hiso
    exact ⟨coherent_step reg s e hs, keysOwned_step hs ho reg e ((isolated_iff ho reg e).mp hiso)⟩
  · rintro s e ⟨-, ho⟩
    exact isolated_iff ho reg e
  · exact ⟨coherent_start, fun a c r record h => nomatch h⟩

/-! ### Listing -/

/-- The first order ever created is stored under two keys, and listed once for each. -/
theorem first_listed_twice {s : Session} (hs : Coherent s) (hempty : s.manager.records = [])
    (reg : BrokerRegistry) (args : IntentArgs) (fresh : Uuid) :
    ¬ ListedOnce (s.step reg (.createIntent args fresh)) := by
  have hnone : ∀ k, s.manager.prune.orders.get? k = none := by
    intro k
    cases hk : s.manager.prune.orders.get? k with
    | none => rfl
    | some r =>
      have hlt := hs.bounded k r (OrderManager.get?_of_prune hk)
      rw [hempty] at hlt
      exact absurd hlt (Nat.not_lt_zero r)
  intro h
  rcases s.manager.createIntent_cases args fresh with ⟨r₀, hk, -⟩ | ⟨r₀, -, hb, -⟩ | ⟨hk, hb, he⟩
  · exact absurd ((hnone _).symm.trans hk) (by simp)
  · exact absurd ((hnone _).symm.trans hb) (by simp)
  · have hbare : (s.manager.prune.orders.insert
        (.scoped args.accountId (args.clientOrderId.getD fresh)) 0).get?
          (.bare (args.clientOrderId.getD fresh)) = none := by
      simp [hb]
    have hone := h args.accountId 0 (args.record (args.clientOrderId.getD fresh))
      (by simp [step, he, hempty]) rfl
    simp only [step, he, hempty, OrderManager.listForAccount, Dict.values, List.length_nil,
      List.nil_append] at hone
    rw [List.count_filter (by simp [IntentArgs.record]), Dict.entries_insert hbare,
      Dict.entries_insert hk] at hone
    simp at hone

private theorem empty_step {s : Session} (hempty : s.manager.records = []) (reg : BrokerRegistry)
    {e : ManagerEvent} (he : ¬ e.creates) : (s.step reg e).manager.records = [] := by
  have hnone : ∀ r : Ref, s.manager.records[r]? = none := by simp [hempty]
  cases e with
  | createIntent args fresh => exact absurd rfl he
  | get cid accountId => exact hempty
  | listForAccount accountId => exact hempty
  | transition caller cid target metadata =>
    simp only [step]
    cases h : s.manager.transition cid target metadata with
    | error e => exact hempty
    | ok res =>
      obtain ⟨manager, ref⟩ := res
      obtain ⟨record, t, -, hr, -, -⟩ := OrderManager.transition_ok h
      exact absurd ((hnone _).symm.trans hr) (by simp)
  | call ref a => simpa only [step, hnone] using hempty
  | answer i answer =>
    simp only [step, hnone]
    split <;> exact hempty

/-- Before any order exists, the whole property holds along a run exactly when
the run creates none. -/
private theorem listed_iff (reg : BrokerRegistry) (events : List ManagerEvent) {s : Session}
    (hs : Coherent s) (hempty : s.manager.records = []) :
    (Guarded (step reg) (Isolated reg) s events ∧ Always (step reg) ListedOnce s events) ↔
      ∀ e ∈ events, ¬ e.creates := by
  have hnone : ∀ r : Ref, s.manager.records[r]? = none := by simp [hempty]
  have hlisted : ListedOnce s := fun a r record hr => nomatch (hnone r).symm.trans hr
  induction events generalizing s with
  | nil => simpa [Guarded, Always] using hlisted
  | cons e es ih =>
    rw [List.forall_mem_cons]
    by_cases he : e.creates
    · refine iff_of_false ?_ fun h => h.1 he
      rintro ⟨-, -, ht⟩
      cases e with
      | createIntent args fresh => exact first_listed_twice hs hempty reg args fresh (Always.head ht)
      | get cid accountId => cases he
      | listForAccount accountId => cases he
      | transition caller cid target metadata => cases he
      | call ref a => cases he
      | answer i answer => cases he
    · have hnext := empty_step hempty reg he
      have hnone' : ∀ r : Ref, (s.step reg e).manager.records[r]? = none := by simp [hnext]
      have htail := ih (coherent_step reg s e hs) hnext hnone'
        fun a r record hr => nomatch (hnone' r).symm.trans hr
      have hiso : Isolated reg s e := fun b _ r record hr => nomatch (hnone r).symm.trans hr
      constructor
      · rintro ⟨⟨-, hg⟩, -, ht⟩
        exact ⟨he, htail.mp ⟨hg, ht⟩⟩
      · rintro ⟨-, h⟩
        obtain ⟨hg, ht⟩ := htail.mpr h
        exact ⟨⟨hiso, hg⟩, hlisted, ht⟩

/-- Isolation and single listing hold together along a run exactly when the run
creates no order; isolation alone, exactly when no call meets another account's
order under its client id. -/
theorem account_isolation_iff (reg : BrokerRegistry) (events : List ManagerEvent) :
    ((Guarded (step reg) (Isolated reg) { } events ∧ Always (step reg) ListedOnce { } events) ↔
      ∀ e ∈ events, ¬ e.creates) ∧
    (Guarded (step reg) (Isolated reg) { } events ↔ Guarded (step reg) OwnId { } events) :=
  ⟨listed_iff reg events coherent_start rfl, guarded_isolated_iff reg events⟩

/-- Two accounts that use one client id share a record. -/
theorem shared_client_id :
    ¬ Guarded (step { }) (Isolated { }) { }
      [.createIntent ⟨"a", "NIFTY", "BUY", 50, some 100, "LIMIT", none, none, none, true, some 1⟩ 0,
        .createIntent ⟨"b", "NIFTY", "SELL", 75, some 90, "LIMIT", none, none, none, true, some 1⟩ 0] := by
  intro h
  have hmem := (h.2.1 "b" rfl 0 _ rfl (by decide)).1
  exact hmem (by decide)

end Session

end Droid.Algo
