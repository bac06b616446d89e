import Droid.Signals.LiveContractCache

/-! The two reads of the cache of live contracts, over its runs. -/
namespace Droid.Signals.LiveContractCache
open Lib
open SignalFsmManager (istDay)

/-- The two reads agree, and serve no dead contract. -/
structure ReadsAgree (cache : LiveContractCache) (now maxAgeMs : Int) : Prop where
  agree : ∀ s info, cache.findBySymbol now s maxAgeMs = some info ↔
    ∃ underlying expiry strike optionType, cache.lookup now underlying expiry strike optionType maxAgeMs = some info ∧
      Text.strip info.brokerSymbol = Text.strip s
  keyed : ∀ underlying expiry strike optionType info,
    cache.lookup now underlying expiry strike optionType maxAgeMs = some info →
      info.contract = contractKey underlying expiry strike optionType
  live : ∀ info, (∃ s, cache.findBySymbol now s maxAgeMs = some info) ∨
      (∃ underlying expiry strike optionType,
        cache.lookup now underlying expiry strike optionType maxAgeMs = some info) →
    istDay info.fetchedAtMs = istDay now ∧ info.ageMs now ≤ maxAgeMs ∧ ¬ info.Crossed ∧ info.Priced ∧
      istDay now ≤ info.expiryDate

/-- A row under the key of its own contract, with a symbol that trades, a price, and an expiry that has not passed
when it is fetched. -/
structure Clean (key : CacheKey) (info : LiveStrikeInfo) : Prop where
  keyed : key = .contract info.contract
  upper : info.contract = contractKey info.underlying info.expiryDate info.strike info.optionType
  stripped : Text.strip info.brokerSymbol = info.brokerSymbol
  named : info.brokerSymbol ≠ ""
  trades : ¬ "_OPT".toList <:+ info.brokerSymbol.toList
  priced : info.Priced
  unexpired : istDay info.fetchedAtMs ≤ info.expiryDate

/-- A row that a read can come upon, by its symbol or by its key. -/
def Found (key : CacheKey) (info : LiveStrikeInfo) : Prop :=
  info.brokerSymbol ≠ "" ∧
    (Text.strip info.brokerSymbol = info.brokerSymbol ∨
      (∃ underlying expiry strike optionType, key = .contract (contractKey underlying expiry strike optionType)) ∧
        ¬ "_OPT".toList <:+ info.brokerSymbol.toList ∧ info.Priced)

/-- A row that a step writes is clean, unless it is crossed or no read can come upon it. -/
def WritesClean (event : Event) : Prop :=
  ∀ key info, event.written = some (key, info) → ¬ info.Crossed → Found key info → Clean key info

/-- No other contract of the cache has the symbol of a row that a step writes. -/
def Unshared (cache : LiveContractCache) (event : Event) : Prop :=
  ∀ key info, event.written = some (key, info) →
    ∀ other otherInfo, cache.get? other = some otherInfo → otherInfo.brokerSymbol = info.brokerSymbol → other = key

/-! ### What is written -/

/-- A chain writes its rows under their own keys, with symbols that trade. -/
theorem chainRow_clean_iff {underlying : String} {now : Int} {q : ChainQuote} {key : CacheKey} {info : LiveStrikeInfo}
    (hupper : Text.upper underlying = underlying) (h : chainRow underlying now q = some (key, info)) :
    Clean key info ↔ info.Priced ∧ istDay now ≤ info.expiryDate := by
  unfold chainRow at h
  dsimp only at h
  split at h
  · cases h
  rename_i hsym
  simp only [not_or, not_not] at hsym
  split at h
  · cases h
  split at h
  · cases h
  cases h
  constructor
  · exact fun hclean => ⟨hclean.priced, hclean.unexpired⟩
  · rintro ⟨hpriced, hexpiry⟩
    exact
      { keyed := by simp [contractKey, LiveStrikeInfo.contract, hupper]
        upper := by simp [contractKey, LiveStrikeInfo.contract, hupper]
        stripped := Text.strip_strip _
        named := hsym.1
        trades := hsym.2.2
        priced := hpriced
        unexpired := hexpiry }

/-! ### What is read -/

/-- A row that a read may serve at a time. -/
structure Readable (info : LiveStrikeInfo) (now maxAgeMs : Int) : Prop where
  today : istDay info.fetchedAtMs = istDay now
  fresh : info.ageMs now ≤ maxAgeMs
  uncrossed : ¬ info.Crossed

theorem lookup_eq_some_iff {cache : LiveContractCache} {now expiry strike maxAgeMs : Int} {underlying optionType : String}
    {info : LiveStrikeInfo} :
    cache.lookup now underlying expiry strike optionType maxAgeMs = some info ↔
      cache.get? (.contract (contractKey underlying expiry strike optionType)) = some info ∧
        Readable info now maxAgeMs ∧ info.brokerSymbol ≠ "" ∧ ¬ "_OPT".toList <:+ info.brokerSymbol.toList ∧
          info.Priced := by
  unfold lookup
  cases hget : cache.get? (.contract (contractKey underlying expiry strike optionType)) with
  | none => simp
  | some found =>
    dsimp only
    constructor
    · intro h
      split_ifs at h with hday hage hsym hbook
      cases h
      rw [not_not] at hday
      simp only [true_and, not_lt] at hage
      simp only [not_or, true_and, not_not] at hsym hbook
      exact ⟨rfl, ⟨hday, hage, hbook.1⟩, hsym.1, hsym.2, hbook.2⟩
    · rintro ⟨hsome, hread, hnamed, htrades, hpriced⟩
      cases hsome
      rw [if_neg (not_not.mpr hread.today), if_neg fun h => h.2.not_ge hread.fresh, if_neg (not_or.mpr ⟨hnamed, htrades⟩),
        if_neg fun h => h.2.elim hread.uncrossed (fun hunpriced => hunpriced hpriced)]

theorem findBySymbol_eq_some_iff {cache : LiveContractCache} {now maxAgeMs : Int} {s : String} {info : LiveStrikeInfo} :
    cache.findBySymbol now s maxAgeMs = some info ↔
      Text.strip s ≠ "" ∧ (cache.values.find? fun info => decide (info.brokerSymbol = Text.strip s)) = some info ∧
        Readable info now maxAgeMs := by
  unfold findBySymbol
  dsimp only
  by_cases htarget : Text.strip s = ""
  · simp [htarget]
  rw [if_neg htarget]
  cases hfind : cache.values.find? fun info => decide (info.brokerSymbol = Text.strip s) with
  | none => simp
  | some found =>
    dsimp only
    constructor
    · intro h
      split_ifs at h with hday hage hbook
      cases h
      rw [not_not] at hday
      simp only [true_and, not_lt] at hage hbook
      exact ⟨htarget, rfl, hday, hage, hbook⟩
    · rintro ⟨-, hsome, hread⟩
      cases hsome
      rw [if_neg (not_not.mpr hread.today), if_neg fun h => h.2.not_ge hread.fresh, if_neg fun h => hread.uncrossed h.2]

/-! ### Sound caches -/

/-- Every row that a read may serve is clean, and no two contracts have one symbol. -/
structure Sound (cache : LiveContractCache) : Prop where
  clean : ∀ key info, cache.get? key = some info → ¬ info.Crossed → Found key info → Clean key info
  sole : ∀ key info other otherInfo, cache.get? key = some info → cache.get? other = some otherInfo →
    otherInfo.brokerSymbol = info.brokerSymbol → other = key

theorem lookup_of_clean {cache : LiveContractCache} {key : CacheKey} {info : LiveStrikeInfo} (hclean : Clean key info)
    (hget : cache.get? key = some info) {now maxAgeMs : Int} (hread : Readable info now maxAgeMs) :
    cache.lookup now info.underlying info.expiryDate info.strike info.optionType maxAgeMs = some info := by
  rw [lookup_eq_some_iff, ← hclean.upper, ← hclean.keyed]
  exact ⟨hget, hread, hclean.named, hclean.trades, hclean.priced⟩

theorem found_of_lookup {cache : LiveContractCache} {now expiry strike maxAgeMs : Int} {underlying optionType : String}
    {info : LiveStrikeInfo} (h : cache.lookup now underlying expiry strike optionType maxAgeMs = some info) :
    cache.get? (.contract (contractKey underlying expiry strike optionType)) = some info ∧
      Readable info now maxAgeMs ∧ Found (.contract (contractKey underlying expiry strike optionType)) info := by
  obtain ⟨hget, hread, hnamed, htrades, hpriced⟩ := lookup_eq_some_iff.mp h
  exact ⟨hget, hread, hnamed, Or.inr ⟨⟨_, _, _, _, rfl⟩, htrades, hpriced⟩⟩

theorem found_of_findBySymbol {cache : LiveContractCache} {now maxAgeMs : Int} {s : String} {info : LiveStrikeInfo}
    (h : cache.findBySymbol now s maxAgeMs = some info) :
    ∃ key, cache.get? key = some info ∧ Readable info now maxAgeMs ∧ Found key info ∧
      info.brokerSymbol = Text.strip s := by
  obtain ⟨hnamed, hscan, hread⟩ := findBySymbol_eq_some_iff.mp h
  obtain ⟨key, hget⟩ := (Dict.mem_values_iff cache info).mp (List.mem_of_find?_eq_some hscan)
  have hsym : info.brokerSymbol = Text.strip s := by simpa using List.find?_some hscan
  refine ⟨key, hget, hread, ⟨?_, Or.inl ?_⟩, hsym⟩
  · rwa [hsym]
  · rw [hsym, Text.strip_strip]

theorem findBySymbol_of_sole {cache : LiveContractCache} {key : CacheKey} {info : LiveStrikeInfo} {s : String}
    (hget : cache.get? key = some info) (hsym : info.brokerSymbol = Text.strip s) (hnamed : info.brokerSymbol ≠ "")
    (hsole : ∀ other otherInfo, cache.get? other = some otherInfo → otherInfo.brokerSymbol = info.brokerSymbol →
      other = key) {now maxAgeMs : Int} (hread : Readable info now maxAgeMs) :
    cache.findBySymbol now s maxAgeMs = some info := by
  refine findBySymbol_eq_some_iff.mpr ⟨hsym ▸ hnamed, ?_, hread⟩
  apply Dict.find?_values_of_sole hget (decide_eq_true hsym)
  intro other otherInfo hother hsame
  exact hsole other otherInfo hother ((of_decide_eq_true hsame).trans hsym.symm)

theorem Sound.readsAgree {cache : LiveContractCache} (h : cache.Sound) (now maxAgeMs : Int) :
    cache.ReadsAgree now maxAgeMs := by
  have hlive : ∀ key info, cache.get? key = some info → Readable info now maxAgeMs → Found key info →
      istDay info.fetchedAtMs = istDay now ∧ info.ageMs now ≤ maxAgeMs ∧ ¬ info.Crossed ∧ info.Priced ∧
        istDay now ≤ info.expiryDate := by
    intro key info hget hread hfound
    have hclean := h.clean key info hget hread.uncrossed hfound
    have hexpiry := hclean.unexpired
    rw [hread.today] at hexpiry
    exact ⟨hread.today, hread.fresh, hread.uncrossed, hclean.priced, hexpiry⟩
  constructor
  · intro s info
    constructor
    · intro hfind
      obtain ⟨key, hget, hread, hfound, hsym⟩ := found_of_findBySymbol hfind
      refine ⟨_, _, _, _, lookup_of_clean (h.clean key info hget hread.uncrossed hfound) hget hread, ?_⟩
      rw [hsym, Text.strip_strip]
    · rintro ⟨underlying, expiry, strike, optionType, hlookup, hsym⟩
      obtain ⟨hget, hread, hfound⟩ := found_of_lookup hlookup
      have hclean := h.clean _ info hget hread.uncrossed hfound
      rw [hclean.stripped] at hsym
      exact findBySymbol_of_sole hget hsym hclean.named (fun other otherInfo => h.sole _ _ other otherInfo hget) hread
  · intro underlying expiry strike optionType info hlookup
    obtain ⟨hget, hread, hfound⟩ := found_of_lookup hlookup
    have hkeyed := (h.clean _ info hget hread.uncrossed hfound).keyed
    injection hkeyed with hkey
    exact hkey.symm
  · rintro info (⟨s, hfind⟩ | ⟨underlying, expiry, strike, optionType, hlookup⟩)
    · obtain ⟨key, hget, hread, hfound, -⟩ := found_of_findBySymbol hfind
      exact hlive key info hget hread hfound
    · obtain ⟨hget, hread, hfound⟩ := found_of_lookup hlookup
      exact hlive _ info hget hread hfound

theorem clean_of_readsAgree {cache : LiveContractCache} {key : CacheKey} {info : LiveStrikeInfo}
    (hget : cache.get? key = some info)
    (hsole : ∀ other otherInfo, cache.get? other = some otherInfo → otherInfo.brokerSymbol = info.brokerSymbol →
      other = key) (huncrossed : ¬ info.Crossed) (hfound : Found key info)
    (h : cache.ReadsAgree info.fetchedAtMs 0) : Clean key info := by
  have hread : Readable info info.fetchedAtMs 0 := ⟨rfl, by simp [LiveStrikeInfo.ageMs], huncrossed⟩
  -- by symbol or by key, both reads come upon it
  have hsearch : cache.findBySymbol info.fetchedAtMs info.brokerSymbol 0 = some info := by
    rcases hfound.2 with hstripped | ⟨⟨underlying, expiry, strike, optionType, rfl⟩, htrades, hpriced⟩
    · exact findBySymbol_of_sole hget hstripped.symm hfound.1 hsole hread
    · exact (h.agree info.brokerSymbol info).mpr
        ⟨underlying, expiry, strike, optionType,
          lookup_eq_some_iff.mpr ⟨hget, hread, hfound.1, htrades, hpriced⟩, rfl⟩
  obtain ⟨underlying, expiry, strike, optionType, hlookup, -⟩ := (h.agree _ _).mp hsearch
  obtain ⟨-, -, -, -, hsym⟩ := found_of_findBySymbol hsearch
  obtain ⟨hother, -, -, htrades, hpriced⟩ := lookup_eq_some_iff.mp hlookup
  have hkey := hsole _ info hother rfl
  have hcontract := h.keyed _ _ _ _ info hlookup
  have hexpiry := (h.live info (Or.inl ⟨_, hsearch⟩)).2.2.2.2
  refine ⟨?_, ?_, hsym.symm, hfound.1, htrades, hpriced, hexpiry⟩
  · rw [← hkey, hcontract]
  · obtain ⟨hunderlying, hdate, hstrike, htype⟩ := ContractKey.mk.inj hcontract
    rw [hcontract, contractKey, contractKey, hunderlying, hdate, hstrike, htype, Text.upper_upper, Text.upper_upper]

theorem sound_empty : Sound Dict.empty := by
  constructor
  · intro key info hget
    cases hget
  · intro key info other otherInfo hget
    cases hget

theorem Sound.insert {cache : LiveContractCache} (h : cache.Sound) {key : CacheKey} {info : LiveStrikeInfo}
    (hclean : ¬ info.Crossed → Found key info → Clean key info)
    (hsole : ∀ other otherInfo, cache.get? other = some otherInfo → otherInfo.brokerSymbol = info.brokerSymbol →
      other = key) : Sound (cache.insert key info) := by
  constructor
  · intro k i hget huncrossed
    rw [Dict.get?_insert] at hget
    split at hget
    · rename_i hk
      cases hget
      rw [hk]
      exact hclean huncrossed
    · exact h.clean k i hget huncrossed
  · intro k i other o hget hother hsame
    rw [Dict.get?_insert] at hget hother
    split at hget
    · rename_i hk
      cases hget
      split at hother
      · rename_i ho
        rw [hk, ho]
      · rw [hk]
        exact hsole other o hother hsame
    · rename_i hk
      split at hother
      · rename_i ho
        cases hother
        exact absurd (hsole k i hget hsame.symm) hk
      · exact h.sole k i other o hget hother hsame

theorem Sound.filterKeys {cache : LiveContractCache} (h : cache.Sound) (kept : CacheKey → Bool) :
    Sound (cache.filterKeys kept) := by
  have hstays : ∀ key info, (cache.filterKeys kept).get? key = some info → cache.get? key = some info := by
    intro key info hget
    rw [Dict.get?_filterKeys] at hget
    split at hget
    · exact hget
    · cases hget
  constructor
  · exact fun key info hget => h.clean key info (hstays key info hget)
  · exact fun key info other otherInfo hget hother =>
      h.sole key info other otherInfo (hstays key info hget) (hstays other otherInfo hother)

theorem Sound.write {cache : LiveContractCache} (h : cache.Sound) {event : Event} (hclean : WritesClean event)
    (hunshared : Unshared cache event) : Sound (cache.write event.written) := by
  cases hwritten : event.written with
  | none => exact h
  | some entry => exact h.insert (hclean entry.1 entry.2 hwritten) (hunshared entry.1 entry.2 hwritten)

theorem Sound.step {cache : LiveContractCache} (h : cache.Sound) {event : Event} (hclean : WritesClean event)
    (hunshared : Unshared cache event) : Sound (cache.step event) := by
  cases event with
  | row underlying now q => exact h.write hclean hunshared
  | register now m => exact h.write hclean hunshared
  | restored key info => exact h.write hclean hunshared
  | purge now =>
    rw [LiveContractCache.step, purgeExpired]
    exact h.filterKeys _

theorem step_of_written (cache : LiveContractCache) {event : Event} {key : CacheKey} {info : LiveStrikeInfo}
    (h : event.written = some (key, info)) : cache.step event = cache.insert key info := by
  have hwrite : cache.write event.written = cache.insert key info := by
    rw [h]
    rfl
  cases event with
  | row underlying now q => exact hwrite
  | register now m => exact hwrite
  | restored k i => exact hwrite
  | purge now => cases h

theorem readsAgree_step_iff {cache : LiveContractCache} (h : cache.Sound) {event : Event}
    (hunshared : Unshared cache event) :
    (∀ now maxAgeMs, (cache.step event).ReadsAgree now maxAgeMs) ↔ WritesClean event := by
  constructor
  · intro hagree key info hwritten huncrossed hfound
    have hstep := step_of_written cache hwritten
    have hget : (cache.step event).get? key = some info := by
      rw [hstep, Dict.get?_insert, if_pos rfl]
    apply clean_of_readsAgree hget _ huncrossed hfound (hagree info.fetchedAtMs 0)
    intro other otherInfo hother hsame
    rw [hstep, Dict.get?_insert] at hother
    split at hother
    · assumption
    · exact hunshared key info hwritten other otherInfo hother hsame
  · exact fun hclean now maxAgeMs => (h.step hclean hunshared).readsAgree now maxAgeMs

/-- The law of the reads, in all states of a run. -/
def AlwaysAgree (events : List Event) : Prop :=
  Always step (fun cache => ∀ now maxAgeMs, cache.ReadsAgree now maxAgeMs) Dict.empty events

theorem writesClean_of_always {cache : LiveContractCache} (hsound : cache.Sound) {events : List Event}
    (hunshared : Guarded step Unshared cache events)
    (h : Always step (fun cache => ∀ now maxAgeMs, cache.ReadsAgree now maxAgeMs) cache events) :
    ∀ event ∈ events, WritesClean event := by
  induction events generalizing cache with
  | nil => exact fun event hevent => absurd hevent List.not_mem_nil
  | cons first events ih =>
    have hfirst := (readsAgree_step_iff hsound hunshared.1).mp (Always.head h.2)
    exact List.forall_mem_cons.mpr ⟨hfirst, ih (hsound.step hfirst hunshared.1) hunshared.2 h.2⟩

/-- Runs that write clean rows only, no two contracts with one symbol, keep the reads in agreement; and where no two
contracts have one symbol, only those do. -/
theorem alwaysAgree_of_clean (events : List Event) :
    (Guarded step (fun cache event => WritesClean event ∧ Unshared cache event) Dict.empty events →
      AlwaysAgree events) ∧
    (Guarded step Unshared Dict.empty events → AlwaysAgree events → ∀ event ∈ events, WritesClean event) := by
  constructor
  · intro h
    exact Always.mono (fun _ hsound => hsound.readsAgree)
      (always_of_guarded (fun _ _ hsound hguard => hsound.step hguard.1 hguard.2) sound_empty h)
  · exact writesClean_of_always sound_empty

def bareQuote : ChainQuote where
  contractId := "NSE:NIFTY2592325000CE"
  expiry := some 20354
  strike := some 25000
  optionType := "CE"

def bookedQuote : ChainQuote := { bareQuote with bid := some 100, ask := some 101 }

def dayBefore : Int := 20353 * 86400000 + 23400000

def bareRow : LiveStrikeInfo where
  brokerSymbol := "NSE:NIFTY2592325000CE"
  underlying := "NIFTY"
  expiryDate := 20354
  strike := 25000
  optionType := "CE"
  fetchedAtMs := dayBefore

theorem unshared_bareQuote : Guarded step Unshared Dict.empty [.row "NIFTY" dayBefore bareQuote] := by
  refine ⟨?_, trivial⟩
  intro key info _ other otherInfo hother
  cases hother

/-- The search by symbol serves the quote without a price, and no lookup does. -/
theorem bareQuote_served :
    Guarded step Unshared Dict.empty [.row "NIFTY" dayBefore bareQuote] ∧
      ¬ AlwaysAgree [.row "NIFTY" dayBefore bareQuote] := by
  refine ⟨unshared_bareQuote, ?_⟩
  intro h
  have hagree := (Always.head h.2) dayBefore CHAIN_ROW_MAX_AGE_MS
  obtain ⟨info, hfind, hunpriced⟩ : ∃ info,
      (step Dict.empty (.row "NIFTY" dayBefore bareQuote)).findBySymbol dayBefore "NSE:NIFTY2592325000CE"
        CHAIN_ROW_MAX_AGE_MS = some info ∧ ¬ info.Priced :=
    ⟨bareRow, by decide +kernel, by decide +kernel⟩
  exact hunpriced (hagree.live info (Or.inl ⟨_, hfind⟩)).2.2.2.1

/-- With a book, the reads agree. -/
theorem bookedQuote_agrees : AlwaysAgree [.row "NIFTY" dayBefore bookedQuote] := by
  apply (alwaysAgree_of_clean [.row "NIFTY" dayBefore bookedQuote]).1
  refine ⟨⟨?_, ?_⟩, trivial⟩
  · intro key info hwritten _ _
    have hupper : Text.upper "NIFTY" = "NIFTY" := by decide +kernel
    have hrow : Event.written (.row "NIFTY" dayBefore bookedQuote) =
        some (.contract bareRow.contract, { bareRow with bid := 100, ask := 101 }) := by decide +kernel
    rw [chainRow_clean_iff hupper hwritten]
    rw [hrow] at hwritten
    cases hwritten
    decide +kernel
  · intro key info _ other otherInfo hother
    cases hother

end Droid.Signals.LiveContractCache
