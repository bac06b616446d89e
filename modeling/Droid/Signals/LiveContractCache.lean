import Droid.Lib.Dict
import Droid.Lib.Run
import Droid.Lib.Text
import Droid.Signals.FsmManager

/-! The cache of live contracts: three ways to write a row, and two ways to read one. -/
namespace Droid.Signals
open Lib
open SignalFsmManager (istDay)

def REFRESH_INTERVAL_MS : Int := 60000

def CHAIN_ROW_MAX_AGE_MS : Int := 300000

structure LiveStrikeInfo where
  brokerSymbol : String
  underlying : String
  expiryDate : Int
  strike : Int
  optionType : String
  bid : ℚ := 0
  ask : ℚ := 0
  ltp : ℚ := 0
  fetchedAtMs : Int
  deriving DecidableEq, Repr

namespace LiveStrikeInfo

/-- Both sides are positive and uncrossed. -/
def spreadHealthy (info : LiveStrikeInfo) : Bool := decide (0 < info.bid ∧ 0 < info.ask ∧ info.bid ≤ info.ask)

def ageMs (info : LiveStrikeInfo) (now : Int) : Int := max 0 (now - info.fetchedAtMs)

def Crossed (info : LiveStrikeInfo) : Prop := info.bid ≠ 0 ∧ info.ask ≠ 0 ∧ info.ask < info.bid

def Priced (info : LiveStrikeInfo) : Prop := info.spreadHealthy = true ∨ 0 < info.ltp

instance (info : LiveStrikeInfo) : Decidable info.Crossed := inferInstanceAs (Decidable (_ ∧ _ ∧ _))

instance (info : LiveStrikeInfo) : Decidable info.Priced := inferInstanceAs (Decidable (_ ∨ _))

end LiveStrikeInfo

/-- The fields of a key. A date is a number of days. -/
structure ContractKey where
  underlying : String
  expiry : Int
  strike : Int
  optionType : String
  deriving DecidableEq, Repr

def contractKey (underlying : String) (expiry strike : Int) (optionType : String) : ContractKey where
  underlying := Text.upper underlying
  expiry := expiry
  strike := strike
  optionType := Text.upper optionType

def LiveStrikeInfo.contract (info : LiveStrikeInfo) : ContractKey where
  underlying := info.underlying
  expiry := info.expiryDate
  strike := info.strike
  optionType := info.optionType

/-- A key of the map. A file may also have keys that are no key of a contract. -/
inductive CacheKey where
  | contract (key : ContractKey)
  | text (key : String)
  deriving DecidableEq, Repr

abbrev LiveContractCache := Dict CacheKey LiveStrikeInfo

/-- A row of an option chain, as far as it is read. -/
structure ChainQuote where
  contractId : String
  expiry : Option Int
  strike : Option ℚ
  optionType : String
  bid : Option ℚ := none
  ask : Option ℚ := none
  ltp : Option ℚ := none
  deriving DecidableEq, Repr

def truncated (x : ℚ) : Int := if 0 ≤ x then ⌊x⌋ else ⌈x⌉

namespace LiveContractCache

/-! ### Writes -/

def chainRow (underlying : String) (now : Int) (q : ChainQuote) : Option (CacheKey × LiveStrikeInfo) :=
  let sym := Text.strip q.contractId
  if sym = "" ∨ ¬ ':' ∈ sym.toList ∨ "_OPT".toList <:+ sym.toList then none
  else match q.expiry with
    | none => none
    | some expDate =>
      let strike := truncated (q.strike.getD 0)
      let otype := Text.upper q.optionType
      if strike ≤ 0 ∨ otype ∉ ["CE", "PE"] then none
      else
        some (.contract (contractKey underlying expDate strike otype),
          { brokerSymbol := sym
            underlying := underlying
            expiryDate := expDate
            strike := strike
            optionType := otype
            bid := q.bid.getD 0
            ask := q.ask.getD 0
            ltp := q.ltp.getD 0
            fetchedAtMs := now })

structure MarkInfo where
  underlying : String
  expiry : Int
  strike : Int
  optionType : String
  bid : ℚ
  ask : ℚ
  ltp : ℚ
  brokerSymbol : String
  deriving DecidableEq, Repr

def markRow (now : Int) (m : MarkInfo) : Option (CacheKey × LiveStrikeInfo) :=
  let sym := Text.strip m.brokerSymbol
  let otype := Text.upper m.optionType
  if sym = "" ∨ m.strike ≤ 0 ∨ otype ∉ ["CE", "PE"] then none
  else
    some (.contract (contractKey m.underlying m.expiry m.strike otype),
      { brokerSymbol := sym
        underlying := Text.upper m.underlying
        expiryDate := m.expiry
        strike := m.strike
        optionType := otype
        bid := m.bid
        ask := m.ask
        ltp := m.ltp
        fetchedAtMs := now })

def write (cache : LiveContractCache) : Option (CacheKey × LiveStrikeInfo) → LiveContractCache
  | none => cache
  | some (key, info) => cache.insert key info

def registerMarkInfo (cache : LiveContractCache) (now : Int) (m : MarkInfo) : LiveContractCache :=
  cache.write (markRow now m)

/-- The rows of a file that parse, each under its own key. -/
def restore (cache : LiveContractCache) (strikes : List (CacheKey × LiveStrikeInfo)) : LiveContractCache :=
  strikes.foldl (fun cache entry => cache.write (some entry)) cache

/-- Whether `purge_expired` drops a row. -/
def dropped (now : Int) (info : LiveStrikeInfo) : Bool :=
  let today := istDay now
  let expired := decide (info.expiryDate < today)
  let otherDay := decide (istDay info.fetchedAtMs ≠ today)
  let old := decide (REFRESH_INTERVAL_MS < now - info.fetchedAtMs)
  (expired && (otherDay || old)) || (otherDay && old)

def purgeExpired (cache : LiveContractCache) (now : Int) : LiveContractCache :=
  cache.filterKeys fun key => !(cache.get? key).any (dropped now)

/-- The chain of an underlying, with the time at which it was received. -/
structure ChainFetch where
  underlying : String
  now : Int
  chain : List ChainQuote

/-- `refresh`, over the chains that were fetched, with the time of the purge at its end. -/
def refresh (cache : LiveContractCache) (fetches : List ChainFetch) (purgeNow : Int) : LiveContractCache :=
  (fetches.foldl (fun cache fetch =>
    fetch.chain.foldl (fun cache q => cache.write (chainRow fetch.underlying fetch.now q)) cache) cache).purgeExpired
    purgeNow

/-! ### Reads -/

def lookup (cache : LiveContractCache) (now : Int) (underlying : String) (expiry strike : Int) (optionType : String)
    (maxAgeMs : Int := CHAIN_ROW_MAX_AGE_MS) (allowStale : Bool := false) : Option LiveStrikeInfo :=
  match cache.get? (.contract (contractKey underlying expiry strike optionType)) with
  | none => none
  | some info =>
    if istDay info.fetchedAtMs ≠ istDay now then none
    else if allowStale = false ∧ maxAgeMs < info.ageMs now then none
    else if info.brokerSymbol = "" ∨ "_OPT".toList <:+ info.brokerSymbol.toList then none
    else if allowStale = false ∧ (info.Crossed ∨ ¬ info.Priced) then none
    else some info

def findBySymbol (cache : LiveContractCache) (now : Int) (brokerSymbol : String)
    (maxAgeMs : Int := CHAIN_ROW_MAX_AGE_MS) (allowStale : Bool := false) : Option LiveStrikeInfo :=
  let target := Text.strip brokerSymbol
  if target = "" then none
  else match cache.values.find? fun info => decide (info.brokerSymbol = target) with
    | none => none
    | some info =>
      if istDay info.fetchedAtMs ≠ istDay now then none
      else if allowStale = false ∧ maxAgeMs < info.ageMs now then none
      else if allowStale = false ∧ info.Crossed then none
      else some info

/-! ### Runs -/

/-- A step of a run. Other threads read between the rows of a refresh, and of a restore. -/
inductive Event where
  | row (underlying : String) (now : Int) (q : ChainQuote)
  | register (now : Int) (m : MarkInfo)
  | restored (key : CacheKey) (info : LiveStrikeInfo)
  | purge (now : Int)

def Event.written : Event → Option (CacheKey × LiveStrikeInfo)
  | .row underlying now q => chainRow underlying now q
  | .register now m => markRow now m
  | .restored key info => some (key, info)
  | .purge _ => none

def step (cache : LiveContractCache) : Event → LiveContractCache
  | .purge now => cache.purgeExpired now
  | event => cache.write event.written

def refreshEvents (fetches : List ChainFetch) (purgeNow : Int) : List Event :=
  (fetches.flatMap fun fetch => fetch.chain.map (.row fetch.underlying fetch.now)) ++ [.purge purgeNow]

theorem run_refresh (cache : LiveContractCache) (fetches : List ChainFetch) (purgeNow : Int) :
    run step cache (refreshEvents fetches purgeNow) = cache.refresh fetches purgeNow := by
  rw [refreshEvents, run_append, refresh]
  have hrows : run step cache (fetches.flatMap fun fetch => fetch.chain.map (.row fetch.underlying fetch.now)) =
      fetches.foldl (fun cache fetch =>
        fetch.chain.foldl (fun cache q => cache.write (chainRow fetch.underlying fetch.now q)) cache) cache := by
    induction fetches generalizing cache with
    | nil => rfl
    | cons fetch fetches ih =>
      rw [List.flatMap_cons, run_append, ih, List.foldl_cons, run, List.foldl_map]
      rfl
  rw [hrows]
  rfl

theorem run_restore (cache : LiveContractCache) (strikes : List (CacheKey × LiveStrikeInfo)) :
    run step cache (strikes.map fun entry => .restored entry.1 entry.2) = cache.restore strikes := by
  rw [run, List.foldl_map]
  rfl

end LiveContractCache
end Droid.Signals
