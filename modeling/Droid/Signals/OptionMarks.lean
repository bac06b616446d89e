import Droid.Lib.Rounding
import Droid.Lib.Upgrade
import Droid.Signals.LiveContractCache
import Mathlib.Data.Prod.Lex

/-! Marks of option contracts: their gates, the registry that keeps one for each symbol, and the mark of a record. -/
namespace Droid.Signals
open Lib

def CHAIN_BIDASK : String := "CHAIN_BIDASK"
def CHAIN_LTP : String := "CHAIN_LTP"
def MODEL_BLACK76 : String := "MODEL_BLACK76"
def UNAVAILABLE : String := "UNAVAILABLE"

def DEFAULT_TTL_MS : Int := 5000
def CHAIN_TTL_MS : Int := 90000
def MAX_SPREAD_PCT : ℚ := 5 / 2
def SCALP_MAX_AGE_MS : Int := 15000
def INTRADAY_MAX_AGE_MS : Int := 60000
def MIN_OI_CONTRACTS : ℚ := 1000
def STALE_IV_DTE_DAYS : ℚ := 1

def sourceRank (source : String) : Nat :=
  if Text.upper source = CHAIN_BIDASK then 3
  else if Text.upper source = CHAIN_LTP then 2
  else if Text.upper source = MODEL_BLACK76 then 1
  else 0

def isChainSource (source : String) : Bool := decide (Text.upper source ∈ [CHAIN_BIDASK, CHAIN_LTP])

/-- The fields of a mark that its accessors, the registry and the gates read. -/
structure OptionMark where
  brokerSymbol : String
  bid : Option ℚ := none
  ask : Option ℚ := none
  ltp : Option ℚ := none
  oi : Option ℚ := none
  volume : Option ℚ := none
  source : String := UNAVAILABLE
  asOfUtc : Int
  note : String := ""
  deriving DecidableEq, Repr

/-- The days of the first `dte=` of a note, where a number stands after it. -/
def dteText : List Char → Option (List Char)
  | [] => none
  | c :: rest =>
    let run := ((c :: rest).drop 4).takeWhile fun d => d.isDigit || d == '.'
    if "dte=".toList <+: c :: rest ∧ run ≠ [] then some run else dteText rest

/-- `float` of digits and points. -/
def floatOf (run : List Char) : Option ℚ :=
  let whole := run.takeWhile (· ≠ '.')
  let frac := (run.drop whole.length).drop 1
  if '.' ∈ frac ∨ whole ++ frac = [] then none
  else some (((whole ++ frac).foldl (fun n d => 10 * n + (d.toNat - '0'.toNat)) 0 : Nat) / 10 ^ frac.length)

namespace OptionMark

/-- Both sides of the book, where both are real. -/
def book (m : OptionMark) : Option (ℚ × ℚ) :=
  match m.bid, m.ask with
  | some bid, some ask => if 0 < bid ∧ 0 < ask ∧ bid ≤ ask then some (bid, ask) else none
  | _, _ => none

def mid (m : OptionMark) : Option ℚ := m.book.map fun book => roundTo 2 ((book.1 + book.2) / 2)

def price (m : OptionMark) : Option ℚ :=
  match m.mid.filter (0 < ·) with
  | some mid => some mid
  | none => (m.ltp.filter (0 < ·)).map (roundTo 2)

def spreadPts (m : OptionMark) : Option ℚ := m.book.map fun book => roundTo 2 (book.2 - book.1)

def spreadPct (m : OptionMark) : Option ℚ :=
  match m.spreadPts, m.price with
  | some sp, some px => if px ≤ 0 then none else some (roundTo 2 (sp / px * 100))
  | _, _ => none

def isChain (m : OptionMark) : Bool := isChainSource m.source

def isModel (m : OptionMark) : Bool := decide (Text.upper m.source = MODEL_BLACK76)

def isStaleIv (m : OptionMark) : Bool :=
  m.isModel && (Text.hasText m.note "STALE_IV" ||
    (((dteText m.note.toList).bind floatOf).any fun dte => decide (dte ≤ STALE_IV_DTE_DAYS)))

def isUsable (m : OptionMark) : Bool := decide (Text.upper m.source ≠ UNAVAILABLE) && m.price.isSome

def ageMs (m : OptionMark) (now : Int) : Int := max 0 (now - m.asOfUtc)

def ttlMs (m : OptionMark) : Int := if m.isChain then CHAIN_TTL_MS else DEFAULT_TTL_MS

/-- Why a mark may not be used. -/
inductive Veto where
  | wideSpread (pct : ℚ)
  | lowOi (oi : ℚ)
  | badVolume
  | staleIv
  deriving DecidableEq, Repr

def usabilityVeto (m : OptionMark) : Option Veto :=
  match m.spreadPct.filter (MAX_SPREAD_PCT < ·) with
  | some sp => some (.wideSpread sp)
  | none =>
    match m.oi.filter (· < MIN_OI_CONTRACTS) with
    | some oi => some (.lowOi oi)
    | none =>
      if m.volume.any (· < 0) then some .badVolume else if m.isStaleIv then some .staleIv else none

end OptionMark

abbrev OptionMarkRegistry := Dict String OptionMark

/-- What a caller of `get_usable` may ask for. -/
structure Gates where
  ttlMs : Option Int := none
  allowModel : Bool := true
  desk : Option String := none
  maxSpreadPct : Option ℚ := some MAX_SPREAD_PCT
  minOi : Option ℚ := none
  minVolume : Option ℚ := none

namespace OptionMarkRegistry

def put (registry : OptionMarkRegistry) (mark : Option OptionMark) : OptionMarkRegistry × Bool :=
  match mark with
  | none => (registry, false)
  | some mark =>
    if mark.brokerSymbol = "" then (registry, false)
    else
      let sym := Text.strip mark.brokerSymbol
      let stored := (registry.insert sym { mark with brokerSymbol := sym }, true)
      match registry.get? sym with
      | none => stored
      | some cur =>
        let newRank := sourceRank mark.source
        let curRank := sourceRank cur.source
        if newRank < curRank then (registry, false)
        else if newRank = curRank ∧ mark.asOfUtc < cur.asOfUtc then (registry, false)
        else stored

def get (registry : OptionMarkRegistry) (brokerSymbol : String) : Option OptionMark :=
  if brokerSymbol = "" then none else registry.get? (Text.strip brokerSymbol)

/-- The age that a desk allows. -/
def effectiveTtl (gates : Gates) (mark : OptionMark) : Int :=
  let ttl := gates.ttlMs.getD mark.ttlMs
  let desk := Text.upper (gates.desk.getD "")
  if desk = "SCALP" then min ttl (gates.ttlMs.getD SCALP_MAX_AGE_MS)
  else if desk ∈ ["INTRADAY", "SWING", "POSITIONAL"] then min ttl (gates.ttlMs.getD INTRADAY_MAX_AGE_MS)
  else ttl

def getUsable (registry : OptionMarkRegistry) (now : Int) (brokerSymbol : String) (gates : Gates := {}) :
    Option OptionMark :=
  match registry.get brokerSymbol with
  | none => none
  | some mark =>
    if !mark.isUsable then none
    else if !gates.allowModel && mark.isModel then none
    else if effectiveTtl gates mark < mark.ageMs now then none
    else if gates.maxSpreadPct.any (fun limit => mark.spreadPct.any (limit < ·)) then none
    else if gates.minOi.any (fun limit => mark.oi.any (· < limit)) then none
    else if gates.minVolume.any (fun limit => mark.volume.any (· < limit)) then none
    else if mark.isStaleIv then none
    else match mark.usabilityVeto with
      | some (.wideSpread _) => none
      | some .staleIv => none
      | _ => some mark

end OptionMarkRegistry

/-! ### The service -/

def rowMark (now : Int) (info : LiveStrikeInfo) : OptionMark where
  brokerSymbol := Text.strip info.brokerSymbol
  bid := if info.bid = 0 then none else some info.bid
  ask := if info.ask = 0 then none else some info.ask
  ltp := if info.ltp = 0 then none else some info.ltp
  source := if info.bid ≠ 0 ∧ info.ask ≠ 0 then CHAIN_BIDASK else CHAIN_LTP
  asOfUtc := if info.fetchedAtMs = 0 then now else info.fetchedAtMs
  note := "options-chain-v3"

/-- The mark that `register_chain_strike` makes of a row with a symbol and a price. -/
def chainMark (now : Int) (info : LiveStrikeInfo) : Option OptionMark :=
  if Text.strip info.brokerSymbol = "" then none
  else if (rowMark now info).price = none then none
  else some (rowMark now info)

def registerChainStrike (registry : OptionMarkRegistry) (now : Int) (info : LiveStrikeInfo) :
    OptionMarkRegistry × Option OptionMark :=
  match chainMark now info with
  | none => (registry, none)
  | some mark => ((registry.put (some mark)).1, some mark)

def unavailable (now : Int) (brokerSymbol reason : String) : OptionMark where
  brokerSymbol := brokerSymbol
  source := UNAVAILABLE
  asOfUtc := now
  note := if reason = "" then "no chain quote and no model inputs" else reason

/-- The fields of an audit record that its mark is resolved from. The expiry is the date that its text names. -/
structure MarkRecord where
  optionSymbol : String := ""
  underlying : String := ""
  optionStrike : ℚ := 0
  optionType : String := ""
  expiry : Option Int := none
  spotPriceAtCreation : ℚ := 0

def recordSymbol (cache : LiveContractCache) (now : Int) (record : MarkRecord) : String :=
  let sym := Text.strip record.optionSymbol
  if sym ≠ "" then sym
  else
    let strike := truncated record.optionStrike
    let otype := Text.upper record.optionType
    match record.expiry with
    | none => sym
    | some expDate =>
      if 0 < strike ∧ otype ∈ ["CE", "PE"] then
        ((cache.lookup now (Text.upper record.underlying) expDate strike otype).map (·.brokerSymbol)).getD sym
      else sym

/-- The end of `mark_for_record`: the model, with the function that prices an option from its terms, or nothing. -/
def modelForRecord (registry : OptionMarkRegistry) (now : Int) (modelMark : String → ℚ → MarkRecord → OptionMark)
    (sym : String) (record : MarkRecord) (spot : Option ℚ) (allowModel registerModel : Bool) :
    OptionMarkRegistry × OptionMark :=
  if !allowModel then (registry, unavailable now sym "no fresh chain mark (model disallowed)")
  else
    let refSpot := if spot.getD 0 = 0 then record.spotPriceAtCreation else spot.getD 0
    -- the note of the source goes on with the three inputs
    if record.optionStrike ≤ 0 ∨ record.optionType = "" ∨ refSpot ≤ 0 then
      (registry, unavailable now sym "chain miss and model inputs incomplete")
    else
      let mark := modelMark sym refSpot record
      (if registerModel && mark.isUsable then (registry.put (some mark)).1 else registry, mark)

def markForRecord (registry : OptionMarkRegistry) (cache : LiveContractCache) (now : Int)
    (modelMark : String → ℚ → MarkRecord → OptionMark) (record : MarkRecord) (spot : Option ℚ := none)
    (allowModel : Bool := true) (registerModel : Bool := false) : OptionMarkRegistry × OptionMark :=
  let sym := recordSymbol cache now record
  if sym = "" then (registry, unavailable now "" "record has no option_symbol")
  else
    match registry.getUsable now sym { allowModel := false } with
    | some chain => (registry, chain)
    | none =>
      match cache.findBySymbol now sym with
      | none => modelForRecord registry now modelMark sym record spot allowModel registerModel
      | some info =>
        let registered := registerChainStrike registry now info
        match registered.2.filter OptionMark.isUsable with
        | some mark => (registered.1, mark)
        | none => modelForRecord registered.1 now modelMark sym record spot allowModel registerModel

end Droid.Signals
