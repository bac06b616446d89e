import Droid.Lib.Dict
import Droid.Lib.Run
import Droid.Lib.Text

/-! Event ingestion: the schedule syncs of the four source adapters and manual creations, with the
deduplication that they ask. Times are in microseconds. -/
namespace Droid.Events.Ingestion
open Lib Text

inductive EventType where
  | MACRO | CENTRAL_BANK | COMPANY | EARNINGS | CORPORATE_ACTION | REGULATORY | POLICY | GLOBAL
  | GEOPOLITICAL | SECTOR | OTHER
  deriving DecidableEq, Repr

def EventType.text : EventType → String
  | .MACRO => "MACRO"
  | .CENTRAL_BANK => "CENTRAL_BANK"
  | .COMPANY => "COMPANY"
  | .EARNINGS => "EARNINGS"
  | .CORPORATE_ACTION => "CORPORATE_ACTION"
  | .REGULATORY => "REGULATORY"
  | .POLICY => "POLICY"
  | .GLOBAL => "GLOBAL"
  | .GEOPOLITICAL => "GEOPOLITICAL"
  | .SECTOR => "SECTOR"
  | .OTHER => "OTHER"

/-- A raw item of a feed; a key that is missing is none. -/
structure FeedItem where
  source : Option String := none
  entity : Option String := none
  entityName : Option String := none
  title : String
  eventDate : String
  timeIst : Option String := none
  url : Option String := none
  subType : Option String := none
  sector : Option String := none
  deriving DecidableEq, Repr

inductive Payload where
  | item (i : FeedItem)
  | notes (text : Option String)
  deriving DecidableEq, Repr

structure RawSourceEvent where
  sourceName : String
  sourceType : String
  sourceUrl : Option String
  rawPayload : Payload
  isVerified : Bool
  deriving DecidableEq, Repr

structure CanonicalEvent (P : Type) where
  canonicalEventId : String
  title : String
  eventType : EventType
  subType : Option String
  entityId : String
  entityName : String
  sector : String
  eventTimestamp : Int
  sources : List RawSourceEvent := []
  latestPrediction : Option P := none
  deriving DecidableEq

/-- The manual creation of an event; `eventDate` is its timestamp as `%Y%m%d`. -/
structure EventCreate where
  canonicalEventId : Option String := none
  title : String
  eventType : EventType := .CENTRAL_BANK
  subType : Option String := some "MONETARY_POLICY_COMMITTEE"
  entityId : String := "RBI"
  entityName : String := "Reserve Bank of India"
  sector : String := "BANKING"
  eventTimestamp : Int
  eventDate : String
  isVerified : Bool := true
  sourceName : String := "MANUAL_OPS"
  sourceUrl : Option String := none
  notes : Option String := none
  deriving DecidableEq, Repr

inductive Adapter where
  | RBI | NSE | BSE | SEBI
  deriving DecidableEq, Repr

inductive DeduplicationMatch where
  | EXACT_DUPLICATE | PROBABLE_DUPLICATE | POSSIBLE_MATCH | UNRELATED
  deriving DecidableEq, Repr

/-- What the services around give: the similarity of two titles, the reading of a date and a time, and
the prediction for a candidate at a time. -/
structure Services (P : Type) where
  similarity : String → String → ℚ
  isDate : String → Bool
  timestamp : String → String → Int
  predict : CanonicalEvent P → Int → P

namespace Adapter

def sourceName : Adapter → String
  | .RBI => "RBI_OFFICIAL"
  | .NSE => "NSE_OFFICIAL"
  | .BSE => "BSE_OFFICIAL"
  | .SEBI => "SEBI_OFFICIAL"

def sourceType : Adapter → String
  | .RBI => "OFFICIAL"
  | .NSE | .BSE => "EXCHANGE"
  | .SEBI => "REGULATOR"

def defaultUrl : Adapter → String
  | .RBI => "https://www.rbi.org.in"
  | .NSE => "https://www.nseindia.com"
  | .BSE => "https://www.bseindia.com"
  | .SEBI => "https://www.sebi.gov.in"

def normalize (a : Adapter) (i : FeedItem) : RawSourceEvent where
  sourceName := a.sourceName
  sourceType := a.sourceType
  sourceUrl := some (i.url.getD a.defaultUrl)
  rawPayload := .item i
  isVerified := true

def validate (isDate : String → Bool) (i : FeedItem) : Adapter → Bool
  | .RBI => decide (5 ≤ (strip i.title).length) && i.eventDate != "" && isDate i.eventDate
  | .NSE => i.entity.getD "" != "" && i.eventDate != ""
  | .BSE => i.entity.getD "" != ""
  | .SEBI => i.title != "" && i.eventDate != ""

def cleanDate (date : String) : String := String.ofList (date.toList.filter (· ≠ '-'))

/-- Blanks become underscores; what is no capital, digit or underscore is dropped. -/
def cleanSubType (subType : String) : String :=
  let underscored := (upper subType).toList.map fun c => if c = ' ' then '_' else c
  String.ofList (underscored.filter fun c => c.isUpper || c.isDigit || c == '_')

def identify (i : FeedItem) : Adapter → String
  | .RBI => "RBI_" ++ cleanSubType (i.subType.getD "MPC") ++ "_" ++ cleanDate i.eventDate
  | .NSE | .BSE =>
    upper (i.entity.getD "CORP") ++ "_" ++ upper (i.subType.getD "ANNOUNCEMENT") ++ "_" ++ cleanDate i.eventDate
  | .SEBI => "SEBI_CIRCULAR_" ++ cleanDate i.eventDate

def ofCorporate (i : FeedItem) : Adapter := if i.source = some "NSE_OFFICIAL" then .NSE else .BSE

end Adapter

def ENTITY_ALIASES : List (String × String) :=
  [("RESERVE BANK OF INDIA", "RBI"), ("RESERVE BANK", "RBI"), ("CENTRAL BANK OF INDIA", "CENTRAL_BANK_IN"),
    ("SECURITIES AND EXCHANGE BOARD OF INDIA", "SEBI"), ("NATIONAL STOCK EXCHANGE", "NSE"),
    ("BOMBAY STOCK EXCHANGE", "BSE"), ("MINISTRY OF FINANCE", "MOF_INDIA")]

def normalizeEntity (rawEntity : String) : String :=
  let kept := (upper rawEntity).toList.filter fun c => c.isUpper || c.isDigit || isSpace c
  let cleaned := strip (String.ofList kept)
  (ENTITY_ALIASES.lookup cleaned).getD cleaned

section
variable {P : Type} (env : Services P)

def classifyMatch (candidate existing : CanonicalEvent P) : DeduplicationMatch :=
  if candidate.canonicalEventId = existing.canonicalEventId then .EXACT_DUPLICATE
  else if normalizeEntity candidate.entityId ≠ normalizeEntity existing.entityId then .UNRELATED
  else
    let deltaHours : ℚ := (|candidate.eventTimestamp - existing.eventTimestamp| : ℚ) / 3600000000
    let similarity := env.similarity candidate.title existing.title
    let isSameType := candidate.eventType = existing.eventType
    let isSameSubType := candidate.subType.getD "" ≠ "" ∧ candidate.subType = existing.subType
    if isSameType ∧ ((isSameSubType ∧ deltaHours ≤ 12) ∨ (85 / 100 ≤ similarity ∧ deltaHours ≤ 6)) then
      .EXACT_DUPLICATE
    else if isSameType ∧ deltaHours ≤ 24 ∧ (60 / 100 ≤ similarity ∨ isSameSubType) then .PROBABLE_DUPLICATE
    else if deltaHours ≤ 168 ∧ (40 / 100 ≤ similarity ∨ isSameSubType) then .POSSIBLE_MATCH
    else .UNRELATED

def isDuplicate (candidate existing : CanonicalEvent P) : Bool :=
  match classifyMatch env candidate existing with
  | .EXACT_DUPLICATE | .PROBABLE_DUPLICATE => true
  | .POSSIBLE_MATCH | .UNRELATED => false

/-- The event that a sync makes of an item, before it is stored. -/
def candidate (i : FeedItem) : Adapter → CanonicalEvent P
  | .RBI =>
    { canonicalEventId := Adapter.RBI.identify i
      title := i.title
      eventType := .CENTRAL_BANK
      subType := some (i.subType.getD "MONETARY_POLICY_RATE_DECISION")
      entityId := "RBI"
      entityName := "Reserve Bank of India"
      sector := "BANKING"
      eventTimestamp := env.timestamp i.eventDate (i.timeIst.getD "10:00:00") }
  | .SEBI =>
    { canonicalEventId := Adapter.SEBI.identify i
      title := i.title
      eventType := .REGULATORY
      subType := some (i.subType.getD "REGULATORY_PRUDENTIAL_NORMS")
      entityId := "SEBI"
      entityName := "Securities and Exchange Board of India"
      sector := i.sector.getD "DERIVATIVES_MARKET"
      eventTimestamp := env.timestamp i.eventDate (i.timeIst.getD "18:00:00") }
  | a =>
    { canonicalEventId := a.identify i
      title := i.title
      eventType := .COMPANY
      subType := some (i.subType.getD "EARNINGS_BOARD_MEETING")
      entityId := i.entity.getD "CORP"
      entityName := i.entityName.getD (i.entity.getD "Company")
      sector := i.sector.getD "BANKING"
      eventTimestamp := env.timestamp i.eventDate (i.timeIst.getD "14:00:00") }

/-- The events by their ids, in the order in which they were stored. -/
abbrev Store (P : Type) := Dict String (CanonicalEvent P)

def matchedExisting (s : Store P) (a : Adapter) (i : FeedItem) : Option (String × CanonicalEvent P) :=
  s.entries.find? fun e => isDuplicate env (candidate env i a) e.2

def discovered (a : Adapter) (now : Int) (i : FeedItem) : CanonicalEvent P :=
  let event := { candidate env i a with sources := [a.normalize i] }
  { event with latestPrediction := some (env.predict event now) }

def merge (s : Store P) (a : Adapter) (now : Int) (i : FeedItem) : Store P :=
  match matchedExisting env s a i with
  | some (k, existing) =>
    if existing.sources.any fun source => source.sourceName == (a.normalize i).sourceName then s
    else s.insert k { existing with sources := existing.sources ++ [a.normalize i] }
  | none => s.insert (a.identify i) (discovered env a now i)

def circular (s : Store P) (i : FeedItem) : Store P :=
  let id := Adapter.SEBI.identify i
  if s.contains id then s
  else s.insert id { candidate env i .SEBI with sources := [Adapter.SEBI.normalize i] }

/-- `or`: an empty id counts as none. -/
def EventCreate.id (c : EventCreate) : String :=
  match c.canonicalEventId with
  | some id => if id = "" then c.entityId ++ "_" ++ c.eventType.text ++ "_" ++ c.eventDate else id
  | none => c.entityId ++ "_" ++ c.eventType.text ++ "_" ++ c.eventDate

def EventCreate.rawSource (c : EventCreate) : RawSourceEvent where
  sourceName := c.sourceName
  sourceType := "MANUAL"
  sourceUrl := c.sourceUrl
  rawPayload := .notes c.notes
  isVerified := c.isVerified

def manualEvent (now : Int) (c : EventCreate) : CanonicalEvent P :=
  let event : CanonicalEvent P :=
    { canonicalEventId := c.id, title := c.title, eventType := c.eventType, subType := c.subType
      entityId := c.entityId, entityName := c.entityName, sector := c.sector
      eventTimestamp := c.eventTimestamp, sources := [c.rawSource] }
  { event with latestPrediction := some (env.predict event now) }

/-- The event is stored under its id, whatever is stored there. -/
def createManualEvent (s : Store P) (now : Int) (c : EventCreate) : Store P :=
  s.insert c.id (manualEvent env now c)

/-- One turn of a sync's loop, or a manual creation. -/
inductive Entry where
  | rbi (now : Int) (i : FeedItem)
  | corporate (now : Int) (i : FeedItem)
  | sebi (i : FeedItem)
  | manual (now : Int) (c : EventCreate)

def ingest (s : Store P) : Entry → Store P
  | .rbi now i => if Adapter.RBI.validate env.isDate i then merge env s .RBI now i else s
  | .corporate now i =>
    let adapter := Adapter.ofCorporate i
    if adapter.validate env.isDate i then merge env s adapter now i else s
  | .sebi i => if Adapter.SEBI.validate env.isDate i then circular env s i else s
  | .manual now c => createManualEvent env s now c

/-- A call of the service; each holds its lock to the end. -/
inductive Call where
  | syncRbi (now : Int) (feed : List FeedItem)
  | syncCorporate (now : Int) (feed : List FeedItem)
  | syncSebi (feed : List FeedItem)
  | createManualEvent (now : Int) (c : EventCreate)

def Call.entries : Call → List Entry
  | .syncRbi now feed => feed.map (.rbi now)
  | .syncCorporate now feed => feed.map (.corporate now)
  | .syncSebi feed => feed.map .sebi
  | .createManualEvent now c => [.manual now c]

def step (s : Store P) (call : Call) : Store P := run (ingest env) s call.entries

end
end Droid.Events.Ingestion
