import Droid.Lib.Dict
import Mathlib.Data.Rat.Defs
import Mathlib.Algebra.Order.Ring.Rat

/-! The reconciliation engine: internal rows against the broker's, by looked-up keys. -/
namespace Droid.Algo.Reconcile
open Lib

/-- A key of a row dictionary: `none` is an absent key, `some none` one that holds `None`. -/
abbrev Field (α : Type) := Option (Option α)

/-- `row.get(key, default)`. -/
def Field.read {α : Type} (f : Field α) (default : Option α) : Option α := Option.getD f default

inductive Ident where
  | str (text : String)
  | int (n : Int)
  deriving DecidableEq, Repr

def Ident.truthy : Ident → Bool
  | .str text => decide (text ≠ "")
  | .int n => decide (n ≠ 0)

def Ident.text : Ident → String
  | .str text => text
  | .int n => toString n

/-- `str(x)` of an id that may be `None`. -/
def textOf (x : Option Ident) : String := (x.map Ident.text).getD "None"

def orElse (a b : Option Ident) : Option Ident := (a.filter Ident.truthy).or b

structure OrderRow where
  clientOrderId : Field Ident := none
  clientOrderIdCamel : Field Ident := none
  id : Field Ident := none
  brokerOrderId : Field Ident := none
  orderId : Field Ident := none
  status : Field String := none
  quantity : Field Int := none
  fillQuantity : Field Int := none
  deriving DecidableEq, Repr

structure PositionRow where
  positionId : Field Ident := none
  symbol : Field Ident := none
  side : Field String := none
  isOpen : Field Bool := none
  quantity : Field Int := none
  qty : Field Int := none
  averagePrice : Field ℚ := none
  averageEntry : Field ℚ := none
  /-- The row holds keys that no check reads. -/
  other : Bool := false
  deriving DecidableEq, Repr

inductive ReconType where
  | orders | positions | funds | reservations
  deriving DecidableEq, Repr

inductive ReconStatus where
  | matched | mismatched | reconciling | resolved | blocked
  deriving DecidableEq, Repr

inductive Discrepancy where
  | missingOrder (internal : OrderRow)
  | status (internalStatus brokerStatus : Option String) (note : Option String)
  | orderQty (text : String)
  | orphanOrder (row : OrderRow)
  | missingPosition (internal : PositionRow)
  | positionQty (text : String)
  | avgPrice (internal broker : ℚ)
  | orphanPosition (row : PositionRow)
  deriving DecidableEq, Repr

structure ReconResult where
  reconType : ReconType
  status : ReconStatus
  discrepancy : Option Discrepancy := none
  magnitude : Option ℚ := none
  affectedOrderId : Option Ident := none
  affectedPositionId : Option Ident := none
  shouldBlock : Bool := false
  message : String := ""
  deriving DecidableEq, Repr

def amountTolerance : ℚ := 1 / 100

def qtyTolerance : Nat := 0

namespace OrderRow

def clientId (o : OrderRow) : Option Ident :=
  orElse (o.clientOrderId.read none) (o.clientOrderIdCamel.read none)

def cid (o : OrderRow) : Ident :=
  (o.clientId.filter Ident.truthy).getD (.str (textOf (o.id.read none)))

/-- The key of `broker_by_client`: a default, not an `or`. -/
def clientKey (o : OrderRow) : Option Ident :=
  o.clientOrderId.read (o.clientOrderIdCamel.read none)

def brokerKey (o : OrderRow) : Option Ident := o.brokerOrderId.read (o.orderId.read none)

def comparedQuantity (o : OrderRow) : Option Int :=
  ((o.quantity.read none).filter fun n => decide (n ≠ 0)).or (o.fillQuantity.read none)

end OrderRow

def brokerByClient (brokerOrders : List OrderRow) : Dict (Option Ident) OrderRow :=
  Dict.ofRows OrderRow.clientKey (brokerOrders.filter fun o => o.clientId.any Ident.truthy)

def brokerByBrokerId (brokerOrders : List OrderRow) : Dict (Option Ident) OrderRow :=
  Dict.ofRows OrderRow.brokerKey brokerOrders

/-- The broker order an internal order is compared with. A row found holds its key, so it is
never an empty dictionary. -/
def counterpart (brokerOrders : List OrderRow) (io : OrderRow) : Option OrderRow :=
  ((brokerByClient brokerOrders).get? (some (.str io.cid.text))).or
    (match (io.brokerOrderId.read none).filter Ident.truthy with
     | some bid => (brokerByBrokerId brokerOrders).get? (some (.str bid.text))
     | none => none)

def fillStatuses : List String := ["FILLED", "PARTIALLY_FILLED"]

def checkOrder (brokerOrders : List OrderRow) (io : OrderRow) : List ReconResult :=
  let cid := io.cid
  match counterpart brokerOrders io with
  | none =>
    [{ reconType := .orders, status := .mismatched, discrepancy := some (.missingOrder io),
       affectedOrderId := some cid, shouldBlock := true,
       message := "ORDER_MISSING_ON_BROKER:" ++ cid.text }]
  | some bo =>
    let istatus := io.status.read none
    let bstatus := bo.status.read none
    if istatus ≠ bstatus then
      if bstatus.any (· ∈ fillStatuses) ∧ istatus.any (· ∈ ["CANCEL_PENDING", "CANCELLED"]) then
        [{ reconType := .orders, status := .mismatched,
           discrepancy := some (.status istatus bstatus (some "CANCEL_FILL_RACE_BROKER_WINS")),
           affectedOrderId := some cid, message := "CANCEL_FILL_RACE" }]
      else
        [{ reconType := .orders, status := .mismatched,
           discrepancy := some (.status istatus bstatus none),
           affectedOrderId := some cid, shouldBlock := true,
           message := "ORDER_STATUS_MISMATCH:" ++ istatus.getD "None" ++ "!=" ++ bstatus.getD "None" }]
    else
      match io.quantity.read none, bo.comparedQuantity with
      | some iq, some bq =>
        if (iq - bq).natAbs > qtyTolerance ∧ bstatus.any (· ∈ fillStatuses) then
          [{ reconType := .orders, status := .mismatched,
             discrepancy := some (.orderQty (toString iq ++ " != " ++ toString bq)),
             affectedOrderId := some cid, shouldBlock := true, message := "ORDER_QTY_MISMATCH" }]
        else []
      | _, _ => []

def checkOrphanOrder (internalOrders : List OrderRow) (bo : OrderRow) : List ReconResult :=
  match bo.clientId.filter Ident.truthy with
  | some bcid =>
    if .str bcid.text ∉ internalOrders.map OrderRow.cid then
      [{ reconType := .orders, status := .mismatched, discrepancy := some (.orphanOrder bo),
         shouldBlock := true, message := "BROKER_ORPHAN_ORDER:" ++ bcid.text }]
    else []
  | none => []

def orNothingFound (kind : ReconType) (message : String) (results : List ReconResult) :
    List ReconResult :=
  if results = [] then [{ reconType := kind, status := .matched, message }] else results

def reconcileOrders (internalOrders brokerOrders : List OrderRow) : List ReconResult :=
  orNothingFound .orders "ORDERS_RECONCILED_OK"
    (internalOrders.flatMap (checkOrder brokerOrders) ++
      brokerOrders.flatMap (checkOrphanOrder internalOrders))

namespace PositionRow

def key (p : PositionRow) : Option Ident := orElse (p.positionId.read none) (p.symbol.read none)

/-- `not row`: the dictionary has no key at all. -/
def vacant (p : PositionRow) : Bool := decide (p = {})

def opened (p : PositionRow) : Bool := p.isOpen.read none = some true

/-- `get("quantity", 0)`; `int` of it raises on `None`. -/
def internalQuantity (p : PositionRow) : Option Int := p.quantity.read (some 0)

/-- `get("quantity", get("qty", 0))`; `int` of it raises on `None`. -/
def brokerQuantity (p : PositionRow) : Option Int := p.quantity.read (p.qty.read (some 0))

/-- `D(get("average_price", get("average_entry", 0)) or 0)`. -/
def price (p : PositionRow) : ℚ := (p.averagePrice.read (p.averageEntry.read (some 0))).getD 0

end PositionRow

def byKey (rows : List PositionRow) : Dict (Option Ident) PositionRow :=
  Dict.ofRows PositionRow.key rows

/-- One turn of the loop over the internal positions; `none` is a raised `TypeError`. -/
def checkPosition (bmap : Dict (Option Ident) PositionRow) (pid : Option Ident)
    (ipos : PositionRow) : Option (List ReconResult) :=
  match (bmap.get? pid).filter (fun bpos => !bpos.vacant) with
  | none =>
    some (if ipos.opened then
      [{ reconType := .positions, status := .mismatched, discrepancy := some (.missingPosition ipos),
         affectedPositionId := pid, shouldBlock := true,
         message := "POSITION_MISSING_ON_BROKER:" ++ textOf pid }]
    else [])
  | some bpos => do
    let iq ← ipos.internalQuantity
    let bq ← bpos.brokerQuantity
    let quantities : List ReconResult :=
      if (iq - bq).natAbs > qtyTolerance then
        [{ reconType := .positions, status := .mismatched,
           discrepancy := some (.positionQty (toString iq ++ " vs " ++ toString bq)),
           affectedPositionId := pid, shouldBlock := true, magnitude := some (iq - bq).natAbs,
           message := "POSITION_QTY_MISMATCH" }]
      else []
    let prices : List ReconResult :=
      if |ipos.price - bpos.price| > amountTolerance ∧ iq ≠ 0 then
        [{ reconType := .positions, status := .mismatched,
           discrepancy := some (.avgPrice ipos.price bpos.price),
           affectedPositionId := pid, shouldBlock := true,
           magnitude := some |ipos.price - bpos.price|, message := "POSITION_PRICE_MISMATCH" }]
      else []
    return quantities ++ prices

def checkOrphanPosition (imap : Dict (Option Ident) PositionRow) (pid : Option Ident)
    (bpos : PositionRow) : Option (List ReconResult) :=
  if imap.contains pid then some []
  else do
    let bq ← bpos.brokerQuantity
    return if bq ≠ 0 then
      [{ reconType := .positions, status := .mismatched, discrepancy := some (.orphanPosition bpos),
         affectedPositionId := pid, shouldBlock := true,
         message := "BROKER_ORPHAN_POSITION:" ++ textOf pid }]
    else []

def collect (turn : Option Ident → PositionRow → Option (List ReconResult)) :
    List (Option Ident × PositionRow) → Option (List ReconResult)
  | [] => some []
  | (pid, row) :: rest => do
    let found ← turn pid row
    let later ← collect turn rest
    return found ++ later

def reconcilePositions (internalPositions brokerPositions : List PositionRow) :
    Option (List ReconResult) := do
  let bmap := byKey brokerPositions
  let imap := byKey internalPositions
  let compared ← collect (checkPosition bmap) imap.entries
  let orphans ← collect (checkOrphanPosition imap) bmap.entries
  return orNothingFound .positions "POSITIONS_RECONCILED_OK" (compared ++ orphans)

inductive Health where
  | healthy | degraded | blocked
  deriving DecidableEq, Repr

def health (results : List ReconResult) : Health :=
  if results.any ReconResult.shouldBlock then .blocked
  else if results.any (fun r => r.status = .mismatched) then .degraded
  else .healthy

structure Snapshots where
  internalOrders : List OrderRow := []
  brokerOrders : List OrderRow := []
  internalPositions : List PositionRow := []
  brokerPositions : List PositionRow := []

/-- The health of a reconciliation run; `none` when the positions raise. -/
def Snapshots.health (s : Snapshots) : Option Health := do
  let positions ← reconcilePositions s.internalPositions s.brokerPositions
  return Reconcile.health (reconcileOrders s.internalOrders s.brokerOrders ++ positions)

/-! What HEALTHY should mean, row by row. -/

namespace OrderRow

def identity (o : OrderRow) : Option Ident := orElse o.clientId (o.id.read none)

def Same (io bo : OrderRow) : Prop :=
  (∃ i c, io.identity = some i ∧ bo.clientId = some c ∧ c.truthy ∧ i.text = c.text) ∨
    ∃ bid b, io.brokerOrderId.read none = some bid ∧ bid.truthy ∧ bo.brokerKey = some b ∧
      b.text = bid.text

def filled (o : OrderRow) : Option Int := (o.fillQuantity.read none).or (o.quantity.read none)

def Agrees (io bo : OrderRow) : Prop :=
  io.status.read none = bo.status.read none ∧
    (bo.status.read none = some "FILLED" → io.filled = bo.filled)

end OrderRow

namespace PositionRow

def Held (bp : PositionRow) : Prop := ∃ n, bp.brokerQuantity = some n ∧ n ≠ 0

def Same (ip bp : PositionRow) : Prop :=
  ∃ k, ip.key = some k ∧ bp.key = some k ∧ k.truthy

def Agrees (ip bp : PositionRow) : Prop :=
  ip.opened ∧ ip.side.read none = bp.side.read none ∧ ip.internalQuantity = bp.brokerQuantity ∧
    |ip.price - bp.price| ≤ amountTolerance

end PositionRow

/-- The two sides agree row by row, rows that share an id included. -/
structure Sound (s : Snapshots) : Prop where
  orders : ∀ bo ∈ s.brokerOrders, ∃ io ∈ s.internalOrders, io.Same bo ∧ io.Agrees bo
  positions : ∀ bp ∈ s.brokerPositions, bp.Held →
    ∃ ip ∈ s.internalPositions, ip.Same bp ∧ ip.Agrees bp
  present : ∀ ip ∈ s.internalPositions, ip.opened → ∃ bp ∈ s.brokerPositions, ip.Same bp
  sharedOrders : ∀ io ∈ s.internalOrders, 2 ≤ s.internalOrders.countP (fun o => o.cid = io.cid) →
    ∃ bo ∈ s.brokerOrders, io.Same bo ∧ io.Agrees bo
  sharedPositions : ∀ ip ∈ s.internalPositions, ip.opened →
    2 ≤ s.internalPositions.countP (fun p => p.key = ip.key) →
    ∃ bp ∈ s.brokerPositions, ip.Same bp ∧ ip.Agrees bp

/-! What the engine looks at. -/

def QuietOrder (brokerOrders : List OrderRow) (io : OrderRow) : Prop :=
  ∃ bo, counterpart brokerOrders io = some bo ∧ io.status.read none = bo.status.read none ∧
    ∀ iq bq, io.quantity.read none = some iq → bo.comparedQuantity = some bq →
      (bo.status.read none).any (· ∈ fillStatuses) → iq = bq

def QuietPosition (bmap : Dict (Option Ident) PositionRow) (pid : Option Ident)
    (ip : PositionRow) : Prop :=
  ((bmap.get? pid).filter (fun bp => !bp.vacant) = none ∧ ip.opened = false) ∨
  ∃ bp n, bmap.get? pid = some bp ∧ bp.vacant = false ∧ ip.internalQuantity = some n ∧
    bp.brokerQuantity = some n ∧ (n ≠ 0 → |ip.price - bp.price| ≤ amountTolerance)

/-- No row that the engine looks at shows a discrepancy. -/
structure Unflagged (s : Snapshots) : Prop where
  orders : ∀ io ∈ s.internalOrders, QuietOrder s.brokerOrders io
  orphanOrders : ∀ bo ∈ s.brokerOrders, ∀ c, bo.clientId = some c → c.truthy →
    ∃ io ∈ s.internalOrders, io.cid = .str c.text
  positions : ∀ pid ip, (byKey s.internalPositions).get? pid = some ip →
    QuietPosition (byKey s.brokerPositions) pid ip
  orphanPositions : ∀ pid bp, (byKey s.brokerPositions).get? pid = some bp →
    (byKey s.internalPositions).get? pid = none → bp.brokerQuantity = some 0

/-- The orders are looked up for each other and, when filled, by their filled quantities. -/
def ComparedOrders (s : Snapshots) (io bo : OrderRow) : Prop :=
  counterpart s.brokerOrders io = some bo ∧ io.Same bo ∧
    (bo.status.read none = some "FILLED" → ∃ iq bq, io.quantity.read none = some iq ∧
      io.filled = some iq ∧ bo.comparedQuantity = some bq ∧ bo.filled = some bq)

/-- Both positions are the last of their id, and what is not compared agrees: the internal one is
open with some quantity, on the broker's side. -/
def ComparedPositions (s : Snapshots) (ip bp : PositionRow) : Prop :=
  (byKey s.internalPositions).get? ip.key = some ip ∧
    (byKey s.brokerPositions).get? ip.key = some bp ∧ ip.Same bp ∧ ip.opened ∧
    ip.side.read none = bp.side.read none ∧ ip.internalQuantity ≠ some 0

/-- The rows that the engine does not compare agree with the other side all the same. -/
structure BlindRowsAgree (s : Snapshots) : Prop where
  orders : ∀ bo ∈ s.brokerOrders, (∀ io ∈ s.internalOrders, ¬ ComparedOrders s io bo) →
    ∃ io ∈ s.internalOrders, io.Same bo ∧ io.Agrees bo
  positions : ∀ bp ∈ s.brokerPositions, bp.Held →
    (∀ ip ∈ s.internalPositions, ¬ ComparedPositions s ip bp) →
    ∃ ip ∈ s.internalPositions, ip.Same bp ∧ ip.Agrees bp
  present : ∀ ip ∈ s.internalPositions, ip.opened →
    ¬ ((byKey s.internalPositions).get? ip.key = some ip ∧ ip.key.any Ident.truthy) →
    ∃ bp ∈ s.brokerPositions, ip.Same bp
  sharedOrders : ∀ io ∈ s.internalOrders, 2 ≤ s.internalOrders.countP (fun o => o.cid = io.cid) →
    (∀ bo ∈ s.brokerOrders, ¬ ComparedOrders s io bo) →
    ∃ bo ∈ s.brokerOrders, io.Same bo ∧ io.Agrees bo
  sharedPositions : ∀ ip ∈ s.internalPositions, ip.opened →
    2 ≤ s.internalPositions.countP (fun p => p.key = ip.key) →
    (∀ bp ∈ s.brokerPositions, ¬ ComparedPositions s ip bp) →
    ∃ bp ∈ s.brokerPositions, ip.Same bp ∧ ip.Agrees bp

/-! Every turn reports mismatches only, so HEALTHY means that no turn reports. -/

private theorem collect_eq_nil (turn : Option Ident → PositionRow → Option (List ReconResult))
    (rows : List (Option Ident × PositionRow)) :
    collect turn rows = some [] ↔ ∀ e ∈ rows, turn e.1 e.2 = some [] := by
  induction rows with
  | nil => simp [collect]
  | cons e rows ih =>
    obtain ⟨pid, row⟩ := e
    rw [List.forall_mem_cons, ← ih, collect]
    cases turn pid row with
    | none => simp
    | some found =>
      cases collect turn rows with
      | none => simp
      | some later => simp

private theorem mem_collect {turn : Option Ident → PositionRow → Option (List ReconResult)}
    {rows : List (Option Ident × PositionRow)} {results : List ReconResult}
    (h : collect turn rows = some results) {r : ReconResult} (hr : r ∈ results) :
    ∃ e ∈ rows, ∃ found, turn e.1 e.2 = some found ∧ r ∈ found := by
  induction rows generalizing results with
  | nil =>
    obtain rfl : [] = results := by simpa [collect] using h
    simp at hr
  | cons e rows ih =>
    obtain ⟨pid, row⟩ := e
    rw [collect] at h
    obtain ⟨found, hf, h⟩ := Option.bind_eq_some_iff.mp h
    obtain ⟨later, hl, h⟩ := Option.bind_eq_some_iff.mp h
    obtain rfl : found ++ later = results := by simpa using h
    rcases List.mem_append.mp hr with hr | hr
    · exact ⟨(pid, row), by simp, found, hf, hr⟩
    · obtain ⟨e, he, hm⟩ := ih hl hr
      exact ⟨e, List.mem_cons_of_mem _ he, hm⟩

private theorem checkOrder_mismatched {brokerOrders : List OrderRow} {io : OrderRow}
    {r : ReconResult} (h : r ∈ checkOrder brokerOrders io) : r.status = .mismatched := by
  unfold checkOrder at h
  split at h
  · rw [List.mem_singleton.mp h]
  · dsimp only at h
    split at h
    · split at h <;> rw [List.mem_singleton.mp h]
    · split at h
      · split at h
        · rw [List.mem_singleton.mp h]
        · cases h
      · cases h

private theorem checkOrphanOrder_mismatched {internalOrders : List OrderRow} {bo : OrderRow}
    {r : ReconResult} (h : r ∈ checkOrphanOrder internalOrders bo) : r.status = .mismatched := by
  unfold checkOrphanOrder at h
  split at h
  · split at h
    · rw [List.mem_singleton.mp h]
    · cases h
  · cases h

private theorem checkPosition_mismatched {bmap : Dict (Option Ident) PositionRow}
    {pid : Option Ident} {ip : PositionRow} {results : List ReconResult}
    (h : checkPosition bmap pid ip = some results) {r : ReconResult} (hr : r ∈ results) :
    r.status = .mismatched := by
  unfold checkPosition at h
  split at h
  · obtain rfl := Option.some.inj h
    split at hr
    · rw [List.mem_singleton.mp hr]
    · cases hr
  · obtain ⟨iq, -, h⟩ := Option.bind_eq_some_iff.mp h
    obtain ⟨bq, -, h⟩ := Option.bind_eq_some_iff.mp h
    obtain rfl := Option.some.inj h
    rcases List.mem_append.mp hr with hr | hr
    · split at hr
      · rw [List.mem_singleton.mp hr]
      · cases hr
    · split at hr
      · rw [List.mem_singleton.mp hr]
      · cases hr

private theorem checkOrphanPosition_mismatched {imap : Dict (Option Ident) PositionRow}
    {pid : Option Ident} {bp : PositionRow} {results : List ReconResult}
    (h : checkOrphanPosition imap pid bp = some results) {r : ReconResult} (hr : r ∈ results) :
    r.status = .mismatched := by
  unfold checkOrphanPosition at h
  split at h
  · obtain rfl := Option.some.inj h
    cases hr
  · obtain ⟨bq, -, h⟩ := Option.bind_eq_some_iff.mp h
    obtain rfl := Option.some.inj h
    split at hr
    · rw [List.mem_singleton.mp hr]
    · cases hr

private theorem health_append (a b : List ReconResult) (kind kind' : ReconType)
    (message message' : String) (ha : ∀ r ∈ a, r.status = .mismatched)
    (hb : ∀ r ∈ b, r.status = .mismatched) :
    health (orNothingFound kind message a ++ orNothingFound kind' message' b) = .healthy ↔
      a = [] ∧ b = [] := by
  have flagged : ∀ l : List ReconResult, (∃ r ∈ l, r.status = .mismatched) → health l ≠ .healthy := by
    intro l ⟨r, hr, hs⟩ hl
    unfold health at hl
    split at hl
    · cases hl
    · split at hl
      · cases hl
      · rename_i hn
        exact hn (List.any_eq_true.mpr ⟨r, hr, by simpa using hs⟩)
  constructor
  · intro hh
    by_contra hne
    refine flagged _ ?_ hh
    rcases not_and_or.mp hne with hne | hne
    · obtain ⟨r, hr⟩ := List.exists_mem_of_ne_nil a hne
      exact ⟨r, by simp [orNothingFound, hne, hr], ha r hr⟩
    · obtain ⟨r, hr⟩ := List.exists_mem_of_ne_nil b hne
      exact ⟨r, by simp [orNothingFound, hne, hr], hb r hr⟩
  · rintro ⟨rfl, rfl⟩
    rfl

private theorem checkOrder_eq_nil (brokerOrders : List OrderRow) (io : OrderRow) :
    checkOrder brokerOrders io = [] ↔ QuietOrder brokerOrders io := by
  unfold checkOrder QuietOrder
  cases counterpart brokerOrders io with
  | none => simp
  | some bo =>
    simp only [Option.some.injEq, exists_eq_left']
    by_cases hs : io.status.read none = bo.status.read none
    · rw [if_neg (not_not.mpr hs)]
      cases hi : io.quantity.read none with
      | none => simp [hs]
      | some iq =>
        cases hb : bo.comparedQuantity with
        | none => simp [hs]
        | some bq =>
          constructor
          · intro h
            refine ⟨hs, ?_⟩
            rintro _ _ ⟨⟩ ⟨⟩ hf
            by_contra hne
            dsimp only at h
            rw [if_pos ⟨by unfold qtyTolerance; omega, hf⟩] at h
            cases h
          · rintro ⟨-, h⟩
            dsimp only
            rw [if_neg]
            rintro ⟨hq, hf⟩
            have := h iq bq rfl rfl hf
            unfold qtyTolerance at hq
            omega
    · rw [if_pos hs]
      refine iff_of_false ?_ (fun h => hs h.1)
      split <;> simp

private theorem checkOrphanOrder_eq_nil (internalOrders : List OrderRow) (bo : OrderRow) :
    checkOrphanOrder internalOrders bo = [] ↔
      ∀ c, bo.clientId = some c → c.truthy → ∃ io ∈ internalOrders, io.cid = .str c.text := by
  unfold checkOrphanOrder
  cases bo.clientId with
  | none => simp
  | some c =>
    cases hc : c.truthy with
    | false => simp [Option.filter, hc]
    | true => simp [Option.filter, hc]

private theorem checkPosition_eq_nil (bmap : Dict (Option Ident) PositionRow) (pid : Option Ident)
    (ip : PositionRow) : checkPosition bmap pid ip = some [] ↔ QuietPosition bmap pid ip := by
  unfold checkPosition QuietPosition
  cases hb : bmap.get? pid with
  | none => simp
  | some bp =>
    cases hv : bp.vacant with
    | true => simp [Option.filter, hv]
    | false =>
      simp only [Option.filter, hv, Bool.not_false, if_true, reduceCtorEq, false_and, false_or]
      cases hi : ip.internalQuantity with
      | none => simp
      | some iq =>
        cases hq : bp.brokerQuantity with
        | none => simp [hq]
        | some bq =>
          have hcompare : ¬ (iq - bq).natAbs > qtyTolerance ↔ iq = bq := by
            unfold qtyTolerance
            omega
          constructor
          · intro h
            have happ := List.append_eq_nil_iff.mp (Option.some.inj h)
            have heq : iq = bq := by
              by_contra hne
              rw [if_pos (by_contra fun hn => hne (hcompare.mp hn))] at happ
              cases happ.1
            subst heq
            refine ⟨bp, iq, rfl, hv, rfl, hq, fun h0 => ?_⟩
            by_contra hp
            have hprices := happ.2
            rw [if_pos ⟨lt_of_not_ge hp, h0⟩] at hprices
            cases hprices
          · rintro ⟨b, n, ⟨⟩, -, ⟨⟩, hn, hp⟩
            obtain rfl : bq = iq := Option.some.inj (hq.symm.trans hn)
            have hprice : ¬ (|ip.price - bp.price| > amountTolerance ∧ bq ≠ 0) :=
              fun h => absurd (hp h.2) (not_le.mpr h.1)
            simp only [Option.bind_eq_bind, Option.bind_some, Option.pure_def]
            rw [if_neg (hcompare.mpr rfl), if_neg hprice]
            rfl

private theorem checkOrphanPosition_eq_nil (imap : Dict (Option Ident) PositionRow)
    (pid : Option Ident) (bp : PositionRow) :
    checkOrphanPosition imap pid bp = some [] ↔
      (imap.get? pid = none → bp.brokerQuantity = some 0) := by
  unfold checkOrphanPosition Dict.contains
  cases imap.get? pid with
  | some ip => simp
  | none =>
    cases bp.brokerQuantity with
    | none => simp
    | some bq => simp

/-- A run is HEALTHY exactly when no row that is looked at shows a discrepancy. -/
theorem health_eq_healthy (s : Snapshots) : s.health = some .healthy ↔ Unflagged s := by
  set imap := byKey s.internalPositions with himap
  set bmap := byKey s.brokerPositions with hbmap
  have horders : s.internalOrders.flatMap (checkOrder s.brokerOrders) ++
      s.brokerOrders.flatMap (checkOrphanOrder s.internalOrders) = [] ↔
      (∀ io ∈ s.internalOrders, QuietOrder s.brokerOrders io) ∧
      ∀ bo ∈ s.brokerOrders, ∀ c, bo.clientId = some c → c.truthy →
        ∃ io ∈ s.internalOrders, io.cid = .str c.text := by
    simp only [List.append_eq_nil_iff, List.flatMap_eq_nil_iff, checkOrder_eq_nil,
      checkOrphanOrder_eq_nil]
  have hpositions : (∀ e ∈ imap.entries, checkPosition bmap e.1 e.2 = some []) ↔
      ∀ pid ip, imap.get? pid = some ip → QuietPosition bmap pid ip := by
    simp only [Prod.forall, Dict.mem_entries_iff, checkPosition_eq_nil]
  have horphans : (∀ e ∈ bmap.entries, checkOrphanPosition imap e.1 e.2 = some []) ↔
      ∀ pid bp, bmap.get? pid = some bp → imap.get? pid = none → bp.brokerQuantity = some 0 := by
    simp only [Prod.forall, Dict.mem_entries_iff, checkOrphanPosition_eq_nil]
  have hm : ∀ r ∈ s.internalOrders.flatMap (checkOrder s.brokerOrders) ++
      s.brokerOrders.flatMap (checkOrphanOrder s.internalOrders), r.status = .mismatched := by
    intro r hr
    rcases List.mem_append.mp hr with hr | hr
    · obtain ⟨io, -, hr⟩ := List.mem_flatMap.mp hr
      exact checkOrder_mismatched hr
    · obtain ⟨bo, -, hr⟩ := List.mem_flatMap.mp hr
      exact checkOrphanOrder_mismatched hr
  constructor
  · intro h
    obtain ⟨found, hfound, h⟩ := Option.bind_eq_some_iff.mp h
    obtain ⟨compared, hc, hfound⟩ := Option.bind_eq_some_iff.mp hfound
    obtain ⟨orphans, ho, hfound⟩ := Option.bind_eq_some_iff.mp hfound
    obtain rfl := Option.some.inj hfound
    have hp : ∀ r ∈ compared ++ orphans, r.status = .mismatched := by
      intro r hr
      rcases List.mem_append.mp hr with hr | hr
      · obtain ⟨e, -, l, hl, hr⟩ := mem_collect hc hr
        exact checkPosition_mismatched hl hr
      · obtain ⟨e, -, l, hl, hr⟩ := mem_collect ho hr
        exact checkOrphanPosition_mismatched hl hr
    obtain ⟨ha, hb⟩ := (health_append _ _ _ _ _ _ hm hp).mp (Option.some.inj h)
    obtain ⟨rfl, rfl⟩ := List.append_eq_nil_iff.mp hb
    exact ⟨(horders.mp ha).1, (horders.mp ha).2, hpositions.mp ((collect_eq_nil _ _).mp hc),
      horphans.mp ((collect_eq_nil _ _).mp ho)⟩
  · rintro ⟨h1, h2, h3, h4⟩
    have hc := (collect_eq_nil _ _).mpr (hpositions.mpr h3)
    have ho := (collect_eq_nil _ _).mpr (horphans.mpr h4)
    rw [Snapshots.health, reconcilePositions, ← himap, ← hbmap, hc]
    simp only [Option.bind_eq_bind, Option.bind_some, ho, Option.pure_def, List.append_nil]
    exact congrArg some ((health_append _ _ _ _ _ _ hm (by simp)).mpr ⟨horders.mpr ⟨h1, h2⟩, rfl⟩)

/-! What the comparisons establish. -/

private theorem Unflagged.order_agrees {s : Snapshots} (hs : Unflagged s) {io bo : OrderRow}
    (hio : io ∈ s.internalOrders) (h : ComparedOrders s io bo) : io.Agrees bo := by
  obtain ⟨hc, -, hfill⟩ := h
  obtain ⟨b, hb, hstatus, hquantity⟩ := hs.orders io hio
  obtain rfl : bo = b := Option.some.inj (hc.symm.trans hb)
  refine ⟨hstatus, fun hfilled => ?_⟩
  obtain ⟨iq, bq, hi, hif, hb, hbf⟩ := hfill hfilled
  rw [hif, hbf, hquantity iq bq hi hb (by rw [hfilled]; decide)]

private theorem not_vacant_of_same {ip bp : PositionRow} (h : ip.Same bp) : bp.vacant = false := by
  obtain ⟨k, -, hk, -⟩ := h
  rw [PositionRow.vacant, decide_eq_false_iff_not]
  rintro rfl
  cases hk

private theorem Unflagged.position_agrees {s : Snapshots} (hs : Unflagged s) {ip bp : PositionRow}
    (h : ComparedPositions s ip bp) : ip.Agrees bp := by
  obtain ⟨hi, hb, hsame, hopen, hside, hquantity⟩ := h
  rcases hs.positions _ _ hi with ⟨hn, -⟩ | ⟨b, n, hb', -, hin, hbn, hprice⟩
  · rw [hb, Option.filter_eq_none_iff] at hn
    exact absurd (by rw [not_vacant_of_same hsame]; rfl) (hn bp rfl)
  · obtain rfl : bp = b := Option.some.inj (hb.symm.trans hb')
    exact ⟨hopen, hside, hin.trans hbn.symm, hprice fun h0 => hquantity (h0 ▸ hin)⟩

private theorem Unflagged.open_present {s : Snapshots} (hs : Unflagged s) {ip : PositionRow}
    (hi : (byKey s.internalPositions).get? ip.key = some ip) (hk : ip.key.any Ident.truthy)
    (hopen : ip.opened) : ∃ bp ∈ s.brokerPositions, ip.Same bp := by
  rcases hs.positions _ _ hi with ⟨-, hn⟩ | ⟨bp, n, hb, -⟩
  · rw [hn] at hopen
    cases hopen
  · obtain ⟨hm, hkey⟩ := Dict.mem_of_ofRows hb
    obtain ⟨k, hk, ht⟩ := Option.any_eq_true _ _ |>.mp hk
    exact ⟨bp, hm, k, hk, hkey.trans hk, ht⟩

/-- HEALTHY is sound exactly when the rows that the engine does not compare agree on their own, or
some row that it does look at is flagged. -/
theorem healthy_sound_iff (s : Snapshots) :
    (s.health = some .healthy → Sound s) ↔ (Unflagged s → BlindRowsAgree s) := by
  rw [health_eq_healthy]
  refine forall_congr' fun hs => ?_
  constructor
  · intro h
    exact ⟨fun bo hb _ => h.orders bo hb, fun bp hb hq _ => h.positions bp hb hq,
      fun ip hi ho _ => h.present ip hi ho, fun io hi hn _ => h.sharedOrders io hi hn,
      fun ip hi ho hn _ => h.sharedPositions ip hi ho hn⟩
  · intro h
    refine ⟨?_, ?_, ?_, ?_, ?_⟩
    · intro bo hb
      by_cases hc : ∃ io ∈ s.internalOrders, ComparedOrders s io bo
      · obtain ⟨io, hi, hc⟩ := hc
        exact ⟨io, hi, hc.2.1, hs.order_agrees hi hc⟩
      · push Not at hc
        exact h.orders bo hb hc
    · intro bp hb hq
      by_cases hc : ∃ ip ∈ s.internalPositions, ComparedPositions s ip bp
      · obtain ⟨ip, hi, hc⟩ := hc
        exact ⟨ip, hi, hc.2.2.1, hs.position_agrees hc⟩
      · push Not at hc
        exact h.positions bp hb hq hc
    · intro ip hi ho
      by_cases hc : (byKey s.internalPositions).get? ip.key = some ip ∧ ip.key.any Ident.truthy
      · exact hs.open_present hc.1 hc.2 ho
      · exact h.present ip hi ho hc
    · intro io hi hn
      by_cases hc : ∃ bo ∈ s.brokerOrders, ComparedOrders s io bo
      · obtain ⟨bo, hb, hc⟩ := hc
        exact ⟨bo, hb, hc.2.1, hs.order_agrees hi hc⟩
      · push Not at hc
        exact h.sharedOrders io hi hn hc
    · intro ip hi ho hn
      by_cases hc : ∃ bp ∈ s.brokerPositions, ComparedPositions s ip bp
      · obtain ⟨bp, hb, hc⟩ := hc
        exact ⟨bp, hb, hc.2.2.1, hs.position_agrees hc⟩
      · push Not at hc
        exact h.sharedPositions ip hi ho hn hc

def longRow : PositionRow where
  positionId := some (some (.str "P1"))
  side := some (some "BUY")
  isOpen := some (some true)
  quantity := some (some 50)
  averagePrice := some (some 100)

/-- The broker is short what the book holds long. -/
def oppositeSides : Snapshots where
  internalPositions := [longRow]
  brokerPositions := [{ longRow with side := some (some "SELL") }]

theorem opposite_sides_healthy : oppositeSides.health = some .healthy ∧ ¬ Sound oppositeSides := by
  refine ⟨by decide +kernel, fun h => ?_⟩
  obtain ⟨ip, hi, -, -, hside, -⟩ := h.positions _ (List.mem_singleton.mpr rfl) ⟨50, rfl, by decide⟩
  rw [List.mem_singleton.mp hi] at hside
  exact absurd hside (by decide)

end Droid.Algo.Reconcile
