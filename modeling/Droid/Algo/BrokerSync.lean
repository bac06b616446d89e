import Droid.Algo.PositionManager
import Droid.Lib.Run

/-! Synchronisation with the broker's rows: which books it leaves as the broker has them. -/
namespace Droid.Algo
open Lib

/-- The position is as the row has it, and open just when there is something to hold. -/
structure ManagedPosition.AsListed (pos : ManagedPosition) (bp : BrokerPosition) : Prop where
  side : ∀ side ∈ bp.side, pos.side = side
  quantity : ∀ quantity ∈ bp.quantity, pos.quantity = quantity
  averageEntry : ∀ price ∈ bp.averagePrice, pos.averageEntry = price
  isOpen : pos.isOpen = true ↔ pos.quantity ≠ 0

/-- A position with the row's quantity and price, closed where there is nothing to hold. -/
structure ManagedPosition.AsHeld (pos : ManagedPosition) (bp : BrokerPosition) : Prop where
  quantity : bp.quantity.getD pos.quantity = pos.quantity
  averageEntry : bp.averagePrice.getD pos.averageEntry = pos.averageEntry
  closed : pos.quantity = 0 → pos.isOpen = false ∧ pos.exitState = .closed

/-- What an adopted row must find: its own side, a position that is open unless the row empties it, and the
account's own position or one that needs no change. -/
structure ManagedPosition.Adoptable (pos : ManagedPosition) (accountId : AccountId) (bp : BrokerPosition) : Prop where
  side : ∀ side ∈ bp.side, pos.side = side
  opened : bp.quantity.getD pos.quantity ≠ 0 → pos.isOpen = true
  own : pos.accountId ≠ accountId → pos.AsHeld bp

namespace PositionManager
variable (m : PositionManager) (now : Int) (accountId : AccountId) (rows : List BrokerPosition)

/-- Every listed row is in the book as listed, positions of other accounts are as they were, and the same rows again,
at whatever time, change nothing. -/
structure BrokerAdopted : Prop where
  listed : ∀ bp ∈ rows, ∃ pos, (m.syncFromBroker now accountId rows).find accountId bp.pid = some pos ∧ pos.AsListed bp
  others : ∀ k pos, m.get? k = some pos → pos.accountId ≠ accountId →
    (m.syncFromBroker now accountId rows).get? k = some pos
  again : ∀ later, (m.syncFromBroker now accountId rows).syncFromBroker later accountId rows =
    m.syncFromBroker now accountId rows

/-- Each row finds a position that it can adopt, or none and has something to hold. -/
def RowsAdoptable : Prop :=
  ∀ bp ∈ rows, match m.find accountId bp.pid with
    | some pos => pos.Adoptable accountId bp
    | none => bp.quantity.getD 0 ≠ 0

def rowResult (bp : BrokerPosition) (before : Option ManagedPosition) : ManagedPosition :=
  match before with
  | some pos => pos.adopt bp
  | none => (bp.opened now accountId).refreshPnl now

variable {m now accountId rows}

theorem key_injective {a b : String} (h : key accountId a = key accountId b) : a = b := by
  have hlists := congrArg String.toList h
  simp only [key, String.toList_append] at hlists
  exact String.toList_injective (List.append_cancel_left hlists)

theorem syncRow_eq (m : PositionManager) (bp : BrokerPosition) :
    m.syncRow now accountId bp =
      m.insert (key accountId bp.pid) (rowResult now accountId bp (m.find accountId bp.pid)) := by
  rw [syncRow]
  cases hfind : m.find accountId bp.pid with
  | some pos => rfl
  | none =>
    have hkey : m.get? (key (bp.opened now accountId).accountId (bp.opened now accountId).positionId) = none := hfind
    simp only [upsert, hkey, Option.any_none]
    rfl

/-- The rows of distinct ids are adopted one by one, and nothing else is touched. -/
theorem find_syncFromBroker (m : PositionManager) (now : Int) (accountId : AccountId)
    (hn : (rows.map BrokerPosition.pid).Nodup) :
    (∀ bp ∈ rows, (m.syncFromBroker now accountId rows).find accountId bp.pid =
      some (rowResult now accountId bp (m.find accountId bp.pid))) ∧
    ∀ k ∉ rows.map fun bp => key accountId bp.pid, (m.syncFromBroker now accountId rows).get? k = m.get? k := by
  have hkeys : (rows.map fun bp => key accountId bp.pid).Nodup := by
    have hmap := hn.map (f := key accountId) fun _ _ => key_injective
    rwa [List.map_map] at hmap
  refine foldl_ownBy (fun bp => key accountId bp.pid) (syncRow now accountId) Dict.get?
    (R := fun bp before after => after = some (rowResult now accountId bp before)) ?_ ?_ m hkeys
  · intro s bp x hx
    rw [syncRow_eq, Dict.get?_insert, if_neg hx]
  · intro s bp
    rw [syncRow_eq, Dict.get?_insert, if_pos rfl]
    rfl

theorem adopt_adopt (pos : ManagedPosition) (bp : BrokerPosition) : (pos.adopt bp).adopt bp = pos.adopt bp := by
  simp only [ManagedPosition.adopt]
  cases bp.quantity <;> cases bp.averagePrice <;> simp only [Option.getD_some, Option.getD_none] <;>
    split_ifs <;> simp_all

theorem adopt_quantity (pos : ManagedPosition) (bp : BrokerPosition) :
    (pos.adopt bp).quantity = bp.quantity.getD pos.quantity := by
  rw [ManagedPosition.adopt]
  split <;> rfl

theorem adopt_side (pos : ManagedPosition) (bp : BrokerPosition) : (pos.adopt bp).side = pos.side := by
  rw [ManagedPosition.adopt]
  split <;> rfl

theorem adopt_averageEntry (pos : ManagedPosition) (bp : BrokerPosition) :
    (pos.adopt bp).averageEntry = bp.averagePrice.getD pos.averageEntry := by
  rw [ManagedPosition.adopt]
  split <;> rfl

theorem adopt_isOpen (pos : ManagedPosition) (bp : BrokerPosition) :
    (pos.adopt bp).isOpen = true ↔ bp.quantity.getD pos.quantity ≠ 0 ∧ pos.isOpen = true := by
  rw [ManagedPosition.adopt]
  by_cases hzero : bp.quantity.getD pos.quantity = 0 <;> simp [hzero]

theorem adopt_eq_self_iff (pos : ManagedPosition) (bp : BrokerPosition) : pos.adopt bp = pos ↔ pos.AsHeld bp := by
  constructor
  · intro h
    have hquantity := adopt_quantity pos bp
    have hprice := adopt_averageEntry pos bp
    rw [h] at hquantity hprice
    refine ⟨hquantity.symm, hprice.symm, fun hzero => ?_⟩
    rw [ManagedPosition.adopt, if_pos (hquantity.symm.trans hzero)] at h
    exact ⟨(congrArg ManagedPosition.isOpen h).symm, (congrArg ManagedPosition.exitState h).symm⟩
  · intro h
    obtain ⟨hquantity, hprice, hclosed⟩ := h
    rw [ManagedPosition.adopt, hquantity, hprice]
    by_cases hzero : pos.quantity = 0
    · obtain ⟨hopen, hexit⟩ := hclosed hzero
      rw [if_pos hzero, ← hopen, ← hexit]
    · rw [if_neg hzero]

theorem getD_of_mem {α : Type} {x : Option α} {a b : α} (h : a ∈ x) : x.getD b = a := by
  cases h
  rfl

theorem adopt_asListed_iff (pos : ManagedPosition) (bp : BrokerPosition) :
    (pos.adopt bp).AsListed bp ↔
      (∀ side ∈ bp.side, pos.side = side) ∧ (bp.quantity.getD pos.quantity ≠ 0 → pos.isOpen = true) := by
  constructor
  · intro h
    have hopen := h.isOpen
    rw [adopt_isOpen, adopt_quantity] at hopen
    refine ⟨fun side hside => (adopt_side pos bp).symm.trans (h.side side hside), fun hq => (hopen.mpr hq).2⟩
  · rintro ⟨hside, hopen⟩
    refine ⟨fun side hs => (adopt_side pos bp).trans (hside side hs), fun quantity hq => ?_, fun price hp => ?_, ?_⟩
    · rw [adopt_quantity, getD_of_mem hq]
    · rw [adopt_averageEntry, getD_of_mem hp]
    · rw [adopt_isOpen, adopt_quantity]
      exact ⟨And.left, fun hq => ⟨hq, hopen hq⟩⟩

theorem opened_asListed_iff (bp : BrokerPosition) :
    ((bp.opened now accountId).refreshPnl now).AsListed bp ↔ bp.quantity.getD 0 ≠ 0 := by
  constructor
  · intro h
    exact h.isOpen.mp rfl
  · intro hq
    exact ⟨fun side hs => getD_of_mem hs, fun quantity hq => getD_of_mem hq, fun price hp => getD_of_mem hp,
      fun _ => hq, fun _ => rfl⟩

theorem adopt_opened {bp : BrokerPosition} (h : bp.quantity.getD 0 ≠ 0) :
    ((bp.opened now accountId).refreshPnl now).adopt bp = (bp.opened now accountId).refreshPnl now := by
  have hquantity : bp.quantity.getD (bp.quantity.getD 0) = bp.quantity.getD 0 := by cases bp.quantity <;> rfl
  have hprice : bp.averagePrice.getD (bp.averagePrice.getD 0) = bp.averagePrice.getD 0 := by
    cases bp.averagePrice <;> rfl
  simp only [ManagedPosition.adopt, ManagedPosition.refreshPnl, BrokerPosition.opened, if_true, hquantity, hprice,
    if_neg h]

/-- The broker's rows are adopted exactly when every row finds a position of its side that is open unless it is
emptied, or none and has something to hold. -/
theorem brokerAdopted_iff (hn : (rows.map BrokerPosition.pid).Nodup) :
    m.BrokerAdopted now accountId rows ↔ m.RowsAdoptable accountId rows := by
  obtain ⟨hfound, hframe⟩ := find_syncFromBroker m now accountId hn
  constructor
  · intro h bp hbp
    obtain ⟨pos', hpos', hlisted⟩ := h.listed bp hbp
    rw [hfound bp hbp] at hpos'
    cases hfind : m.find accountId bp.pid with
    | none =>
      rw [hfind] at hpos'
      cases hpos'
      exact (opened_asListed_iff bp).mp hlisted
    | some pos =>
      rw [hfind] at hpos'
      cases hpos'
      obtain ⟨hside, hopen⟩ := (adopt_asListed_iff pos bp).mp hlisted
      refine ⟨hside, hopen, fun hother => ?_⟩
      have hsame := h.others _ pos hfind hother
      have hadopted := hfound bp hbp
      rw [hfind] at hadopted
      exact (adopt_eq_self_iff pos bp).mp (Option.some.inj (hadopted.symm.trans hsame))
  · intro h
    have hresult : ∀ bp ∈ rows, (rowResult now accountId bp (m.find accountId bp.pid)).AsListed bp ∧
        (rowResult now accountId bp (m.find accountId bp.pid)).adopt bp =
          rowResult now accountId bp (m.find accountId bp.pid) := by
      intro bp hbp
      have hrow := h bp hbp
      cases hfind : m.find accountId bp.pid with
      | none =>
        rw [hfind] at hrow
        exact ⟨(opened_asListed_iff bp).mpr hrow, adopt_opened hrow⟩
      | some pos =>
        rw [hfind] at hrow
        exact ⟨(adopt_asListed_iff pos bp).mpr ⟨hrow.side, hrow.opened⟩, adopt_adopt pos bp⟩
    refine ⟨fun bp hbp => ⟨_, hfound bp hbp, (hresult bp hbp).1⟩, fun k pos hpos hother => ?_, fun later => ?_⟩
    · by_cases hk : k ∈ rows.map fun bp => key accountId bp.pid
      · obtain ⟨bp, hbp, rfl⟩ := List.mem_map.mp hk
        have hrow := h bp hbp
        have hadopted := hfound bp hbp
        have hfind : m.find accountId bp.pid = some pos := hpos
        rw [hfind] at hrow hadopted
        exact hadopted.trans (congrArg some ((adopt_eq_self_iff pos bp).mpr (hrow.own hother)))
      · rw [hframe k hk]
        exact hpos
    · refine foldl_eq_self fun bp hbp => ?_
      have hsame := (hresult bp hbp).2
      rw [syncRow_eq, hfound bp hbp]
      refine Dict.insert_self ((hfound bp hbp).trans (congrArg some hsame.symm))

/-- A long position whose row has more to hold, and a row that is new. -/
theorem brokerAdopted_iff_book :
    PositionManager.BrokerAdopted
      (Dict.empty.insert "A:P1"
        { accountId := "A", positionId := "P1", symbol := "NIFTY", side := "LONG", quantity := 50, entryTimestamp := 0
          updatedAt := 0 }) 9 "A"
      [{ positionId := some "P1", side := some "LONG", quantity := some 75, averagePrice := some 101 },
        { symbol := some "BANKNIFTY", side := some "SHORT", quantity := some 15, averagePrice := some 40 }] := by
  refine (brokerAdopted_iff (by decide +kernel)).mpr ?_
  intro bp hbp
  rcases List.mem_pair.mp hbp with rfl | rfl
  · exact ⟨fun side hside => by cases hside; rfl, fun _ => rfl, fun hother => absurd rfl hother⟩
  · split
    · rename_i hfind
      exact absurd (Option.isSome_iff_exists.mpr ⟨_, hfind⟩) (by decide +kernel)
    · decide

/-- A long position that the broker has as a short one stays long. -/
theorem turned_position_stays_long :
    ¬ ∀ (m : PositionManager) (now : Int) (accountId : AccountId) (rows : List BrokerPosition),
      (rows.map BrokerPosition.pid).Nodup → m.BrokerAdopted now accountId rows := by
  intro h
  have hadopted := h
    (Dict.empty.insert "A:P1"
      { accountId := "A", positionId := "P1", symbol := "NIFTY", side := "LONG", quantity := 50, entryTimestamp := 0
        updatedAt := 0 }) 9 "A"
    [{ positionId := some "P1", side := some "SHORT", quantity := some 50, averagePrice := some 101 }]
    (List.nodup_singleton _)
  obtain ⟨pos, hfind, hlisted⟩ := hadopted.listed _ (List.mem_singleton_self _)
  have hside := congrArg (Option.map ManagedPosition.side) hfind
  have hlong : some "LONG" = some pos.side := .trans (by decide +kernel) hside
  exact absurd ((Option.some.inj hlong).trans (hlisted.side _ rfl)) (by decide)

end PositionManager

end Droid.Algo
