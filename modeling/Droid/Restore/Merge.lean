import Droid.Restore.Resume

/-! Newest-wins: which copies of a signal are in memory after a restore from the database and the state file, and
what a second restore changes. -/
namespace Droid.Restore
open Lib Signals Audit

/-- The selected row of a signal. -/
def Table.find (table : Table) (id : SignalId) : Option ExecutedSignal :=
  (table.rows.filter ExecutedSignal.selected).find? (fun row => row.signalId = id)

def Copies.restored (copies : Copies) (clock : RestoreClock) (row : Option ExecutedSignal) (file : FileCopies) :
    Copies :=
  match row with
  | none => copies.fromFile clock file
  | some row => (copies.fromRow clock row).fromFile clock file

section Sources
variable (clock : RestoreClock) (copies : Copies) (row : Option ExecutedSignal) (file : FileCopies)

/-- The copies of the signal in memory, in the table and in the file, each with its update timestamp. -/
def signalSources : List (Int × SignalInstance) :=
  (copies.signal.map (fun sig => (sig.lastUpdatedUtc, sig))).toList ++
    (row.map (fun row => (row.updated, row.restoredSignal clock))).toList ++
    (file.signal.map (fun entry => (entry.updated, entry.restored clock))).toList

def tradeSources : List (Int × Audit.AuditTradeRecord) :=
  (copies.trade.map (fun trade => (trade.updatedAtUtc, trade))).toList ++
    (row.map (fun row => (row.updatedAtUtc, row.auditRecord clock))).toList ++
    (file.trade.map (fun trade => (trade.updatedAtUtc, trade.restored clock.usable))).toList

def reconciliationSources : List (Int × Reconciliation) :=
  (copies.reconciliation.map (fun entry => (entry.updatedAtUtc, entry))).toList ++
    ((row.bind ExecutedSignal.reconJson).map (fun entry => (entry.updatedAtUtc, entry))).toList ++
    (file.reconciliation.map (fun entry => (entry.updatedAtUtc, entry.restored))).toList

end Sources

/-- The copies in memory after a restore are the newest ones, and a later restore leaves them. -/
structure Merged (clock : RestoreClock) (copies : Copies) (row : Option ExecutedSignal) (file : FileCopies) :
    Prop where
  signal : NewestWins (signalSources clock copies row file) (copies.restored clock row file).signal
  trade : NewestWins (tradeSources clock copies row file) (copies.restored clock row file).trade
  reconciliation :
    NewestWins (reconciliationSources copies row file) (copies.restored clock row file).reconciliation
  again : ∀ later : RestoreClock, clock.nowMs ≤ later.nowMs → later.usable = clock.usable →
    (copies.restored clock row file).restored later row file = copies.restored clock row file

/-- Every copy was updated before the clock of the restore. -/
structure Dated (clock : RestoreClock) (copies : Copies) (row : Option ExecutedSignal) (file : FileCopies) :
    Prop where
  reconciliation : ∀ entry, copies.reconciliation = some entry → entry.updatedAtUtc < clock.nowMs
  rowUpdated : ∀ r, row = some r → r.updated < clock.nowMs
  stored : ∀ r entry, row = some r → r.reconJson = some entry → entry.updatedAtUtc < clock.nowMs
  fileSignal : ∀ entry, file.signal = some entry → entry.updated < clock.nowMs
  fileReconciliation : ∀ entry, file.reconciliation = some entry → entry.updatedAtUtc < clock.nowMs

/-- The row's signal takes the place of the one in memory. -/
def Rebuilt (copies : Copies) (row : ExecutedSignal) : Prop :=
  ∀ sig, copies.signal = some sig → sig.lastUpdatedUtc ≤ row.updated

/-- The row's entry is reconciled once more. -/
def Reentered (copies : Copies) (row : ExecutedSignal) : Prop :=
  Rebuilt copies row ∧ (row.premium row.actualFillPrice).isSome

/-- When the merge of a row keeps the newest copies. -/
structure MergeSafe (clock : RestoreClock) (copies : Copies) (row : ExecutedSignal) (file : FileCopies) :
    Prop where
  signal : Rebuilt copies row → ∀ entry, file.signal = some entry →
    entry.updated ≤ row.updated ∨ row.restoredSignal clock = entry.restored clock
  reentered : Reentered copies row →
    copies.reconciliation = none ∧ row.reconJson = none ∧ file.reconciliation = none
  stored : ¬Reentered copies row → ∀ old entry, copies.reconciliation = some old → row.reconJson = some entry →
    old.updatedAtUtc ≤ entry.updatedAtUtc ∨
      ∃ other, file.reconciliation = some other ∧ entry.updatedAtUtc < other.updatedAtUtc ∧
        old.updatedAtUtc ≤ other.updatedAtUtc
  stub : ¬Reentered copies row → copies.reconciliation = none → row.reconJson = none →
    ∀ made entry, row.stub = some made → file.reconciliation = some entry →
      made.updatedAtUtc < entry.updatedAtUtc ∨ made = entry.restored

theorem copies_eq {copies copies' : Copies} (hsignal : copies.signal = copies'.signal)
    (htrade : copies.trade = copies'.trade) (hreconciliation : copies.reconciliation = copies'.reconciliation) :
    copies = copies' :=
  congr (congr (congrArg Copies.mk hsignal) htrade) hreconciliation

section Find
variable {table : Table} {id : SignalId} {row : ExecutedSignal}

theorem find_eq_some (h : table.find id = some row) :
    row ∈ table.rows ∧ row.selected = true ∧ row.signalId = id := by
  obtain ⟨hrow, hselected⟩ := List.mem_filter.mp (List.mem_of_find?_eq_some h)
  rw [Table.find] at h
  exact ⟨hrow, hselected, by simpa using List.find?_some h⟩

theorem find_of_mem (hrow : row ∈ table.rows) (hselected : row.selected = true) :
    table.find row.signalId = some row := by
  cases hfind : table.find row.signalId with
  | none =>
    rw [Table.find, List.find?_eq_none] at hfind
    exact absurd (decide_eq_true rfl) (hfind row (List.mem_filter.mpr ⟨hrow, hselected⟩))
  | some other =>
    obtain ⟨hother, -, hid⟩ := find_eq_some hfind
    rw [List.inj_on_of_nodup_map table.nodup hother hrow hid]

/-- Each signal is merged from its own row and its own entries of the file. -/
theorem copies_restore_find (m : Managers) (clock : RestoreClock) (table : Table) (file : Option StateFile)
    (id : SignalId) :
    (m.restore clock table file).copies id =
      (m.copies id).restored clock (table.find id) (fileCopies file id) := by
  cases hfind : table.find id with
  | some row =>
    obtain ⟨hrow, hselected, rfl⟩ := find_eq_some hfind
    exact copies_restore hrow hselected file
  | none =>
    apply copies_restore_other
    intro row hrow hid
    rw [Table.find, List.find?_eq_none] at hfind
    by_contra hselected
    rw [Bool.not_eq_false] at hselected
    exact hfind row (List.mem_filter.mpr ⟨hrow, hselected⟩) (decide_eq_true hid)

end Find

/-! ### The turn of a row -/

section Row
variable {clock : RestoreClock} {copies : Copies} {row : ExecutedSignal}

theorem rebuilt_iff : copies.signal.all (·.lastUpdatedUtc ≤ row.updated) = true ↔ Rebuilt copies row := by
  rw [Option.all_eq_true]
  exact forall₂_congr fun _ _ => decide_eq_true_iff

theorem newer_of_not_rebuilt (h : ¬Rebuilt copies row) :
    ∃ sig, copies.signal = some sig ∧ row.updated < sig.lastUpdatedUtc := by
  simpa only [Rebuilt, not_forall, not_le, exists_prop] using h

theorem restored_updated (trade : Audit.AuditTradeRecord) (usable : String → Bool) :
    (trade.restored usable).updatedAtUtc = trade.updatedAtUtc := by
  rw [Audit.AuditTradeRecord.restored]
  split
  · split <;> rfl
  · rfl

theorem auditRecord_updated (row : ExecutedSignal) (clock : RestoreClock) :
    (row.auditRecord clock).updatedAtUtc = row.updatedAtUtc := restored_updated _ clock.usable

theorem fromRow_trade (copies : Copies) (clock : RestoreClock) (row : ExecutedSignal) :
    (copies.fromRow clock row).trade =
      if copies.trade.all (·.updatedAtUtc ≤ row.updatedAtUtc) then some (row.auditRecord clock)
      else copies.trade := by
  rw [Copies.fromRow]
  split
  · split <;> rfl
  · rfl

theorem fromRow_signal_other (h : ¬Rebuilt copies row) : (copies.fromRow clock row).signal = copies.signal := by
  rw [Copies.fromRow, if_neg (mt rebuilt_iff.mp h)]

/-- The record of an entry that is reconciled once more is of the time of the restore. -/
theorem fromRow_reentered (clock : RestoreClock) (h : Reentered copies row) :
    ∃ fresh, (copies.fromRow clock row).reconciliation = some fresh ∧ fresh.updatedAtUtc = clock.nowMs := by
  obtain ⟨hrebuilt, hfill⟩ := h
  obtain ⟨fill, hfill⟩ := Option.isSome_iff_exists.mp hfill
  rw [Copies.fromRow, if_pos (rebuilt_iff.mpr hrebuilt), hfill]
  exact ⟨_, rfl, rfl⟩

theorem fromRow_reconciliation (clock : RestoreClock) (h : ¬Reentered copies row) :
    (copies.fromRow clock row).reconciliation =
      row.reconJson.or (copies.reconciliation.or row.stub) := by
  rw [Copies.fromRow]
  split
  · rename_i hrebuilt
    have hfill : row.premium row.actualFillPrice = none := by
      rw [← Option.not_isSome_iff_eq_none]
      exact fun hfill => h ⟨rebuilt_iff.mp hrebuilt, hfill⟩
    rw [hfill]
    cases row.reconJson with
    | none => rfl
    | some stored => rfl
  · cases row.reconJson with
    | none => rfl
    | some stored => rfl

end Row

/-! ### The newest copy of each kind -/

section Newest
variable {clock : RestoreClock} {copies : Copies} {row : ExecutedSignal} {file : FileCopies}

theorem newest_toList {α : Type} (stamp : α → Int) (held : Option α) (v : α) (h : held = some v) :
    IsNewest Prod.fst (held.map fun v => (stamp v, v)).toList (stamp v, v) := by
  rw [h]
  exact IsNewest.single Prod.fst _

theorem mem_toList_map {α β : Type} {held : Option α} {f : α → β} {b : β} :
    b ∈ (held.map f).toList ↔ ∃ a, held = some a ∧ f a = b := by
  rw [Option.mem_toList, Option.map_eq_some_iff]

theorem toList_eq_nil {α β : Type} {held : Option α} (f : α → β) (h : held = none) : (held.map f).toList = [] := by
  rw [h]
  rfl

/-- Of the receipts the newest is held, whatever their order. -/
theorem trade_newest (clock : RestoreClock) (copies : Copies) (row : Option ExecutedSignal) (file : FileCopies) :
    NewestWins (tradeSources clock copies row file) (copies.restored clock row file).trade := by
  cases row with
  | none =>
    rw [tradeSources, Option.map_none, Option.toList_none, List.append_nil]
    exact Dict.newestWins_keepNewer (newest_toList _ copies.trade) (toList_eq_nil _) (fun _ _ => rfl) file.trade
  | some row =>
    have hold : ∀ held, (copies.fromRow clock row).trade = some held →
        IsNewest Prod.fst ((copies.trade.map fun trade => (trade.updatedAtUtc, trade)).toList ++
          [(row.updatedAtUtc, row.auditRecord clock)]) (held.updatedAtUtc, held) := by
      intro held hheld
      rw [fromRow_trade] at hheld
      cases hmem : copies.trade with
      | none =>
        rw [hmem, Option.all_none, if_pos rfl] at hheld
        cases hheld
        rw [auditRecord_updated]
        exact IsNewest.single Prod.fst (row.updatedAtUtc, row.auditRecord clock)
      | some old =>
        have hold : IsNewest Prod.fst [(old.updatedAtUtc, old)] (old.updatedAtUtc, old) := IsNewest.single Prod.fst _
        rw [hmem, Option.all_some] at hheld
        by_cases hle : old.updatedAtUtc ≤ row.updatedAtUtc
        · rw [if_pos (decide_eq_true hle)] at hheld
          cases hheld
          rw [auditRecord_updated]
          exact IsNewest.take Prod.fst (b := (row.updatedAtUtc, row.auditRecord clock)) hold hle
        · rw [if_neg (mt of_decide_eq_true hle)] at hheld
          cases hheld
          exact IsNewest.keep Prod.fst (b := (row.updatedAtUtc, row.auditRecord clock)) hold (le_of_not_ge hle)
    have hnone : (copies.fromRow clock row).trade = none →
        (copies.trade.map fun trade => (trade.updatedAtUtc, trade)).toList ++
          [(row.updatedAtUtc, row.auditRecord clock)] = [] := by
      intro hnone
      rw [fromRow_trade] at hnone
      split at hnone
      · cases hnone
      · rename_i hall
        rw [hnone] at hall
        exact absurd rfl hall
    exact Dict.newestWins_keepNewer hold hnone (fun _ _ => rfl) file.trade

theorem restored_signal (hdated : Dated clock copies (some row) file) (hrebuilt : Rebuilt copies row) :
    (copies.restored clock (some row) file).signal = some (row.restoredSignal clock) := by
  exact fromFile_signal (fromRow_signal hrebuilt) fun entry hentry => (hdated.fileSignal entry hentry).le

theorem signal_newest_iff (hdated : Dated clock copies (some row) file) :
    NewestWins (signalSources clock copies (some row) file) (copies.restored clock (some row) file).signal ↔
      (Rebuilt copies row → ∀ entry, file.signal = some entry →
        entry.updated ≤ row.updated ∨ row.restoredSignal clock = entry.restored clock) := by
  by_cases hrebuilt : Rebuilt copies row
  · rw [restored_signal hdated hrebuilt]
    have hmem : (row.updated, row.restoredSignal clock) ∈ signalSources clock copies (some row) file :=
      List.mem_append_left _ (List.mem_append_right _ List.mem_cons_self)
    have hcases : ∀ source ∈ signalSources clock copies (some row) file, source.1 ≤ row.updated ∨
        ∃ entry, file.signal = some entry ∧ source = (entry.updated, entry.restored clock) := by
      intro source hsource
      simp only [signalSources, List.mem_append, mem_toList_map] at hsource
      rcases hsource with (⟨sig, hsig, rfl⟩ | ⟨_, hrow, rfl⟩) | ⟨entry, hentry, rfl⟩
      · exact .inl (hrebuilt sig hsig)
      · cases hrow
        exact .inl le_rfl
      · exact .inr ⟨entry, hentry, rfl⟩
    constructor
    · intro hwins _ entry hentry
      by_cases hle : entry.updated ≤ row.updated
      · exact .inl hle
      · obtain ⟨source, ⟨hsource, hmax⟩, hheld⟩ := hwins (List.ne_nil_of_mem hmem)
        have hfile : (entry.updated, entry.restored clock) ∈ signalSources clock copies (some row) file := by
          rw [signalSources, hentry]
          exact List.mem_append_right _ List.mem_cons_self
        rcases hcases source hsource with hrow | ⟨_, hsame, rfl⟩
        · exact absurd (le_trans (hmax _ hfile) hrow) hle
        · rw [hentry] at hsame
          cases hsame
          exact .inr (Option.some.inj hheld)
    · intro hsafe _
      cases hentry : file.signal with
      | none =>
        refine ⟨_, ⟨hmem, ?_⟩, rfl⟩
        intro source hsource
        rcases hcases source hsource with hle | ⟨_, hsame, -⟩
        · exact hle
        · rw [hentry] at hsame
          cases hsame
      | some entry =>
        by_cases hle : entry.updated ≤ row.updated
        · refine ⟨_, ⟨hmem, ?_⟩, rfl⟩
          intro source hsource
          rcases hcases source hsource with hrow | ⟨_, hsame, rfl⟩
          · exact hrow
          · rw [hentry] at hsame
            cases hsame
            exact hle
        · have hsame := (hsafe hrebuilt entry hentry).resolve_left hle
          refine ⟨(entry.updated, entry.restored clock), ⟨?_, ?_⟩, congrArg some hsame⟩
          · rw [signalSources, hentry]
            exact List.mem_append_right _ List.mem_cons_self
          · intro source hsource
            rcases hcases source hsource with hrow | ⟨_, hother, rfl⟩
            · exact le_trans hrow (le_of_not_ge hle)
            · rw [hentry] at hother
              cases hother
              exact le_rfl
  · refine iff_of_true ?_ (fun h => absurd h hrebuilt)
    obtain ⟨sig, hsig, hlt⟩ := newer_of_not_rebuilt hrebuilt
    have hold : ∀ held, (copies.fromRow clock row).signal = some held →
        IsNewest Prod.fst ((copies.signal.map fun sig => (sig.lastUpdatedUtc, sig)).toList ++
          [(row.updated, row.restoredSignal clock)]) (held.lastUpdatedUtc, held) := by
      intro held hheld
      rw [fromRow_signal_other hrebuilt, hsig] at hheld
      cases hheld
      have hmem := newest_toList (fun sig => sig.lastUpdatedUtc) copies.signal sig hsig
      exact IsNewest.keep Prod.fst (b := (row.updated, row.restoredSignal clock)) hmem hlt.le
    have hnone : (copies.fromRow clock row).signal = none →
        (copies.signal.map fun sig => (sig.lastUpdatedUtc, sig)).toList ++
          [(row.updated, row.restoredSignal clock)] = [] := by
      intro hnone
      rw [fromRow_signal_other hrebuilt, hsig] at hnone
      cases hnone
    exact Dict.newestWins_keepNewer hold hnone (fun _ _ => rfl) file.signal

theorem signal_newest (clock : RestoreClock) (copies : Copies) (file : FileCopies) :
    NewestWins (signalSources clock copies none file) (copies.restored clock none file).signal := by
  rw [signalSources, Option.map_none, Option.toList_none, List.append_nil]
  exact Dict.newestWins_keepNewer (newest_toList _ copies.signal) (toList_eq_nil _) (fun _ _ => rfl) file.signal

/-- Each reconciliation record carries the timestamp it is compared by. -/
theorem reconciliationSources_stamped (copies : Copies) (row : Option ExecutedSignal) (file : FileCopies) :
    ∀ source ∈ reconciliationSources copies row file, source.2.updatedAtUtc = source.1 := by
  intro source hsource
  simp only [reconciliationSources, List.mem_append, mem_toList_map] at hsource
  rcases hsource with (⟨_, _, rfl⟩ | ⟨_, _, rfl⟩) | ⟨_, _, rfl⟩ <;> rfl

theorem reconciliationSources_eq_nil :
    reconciliationSources copies (some row) file = [] ↔
      copies.reconciliation = none ∧ row.reconJson = none ∧ file.reconciliation = none := by
  simp [reconciliationSources]

theorem reconciliation_fromFile (copies : Copies) (clock : RestoreClock) (file : FileCopies) :
    (copies.fromFile clock file).reconciliation =
      (file.reconciliation.map (Dict.keepNewer Reconciliation.restored
        (fun entry existing => existing.updatedAtUtc < entry.updatedAtUtc) copies.reconciliation)).or
          copies.reconciliation := rfl

/-- An entry reconciled once more is newer than every record of a source. -/
theorem reconciliation_reentered_iff (hdated : Dated clock copies (some row) file) (h : Reentered copies row) :
    NewestWins (reconciliationSources copies (some row) file)
        (copies.restored clock (some row) file).reconciliation ↔
      copies.reconciliation = none ∧ row.reconJson = none ∧ file.reconciliation = none := by
  obtain ⟨fresh, hfresh, hstamp⟩ := fromRow_reentered clock h
  rw [← reconciliationSources_eq_nil]
  have hheld : (copies.restored clock (some row) file).reconciliation = some fresh := by
    rw [Copies.restored, reconciliation_fromFile, hfresh]
    cases hentry : file.reconciliation with
    | none => rfl
    | some entry =>
      have hle := (hdated.fileReconciliation entry hentry).le
      simp [Dict.keepNewer, hstamp, hle]
  constructor
  · intro hwins
    by_contra hmem
    rw [hheld, newestWins_iff_of_stamped (fun entry => entry.updatedAtUtc) hmem
      (reconciliationSources_stamped copies (some row) file)] at hwins
    have hsource := hwins.1
    simp only [reconciliationSources, List.mem_append, mem_toList_map] at hsource
    have hlt : fresh.updatedAtUtc < clock.nowMs := by
      rcases hsource with (⟨entry, hentry, hsame⟩ | ⟨entry, hentry, hsame⟩) | ⟨entry, hentry, hsame⟩
      · rw [← (Prod.mk.inj hsame).1]
        exact hdated.reconciliation entry hentry
      · rw [← (Prod.mk.inj hsame).1]
        exact hdated.stored row entry rfl hentry
      · rw [← (Prod.mk.inj hsame).1]
        exact hdated.fileReconciliation entry hentry
    exact absurd hstamp hlt.ne
  · intro hnil hmem
    exact absurd hnil hmem

/-- A stored record takes the place of a newer one in memory, unless the file has the newest. -/
theorem reconciliation_stored_iff (h : ¬Reentered copies row) {entry : Reconciliation}
    (hjson : row.reconJson = some entry) :
    NewestWins (reconciliationSources copies (some row) file)
        (copies.restored clock (some row) file).reconciliation ↔
      ∀ old, copies.reconciliation = some old → old.updatedAtUtc ≤ entry.updatedAtUtc ∨
        ∃ other, file.reconciliation = some other ∧ entry.updatedAtUtc < other.updatedAtUtc ∧
          old.updatedAtUtc ≤ other.updatedAtUtc := by
  have hstamp := reconciliationSources_stamped copies (some row) file
  rw [Copies.restored, reconciliation_fromFile, fromRow_reconciliation clock h, hjson, Option.some_or]
  cases hmem : copies.reconciliation with
  | none =>
    refine iff_of_true ?_ ?_
    · have hold := newest_toList (fun entry : Reconciliation => entry.updatedAtUtc) (some entry)
      rw [reconciliationSources, hmem, Option.bind_some, hjson]
      exact Dict.newestWins_keepNewer hold (toList_eq_nil _) (fun _ _ => rfl) file.reconciliation
    · intro old hold
      cases hold
  | some old =>
    have hmemOld : (old.updatedAtUtc, old) ∈ reconciliationSources copies (some row) file := by
      rw [reconciliationSources, hmem]
      exact List.mem_append_left _ (List.mem_append_left _ List.mem_cons_self)
    by_cases hle : old.updatedAtUtc ≤ entry.updatedAtUtc
    · refine iff_of_true ?_ ?_
      · have hold : ∀ held, some entry = some held → IsNewest Prod.fst
            ([(old.updatedAtUtc, old)] ++ [(entry.updatedAtUtc, entry)]) (held.updatedAtUtc, held) := by
          intro held hheld
          cases hheld
          exact IsNewest.take Prod.fst (b := (entry.updatedAtUtc, entry))
            (IsNewest.single Prod.fst (old.updatedAtUtc, old)) hle
        rw [reconciliationSources, hmem, Option.bind_some, hjson]
        exact Dict.newestWins_keepNewer hold nofun (fun _ _ => rfl) file.reconciliation
      · intro _ hheld
        cases hheld
        exact .inl hle
    · have hne := List.ne_nil_of_mem hmemOld
      constructor
      · intro hwins _ hheld
        cases hheld
        right
        cases hfile : file.reconciliation with
        | none =>
          rw [hfile, Option.map_none, Option.none_or, newestWins_iff_of_stamped _ hne hstamp] at hwins
          exact absurd (hwins.2 _ hmemOld) hle
        | some other =>
          rw [hfile, Option.map_some, Option.some_or, Dict.keepNewer] at hwins
          by_cases hlt : entry.updatedAtUtc < other.updatedAtUtc
          · rw [decide_eq_true hlt, if_pos rfl, newestWins_iff_of_stamped _ hne hstamp] at hwins
            exact ⟨other, rfl, hlt, hwins.2 _ hmemOld⟩
          · rw [decide_eq_false hlt, if_neg Bool.false_ne_true, newestWins_iff_of_stamped _ hne hstamp] at hwins
            exact absurd (hwins.2 _ hmemOld) hle
      · intro hsafe
        obtain ⟨other, hfile, hlt, hother⟩ := (hsafe old rfl).resolve_left hle
        rw [hfile, Option.map_some, Option.some_or, Dict.keepNewer, decide_eq_true hlt, if_pos rfl,
          newestWins_iff_of_stamped _ hne hstamp, reconciliationSources, hmem, Option.bind_some, hjson, hfile]
        have hold : IsNewest Prod.fst ([(old.updatedAtUtc, old)] ++ [(entry.updatedAtUtc, entry)])
            (old.updatedAtUtc, old) :=
          IsNewest.keep Prod.fst (IsNewest.single Prod.fst (old.updatedAtUtc, old)) (le_of_not_ge hle)
        exact IsNewest.take Prod.fst (b := (other.updatedAtUtc, other.restored)) hold hother

/-- A stub stands for the row, and only a newer record of the file takes its place. -/
theorem reconciliation_stub_iff (h : ¬Reentered copies row) (hjson : row.reconJson = none) :
    NewestWins (reconciliationSources copies (some row) file)
        (copies.restored clock (some row) file).reconciliation ↔
      (copies.reconciliation = none → ∀ made entry, row.stub = some made → file.reconciliation = some entry →
        made.updatedAtUtc < entry.updatedAtUtc ∨ made = entry.restored) := by
  rw [Copies.restored, reconciliation_fromFile, fromRow_reconciliation clock h, hjson, Option.none_or,
    reconciliationSources, Option.bind_some, hjson, Option.map_none, Option.toList_none, List.append_nil]
  cases hmem : copies.reconciliation with
  | some old =>
    refine iff_of_true ?_ ?_
    · have hold := newest_toList (fun entry : Reconciliation => entry.updatedAtUtc) (some old)
      rw [Option.some_or]
      exact Dict.newestWins_keepNewer hold (toList_eq_nil _) (fun _ _ => rfl) file.reconciliation
    · intro hnone
      cases hnone
  | none =>
    rw [Option.none_or, Option.map_none, Option.toList_none, List.nil_append]
    cases hfile : file.reconciliation with
    | none =>
      refine iff_of_true ?_ ?_
      · intro hne
        exact absurd rfl hne
      · intro _ made entry _ hentry
        cases hentry
    | some entry =>
      rw [Option.map_some, Option.toList_some, Option.map_some, Option.some_or]
      cases hstub : row.stub with
      | none =>
        refine iff_of_true ?_ ?_
        · intro _
          exact ⟨_, IsNewest.single Prod.fst _, rfl⟩
        · intro _ made _ hmade
          cases hmade
      | some made =>
        rw [Dict.keepNewer]
        by_cases hlt : made.updatedAtUtc < entry.updatedAtUtc
        · rw [decide_eq_true hlt, if_pos rfl]
          refine iff_of_true ?_ ?_
          · intro _
            exact ⟨_, IsNewest.single Prod.fst _, rfl⟩
          · intro _ _ _ hmade hentry
            cases hmade
            cases hentry
            exact .inl hlt
        · rw [decide_eq_false hlt, if_neg Bool.false_ne_true]
          constructor
          · intro hwins _ _ _ hmade hentry
            cases hmade
            cases hentry
            obtain ⟨source, ⟨hsource, -⟩, hheld⟩ := hwins (List.cons_ne_nil _ _)
            rw [List.mem_singleton.mp hsource] at hheld
            exact .inr (Option.some.inj hheld)
          · intro hsafe _
            have hsame := (hsafe rfl made entry rfl rfl).resolve_left hlt
            exact ⟨_, IsNewest.single Prod.fst _, congrArg some hsame⟩

theorem reconciliation_newest (clock : RestoreClock) (copies : Copies) (file : FileCopies) :
    NewestWins (reconciliationSources copies none file) (copies.restored clock none file).reconciliation := by
  rw [reconciliationSources, Option.bind_none, Option.map_none, Option.toList_none, List.append_nil]
  exact Dict.newestWins_keepNewer (newest_toList _ copies.reconciliation) (toList_eq_nil _) (fun _ _ => rfl)
    file.reconciliation

end Newest

/-! ### The restore once more -/

section Again
variable {clock later : RestoreClock} {copies : Copies} {row : ExecutedSignal} {file : FileCopies}

theorem made_not_newer (clock : RestoreClock) (entry : FileSignal) (h : entry.updated < clock.nowMs) :
    ¬(entry.restored clock).lastUpdatedUtc < entry.updated := by
  rw [FileSignal.restored, FileSignal.updated] at *
  cases hstamp : entry.lastUpdatedUtc with
  | none =>
    rw [hstamp] at h
    exact not_lt.mpr h.le
  | some t => exact lt_irrefl t

theorem restored_upToDate (hdated : Dated clock copies (some row) file) :
    ∃ sig, (copies.restored clock (some row) file).signal = some sig ∧ row.updated < sig.lastUpdatedUtc ∧
      ∀ entry, file.signal = some entry → entry.updated ≤ sig.lastUpdatedUtc := by
  have hrow := hdated.rowUpdated row rfl
  by_cases hrebuilt : Rebuilt copies row
  · refine ⟨_, restored_signal hdated hrebuilt, ?_, ?_⟩
    · rwa [(restoredSignal_fields clock row).2.2.1]
    · rw [(restoredSignal_fields clock row).2.2.1]
      exact fun entry hentry => (hdated.fileSignal entry hentry).le
  · obtain ⟨sig, hsig, hlt⟩ := newer_of_not_rebuilt hrebuilt
    rw [Copies.restored, Copies.fromFile]
    dsimp only
    rw [fromRow_signal_other hrebuilt, hsig]
    cases hentry : file.signal with
    | none =>
      refine ⟨sig, rfl, hlt, ?_⟩
      intro entry hsome
      cases hsome
    | some entry =>
      rw [Option.map_some, Option.some_or, Dict.keepNewer]
      by_cases hnewer : sig.lastUpdatedUtc < entry.updated
      · have hmade := not_lt.mp (made_not_newer clock entry (hdated.fileSignal entry hentry))
        rw [decide_eq_true hnewer, if_pos rfl]
        refine ⟨_, rfl, lt_of_lt_of_le (hlt.trans hnewer) hmade, ?_⟩
        intro _ hsame
        cases hsame
        exact hmade
      · rw [decide_eq_false hnewer, if_neg Bool.false_ne_true]
        refine ⟨_, rfl, hlt, ?_⟩
        intro _ hsame
        cases hsame
        exact not_lt.mp hnewer

theorem signal_again (hdated : Dated clock copies (some row) file) (later : RestoreClock) :
    ((copies.restored clock (some row) file).restored later (some row) file).signal =
      (copies.restored clock (some row) file).signal := by
  obtain ⟨sig, hsig, hlt, hfile⟩ := restored_upToDate hdated
  have hkept : ¬Rebuilt (copies.restored clock (some row) file) row :=
    fun hrebuilt => absurd (hrebuilt sig hsig) (not_le.mpr hlt)
  refine (Dict.keepNewer_stays ?_).trans (fromRow_signal_other hkept)
  intro entry hentry
  exact ⟨sig, (fromRow_signal_other hkept).trans hsig, decide_eq_false (not_lt.mpr (hfile entry hentry))⟩

/-- The restored receipt is no older than the file's, and no older than the row's but for being that. -/
theorem restored_trade (clock : RestoreClock) (copies : Copies) (row : ExecutedSignal) (file : FileCopies) :
    ∃ trade, (copies.restored clock (some row) file).trade = some trade ∧
      (trade.updatedAtUtc ≤ row.updatedAtUtc → trade = row.auditRecord clock) ∧
      ∀ entry, file.trade = some entry → entry.updatedAtUtc ≤ trade.updatedAtUtc := by
  obtain ⟨kept, hkept, hle, hsame⟩ : ∃ kept, (copies.fromRow clock row).trade = some kept ∧
      row.updatedAtUtc ≤ kept.updatedAtUtc ∧
      (kept.updatedAtUtc ≤ row.updatedAtUtc → kept = row.auditRecord clock) := by
    rw [fromRow_trade]
    split
    · exact ⟨_, rfl, (auditRecord_updated row clock).ge, fun _ => rfl⟩
    · rename_i hall
      rw [Option.all_eq_true] at hall
      push Not at hall
      obtain ⟨old, hold, hlt⟩ := hall
      have hlt : ¬old.updatedAtUtc ≤ row.updatedAtUtc := fun hle => hlt (decide_eq_true hle)
      exact ⟨old, hold, (not_le.mp hlt).le, fun hle => absurd hle hlt⟩
  rw [Copies.restored, Copies.fromFile]
  dsimp only
  rw [hkept]
  cases hentry : file.trade with
  | none =>
    refine ⟨kept, rfl, hsame, ?_⟩
    intro entry hsome
    cases hsome
  | some entry =>
    rw [Option.map_some, Option.some_or, Dict.keepNewer]
    by_cases hnewer : kept.updatedAtUtc < entry.updatedAtUtc
    · have hmade : (entry.restored clock.usable).updatedAtUtc = entry.updatedAtUtc := restored_updated entry clock.usable
      rw [decide_eq_true hnewer, if_pos rfl]
      refine ⟨_, rfl, ?_, ?_⟩
      · intro hrow
        rw [hmade] at hrow
        exact absurd (hle.trans_lt hnewer) (not_lt.mpr hrow)
      · intro _ hsome
        cases hsome
        exact hmade.ge
    · rw [decide_eq_false hnewer, if_neg Bool.false_ne_true]
      refine ⟨_, rfl, hsame, ?_⟩
      intro _ hsome
      cases hsome
      exact not_lt.mp hnewer

theorem trade_again {clock later : RestoreClock} (husable : later.usable = clock.usable) (copies : Copies)
    (row : ExecutedSignal) (file : FileCopies) :
    ((copies.restored clock (some row) file).restored later (some row) file).trade =
      (copies.restored clock (some row) file).trade := by
  obtain ⟨trade, htrade, hrow, hfile⟩ := restored_trade clock copies row file
  have hkept : ((copies.restored clock (some row) file).fromRow later row).trade =
      (copies.restored clock (some row) file).trade := by
    rw [fromRow_trade]
    split
    · rename_i hall
      rw [htrade, Option.all_some] at hall
      rw [htrade, hrow (of_decide_eq_true hall), ExecutedSignal.auditRecord, ExecutedSignal.auditRecord, husable]
    · rfl
  refine (Dict.keepNewer_stays ?_).trans hkept
  intro entry hentry
  exact ⟨trade, hkept.trans htrade, decide_eq_false (not_lt.mpr (hfile entry hentry))⟩

/-- The second restore reconciles no entry, so it takes the row's stored record or leaves the restored one. -/
theorem reconciliation_again (hdated : Dated clock copies (some row) file) (later : RestoreClock)
    (hsafe : Reentered copies row → row.reconJson = none) :
    ((copies.restored clock (some row) file).restored later (some row) file).reconciliation =
      (copies.restored clock (some row) file).reconciliation := by
  obtain ⟨sig, hsig, hlt, -⟩ := restored_upToDate hdated
  have hother : ¬Reentered (copies.restored clock (some row) file) row :=
    fun hagain => absurd (hagain.1 sig hsig) (not_le.mpr hlt)
  have hsecond := fromRow_reconciliation later hother
  by_cases hreentered : Reentered copies row
  · obtain ⟨fresh, hfresh, hstamp⟩ := fromRow_reentered clock hreentered
    have hfile : ∀ entry, file.reconciliation = some entry →
        ∃ held, some fresh = some held ∧ decide (held.updatedAtUtc < entry.updatedAtUtc) = false := by
      intro entry hentry
      have hle := (hdated.fileReconciliation entry hentry).le
      rw [← hstamp] at hle
      exact ⟨fresh, rfl, decide_eq_false (not_lt.mpr hle)⟩
    have hfirst : (copies.restored clock (some row) file).reconciliation = some fresh := by
      rw [Copies.restored, reconciliation_fromFile, hfresh]
      exact Dict.keepNewer_stays hfile
    rw [hsafe hreentered, Option.none_or, hfirst, Option.some_or] at hsecond
    rw [hfirst, Copies.restored, reconciliation_fromFile, hsecond]
    exact Dict.keepNewer_stays hfile
  · have hfirst : (copies.restored clock (some row) file).reconciliation = _ :=
      (reconciliation_fromFile _ clock file).trans
        (by rw [fromRow_reconciliation clock hreentered])
    rw [Copies.restored, reconciliation_fromFile, hsecond, hfirst]
    cases row.reconJson with
    | some stored => rfl
    | none =>
      rw [Option.none_or, Option.none_or]
      -- the stub has been taken already where there is nothing else
      have hstub : ∀ kept : Option Reconciliation,
          (kept.or (copies.reconciliation.or row.stub)).or row.stub =
            kept.or (copies.reconciliation.or row.stub) := by
        intro kept
        rw [Option.or_assoc, Option.or_assoc, Option.or_self]
      rw [hstub]
      apply Dict.keepNewer_stays
      apply Dict.not_newer_keepNewer
      intro entry _
      exact decide_eq_false (lt_irrefl entry.updatedAtUtc)

/-- Without a row the file's entries change nothing the second time. -/
theorem fromFile_again (hdated : Dated clock copies none file) (later : RestoreClock) :
    (copies.fromFile clock file).fromFile later file = copies.fromFile clock file := by
  apply copies_eq
  · apply Dict.keepNewer_stays
    apply Dict.not_newer_keepNewer
    intro entry hentry
    exact decide_eq_false (made_not_newer clock entry (hdated.fileSignal entry hentry))
  · apply Dict.keepNewer_stays
    apply Dict.not_newer_keepNewer
    intro entry _
    rw [restored_updated]
    exact decide_eq_false (lt_irrefl entry.updatedAtUtc)
  · apply Dict.keepNewer_stays
    apply Dict.not_newer_keepNewer
    intro entry _
    exact decide_eq_false (lt_irrefl entry.updatedAtUtc)

end Again

/-! ### The merge -/

section Merge
variable {clock : RestoreClock} {copies : Copies} {file : FileCopies}

theorem merged_iff {row : ExecutedSignal} (hdated : Dated clock copies (some row) file) :
    Merged clock copies (some row) file ↔ MergeSafe clock copies row file := by
  constructor
  · rintro ⟨hsignal, -, hreconciliation, -⟩
    refine ⟨(signal_newest_iff hdated).mp hsignal, ?_, ?_, ?_⟩
    · exact fun h => (reconciliation_reentered_iff hdated h).mp hreconciliation
    · intro h old entry hold hjson
      exact (reconciliation_stored_iff h hjson).mp hreconciliation old hold
    · intro h hmem hjson
      exact (reconciliation_stub_iff h hjson).mp hreconciliation hmem
  · rintro ⟨hsignal, hreentered, hstored, hstub⟩
    refine ⟨(signal_newest_iff hdated).mpr hsignal, trade_newest _ _ _ _, ?_, ?_⟩
    · by_cases h : Reentered copies row
      · exact (reconciliation_reentered_iff hdated h).mpr (hreentered h)
      · cases hjson : row.reconJson with
        | none => exact (reconciliation_stub_iff h hjson).mpr (fun hmem => hstub h hmem hjson)
        | some entry => exact (reconciliation_stored_iff h hjson).mpr (fun old hold => hstored h old entry hold hjson)
    · intro later _ husable
      exact copies_eq (signal_again hdated later) (trade_again husable copies row file)
        (reconciliation_again hdated later (fun h => (hreentered h).2.1))

/-- A signal without a row is always merged. -/
theorem merged_none (hdated : Dated clock copies none file) : Merged clock copies none file where
  signal := signal_newest clock copies file
  trade := trade_newest clock copies none file
  reconciliation := reconciliation_newest clock copies file
  again := fun later _ _ => fromFile_again hdated later

end Merge

/-- For copies of before the restore: of every signal the newest copies are in memory, and a later restore changes
nothing, exactly where every selected row is safe to merge. -/
theorem merged_everywhere_iff (m : Managers) (clock : RestoreClock) (table : Table) (file : Option StateFile)
    (hdated : ∀ id, Dated clock (m.copies id) (table.find id) (fileCopies file id)) :
    (∀ id,
      NewestWins (signalSources clock (m.copies id) (table.find id) (fileCopies file id))
        ((m.restore clock table file).copies id).signal ∧
      NewestWins (tradeSources clock (m.copies id) (table.find id) (fileCopies file id))
        ((m.restore clock table file).copies id).trade ∧
      NewestWins (reconciliationSources (m.copies id) (table.find id) (fileCopies file id))
        ((m.restore clock table file).copies id).reconciliation ∧
      ∀ later : RestoreClock, clock.nowMs ≤ later.nowMs → later.usable = clock.usable →
        ((m.restore clock table file).restore later table file).copies id =
          (m.restore clock table file).copies id) ↔
    ∀ row ∈ table.rows, row.selected = true →
      MergeSafe clock (m.copies row.signalId) row (fileCopies file row.signalId) := by
  simp only [copies_restore_find]
  constructor
  · intro hmerged row hrow hselected
    obtain ⟨hsignal, htrade, hreconciliation, hagain⟩ := hmerged row.signalId
    have hdated := hdated row.signalId
    rw [find_of_mem hrow hselected] at hsignal htrade hreconciliation hagain hdated
    exact (merged_iff hdated).mp ⟨hsignal, htrade, hreconciliation, hagain⟩
  · intro hsafe id
    have hmerged : Merged clock (m.copies id) (table.find id) (fileCopies file id) := by
      have hdated := hdated id
      cases hfind : table.find id with
      | none =>
        rw [hfind] at hdated
        exact merged_none hdated
      | some row =>
        rw [hfind] at hdated
        obtain ⟨hrow, hselected, rfl⟩ := find_eq_some hfind
        exact (merged_iff hdated).mpr (hsafe row hrow hselected)
    exact ⟨hmerged.signal, hmerged.trade, hmerged.reconciliation, hmerged.again⟩

/-- The entered row of the table, alone. -/
theorem merged_everywhere_entered :
    (∀ id,
      NewestWins (signalSources atTen (({} : Managers).copies id) (enteredTable.find id) (fileCopies none id))
        ((({} : Managers).restore atTen enteredTable none).copies id).signal ∧
      NewestWins (tradeSources atTen (({} : Managers).copies id) (enteredTable.find id) (fileCopies none id))
        ((({} : Managers).restore atTen enteredTable none).copies id).trade ∧
      NewestWins (reconciliationSources (({} : Managers).copies id) (enteredTable.find id) (fileCopies none id))
        ((({} : Managers).restore atTen enteredTable none).copies id).reconciliation ∧
      ∀ later : RestoreClock, atTen.nowMs ≤ later.nowMs → later.usable = atTen.usable →
        ((({} : Managers).restore atTen enteredTable none).restore later enteredTable none).copies id =
          (({} : Managers).restore atTen enteredTable none).copies id) ↔
    ∀ row ∈ enteredTable.rows, row.selected = true →
      MergeSafe atTen (({} : Managers).copies row.signalId) row (fileCopies none row.signalId) :=
  have hentered : ∀ {id row}, enteredTable.find id = some row → row = enteredRow := fun hfind =>
    List.mem_singleton.mp (find_eq_some hfind).1
  have hdated : ∀ id, Dated atTen (({} : Managers).copies id) (enteredTable.find id) (fileCopies none id) := by
    intro id
    constructor
    · intro entry h
      cases h
    · intro row h
      rw [hentered h]
      decide +kernel
    · intro row entry h hentry
      rw [hentered h] at hentry
      cases hentry
      decide +kernel
    · intro entry h
      cases h
    · intro entry h
      cases h
  merged_everywhere_iff {} atTen enteredTable none hdated

/-- The state file with a copy of the signal of a later time than its row. -/
def laterFile : StateFile where
  fsmSignals := Dict.empty.insert "two lots"
    { signal := { enteredRow.signalInstance ⟨7, fun _ => true⟩ with fsmState := .target1Hit }
      lastUpdatedUtc := some 7 }

/-- The newer copy of the file is not taken, as the row's was stamped with the time of the restore. -/
theorem older_row_kept :
    ¬NewestWins (signalSources atTen (({} : Managers).copies "two lots") (enteredTable.find "two lots")
        (fileCopies (some laterFile) "two lots"))
      ((({} : Managers).restore atTen enteredTable (some laterFile)).copies "two lots").signal := by
  intro hwins
  have hlatest : ∃ source ∈ signalSources atTen (({} : Managers).copies "two lots") (enteredTable.find "two lots")
      (fileCopies (some laterFile) "two lots"), source.1 = 7 := by decide +kernel
  have hstates : ∀ source ∈ signalSources atTen (({} : Managers).copies "two lots") (enteredTable.find "two lots")
      (fileCopies (some laterFile) "two lots"), source.1 < 7 ∨ source.2.fsmState = .target1Hit := by decide +kernel
  have hheld : ((({} : Managers).restore atTen enteredTable (some laterFile)).copies "two lots").signal.map
      (fun sig => sig.fsmState) = some .confirmed := by decide +kernel
  obtain ⟨latest, hlatest, hseven⟩ := hlatest
  obtain ⟨source, ⟨hsource, hmax⟩, hsame⟩ := hwins (List.ne_nil_of_mem hlatest)
  rw [hsame] at hheld
  rcases hstates source hsource with hlt | hstate
  · have hle := hmax latest hlatest
    rw [hseven] at hle
    exact absurd hlt (not_lt.mpr hle)
  · have hconfirmed : source.2.fsmState = .confirmed := Option.some.inj hheld
    rw [hstate] at hconfirmed
    cases hconfirmed

end Droid.Restore
