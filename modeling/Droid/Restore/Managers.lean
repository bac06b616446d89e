import Droid.Restore.Rows
import Droid.Lib.Newest

/-! A restore into the signal managers: the rows of the database in the order of the query, then the state file.
The sweep of stale, corrupt and demo signals that ends a restore from a file is not part of it. -/
namespace Droid.Restore
open Lib Signals Audit

structure Managers where
  signals : Dict SignalId SignalInstance := Dict.empty
  trades : Dict SignalId Audit.AuditTradeRecord := Dict.empty
  reconciliations : Dict SignalId Reconciliation := Dict.empty

structure Copies where
  signal : Option SignalInstance := none
  trade : Option Audit.AuditTradeRecord := none
  reconciliation : Option Reconciliation := none
  deriving DecidableEq

def Managers.copies (m : Managers) (id : SignalId) : Copies where
  signal := m.signals.get? id
  trade := m.trades.get? id
  reconciliation := m.reconciliations.get? id

def assign {ν : Type} (d : Dict SignalId ν) (id : SignalId) (value : Option ν) : Dict SignalId ν :=
  match value with
  | some v => d.insert id v
  | none => d

def Managers.store (m : Managers) (id : SignalId) (copies : Copies) : Managers where
  signals := assign m.signals id copies.signal
  trades := assign m.trades id copies.trade
  reconciliations := assign m.reconciliations id copies.reconciliation

def ExecutedSignal.updated (row : ExecutedSignal) : Int :=
  if row.updatedAtUtc ≠ 0 then row.updatedAtUtc else row.createdAtUtc

def Copies.fromRow (copies : Copies) (clock : RestoreClock) (row : ExecutedSignal) : Copies :=
  let trade :=
    if copies.trade.all (·.updatedAtUtc ≤ row.updatedAtUtc) then some (row.auditRecord clock) else copies.trade
  let reconciliation :=
    match row.reconJson with
    | some stored => some stored
    | none => copies.reconciliation.or row.stub
  if copies.signal.all (·.lastUpdatedUtc ≤ row.updated) then
    match row.premium row.actualFillPrice with
    | none => { signal := some (row.signalInstance clock), trade, reconciliation }
    | some fill =>
      let (sig, reconciled) := row.reconciledEntry clock fill
      { signal := some sig, trade, reconciliation := some reconciled }
  else { signal := copies.signal, trade, reconciliation }

def Managers.restoreRow (clock : RestoreClock) (m : Managers) (row : ExecutedSignal) : Managers :=
  m.store row.signalId ((m.copies row.signalId).fromRow clock row)

/-- The table, in the order of the query. -/
structure Table where
  rows : List ExecutedSignal
  nodup : (rows.map ExecutedSignal.signalId).Nodup

def Managers.restoreRows (clock : RestoreClock) (table : Table) (m : Managers) : Managers :=
  (table.rows.filter ExecutedSignal.selected).foldl (Managers.restoreRow clock) m

/-- A signal of the state file, with the timestamps that it has there. -/
structure FileSignal where
  signal : SignalInstance
  lastUpdatedUtc : Option Int
  updatedAtUtc : Option Int := none

/-- `_updated` of the signal, once the keys of the envelope are popped. -/
def FileSignal.updated (entry : FileSignal) : Int := entry.lastUpdatedUtc.getD (entry.updatedAtUtc.getD 0)

def FileSignal.restored (clock : RestoreClock) (entry : FileSignal) : SignalInstance :=
  { entry.signal with lastUpdatedUtc := entry.lastUpdatedUtc.getD clock.nowMs }

/-- A reconciliation of the file is synthetic. -/
def Reconciliation.restored (entry : Reconciliation) : Reconciliation :=
  { entry with record := { entry.record with synthetic := true } }

structure StateFile where
  fsmSignals : Dict SignalId FileSignal := Dict.empty
  auditTrades : Dict SignalId Audit.AuditTradeRecord := Dict.empty
  fillReconciliations : Dict SignalId Reconciliation := Dict.empty

def Managers.restoreLocal (clock : RestoreClock) (file : StateFile) (m : Managers) : Managers where
  signals := m.signals.mergeNewer (FileSignal.restored clock)
    (fun entry existing => existing.lastUpdatedUtc < entry.updated) file.fsmSignals
  trades := m.trades.mergeNewer (Audit.AuditTradeRecord.restored · clock.usable)
    (fun entry existing => existing.updatedAtUtc < entry.updatedAtUtc) file.auditTrades
  reconciliations := m.reconciliations.mergeNewer Reconciliation.restored
    (fun entry existing => existing.updatedAtUtc < entry.updatedAtUtc) file.fillReconciliations

/-- `restore_signals_from_db`; without a state file the table alone. -/
def Managers.restore (clock : RestoreClock) (table : Table) (file : Option StateFile) (m : Managers) : Managers :=
  match file with
  | none => m.restoreRows clock table
  | some file => (m.restoreRows clock table).restoreLocal clock file

/-- What the state file holds of one signal. -/
structure FileCopies where
  signal : Option FileSignal := none
  trade : Option Audit.AuditTradeRecord := none
  reconciliation : Option Reconciliation := none

def StateFile.copies (file : StateFile) (id : SignalId) : FileCopies where
  signal := file.fsmSignals.get? id
  trade := file.auditTrades.get? id
  reconciliation := file.fillReconciliations.get? id

def Copies.fromFile (copies : Copies) (clock : RestoreClock) (file : FileCopies) : Copies where
  signal := (file.signal.map (Dict.keepNewer (FileSignal.restored clock)
    (fun entry existing => existing.lastUpdatedUtc < entry.updated) copies.signal)).or copies.signal
  trade := (file.trade.map (Dict.keepNewer (Audit.AuditTradeRecord.restored · clock.usable)
    (fun entry existing => existing.updatedAtUtc < entry.updatedAtUtc) copies.trade)).or copies.trade
  reconciliation := (file.reconciliation.map (Dict.keepNewer Reconciliation.restored
    (fun entry existing => existing.updatedAtUtc < entry.updatedAtUtc) copies.reconciliation)).or
      copies.reconciliation

/-! ### One signal at a time -/

section Frames
variable {clock : RestoreClock} {m : Managers} {id : SignalId}

@[simp] theorem get?_assign {ν : Type} (d : Dict SignalId ν) (id : SignalId) (value : Option ν) (x : SignalId) :
    (assign d id value).get? x = if x = id then value.or (d.get? id) else d.get? x := by
  cases value with
  | none =>
    rw [assign, Option.none_or]
    split
    · rename_i h
      rw [h]
    · rfl
  | some v => rw [assign, Dict.get?_insert, Option.some_or]

theorem copies_store_other {copies : Copies} {x : SignalId} (h : x ≠ id) :
    (m.store id copies).copies x = m.copies x := by
  simp [Managers.store, Managers.copies, h]

theorem copies_restoreRow_other {row : ExecutedSignal} (h : id ≠ row.signalId) :
    (m.restoreRow clock row).copies id = m.copies id := copies_store_other h

/-- A row's turn takes no copy away. -/
theorem fromRow_or (copies : Copies) (clock : RestoreClock) (row : ExecutedSignal) :
    (copies.fromRow clock row).signal.or copies.signal = (copies.fromRow clock row).signal ∧
      (copies.fromRow clock row).trade.or copies.trade = (copies.fromRow clock row).trade ∧
      (copies.fromRow clock row).reconciliation.or copies.reconciliation =
        (copies.fromRow clock row).reconciliation := by
  have hrecon : ∀ stub, (copies.reconciliation.or stub).or copies.reconciliation =
      copies.reconciliation.or stub := by
    intro stub
    cases copies.reconciliation <;> cases stub <;> rfl
  rw [Copies.fromRow]
  refine ⟨?_, ?_, ?_⟩
  · split
    · split <;> rfl
    · exact Option.or_self
  · split
    · split
      · dsimp only
        split
        · rfl
        · exact Option.or_self
      · dsimp only
        split
        · rfl
        · exact Option.or_self
    · dsimp only
      split
      · rfl
      · exact Option.or_self
  · split
    · split
      · dsimp only
        split
        · rfl
        · exact hrecon _
      · rfl
    · dsimp only
      split
      · rfl
      · exact hrecon _

theorem copies_restoreRow (m : Managers) (clock : RestoreClock) (row : ExecutedSignal) :
    (m.restoreRow clock row).copies row.signalId = (m.copies row.signalId).fromRow clock row := by
  obtain ⟨hsignal, htrade, hrecon⟩ := fromRow_or (m.copies row.signalId) clock row
  rw [Managers.restoreRow, Managers.store, Managers.copies]
  simp only [get?_assign, if_true]
  exact congr (congr (congrArg Copies.mk hsignal) htrade) hrecon

theorem copies_foldl_other {rows : List ExecutedSignal} (h : ∀ row ∈ rows, row.signalId ≠ id) :
    (rows.foldl (Managers.restoreRow clock) m).copies id = m.copies id := by
  induction rows generalizing m with
  | nil => rfl
  | cons row rows ih =>
    obtain ⟨hrow, hrest⟩ := List.forall_mem_cons.mp h
    rw [List.foldl_cons, ih hrest, copies_restoreRow_other hrow.symm]

theorem copies_restoreRows {table : Table} {row : ExecutedSignal} (hrow : row ∈ table.rows)
    (hselected : row.selected = true) :
    (m.restoreRows clock table).copies row.signalId = (m.copies row.signalId).fromRow clock row := by
  obtain ⟨pre, post, hsplit⟩ := List.append_of_mem (List.mem_filter.mpr ⟨hrow, hselected⟩)
  have hnodup : ((table.rows.filter ExecutedSignal.selected).map ExecutedSignal.signalId).Nodup :=
    table.nodup.sublist (List.filter_sublist.map _)
  rw [hsplit, List.map_append, List.map_cons, List.nodup_append, List.nodup_cons] at hnodup
  obtain ⟨-, ⟨hpost, -⟩, hpre⟩ := hnodup
  rw [Managers.restoreRows, hsplit, List.foldl_append, List.foldl_cons, copies_foldl_other, copies_restoreRow,
    copies_foldl_other]
  · intro other hother heq
    exact hpre _ (List.mem_map_of_mem hother) _ List.mem_cons_self heq
  · intro other hother heq
    exact hpost (heq ▸ List.mem_map_of_mem hother)

theorem copies_restoreRows_other {table : Table}
    (h : ∀ row ∈ table.rows, row.signalId = id → row.selected = false) :
    (m.restoreRows clock table).copies id = m.copies id := by
  apply copies_foldl_other
  intro row hrow heq
  obtain ⟨hmem, hselected⟩ := List.mem_filter.mp hrow
  rw [h row hmem heq] at hselected
  cases hselected

theorem copies_restoreLocal (m : Managers) (clock : RestoreClock) (file : StateFile) (id : SignalId) :
    (m.restoreLocal clock file).copies id = (m.copies id).fromFile clock (file.copies id) := by
  simp [Managers.copies, Managers.restoreLocal, Copies.fromFile, StateFile.copies]

def fileCopies (file : Option StateFile) (id : SignalId) : FileCopies :=
  match file with
  | none => {}
  | some file => file.copies id

theorem copies_restore {table : Table} {row : ExecutedSignal} (hrow : row ∈ table.rows)
    (hselected : row.selected = true) (file : Option StateFile) :
    (m.restore clock table file).copies row.signalId =
      ((m.copies row.signalId).fromRow clock row).fromFile clock (fileCopies file row.signalId) := by
  cases file with
  | none =>
    rw [Managers.restore, copies_restoreRows hrow hselected]
    rfl
  | some file =>
    rw [Managers.restore, copies_restoreLocal, copies_restoreRows hrow hselected]
    rfl

theorem copies_restore_other {table : Table} (h : ∀ row ∈ table.rows, row.signalId = id → row.selected = false)
    (file : Option StateFile) :
    (m.restore clock table file).copies id = (m.copies id).fromFile clock (fileCopies file id) := by
  cases file with
  | none =>
    rw [Managers.restore, copies_restoreRows_other h]
    rfl
  | some file =>
    rw [Managers.restore, copies_restoreLocal, copies_restoreRows_other h]
    rfl

end Frames

end Droid.Restore
