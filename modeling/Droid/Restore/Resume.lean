import Droid.Restore.Holdings
import Mathlib.Logic.Relation

/-! Where a restored signal resumes: its state, its remaining quantity and its deadline. -/
namespace Droid.Restore
open Lib Signals Audit

def preEntryStates : List SignalFsmState := [.detected, .preArmed, .validated, .armed, .triggered]

def ExecutedSignal.restoredSignal (row : ExecutedSignal) (clock : RestoreClock) : SignalInstance :=
  match row.premium row.actualFillPrice with
  | none => row.signalInstance clock
  | some fill => (row.reconciledEntry clock fill).1

/-- The fill price passes for an entry, so that the entry is reconciled once more. -/
def ExecutedSignal.enters (row : ExecutedSignal) : Bool :=
  (row.premium row.actualFillPrice).any fun fill =>
    0 < fill && !((row.optionContract.isSome || (directionOf row.direction).namesOption) && spotThreshold < fill)

structure Resumes (row : ExecutedSignal) (saved restored : SignalInstance) : Prop where
  settled : row.status ∈ Audit.settledStatuses → restored.fsmState ∈ terminalStates ∧ restored.remainingQty = 0
  terminal : saved.fsmState ∈ terminalStates → restored.fsmState ∈ terminalStates
  preEntry : saved.fsmState ∈ preEntryStates → restored.fsmState ∈ preEntryStates
  deadline : restored.expiresAtUtc ≤ saved.expiresAtUtc

def endedStatuses : List String :=
  ["TARGET_2_HIT", "STOP_LOSS_HIT", "TIME_STOP_HIT", "RUNNER_TIME_STOP_HIT", "EXPIRED", "INVALIDATED", "CLOSED",
    "LOST", "CANCELLED", "CANCEL"]

def openStatuses : List String := ["CONFIRMED", "TARGET_1_HIT", "EXECUTED", "ACTIVE", "OPEN", "WON"]

def ExecutedSignal.leftQty (row : ExecutedSignal) : Int :=
  if row.enters then row.tradeQty else row.remainingQty.getD (if row.isClosed then 0 else row.tradeQty)

structure ResumableRow (row : ExecutedSignal) (saved : SignalInstance) (nowMs : Int) : Prop where
  notWon : row.status ≠ "WON"
  nothingLeft : row.status ∈ ["LOST", "CLOSED"] → row.leftQty = 0
  ended : saved.fsmState ∈ terminalStates → row.status ∈ endedStatuses
  waiting : saved.fsmState ∈ preEntryStates → row.status ∉ endedStatuses ∧ row.status ∉ openStatuses
  deadline : nowMs + DEFAULT_SIGNAL_TTL_MS ≤ saved.expiresAtUtc

theorem resolvedFsmState_other {status : String} (hended : status ∉ endedStatuses) (hopen : status ∉ openStatuses)
    (hwaiting : status ∉ ["DETECTED", "VALIDATED", "ARMED", "TRIGGERED"]) : resolvedFsmState status = .armed := by
  simp only [endedStatuses, openStatuses, List.mem_cons, List.not_mem_nil, or_false, not_or] at hended hopen hwaiting
  simp [resolvedFsmState, validFsmStates, SignalFsmState.label, List.lookup_cons, beq_eq_false_iff_ne.mpr, hended,
    hopen, hwaiting]

theorem resolvedFsmState_mem (status : String) :
    (resolvedFsmState status ∈ terminalStates ↔ status ∈ endedStatuses) ∧
      (resolvedFsmState status ∈ preEntryStates ↔ status ∉ endedStatuses ∧ status ∉ openStatuses) := by
  have hknown : ∀ status ∈ endedStatuses ++ openStatuses ++ ["DETECTED", "VALIDATED", "ARMED", "TRIGGERED"],
      (resolvedFsmState status ∈ terminalStates ↔ status ∈ endedStatuses) ∧
        (resolvedFsmState status ∈ preEntryStates ↔ status ∉ endedStatuses ∧ status ∉ openStatuses) := by
    decide +kernel
  by_cases hmem : status ∈ endedStatuses ++ openStatuses ++ ["DETECTED", "VALIDATED", "ARMED", "TRIGGERED"]
  · exact hknown status hmem
  · rw [List.mem_append, List.mem_append, not_or, not_or] at hmem
    obtain ⟨⟨hended, hopen⟩, hwaiting⟩ := hmem
    rw [resolvedFsmState_other hended hopen hwaiting]
    exact ⟨iff_of_false (by decide) hended, iff_of_true (by decide) ⟨hended, hopen⟩⟩

section Restored
variable {clock : RestoreClock} {row : ExecutedSignal}

theorem reconcileEntry_fields (now : Int) (sig : SignalInstance) (fill : ℚ) (quantity : Int)
    (lot : Option Int) :
    (reconcileEntry now sig fill quantity lot).1.fsmState = sig.fsmState ∧
      (reconcileEntry now sig fill quantity lot).1.expiresAtUtc = sig.expiresAtUtc ∧
      (reconcileEntry now sig fill quantity lot).1.lastUpdatedUtc = sig.lastUpdatedUtc ∧
      (reconcileEntry now sig fill quantity lot).1.remainingQty =
        if 0 < fill ∧ ¬(sig.isOption = true ∧ spotThreshold < fill) then (quantity : ℚ) else sig.remainingQty := by
  rw [reconcileEntry]
  dsimp only
  by_cases hbad : fill ≤ 0 ∨ (sig.isOption = true ∧ spotThreshold < fill)
  · rw [if_pos hbad, if_neg]
    · exact ⟨rfl, rfl, rfl, rfl⟩
    · rintro ⟨hpos, hpremium⟩
      rcases hbad with hle | hspot
      · exact absurd hpos (not_lt.mpr hle)
      · exact hpremium hspot
  · have hgood : 0 < fill ∧ ¬(sig.isOption = true ∧ spotThreshold < fill) := by
      rwa [not_or, not_le] at hbad
    rw [if_neg hbad, if_pos hgood]
    exact ⟨rfl, rfl, rfl, rfl⟩

theorem signalInstance_isOption (clock : RestoreClock) (row : ExecutedSignal) :
    (row.signalInstance clock).isOption =
      (row.optionContract.isSome || (directionOf row.direction).namesOption) := by
  rw [SignalInstance.isOption, Bool.decide_or, Bool.decide_eq_true, Bool.decide_eq_true]
  rfl

theorem restoredSignal_fields (clock : RestoreClock) (row : ExecutedSignal) :
    (row.restoredSignal clock).fsmState = resolvedFsmState row.status ∧
      (row.restoredSignal clock).expiresAtUtc = clock.nowMs + DEFAULT_SIGNAL_TTL_MS ∧
      (row.restoredSignal clock).lastUpdatedUtc = clock.nowMs ∧
      (row.restoredSignal clock).remainingQty = row.leftQty := by
  rw [ExecutedSignal.restoredSignal, ExecutedSignal.leftQty, ExecutedSignal.enters]
  cases hfill : row.premium row.actualFillPrice with
  | none => exact ⟨rfl, rfl, rfl, rfl⟩
  | some fill =>
    obtain ⟨hstate, hexpiry, hupdated, hqty⟩ := reconcileEntry_fields clock.nowMs (row.signalInstance clock) fill
      row.tradeQty (some row.lotSize)
    refine ⟨hstate, hexpiry, hupdated, hqty.trans ?_⟩
    rw [signalInstance_isOption, Option.any_some]
    simp only [Bool.and_eq_true, decide_eq_true_eq, Bool.not_eq_true', Bool.and_eq_false_iff, decide_eq_false_iff_not,
      not_and_or, Bool.not_eq_true]
    split <;> rfl

/-- Where the copy in memory is no later one, the row's is built. -/
theorem fromRow_signal {copies : Copies}
    (hold : ∀ sig, copies.signal = some sig → sig.lastUpdatedUtc ≤ row.updated) :
    (copies.fromRow clock row).signal = some (row.restoredSignal clock) := by
  have hall : copies.signal.all (·.lastUpdatedUtc ≤ row.updated) = true := by
    rw [Option.all_eq_true]
    intro sig hsig
    exact decide_eq_true (hold sig hsig)
  rw [Copies.fromRow, ExecutedSignal.restoredSignal, if_pos hall]
  cases row.premium row.actualFillPrice with
  | none => rfl
  | some fill => rfl

theorem fromFile_signal {copies : Copies} {file : FileCopies}
    (hbuilt : copies.signal = some (row.restoredSignal clock))
    (hfile : ∀ entry, file.signal = some entry → entry.updated ≤ clock.nowMs) :
    (copies.fromFile clock file).signal = some (row.restoredSignal clock) := by
  rw [Copies.fromFile]
  dsimp only
  rw [hbuilt]
  cases hentry : file.signal with
  | none => rfl
  | some entry =>
    have hnewer : ¬(row.restoredSignal clock).lastUpdatedUtc < entry.updated := by
      rw [(restoredSignal_fields clock row).2.2.1]
      exact not_lt.mpr (hfile entry hentry)
    simp [Dict.keepNewer, hnewer]

theorem restore_signal {table : Table} {m : Managers} {file : Option StateFile} (hrow : row ∈ table.rows)
    (hselected : row.selected = true)
    (hold : ∀ sig, (m.copies row.signalId).signal = some sig → sig.lastUpdatedUtc ≤ row.updated)
    (hfile : (fileCopies file row.signalId).NotAfter clock.nowMs) :
    ((m.restore clock table file).copies row.signalId).signal = some (row.restoredSignal clock) := by
  rw [copies_restore hrow hselected]
  exact fromFile_signal (fromRow_signal hold) hfile.signal

theorem not_void_of_selected (h : row.selected = true) : row.status ≠ "VOID" := by
  rw [ExecutedSignal.selected, Bool.and_eq_true, Bool.and_eq_true, Bool.and_eq_true] at h
  simpa using h.1.1.2

theorem resumes_restoredSignal_iff (hselected : row.selected = true) (saved : SignalInstance)
    (clock : RestoreClock) :
    Resumes row saved (row.restoredSignal clock) ↔ ResumableRow row saved clock.nowMs := by
  obtain ⟨hstate, hexpiry, -, hqty⟩ := restoredSignal_fields clock row
  obtain ⟨hterminal, hpre⟩ := resolvedFsmState_mem row.status
  constructor
  · rintro ⟨hsettled, hended, hwaiting, hdeadline⟩
    rw [hstate] at hsettled hended hwaiting
    refine ⟨?_, ?_, ?_, ?_, ?_⟩
    · intro hwon
      have hopen := (hsettled (by rw [hwon]; decide)).1
      rw [hwon] at hopen
      revert hopen
      decide +kernel
    · intro hlost
      have hmem : row.status ∈ Audit.settledStatuses := by
        rcases List.mem_cons.mp hlost with h | h
        · rw [h]
          decide
        · rw [List.mem_singleton.mp h]
          decide
      have hzero := (hsettled hmem).2
      rw [hqty] at hzero
      exact_mod_cast hzero
    · exact fun h => hterminal.mp (hended h)
    · exact fun h => hpre.mp (hwaiting h)
    · rwa [hexpiry] at hdeadline
  · rintro ⟨hnotWon, hnothing, hended, hwaiting, hdeadline⟩
    refine ⟨?_, ?_, ?_, ?_⟩
    · intro hsettled
      have hlost : row.status ∈ ["LOST", "CLOSED"] := by
        simp only [Audit.settledStatuses, List.mem_cons, List.not_mem_nil, or_false] at hsettled ⊢
        rcases hsettled with h | h | h | h
        · exact absurd h hnotWon
        · exact .inl h
        · exact .inr h
        · exact absurd h (not_void_of_selected hselected)
      have hend : row.status ∈ endedStatuses := by
        rcases List.mem_cons.mp hlost with h | h
        · rw [h]
          decide
        · rw [List.mem_singleton.mp h]
          decide
      rw [hstate, hqty, hnothing hlost]
      exact ⟨hterminal.mpr hend, Int.cast_zero⟩
    · rw [hstate]
      exact fun h => hterminal.mpr (hended h)
    · rw [hstate]
      exact fun h => hpre.mpr (hwaiting h)
    · rwa [hexpiry]

end Restored

/-- A restored signal resumes where it was saved exactly where its row does not say WON, leaves nothing of a
settled trade, was written under a status of the signal's side of the trade, and is restored early enough for a
whole new lifetime to end by the old deadline. -/
theorem resumes_iff {clock : RestoreClock} {table : Table} {m : Managers} {file : Option StateFile}
    {row : ExecutedSignal} (hrow : row ∈ table.rows) (hselected : row.selected = true)
    (hold : ∀ sig, (m.copies row.signalId).signal = some sig → sig.lastUpdatedUtc ≤ row.updated)
    (hfile : (fileCopies file row.signalId).NotAfter clock.nowMs) (saved : SignalInstance) :
    (∃ restored, ((m.restore clock table file).copies row.signalId).signal = some restored ∧
        Resumes row saved restored) ↔ ResumableRow row saved clock.nowMs := by
  rw [restore_signal hrow hselected hold hfile, ← resumes_restoredSignal_iff hselected saved clock]
  constructor
  · rintro ⟨restored, hrestored, hresumes⟩
    cases hrestored
    exact hresumes
  · intro hresumes
    exact ⟨_, rfl, hresumes⟩

theorem resumes_entered :
    (∃ restored, ((({} : Managers).restore atTen enteredTable none).copies enteredRow.signalId).signal =
        some restored ∧ Resumes enteredRow (enteredRow.signalInstance atTen) restored) ↔
      ResumableRow enteredRow (enteredRow.signalInstance atTen) atTen.nowMs :=
  have hrow : enteredRow ∈ enteredTable.rows := List.mem_singleton_self enteredRow
  have hselected : enteredRow.selected = true := by decide +kernel
  have hold : ∀ sig, (({} : Managers).copies enteredRow.signalId).signal = some sig →
      sig.lastUpdatedUtc ≤ enteredRow.updated := by
    intro sig h
    cases h
  have hfile : (fileCopies none enteredRow.signalId).NotAfter atTen.nowMs := by
    constructor <;> intro entry h <;> cases h
  resumes_iff hrow hselected hold hfile (enteredRow.signalInstance atTen)

def Restarted (saved restored : SignalInstance) : Prop :=
  ∃ row clock, row.selected = true ∧ ResumableRow row saved clock.nowMs ∧ restored = row.restoredSignal clock

/-- However many restarts that resume: an ended trade stays ended, and the deadline does not move out. -/
theorem restarted_run {saved last : SignalInstance} (h : Relation.ReflTransGen Restarted saved last) :
    (saved.fsmState ∈ terminalStates → last.fsmState ∈ terminalStates) ∧
      last.expiresAtUtc ≤ saved.expiresAtUtc := by
  induction h with
  | refl => exact ⟨id, le_refl _⟩
  | tail _ hstep ih =>
    obtain ⟨row, clock, hselected, hrow, rfl⟩ := hstep
    have hresumes := (resumes_restoredSignal_iff hselected _ clock).mpr hrow
    exact ⟨fun hend => hresumes.terminal (ih.1 hend), le_trans hresumes.deadline ih.2⟩

def wonRow : ExecutedSignal where
  signalId := "won"
  underlying := "NIFTY"
  direction := "LONG_CALL"
  optionSymbol := some "NIFTY24000CE"
  spotPriceAtCreation := some 24000
  actualFillPrice := some 100
  exitPrice := some 140
  actualPnlInr := some 2900
  status := "WON"
  remainingQty := some 0
  createdAtUtc := 1
  updatedAtUtc := 5

def wonSignal : SignalInstance :=
  { wonRow.signalInstance ⟨1, fun _ => true⟩ with fsmState := .target2Hit, remainingQty := 0 }

def wonTable : Table := ⟨[wonRow], by decide⟩

/-- The restore re-opens the won trade as a runner with the whole quantity. -/
theorem won_reopened :
    ¬∃ restored, ((({} : Managers).restore atTen wonTable none).copies wonRow.signalId).signal = some restored ∧
      Resumes wonRow wonSignal restored := by
  rintro ⟨restored, hrestored, hresumes⟩
  have hstate : ((({} : Managers).restore atTen wonTable none).copies wonRow.signalId).signal.map
      (fun sig => (sig.fsmState, sig.remainingQty)) = some (.target1Hit, 75) := by decide +kernel
  rw [hrestored] at hstate
  have hrunner : (restored.fsmState, restored.remainingQty) = (.target1Hit, 75) := Option.some.inj hstate
  have hzero := (hresumes.settled (by decide +kernel)).2
  have hqty : restored.remainingQty = 75 := congrArg Prod.snd hrunner
  rw [hqty] at hzero
  norm_num at hzero

end Droid.Restore
