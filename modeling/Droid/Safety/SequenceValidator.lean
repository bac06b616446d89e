import Droid.Lib.Window
import Droid.Lib.Run
import Mathlib.Data.Int.Order.Basic

/-! The sequence validator of a feed: its verdicts, and what holds of them along a run. -/
namespace Droid.Safety
open Lib

inductive SequenceAnomaly where
  | none | duplicate | missing | outOfOrder | regression | unexpectedJump
  deriving DecidableEq, Repr

def SequenceAnomaly.label : SequenceAnomaly → String
  | .none => "NONE"
  | .duplicate => "DUPLICATE"
  | .missing => "MISSING"
  | .outOfOrder => "OUT_OF_ORDER"
  | .regression => "REGRESSION"
  | .unexpectedJump => "UNEXPECTED_JUMP"

structure SequenceCheckResult where
  anomaly : SequenceAnomaly
  expected : Option Int
  received : Int
  gapSize : Option Int := Option.none
  isAnomaly : Bool := false
  message : String := ""
  deriving DecidableEq, Repr

def unexpectedJumpThreshold : Int := 100

/-- `SequenceValidator`, with its entry of the state file. -/
structure SequenceValidator where
  lastSourceSeq : Option Int := none
  seen : Window Int 5000 := .empty
  recent : Window Int 100 := .empty
  internalSeq : Int := 0
  stateFile : Option Int := none

namespace SequenceValidator

/-- The validator of a new process, with what `_restore_last` finds in the state file. -/
def restored (stateFile : Option Int) : SequenceValidator where
  lastSourceSeq := stateFile
  stateFile := stateFile

def lastSeq (v : SequenceValidator) : Option Int := v.lastSourceSeq

def persistLast (v : SequenceValidator) : SequenceValidator :=
  { v with stateFile := v.lastSourceSeq }

def remember (v : SequenceValidator) (seq : Int) : SequenceValidator :=
  { v with seen := v.seen.touch seq, recent := v.recent.push seq }

/-- The number becomes the last one, and is written to the state file. -/
def accept (v : SequenceValidator) (received : Int) : SequenceValidator :=
  persistLast { v.remember received with lastSourceSeq := some received }

def receive (v : SequenceValidator) (received : Int) : SequenceValidator × SequenceCheckResult :=
  if received ∈ v.seen.items then
    (v, { anomaly := .duplicate, expected := v.lastSourceSeq, received, isAnomaly := true
          message := s!"duplicate sequence {received}" })
  else
    match v.lastSourceSeq with
    | none => (v.accept received, { anomaly := .none, expected := none, received })
    | some last =>
      let expected := last + 1
      if received < last then
        if received ∈ v.recent.items.rtake 20 then
          (v, { anomaly := .outOfOrder, expected := some expected, received, isAnomaly := true
                message := s!"out-of-order {received} (expected {expected})" })
        else
          (v, { anomaly := .regression, expected := some expected, received, isAnomaly := true
                message := s!"regression {received} < {last}" })
      else if expected < received then
        let gap := received - expected
        if unexpectedJumpThreshold ≤ gap then
          (v.accept received,
            { anomaly := .unexpectedJump, expected := some expected, received, gapSize := some gap
              isAnomaly := true, message := s!"unexpected jump gap {gap}" })
        else
          (v.accept received,
            { anomaly := .missing, expected := some expected, received, gapSize := some gap
              isAnomaly := true, message := s!"missing {gap} sequence(s)" })
      else (v.accept received, { anomaly := .none, expected := some expected, received })

/-- Without a number the validator counts on its own. -/
def check (v : SequenceValidator) (sourceSequenceId : Option Int) (sequenceId : Option Int := none) :
    SequenceValidator × SequenceCheckResult :=
  match sourceSequenceId.or sequenceId with
  | some received => v.receive received
  | none =>
    let gen := v.internalSeq + 1
    ({ v with internalSeq := gen },
      { anomaly := .none, expected := none, received := gen
        message := "generated internal sequence" })

def reset (v : SequenceValidator) (toSeq : Option Int) : SequenceValidator :=
  persistLast { v with
    lastSourceSeq := toSeq, seen := .empty, recent := .empty, internalSeq := toSeq.getD 0 }

/-- What a numbered check did: it refused the number, took it quietly, or took it past a gap. -/
theorem receive_cases (v : SequenceValidator) (n : Int) :
    ((v.receive n).1 = v ∧ (v.receive n).2.isAnomaly = true ∧ (v.receive n).2.gapSize = none ∧
      (n ∈ v.seen.items ∧ (v.receive n).2.anomaly = .duplicate ∨
        n ∉ v.seen.items ∧ ∃ last, v.lastSeq = some last ∧ n < last ∧ (v.receive n).2.anomaly =
          if n ∈ v.recent.items.rtake 20 then .outOfOrder else .regression)) ∨
    (n ∉ v.seen.items ∧ (v.receive n).1 = v.accept n ∧ (v.receive n).2.isAnomaly = false ∧
      (v.receive n).2.gapSize = none ∧ (v.receive n).2.anomaly = .none ∧
      ∀ last, v.lastSeq = some last → n = last ∨ n = last + 1) ∨
    (n ∉ v.seen.items ∧ (v.receive n).1 = v.accept n ∧ (v.receive n).2.isAnomaly = true ∧
      ∃ last, v.lastSeq = some last ∧ last + 1 < n ∧ (v.receive n).2.expected = some (last + 1) ∧
        (v.receive n).2.gapSize = some (n - (last + 1)) ∧ (v.receive n).2.anomaly =
          if unexpectedJumpThreshold ≤ n - (last + 1) then .unexpectedJump else .missing) := by
  simp only [receive, lastSeq]
  by_cases hseen : n ∈ v.seen.items
  · rw [if_pos hseen]
    exact .inl ⟨rfl, rfl, rfl, .inl ⟨hseen, rfl⟩⟩
  rw [if_neg hseen]
  cases hlast : v.lastSourceSeq with
  | none => exact .inr (.inl ⟨hseen, rfl, rfl, rfl, rfl, fun last h => by cases h⟩)
  | some last =>
    simp only
    by_cases hlow : n < last
    · rw [if_pos hlow]
      refine .inl ?_
      by_cases hrecent : n ∈ v.recent.items.rtake 20
      · rw [if_pos hrecent]
        exact ⟨rfl, rfl, rfl, .inr ⟨hseen, last, rfl, hlow, (if_pos hrecent).symm⟩⟩
      · rw [if_neg hrecent]
        exact ⟨rfl, rfl, rfl, .inr ⟨hseen, last, rfl, hlow, (if_neg hrecent).symm⟩⟩
    rw [if_neg hlow]
    by_cases hgap : last + 1 < n
    · rw [if_pos hgap]
      refine .inr (.inr ?_)
      by_cases hjump : unexpectedJumpThreshold ≤ n - (last + 1)
      · rw [if_pos hjump]
        exact ⟨hseen, rfl, rfl, last, rfl, hgap, rfl, rfl, (if_pos hjump).symm⟩
      · rw [if_neg hjump]
        exact ⟨hseen, rfl, rfl, last, rfl, hgap, rfl, rfl, (if_neg hjump).symm⟩
    · rw [if_neg hgap]
      refine .inr (.inl ⟨hseen, rfl, rfl, rfl, rfl, ?_⟩)
      rintro last' ⟨⟩
      omega

/-- What is remembered: the numbers up to the last one, the recent ones among them. -/
structure Coherent (v : SequenceValidator) : Prop where
  empty : v.lastSeq = none → v.seen.items = []
  below : ∀ last, v.lastSeq = some last → ∀ x ∈ v.seen.items, x ≤ last
  recent : v.recent.items <:+ v.seen.items
  written : v.stateFile = v.lastSeq

theorem restored_coherent (stateFile : Option Int) : Coherent (restored stateFile) :=
  ⟨fun _ => rfl, fun _ _ x hx => (by cases hx), List.suffix_refl _, rfl⟩

theorem reset_coherent (v : SequenceValidator) (toSeq : Option Int) : Coherent (v.reset toSeq) :=
  ⟨fun _ => rfl, fun _ _ x hx => (by cases hx), List.suffix_refl _, rfl⟩

theorem mem_accept {v : SequenceValidator} {n x : Int} (hn : n ∉ v.seen.items)
    (hx : x ∈ (v.accept n).seen.items) : x ∈ v.seen.items ∨ x = n := by
  apply Window.mem_of_mem_push
  rw [← Window.touch_of_notMem hn]
  exact hx

theorem accept_coherent {v : SequenceValidator} (h : Coherent v) {n : Int} (hn : n ∉ v.seen.items)
    (hlast : ∀ last, v.lastSeq = some last → last ≤ n) : Coherent (v.accept n) := by
  refine ⟨fun hnone => (by cases hnone), ?_, ?_, rfl⟩
  · rintro last ⟨⟩ x hx
    rcases mem_accept hn hx with hx | rfl
    · cases hold : v.lastSeq with
      | none =>
        rw [h.empty hold] at hx
        cases hx
      | some last => exact (h.below last hold x hx).trans (hlast last hold)
    · exact le_rfl
  · have hpush := Window.push_suffix (by decide : 100 ≤ 5000) h.recent n
    rw [← Window.touch_of_notMem hn] at hpush
    exact hpush

theorem receive_coherent {v : SequenceValidator} (h : Coherent v) (n : Int) :
    Coherent (v.receive n).1 := by
  rcases receive_cases v n with ⟨hsame, -⟩ | ⟨hseen, htook, -, -, -, hnext⟩ |
    ⟨hseen, htook, -, last, hlast, hgap, -⟩
  · rw [hsame]
    exact h
  · rw [htook]
    apply accept_coherent h hseen
    intro last hlast
    rcases hnext last hlast with rfl | rfl
    · exact le_rfl
    · omega
  · rw [htook]
    apply accept_coherent h hseen
    intro last' hlast'
    cases hlast.symm.trans hlast'
    omega

theorem check_coherent {v : SequenceValidator} (h : Coherent v) (n : Option Int) :
    Coherent (v.check n).1 := by
  cases n with
  | none => exact ⟨h.empty, h.below, h.recent, h.written⟩
  | some n => exact receive_coherent h n

theorem check_kept {v : SequenceValidator} (n : Option Int) {last : Int} (hlast : v.lastSeq = some last) :
    ∃ last', (v.check n).1.lastSeq = some last' ∧ last ≤ last' := by
  cases n with
  | none => exact ⟨last, hlast, le_rfl⟩
  | some n =>
    have hcheck : (v.check (some n)).1 = (v.receive n).1 := rfl
    rw [hcheck]
    rcases receive_cases v n with ⟨hsame, -⟩ | ⟨-, htook, -, -, -, hnext⟩ |
      ⟨-, htook, -, last', hlast', hlt, -⟩
    · rw [hsame]
      exact ⟨last, hlast, le_rfl⟩
    · rw [htook]
      refine ⟨n, rfl, ?_⟩
      rcases hnext last hlast with rfl | rfl <;> omega
    · rw [htook]
      cases hlast.symm.trans hlast'
      exact ⟨n, rfl, by omega⟩

/-- A number is reported as out of order never, and passes exactly when it is the first, the next,
or the last one while that is not remembered. -/
theorem receive_verdict {v : SequenceValidator} (h : Coherent v) (n : Int) :
    (v.receive n).2.anomaly ≠ .outOfOrder ∧
      ((v.receive n).2.anomaly = .none ↔ (v.receive n).2.isAnomaly = false) ∧
      ((v.receive n).2.isAnomaly = false ↔ v.lastSeq = none ∨ v.lastSeq = some (n - 1) ∨
        (v.lastSeq = some n ∧ n ∉ v.seen.items)) := by
  rcases receive_cases v n with ⟨-, hbad, -, ⟨hseen, hverdict⟩ | ⟨hseen, last, hlast, hlow, hverdict⟩⟩ |
    ⟨hseen, -, hbad, -, hverdict, hnext⟩ | ⟨hseen, -, hbad, last, hlast, hgap, -, -, hverdict⟩
  · rw [hverdict, hbad]
    refine ⟨by decide, by decide, iff_of_false (by decide) ?_⟩
    rintro (hnone | hlast | ⟨-, hfresh⟩)
    · rw [h.empty hnone] at hseen
      cases hseen
    · have hle := h.below _ hlast n hseen
      omega
    · exact hfresh hseen
  · have hrecent : n ∉ v.recent.items.rtake 20 := fun hmem =>
      hseen ((Window.rtake_suffix 20 _).trans h.recent |>.subset hmem)
    rw [hverdict, hbad, if_neg hrecent]
    refine ⟨by decide, by decide, iff_of_false (by decide) ?_⟩
    rw [hlast]
    rintro (hnone | hnext | ⟨hsame, -⟩)
    · cases hnone
    · cases hnext
      omega
    · cases hsame
      omega
  · rw [hverdict, hbad]
    refine ⟨by decide, by decide, iff_of_true rfl ?_⟩
    cases hlast : v.lastSeq with
    | none => exact .inl rfl
    | some last =>
      rcases hnext last hlast with rfl | rfl
      · exact .inr (.inr ⟨rfl, hseen⟩)
      · exact .inr (.inl (congrArg some (by omega)))
  · rw [hverdict, hbad]
    refine ⟨by split <;> decide, by split <;> decide, iff_of_false (by decide) ?_⟩
    rw [hlast]
    rintro (hnone | hnext | ⟨hsame, -⟩)
    · cases hnone
    · cases hnext
      omega
    · cases hsame
      omega

end SequenceValidator

/-! ### Runs -/

/-- A validator under a run, with what happened since its last reset: the numbers it accepted, and
the gaps it reported, each as the first missing number and the number that came instead. -/
structure SequenceRun where
  validator : SequenceValidator
  accepted : List Int := []
  gaps : List (Int × Int) := []

/-- A call, or a restart of the process. -/
inductive SequenceCall where
  | check (n : Option Int)
  | reset (toSeq : Option Int)
  | restart
  deriving DecidableEq, Repr

namespace SequenceRun

def step (s : SequenceRun) : SequenceCall → SequenceRun
  | .check none => { s with validator := (s.validator.check none).1 }
  | .check (some n) =>
    let (validator, res) := s.validator.check (some n)
    { validator
      accepted :=
        if res.anomaly ∈ [.none, .missing, .unexpectedJump] then n :: s.accepted else s.accepted
      gaps := if res.gapSize.isSome then (res.expected.getD n, n) :: s.gaps else s.gaps }
  | .reset toSeq => { validator := s.validator.reset toSeq }
  | .restart => { s with validator := .restored s.validator.stateFile }

def start (stateFile : Option Int) : SequenceRun where
  validator := .restored stateFile

/-- The number is one of a gap whose report is among the twenty last accepted numbers. -/
def FillsRecentGap (s : SequenceRun) (n : Int) : Prop :=
  ∃ gap ∈ s.gaps, gap.2 ∈ s.validator.recent.items.rtake 20 ∧ gap.1 ≤ n ∧ n < gap.2

/-- The last number only a reset takes back; NONE is for the first number and the next one; what was
accepted or covered by a snapshot is an anomaly, and what fills a recent gap is out of order. -/
structure Classifies (s : SequenceRun) (call : SequenceCall) : Prop where
  kept : (∀ toSeq, call ≠ .reset toSeq) → ∀ last, s.validator.lastSeq = some last →
    ∃ last', (s.step call).validator.lastSeq = some last' ∧ last ≤ last'
  passes : ∀ n, call = .check (some n) → ((s.validator.check (some n)).2.anomaly = .none ↔
    s.validator.lastSeq = none ∨ s.validator.lastSeq = some (n - 1))
  repeated : ∀ n, call = .check (some n) → n ∈ s.accepted ∨ s.validator.lastSeq = some n →
    (s.validator.check (some n)).2.isAnomaly = true
  late : ∀ n, call = .check (some n) → s.FillsRecentGap n →
    (s.validator.check (some n)).2.anomaly = .outOfOrder

/-- The number is not the last one while that is not remembered, and fills no recent gap. -/
def Plain (s : SequenceRun) : SequenceCall → Prop
  | .check (some n) =>
    (s.validator.lastSeq = some n → n ∈ s.validator.seen.items) ∧ ¬ s.FillsRecentGap n
  | _ => True

/-- The validator is coherent, and the accepted numbers and reported gaps lie below its last number;
no number of a gap is remembered. -/
structure Coherent (s : SequenceRun) : Prop where
  validator : s.validator.Coherent
  accepted : ∀ x ∈ s.accepted, ∃ last, s.validator.lastSeq = some last ∧ x ≤ last
  gaps : ∀ gap ∈ s.gaps, (∃ last, s.validator.lastSeq = some last ∧ gap.2 ≤ last) ∧
    ∀ x ∈ s.validator.seen.items, gap.1 ≤ x → gap.2 ≤ x

theorem start_coherent (stateFile : Option Int) : Coherent (start stateFile) where
  validator := SequenceValidator.restored_coherent stateFile
  accepted := nofun
  gaps := nofun

/-- Accepting a number above the last one keeps what is known of earlier numbers and gaps. -/
private theorem accepted_kept {s : SequenceRun} (h : Coherent s) {n : Int}
    (hlast : ∀ last, s.validator.lastSeq = some last → last ≤ n) :
    (∀ x ∈ s.accepted, x ≤ n) ∧ ∀ gap ∈ s.gaps, gap.2 ≤ n := by
  constructor
  · intro x hx
    obtain ⟨last, hl, hle⟩ := h.accepted x hx
    exact hle.trans (hlast last hl)
  · intro gap hg
    obtain ⟨⟨last, hl, hle⟩, -⟩ := h.gaps gap hg
    exact hle.trans (hlast last hl)

private theorem check_some_coherent {s : SequenceRun} (h : Coherent s) (n : Int) :
    Coherent (s.step (.check (some n))) := by
  have hval : ((s.validator.receive n).1).Coherent := SequenceValidator.receive_coherent h.validator n
  have hstep : s.step (.check (some n)) =
      { validator := (s.validator.receive n).1
        accepted := if (s.validator.receive n).2.anomaly ∈ [.none, .missing, .unexpectedJump] then
          n :: s.accepted else s.accepted
        gaps := if (s.validator.receive n).2.gapSize.isSome then
          ((s.validator.receive n).2.expected.getD n, n) :: s.gaps else s.gaps } := rfl
  rw [hstep]
  rcases s.validator.receive_cases n with ⟨hsame, -, hgap, hrefused⟩ |
    ⟨hseen, htook, -, hgap, hverdict, hnext⟩ | ⟨hseen, htook, -, last, hlast, hlt, hexp, hgap, hverdict⟩
  · have hnot : (s.validator.receive n).2.anomaly ∉ [.none, .missing, .unexpectedJump] := by
      rcases hrefused with ⟨-, hv⟩ | ⟨-, last, -, -, hv⟩
      · rw [hv]
        decide
      · rw [hv]
        split <;> decide
    rw [if_neg hnot, hgap]
    refine ⟨hval, ?_, ?_⟩
    · rw [hsame]
      exact h.accepted
    · rw [hsame]
      exact h.gaps
  · have hle : ∀ last, s.validator.lastSeq = some last → last ≤ n := by
      intro last hlast
      rcases hnext last hlast with rfl | rfl <;> omega
    obtain ⟨hacc, hgaps⟩ := accepted_kept h hle
    rw [hverdict, if_pos (by decide), hgap]
    refine ⟨hval, fun x hx => ?_, fun gap hg => ?_⟩
    · rw [htook]
      rcases List.mem_cons.mp hx with rfl | hx
      · exact ⟨x, rfl, le_rfl⟩
      · exact ⟨n, rfl, hacc x hx⟩
    · rw [htook]
      refine ⟨⟨n, rfl, hgaps gap hg⟩, fun x hx hge => ?_⟩
      rcases SequenceValidator.mem_accept hseen hx with hx | rfl
      · exact (h.gaps gap hg).2 x hx hge
      · exact hgaps gap hg
  · have hle : ∀ last', s.validator.lastSeq = some last' → last' ≤ n := by
      intro last' hlast'
      cases hlast.symm.trans hlast'
      omega
    obtain ⟨hacc, hgaps⟩ := accepted_kept h hle
    have htaken : (s.validator.receive n).2.anomaly ∈ [.none, .missing, .unexpectedJump] := by
      rw [hverdict]
      split <;> decide
    rw [if_pos htaken, hgap, hexp]
    refine ⟨hval, fun x hx => ?_, fun gap hg => ?_⟩
    · rw [htook]
      rcases List.mem_cons.mp hx with rfl | hx
      · exact ⟨x, rfl, le_rfl⟩
      · exact ⟨n, rfl, hacc x hx⟩
    · rw [htook]
      rcases List.mem_cons.mp hg with rfl | hold
      · -- everything remembered so far is below the new gap
        refine ⟨⟨n, rfl, le_rfl⟩, fun x hx hge => ?_⟩
        rcases SequenceValidator.mem_accept hseen hx with hx | rfl
        · have hbelow := h.validator.below last hlast x hx
          have hge' : last + 1 ≤ x := hge
          omega
        · exact le_rfl
      · refine ⟨⟨n, rfl, hgaps gap hold⟩, fun x hx hge => ?_⟩
        rcases SequenceValidator.mem_accept hseen hx with hx | rfl
        · exact (h.gaps gap hold).2 x hx hge
        · exact hgaps gap hold

theorem step_coherent {s : SequenceRun} (h : Coherent s) (call : SequenceCall) :
    Coherent (s.step call) := by
  cases call with
  | check n =>
    cases n with
    | none => exact ⟨SequenceValidator.check_coherent h.validator none, h.accepted, h.gaps⟩
    | some n => exact check_some_coherent h n
  | reset toSeq => exact ⟨SequenceValidator.reset_coherent s.validator toSeq, nofun, nofun⟩
  | restart =>
    have hlast : (s.step .restart).validator.lastSeq = s.validator.lastSeq := h.validator.written
    refine ⟨SequenceValidator.restored_coherent _, ?_, ?_⟩
    · rw [hlast]
      exact h.accepted
    · rw [hlast]
      exact fun gap hg => ⟨(h.gaps gap hg).1, nofun⟩

/-- A call is classified as it should be exactly when it is plain. -/
theorem classifies_iff {s : SequenceRun} (h : Coherent s) (call : SequenceCall) :
    s.Classifies call ↔ s.Plain call := by
  cases call with
  | reset toSeq =>
    exact iff_of_true ⟨fun hne => absurd rfl (hne toSeq), nofun, nofun, nofun⟩ trivial
  | restart =>
    refine iff_of_true ⟨fun _ last hlast => ⟨last, ?_, le_rfl⟩, nofun, nofun, nofun⟩ trivial
    exact h.validator.written.trans hlast
  | check n =>
    cases n with
    | none => exact iff_of_true ⟨fun _ last hlast => ⟨last, hlast, le_rfl⟩, nofun, nofun, nofun⟩ trivial
    | some n =>
      obtain ⟨hnever, hnone, hquiet⟩ := SequenceValidator.receive_verdict h.validator n
      constructor
      · intro hc
        refine ⟨fun hsame => ?_, fun hfills => hnever (hc.late n rfl hfills)⟩
        -- an unremembered last number would pass
        by_contra hfresh
        have hbad := hc.repeated n rfl (.inr hsame)
        have hgood := hquiet.mpr (.inr (.inr ⟨hsame, hfresh⟩))
        cases hgood.symm.trans hbad
      · rintro ⟨hseen, hgap⟩
        have hexact : (s.validator.receive n).2.isAnomaly = false ↔
            s.validator.lastSeq = none ∨ s.validator.lastSeq = some (n - 1) := by
          rw [hquiet]
          constructor
          · rintro (hfirst | hnext | ⟨hsame, hfresh⟩)
            · exact .inl hfirst
            · exact .inr hnext
            · exact absurd (hseen hsame) hfresh
          · rintro (hfirst | hnext)
            · exact .inl hfirst
            · exact .inr (.inl hnext)
        refine ⟨fun _ _ hlast => SequenceValidator.check_kept (some n) hlast, ?_, ?_, ?_⟩
        · rintro _ ⟨⟩
          exact hnone.trans hexact
        · rintro _ ⟨⟩ hold
          -- an accepted number is at most the last one
          obtain ⟨last, hlast, hle⟩ : ∃ last, s.validator.lastSeq = some last ∧ n ≤ last := by
            rcases hold with hacc | hsame
            · exact h.accepted n hacc
            · exact ⟨n, hsame, le_rfl⟩
          rw [← Bool.not_eq_false]
          refine mt hexact.mp ?_
          rw [hlast]
          rintro (hfirst | hnext)
          · cases hfirst
          · cases hnext
            omega
        · rintro _ ⟨⟩ hfills
          exact absurd hfills hgap

/-- Along a run every call is classified as it should be exactly when every call is plain. -/
theorem classified_iff (stateFile : Option Int) (calls : List SequenceCall) :
    Guarded step Classifies (start stateFile) calls ↔ Guarded step Plain (start stateFile) calls :=
  guarded_congr (I := Coherent) (fun _ call h _ => step_coherent h call)
    (fun _ call h => classifies_iff h call) (start_coherent stateFile) calls

/-- The snapshot's own number passes, and a number that fills a gap is taken for a regression. -/
theorem replayed_misclassified :
    ¬ Guarded step Classifies (start none) [.reset (some 100), .check (some 100)] ∧
      ¬ Guarded step Classifies (start none) [.check (some 1), .check (some 3), .check (some 2)] := by
  constructor
  · rintro ⟨-, h, -⟩
    have hbad := h.repeated 100 rfl (.inr rfl)
    revert hbad
    decide
  · rintro ⟨-, -, h, -⟩
    have hlate := h.late 2 rfl ⟨(2, 3), by decide, by decide, by decide, by decide⟩
    revert hlate
    decide

end SequenceRun

end Droid.Safety
