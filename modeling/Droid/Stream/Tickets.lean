import Droid.Lib.Dict
import Droid.Lib.Run
import Mathlib.Algebra.Order.Field.Rat

/-! The single-use tickets of the stream. Each reading of the clock is an argument of its own. -/
namespace Droid.Stream
open Lib

/-- A ticket has its owner and the time it expires at. -/
structure StreamTicketStore where
  ttlSeconds : ℚ
  tickets : Dict String (String × ℚ) := Dict.empty

namespace StreamTicketStore

def start (ttlSeconds : ℚ) : StreamTicketStore := { ttlSeconds := max 0 ttlSeconds }

variable (s : StreamTicketStore)

def purge (now : ℚ) : StreamTicketStore :=
  { s with tickets := s.tickets.filter fun _ entry => !decide (entry.2 ≤ now) }

/-- The ticket is the one that `token_urlsafe` draws. -/
def issueTicket (ticket userId : String) (purged minted : ℚ) : StreamTicketStore × String × Int :=
  let s := s.purge purged
  ({ s with tickets := s.tickets.insert ticket (userId, minted + s.ttlSeconds) }, ticket, s.ttlSeconds.floor)

/-- A ticket that is neither missing nor empty. -/
def asked (ticket : Option String) : Option String := ticket.filter (· ≠ "")

def redeemTicket (ticket : Option String) (purged checked : ℚ) : StreamTicketStore × Option String :=
  let s := s.purge purged
  match asked ticket with
  | none => (s, none)
  | some ticket =>
    match s.tickets.get? ticket with
    | none => (s, none)
    | some (userId, expiresAt) =>
      ({ s with tickets := s.tickets.erase ticket }, if expiresAt < checked then none else some userId)

inductive Call where
  | issue (ticket userId : String) (purged minted : ℚ)
  | redeem (ticket : Option String) (purged checked : ℚ)

/-- The ticket that a call puts or pops. -/
def Call.ticket? : Call → Option String
  | .issue ticket _ _ _ => some ticket
  | .redeem ticket _ _ => asked ticket

def Call.purged : Call → ℚ
  | .issue _ _ purged _ => purged
  | .redeem _ purged _ => purged

/-- What a call leaves under its ticket. -/
def Call.leaves (ttlSeconds : ℚ) : Call → Option (String × ℚ)
  | .issue _ userId _ minted => some (userId, minted + ttlSeconds)
  | .redeem .. => none

def step : Call → StreamTicketStore
  | .issue ticket userId purged minted => (s.issueTicket ticket userId purged minted).1
  | .redeem ticket purged checked => (s.redeemTicket ticket purged checked).1

theorem redeemTicket_ttlSeconds (ticket : Option String) (purged checked : ℚ) :
    (s.redeemTicket ticket purged checked).1.ttlSeconds = s.ttlSeconds := by
  rw [redeemTicket]
  split
  · rfl
  · split <;> rfl

theorem get?_redeemTicket (ticket : Option String) (purged checked : ℚ) (id : String) :
    (s.redeemTicket ticket purged checked).1.tickets.get? id =
      if asked ticket = some id then none else (s.purge purged).tickets.get? id := by
  rw [redeemTicket]
  cases asked ticket with
  | none => simp
  | some ticket =>
    dsimp only
    split
    · rename_i hnone
      by_cases hid : ticket = id
      · rw [if_pos (congrArg some hid), ← hid, hnone]
      · rw [if_neg (by simpa using hid)]
    · simp [eq_comm]

theorem redeemTicket_eq_some (ticket : Option String) (purged checked : ℚ) (userId : String) :
    (s.redeemTicket ticket purged checked).2 = some userId ↔
      ∃ id expiresAt, asked ticket = some id ∧ s.tickets.get? id = some (userId, expiresAt) ∧
        purged < expiresAt ∧ checked ≤ expiresAt := by
  have hpurge (id : String) (entry : String × ℚ) : (s.purge purged).tickets.get? id = some entry ↔
      s.tickets.get? id = some entry ∧ purged < entry.2 := by
    simp [purge, Option.filter_eq_some_iff]
  rw [redeemTicket]
  cases asked ticket with
  | none => simp
  | some ticket =>
    dsimp only
    split
    · rename_i hnone
      constructor
      · intro h
        cases h
      · rintro ⟨id, expiresAt, hid, hget, hpurged, -⟩
        cases hid
        rw [(hpurge _ (userId, expiresAt)).mpr ⟨hget, hpurged⟩] at hnone
        cases hnone
    · rename_i owner expiresAt hget
      obtain ⟨hget, hpurged⟩ := (hpurge _ _).mp hget
      by_cases hchecked : expiresAt < checked
      · simp [hget, hchecked]
      · have hlive : purged < expiresAt ∧ checked ≤ expiresAt := ⟨hpurged, not_lt.mp hchecked⟩
        simp [hget, hchecked, hlive]

theorem step_ttlSeconds (call : Call) : (s.step call).ttlSeconds = s.ttlSeconds := by
  cases call with
  | issue => rfl
  | redeem => exact redeemTicket_ttlSeconds s _ _ _

theorem get?_step (call : Call) (id : String) :
    (s.step call).tickets.get? id = if call.ticket? = some id then call.leaves s.ttlSeconds
      else (s.tickets.get? id).filter fun entry => !decide (entry.2 ≤ call.purged) := by
  cases call with
  | issue ticket userId purged minted =>
    by_cases hid : ticket = id
    · simp [step, issueTicket, purge, Call.ticket?, Call.leaves, hid]
    · simp only [step, issueTicket, purge, Call.ticket?, Dict.get?_insert, Dict.get?_filter, Option.some.injEq]
      rw [if_neg (Ne.symm hid), if_neg hid]
      rfl
  | redeem ticket purged checked =>
    rw [step, get?_redeemTicket, purge, Dict.get?_filter]
    rfl

theorem get?_run (calls : List Call) (id : String) :
    (run step s calls).tickets.get? id = calls.foldl (fun cell call =>
      if call.ticket? = some id then call.leaves s.ttlSeconds
      else cell.filter fun entry => !decide (entry.2 ≤ call.purged)) (s.tickets.get? id) := by
  induction calls generalizing s with
  | nil => rfl
  | cons call calls ih => rw [run_cons, ih, step_ttlSeconds, get?_step, List.foldl_cons]

theorem run_ttlSeconds (calls : List Call) : (run step s calls).ttlSeconds = s.ttlSeconds := by
  induction calls generalizing s with
  | nil => rfl
  | cons call calls ih => rw [run_cons, ih, step_ttlSeconds]

/-- A ticket is there when it was issued, was not asked for since, and no purge has come at its end or later. -/
theorem get?_run_start (ttlSeconds : ℚ) (calls : List Call) (id : String) (entry : String × ℚ) :
    (run step (start ttlSeconds) calls).tickets.get? id = some entry ↔
      ∃ before swept minted after, calls = before ++ .issue id entry.1 swept minted :: after ∧
        entry.2 = minted + max 0 ttlSeconds ∧ ∀ call ∈ after, call.ticket? ≠ some id ∧ call.purged < entry.2 := by
  rw [get?_run]
  refine (@foldl_eq_some_iff _ _ _ (fun call => if call.ticket? = some id then some (call.leaves (max 0 ttlSeconds))
    else none) (fun call entry => !decide (entry.2 ≤ call.purged)) ?_ ?_ calls entry).trans ?_
  · intro call w cell h
    split at h
    · rename_i hid
      exact (if_pos hid).trans (Option.some.inj h)
    · cases h
  · intro call cell h
    split at h
    · cases h
    · rename_i hid
      exact if_neg hid
  · constructor
    · rintro ⟨before, call, after, rfl, hcall, hafter⟩
      have hrest : ∀ later ∈ after, later.ticket? ≠ some id ∧ later.purged < entry.2 :=
        fun later hlater => by simpa using hafter later hlater
      cases call with
      | redeem ticket purged checked => simp [Call.leaves] at hcall
      | issue ticket userId purged minted =>
        obtain ⟨rfl, rfl⟩ : ticket = id ∧ (userId, minted + max 0 ttlSeconds) = entry := by
          simpa [Call.ticket?, Call.leaves] using hcall
        exact ⟨before, purged, minted, after, rfl, rfl, hrest⟩
    · rintro ⟨before, swept, minted, after, rfl, hentry, hafter⟩
      refine ⟨before, _, after, rfl, ?_, fun later hlater => by simpa using hafter later hlater⟩
      rw [Call.ticket?, if_pos rfl, Call.leaves, ← hentry]

/-- A ticket is redeemed for the user it was last issued to, when it was not asked for since and its time was not
over at a purge since, and is not now. -/
theorem redeemTicket_law (ttlSeconds : ℚ) (calls : List Call) (ticket : Option String) (purged checked : ℚ)
    (userId : String) :
    ((run step (start ttlSeconds) calls).redeemTicket ticket purged checked).2 = some userId ↔
      ∃ id before swept minted after, asked ticket = some id ∧ calls = before ++ .issue id userId swept minted :: after ∧
        (∀ call ∈ after, call.ticket? ≠ some id ∧ call.purged < minted + max 0 ttlSeconds) ∧
        purged < minted + max 0 ttlSeconds ∧ checked ≤ minted + max 0 ttlSeconds := by
  rw [redeemTicket_eq_some]
  constructor
  · rintro ⟨id, expiresAt, hid, hget, hpurged, hchecked⟩
    obtain ⟨before, swept, minted, after, rfl, rfl, hafter⟩ := (get?_run_start ttlSeconds calls id _).mp hget
    exact ⟨id, before, swept, minted, after, hid, rfl, hafter, hpurged, hchecked⟩
  · rintro ⟨id, before, swept, minted, after, hid, rfl, hafter, hpurged, hchecked⟩
    have hget := (get?_run_start ttlSeconds _ id (userId, _)).mpr ⟨before, swept, minted, after, rfl, rfl, hafter⟩
    exact ⟨id, _, hid, hget, hpurged, hchecked⟩

/-- Who asks for a ticket spends it, whatever the answer: it is redeemed after that only when it is issued again. -/
theorem issued_between (ttlSeconds : ℚ) (before between : List Call) (ticket : Option String) (id : String)
    (swept asking purged checked : ℚ) (userId : String) (hid : asked ticket = some id)
    (h : ((run step (start ttlSeconds) (before ++ .redeem ticket swept asking :: between)).redeemTicket (some id)
      purged checked).2 = some userId) :
    ∃ swept minted, .issue id userId swept minted ∈ between := by
  obtain ⟨id', expiresAt, hid', hget, -⟩ := (redeemTicket_eq_some _ _ _ _ _).mp h
  obtain ⟨before', swept', minted, after, hcalls, -, hafter⟩ := (get?_run_start _ _ _ _).mp hget
  obtain rfl : id' = id := by
    have hsome := Option.filter_eq_some_iff.mp hid'
    exact (Option.some.inj hsome.1).symm
  refine ⟨swept', minted, ?_⟩
  rcases List.append_eq_append_iff.mp hcalls with ⟨mid, rfl, hmid⟩ | ⟨mid, rfl, hmid⟩
  · cases mid with
    | nil => cases hmid
    | cons call mid =>
      cases hmid
      exact List.mem_append_right _ List.mem_cons_self
  · cases mid with
    | nil => cases hmid
    | cons call mid =>
      -- the request comes after the issue, but no call after that has asked for it
      cases hmid
      exact absurd hid (hafter _ (List.mem_append_right _ List.mem_cons_self)).1

theorem reissued_between : ∃ swept minted : ℚ, .issue "t" "u" swept minted ∈ [Call.issue "t" "u" 70 70] :=
  issued_between 60 [.issue "t" "u" 0 0] _ (some "t") "t" 65 65 80 80 "u" (by decide) (by decide +kernel)

end StreamTicketStore
end Droid.Stream
