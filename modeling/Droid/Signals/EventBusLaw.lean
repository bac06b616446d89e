import Droid.Lib.Replace
import Droid.Signals.EventBus
import Mathlib.Data.List.Nodup
import Mathlib.Data.List.TakeWhile

/-! The invariant of the event bus on its loop, and the law of its orderly runs. -/
namespace Droid.Signals.EventBus
open Lib

variable {ε η : Type}

/-- The handlers a publication has yet to call. -/
def Stage.next : Stage η → List η
  | .calling next => next
  | .running _ next => next
  | .deferred => []
  | .cancelled => []

namespace Publication
variable {d : Publication ε η}

/-- The handlers that have received the event. -/
def reached (d : Publication ε η) : List η := d.received.map Prod.fst

/-- A publication on its way: no handler twice, and each one it was made for is reached or still to come. -/
structure Fair (d : Publication ε η) : Prop where
  kept : d.stage ≠ .cancelled
  untouched : d.isDeferred = true → d.received = [] ∧ d.awaited = true
  nodup : (d.reached ++ d.stage.next).Nodup
  covers : d.isDeferred = false → ∀ h ∈ d.subscribed, h ∈ d.reached ++ d.stage.next

theorem stage_of_finished (h : d.isFinished = true) : d.stage = .calling [] := by
  unfold isFinished at h
  split at h
  · assumption
  · cases h

theorem stage_of_deferred (h : d.isDeferred = true) : d.stage = .deferred := by
  unfold isDeferred at h
  split at h
  · assumption
  · cases h

theorem not_deferred_of_calling {next : List η} (h : d.stage = .calling next) : d.isDeferred = false := by
  rw [isDeferred, h]

theorem not_deferred_of_running {handler : η} {next : List η} (h : d.stage = .running handler next) :
    d.isDeferred = false := by
  rw [isDeferred, h]

theorem not_finished_of_deferred (h : d.isDeferred = true) : d.isFinished = false := by
  rw [isFinished, stage_of_deferred h]

theorem Fair.count_eq_one [DecidableEq η] (h : d.Fair) (hfinished : d.isFinished = true) {handler : η}
    (hmem : handler ∈ d.subscribed) : d.reached.count handler = 1 := by
  have hstage := stage_of_finished hfinished
  have hnodup := h.nodup
  have hcovers := h.covers (not_deferred_of_calling hstage) handler hmem
  rw [hstage, Stage.next, List.append_nil] at hnodup hcovers
  exact List.count_eq_one_of_mem hnodup hcovers

theorem fair_calling {e : ε} {subscribed next : List η} {awaited : Bool} (hnodup : next.Nodup)
    (hcovers : ∀ h ∈ subscribed, h ∈ next) :
    Fair { event := e, subscribed, awaited, stage := .calling next } where
  kept := by simp
  untouched h := by cases h
  nodup := hnodup
  covers _ := hcovers

theorem fair_deferred {e : ε} {subscribed : List η} :
    Fair { event := e, subscribed, awaited := true, stage := .deferred } where
  kept := by simp
  untouched _ := ⟨rfl, rfl⟩
  nodup := .nil
  covers h := by cases h

/-- The task of a deferred publication, started. -/
theorem Fair.start (h : d.Fair) (hdeferred : d.isDeferred = true) {handlers : List η} (hnodup : handlers.Nodup)
    (hcovers : ∀ h ∈ d.subscribed, h ∈ handlers) : Fair { d with stage := .calling handlers } := by
  obtain ⟨hreceived, -⟩ := h.untouched hdeferred
  refine ⟨by simp, ?_, ?_, ?_⟩
  · intro hcontra
    cases hcontra
  · simpa [reached, hreceived, Stage.next] using hnodup
  · intro _
    simpa [reached, hreceived, Stage.next] using hcovers

/-- The next handler receives the event. -/
theorem Fair.call (h : d.Fair) {handler : η} {next : List η} (hstage : d.stage = .calling (handler :: next)) (n : Nat) :
    Fair { d with stage := .running handler next, received := d.received ++ [(handler, n)] } := by
  have hnodup := h.nodup
  have hcovers := h.covers (not_deferred_of_calling hstage)
  rw [hstage] at hnodup hcovers
  refine ⟨by simp, ?_, ?_, ?_⟩
  · intro hcontra
    cases hcontra
  · simpa [reached, Stage.next] using hnodup
  · intro _
    simpa [reached, Stage.next] using hcovers

theorem Fair.settle (h : d.Fair) {handler : η} {next : List η} (hstage : d.stage = .running handler next) :
    Fair { d with stage := .calling next } := by
  have hnodup := h.nodup
  have hcovers := h.covers (not_deferred_of_running hstage)
  rw [hstage] at hnodup hcovers
  refine ⟨by simp, ?_, hnodup, fun _ => hcovers⟩
  intro hcontra
  cases hcontra

end Publication

section
variable [DecidableEq η]

theorem nodup_subscribe {b : SignalEventBus η} (h : ∀ key, (b.handlers key).Nodup) (key : String) (handler : η) :
    ∀ k, ((b.subscribe key handler).handlers k).Nodup := by
  intro k
  unfold SignalEventBus.subscribe
  split_ifs with hmem
  · exact h k
  · by_cases hk : k = key
    · subst hk
      dsimp only
      rw [Function.update_self]
      exact List.nodup_append.mpr ⟨h k, List.nodup_singleton handler, by
        rintro a ha b hb rfl
        exact hmem (List.mem_singleton.mp hb ▸ ha)⟩
    · dsimp only
      rw [Function.update_of_ne hk]
      exact h k

theorem nodup_unsubscribe {b : SignalEventBus η} (h : ∀ key, (b.handlers key).Nodup) (key : String) (handler : η) :
    ∀ k, ((b.unsubscribe key handler).handlers k).Nodup := by
  intro k
  unfold SignalEventBus.unsubscribe
  split_ifs with hmem
  · by_cases hk : k = key
    · subst hk
      dsimp only
      rw [Function.update_self]
      exact (h k).erase handler
    · dsimp only
      rw [Function.update_of_ne hk]
      exact h k
  · exact h k

theorem subscribe_log (b : SignalEventBus η) (key : String) (handler : η) :
    (b.subscribe key handler).seq = b.seq ∧ (b.subscribe key handler).failureLog = b.failureLog ∧
      (b.subscribe key handler).dropCount = b.dropCount := by
  unfold SignalEventBus.subscribe
  split_ifs <;> exact ⟨rfl, rfl, rfl⟩

theorem unsubscribe_log (b : SignalEventBus η) (key : String) (handler : η) :
    (b.unsubscribe key handler).seq = b.seq ∧ (b.unsubscribe key handler).failureLog = b.failureLog ∧
      (b.unsubscribe key handler).dropCount = b.dropCount := by
  unfold SignalEventBus.unsubscribe
  split_ifs <;> exact ⟨rfl, rfl, rfl⟩

end

/-- The log holds the newest of all records, and the counter the number of the others. -/
structure Logged (b : SignalEventBus η) (records : List FailureRecord) : Prop where
  newest : b.failureLog = records.drop (records.length - MAX_FAILURE_LOG_ENTRIES)
  dropped : b.dropCount = records.length - MAX_FAILURE_LOG_ENTRIES

theorem Logged.record {b : SignalEventBus η} {records : List FailureRecord} (h : Logged b records)
    (record : FailureRecord) : Logged (b.recordFailure record) (records ++ [record]) := by
  have hlength : b.failureLog.length = records.length - (records.length - MAX_FAILURE_LOG_ENTRIES) := by
    rw [h.newest, List.length_drop]
  unfold SignalEventBus.recordFailure
  by_cases hfull : MAX_FAILURE_LOG_ENTRIES ≤ b.failureLog.length
  · rw [if_pos hfull]
    have hmore : records.length + 1 - MAX_FAILURE_LOG_ENTRIES = records.length - MAX_FAILURE_LOG_ENTRIES + 1 := by omega
    constructor
    · have hpos : 0 < MAX_FAILURE_LOG_ENTRIES := by decide
      dsimp only
      rw [List.length_append, List.length_singleton, hmore, List.drop_append_of_le_length (by omega), h.newest,
        List.tail_drop]
    · dsimp only
      rw [List.length_append, List.length_singleton, hmore, h.dropped]
  · rw [if_neg hfull]
    have hnone : records.length - MAX_FAILURE_LOG_ENTRIES = 0 := by omega
    have hnone' : records.length + 1 - MAX_FAILURE_LOG_ENTRIES = 0 := by omega
    constructor
    · dsimp only
      rw [List.length_append, List.length_singleton, hnone', h.newest, hnone]
      rfl
    · dsimp only
      rw [List.length_append, List.length_singleton, hnone', h.dropped, hnone]

theorem recordFailure_kept (b : SignalEventBus η) (record : FailureRecord) :
    (b.recordFailure record).handlers = b.handlers ∧ (b.recordFailure record).seq = b.seq := by
  unfold SignalEventBus.recordFailure
  dsimp only
  split_ifs <;> exact ⟨rfl, rfl⟩

namespace World
variable {env : Wiring ε η} {w : World ε η}

/-- Between an earlier and a later publication: a later one has a greater number as soon as it is started, which is
after the earlier one. -/
def InOrder (seqOf : ε → Nat) (d d' : Publication ε η) : Prop :=
  d.event ≠ d'.event ∧ seqOf d.event ≠ seqOf d'.event ∧
    (d'.isDeferred = false → d.isDeferred = false ∧ seqOf d.event < seqOf d'.event)

structure Sound (env : Wiring ε η) (w : World ε η) : Prop where
  handlers : ∀ key, (w.bus.handlers key).Nodup
  fair : ∀ d ∈ w.publications, d.Fair
  seen : ∀ d ∈ w.publications, ∀ c ∈ d.received, c.2 = w.seqOf d.event
  numbered : ∀ d ∈ w.publications, w.seqOf d.event ≤ w.bus.seq
  ordered : w.publications.Pairwise (InOrder w.seqOf)
  waiting : w.loop = .absent → ∀ d ∈ w.publications, d.isDeferred = false
  logged : Logged w.bus (w.failures.map (failure env))

theorem Sound.delivers [DecidableEq η] (h : w.Sound env) : Delivers env w where
  once d hd hfinished handler hmem := (h.fair d hd).count_eq_one hfinished hmem
  noTwice d hd := (List.nodup_append.mp (h.fair d hd).nodup).1
  kept d hd := (h.fair d hd).kept
  unique := h.ordered.imp fun hpair => hpair.2.1
  seen := h.seen
  ordered := h.ordered.imp fun hpair => hpair.2.2
  logged := by simpa using h.logged.newest
  counted := by simpa using h.logged.dropped

theorem Sound.rewire (h : w.Sound env) {bus : SignalEventBus η} (hhandlers : ∀ key, (bus.handlers key).Nodup)
    (hsame : bus.seq = w.bus.seq ∧ bus.failureLog = w.bus.failureLog ∧ bus.dropCount = w.bus.dropCount) :
    Sound env { w with bus } where
  handlers := hhandlers
  fair := h.fair
  seen := h.seen
  numbered d hd := hsame.1 ▸ h.numbered d hd
  ordered := h.ordered
  waiting := h.waiting
  logged := ⟨hsame.2.1.trans h.logged.newest, hsame.2.2.trans h.logged.dropped⟩

theorem Sound.replace (h : w.Sound env) {l : List (Publication ε η)} {d d' : Publication ε η}
    (hreplaced : Replaced w.publications l d d') (hevent : d'.event = d.event) (hstarted : d.isDeferred = false)
    (hstarted' : d'.isDeferred = false) (hfair : d'.Fair) (hseen : ∀ c ∈ d'.received, c.2 = w.seqOf d.event) :
    Sound env { w with publications := l } where
  handlers := h.handlers
  fair := hreplaced.all h.fair hfair
  seen := hreplaced.all h.seen (hevent ▸ hseen)
  numbered := hreplaced.all h.numbered (hevent ▸ h.numbered d hreplaced.mem)
  ordered := by
    refine hreplaced.pairwise h.ordered ?_ ?_
    · intro other hpair
      rw [InOrder, hevent, hstarted']
      rw [InOrder, hstarted] at hpair
      exact hpair
    · intro other hpair
      rw [InOrder, hevent, hstarted']
      rw [InOrder, hstarted] at hpair
      exact hpair
  waiting habsent := hreplaced.all (h.waiting habsent) hstarted'
  logged := h.logged

theorem Sound.call (h : w.Sound env) {i : Nat} {coroutine : Bool}
    (hdirect : ∀ d ∈ w.publications[i]?, d.awaited = false → coroutine = false) : Sound env (w.call i coroutine) := by
  unfold World.call
  split
  · exact h
  · rename_i d hget
    split
    · rename_i handler next hstage
      have hrun : (!d.awaited && coroutine) = false := by
        cases hawaited : d.awaited with
        | true => rfl
        | false => simp [hdirect d hget hawaited]
      have hd := (replaced_set hget d).mem
      simp only [hrun]
      refine h.replace (replaced_set hget _) rfl (Publication.not_deferred_of_calling hstage) rfl
        ((h.fair d hd).call hstage _) ?_
      intro c hc
      rcases List.mem_append.mp hc with hold | hlast
      · exact h.seen d hd c hold
      · rw [List.mem_singleton.mp hlast]
    · exact h

theorem Sound.settle (h : w.Sound env) (i : Nat) (error : Option String) : Sound env (w.settle env i error) := by
  unfold World.settle
  split
  · exact h
  · rename_i d hget
    split
    · rename_i handler next hstage
      have hd := (replaced_set hget d).mem
      have hsound := h.replace (replaced_set hget { d with stage := .calling next }) rfl
        (Publication.not_deferred_of_running hstage) rfl ((h.fair d hd).settle hstage) (h.seen d hd)
      cases error with
      | none => exact hsound
      | some message =>
        have hlogged := h.logged.record (failure env (d.event, handler, message))
        obtain ⟨hsame, hseq⟩ := recordFailure_kept w.bus (failure env (d.event, handler, message))
        refine ⟨?_, hsound.fair, hsound.seen, ?_, hsound.ordered, hsound.waiting, ?_⟩
        · dsimp only
          rw [hsame]
          exact h.handlers
        · dsimp only
          rw [hseq]
          exact hsound.numbered
        · simpa using hlogged
    · exact h

theorem Sound.endLoop (h : w.Sound env) (hdone : ∀ d ∈ w.publications, d.awaited = true → d.isFinished = true) :
    Sound env w.endLoop := by
  have hcancel : Sound env w.cancelAll := by
    have hsame : w.publications.map (fun d : Publication ε η =>
        if d.awaited && !d.isFinished then { d with stage := .cancelled } else d) = w.publications := by
      refine (List.map_congr_left fun d hd => ?_).trans (List.map_id _)
      cases hawaited : d.awaited with
      | true => simp [hdone d hd hawaited]
      | false => simp
    rw [World.cancelAll, hsame]
    refine ⟨h.handlers, h.fair, h.seen, h.numbered, h.ordered, ?_, h.logged⟩
    intro _ d hd
    by_contra hdeferred
    have hdeferred : d.isDeferred = true := by simpa using hdeferred
    have hawaited := ((h.fair d hd).untouched hdeferred).2
    have hfinished := hdone d hd hawaited
    rw [Publication.not_finished_of_deferred hdeferred] at hfinished
    cases hfinished
  unfold World.endLoop
  split
  · exact h
  · exact hcancel
  · split_ifs
    · exact hcancel
    · exact h

theorem sound_initial (env : Wiring ε η) : Sound env {} where
  handlers _ := .nil
  fair := by simp
  seen := by simp
  numbered := by simp
  ordered := .nil
  waiting := by simp
  logged := ⟨by simp, by simp⟩

variable [DecidableEq ε]

/-- A publication of a new event, with a number that is greater than all before it. -/
theorem Sound.publication (h : w.Sound env) {d : Publication ε η} (hnew : ∀ other ∈ w.publications, other.event ≠ d.event)
    (hfair : d.Fair) (hreceived : d.received = []) {seq : Nat} (hseq : w.bus.seq < seq) {loop : EventLoop}
    (hstarted : d.isDeferred = false → ∀ other ∈ w.publications, other.isDeferred = false)
    (hloop : loop = .absent → w.loop = .absent ∧ d.isDeferred = false) :
    Sound env
      { w with bus := { w.bus with seq }, loop, seqOf := Function.update w.seqOf d.event seq
               publications := w.publications ++ [d] } := by
  have hsame : ∀ other ∈ w.publications, Function.update w.seqOf d.event seq other.event = w.seqOf other.event :=
    fun other hother => Function.update_of_ne (hnew other hother) _ _
  have hself : Function.update w.seqOf d.event seq d.event = seq := Function.update_self _ _ _
  refine ⟨h.handlers, ?_, ?_, ?_, ?_, ?_, ⟨h.logged.newest, h.logged.dropped⟩⟩
  · intro other hother
    rcases List.mem_append.mp hother with hold | hlast
    · exact h.fair other hold
    · rw [List.mem_singleton.mp hlast]
      exact hfair
  · intro other hother c hc
    rcases List.mem_append.mp hother with hold | hlast
    · exact (h.seen other hold c hc).trans (hsame other hold).symm
    · rw [List.mem_singleton.mp hlast, hreceived] at hc
      cases hc
  · intro other hother
    rcases List.mem_append.mp hother with hold | hlast
    · dsimp only
      rw [hsame other hold]
      exact (h.numbered other hold).trans hseq.le
    · rw [List.mem_singleton.mp hlast]
      exact hself.le
  · refine List.pairwise_append.mpr ⟨?_, List.pairwise_singleton _ _, ?_⟩
    · refine h.ordered.imp_of_mem fun hother hother' hpair => ?_
      dsimp only
      rw [InOrder, hsame _ hother, hsame _ hother']
      exact hpair
    · intro other hother last hlast
      dsimp only
      rw [List.mem_singleton.mp hlast, InOrder, hsame other hother, hself]
      have hless := (h.numbered other hother).trans_lt hseq
      exact ⟨hnew other hother, hless.ne, fun hd => ⟨hstarted hd other hother, hless⟩⟩
  · intro habsent other hother
    obtain ⟨hbefore, hd⟩ := hloop habsent
    rcases List.mem_append.mp hother with hold | hlast
    · exact h.waiting hbefore other hold
    · rw [List.mem_singleton.mp hlast]
      exact hd

theorem Sound.publish (h : w.Sound env) {e : ε} (hnew : ∀ d ∈ w.publications, d.event ≠ e)
    (hstarted : ∀ d ∈ w.publications, d.isDeferred = false) (hloop : w.loop ≠ .absent) : Sound env (w.publish env e) :=
  h.publication (d := w.made env e true (.calling (w.bus.handlers (env.key e))))
    hnew (Publication.fair_calling (h.handlers _) fun _ hmem => hmem) rfl (Nat.lt_succ_self _) (fun _ => hstarted)
    fun habsent => absurd habsent hloop

theorem Sound.publishSync (h : w.Sound env) {e : ε} (hnew : ∀ d ∈ w.publications, d.event ≠ e) :
    Sound env (w.publishSync env e) := by
  unfold World.publishSync
  dsimp only
  split
  · rename_i habsent
    have hstarted := h.waiting habsent
    split_ifs
    · -- the number assigned at the call is replaced by that of the delivery
      have hsound : Sound env
          { w with bus := { w.bus with seq := w.bus.seq + 2 }, loop := .own w.publications.length
                   seqOf := Function.update w.seqOf e (w.bus.seq + 2)
                   publications := w.publications ++ [w.made env e true (.calling (w.bus.handlers (env.key e)))] } :=
        h.publication (d := w.made env e true (.calling (w.bus.handlers (env.key e))))
          hnew (Publication.fair_calling (h.handlers _) fun _ hmem => hmem) rfl (by omega) (fun _ => hstarted)
          fun hown => by cases hown
      simpa [World.publish, World.push, World.made, World.assignSeq, Function.update_idem] using hsound
    · exact h.publication (d := w.made env e false (.calling (w.bus.handlers (env.key e))))
        hnew (Publication.fair_calling (h.handlers _) fun _ hmem => hmem) rfl (Nat.lt_succ_self _) (fun _ => hstarted)
        fun _ => ⟨habsent, rfl⟩
  · rename_i hloop
    exact h.publication (d := w.made env e true .deferred)
      hnew Publication.fair_deferred rfl (Nat.lt_succ_self _) (fun hd => by cases hd)
      fun habsent => absurd habsent hloop

/-- The first task not started: those before it are started, those after it are not. -/
theorem Sound.start (h : w.Sound env)
    (hready : ∀ d ∈ w.pending.head?, ∀ handler ∈ d.subscribed, handler ∈ w.bus.handlers (env.key d.event)) :
    Sound env (w.start env) := by
  unfold World.start
  split
  · exact h
  · rename_i d rest hpending
    have hsplit : w.publications = w.publications.takeWhile (fun d => !d.isDeferred) ++ d :: rest := by
      rw [← hpending]
      exact List.takeWhile_append_dropWhile.symm
    obtain ⟨pre, hpre⟩ : ∃ pre, w.publications.takeWhile (fun d => !d.isDeferred) = pre := ⟨_, rfl⟩
    have hearlier : ∀ other ∈ pre, other.isDeferred = false := by
      intro other hother
      rw [← hpre] at hother
      simpa using List.mem_takeWhile_imp hother
    have hdeferred : d.isDeferred = true := by
      have hhead := List.head?_dropWhile_not (fun d : Publication ε η => !d.isDeferred) w.publications
      rw [← pending, hpending] at hhead
      simpa using hhead
    rw [hpre] at hsplit ⊢
    have hmem : d ∈ w.publications := hsplit ▸ List.mem_append_right pre List.mem_cons_self
    have hordered := h.ordered
    rw [hsplit] at hordered
    obtain ⟨hordpre, hordpost, hacross⟩ := List.pairwise_append.mp hordered
    obtain ⟨hfirst, hordrest⟩ := List.pairwise_cons.mp hordpost
    have hlater : ∀ other ∈ rest, other.isDeferred = true := by
      intro other hother
      by_contra hstarted
      have hpair := (hfirst other hother).2.2 (by simpa using hstarted)
      rw [hdeferred] at hpair
      cases hpair.1
    obtain ⟨started, hstarted⟩ :
        ∃ started, started = { d with stage := .calling (w.bus.handlers (env.key d.event)) } := ⟨_, rfl⟩
    have hreplaced : Replaced w.publications (pre ++ started :: rest) d started := ⟨pre, rest, hsplit, rfl⟩
    have hready := hready d (by rw [hpending]; rfl)
    have hfair : started.Fair := hstarted ▸ (h.fair d hmem).start hdeferred (h.handlers _) hready
    have hreceived : started.received = [] := hstarted ▸ ((h.fair d hmem).untouched hdeferred).1
    have hevent : started.event = d.event := by rw [hstarted]
    have hsame : ∀ (e : ε), e ≠ d.event → Function.update w.seqOf d.event (w.bus.seq + 1) e = w.seqOf e :=
      fun e he => Function.update_of_ne he _ _
    have hself : Function.update w.seqOf d.event (w.bus.seq + 1) d.event = w.bus.seq + 1 := Function.update_self _ _ _
    have hpreEvent : ∀ other ∈ pre, other.event ≠ d.event := fun other hother => (hacross other hother d List.mem_cons_self).1
    have hrestEvent : ∀ other ∈ rest, other.event ≠ d.event := fun other hother => (hfirst other hother).1.symm
    have hpreMem : ∀ other ∈ pre, other ∈ w.publications := fun other hother => hsplit ▸ List.mem_append_left _ hother
    have hrestMem : ∀ other ∈ rest, other ∈ w.publications :=
      fun other hother => hsplit ▸ List.mem_append_right pre (List.mem_cons_of_mem d hother)
    change Sound env
      { w with bus := { w.bus with seq := w.bus.seq + 1 }, seqOf := Function.update w.seqOf d.event (w.bus.seq + 1)
               publications := pre ++ { d with stage := .calling (w.bus.handlers (env.key d.event)) } :: rest }
    rw [← hstarted]
    refine ⟨h.handlers, hreplaced.all h.fair hfair, ?_, ?_, ?_, ?_, ⟨h.logged.newest, h.logged.dropped⟩⟩
    · dsimp only
      rw [List.forall_mem_append, List.forall_mem_cons]
      refine ⟨?_, ?_, ?_⟩
      · intro other hother
        rw [hsame _ (hpreEvent other hother)]
        exact h.seen other (hpreMem other hother)
      · simp [hreceived]
      · intro other hother
        rw [hsame _ (hrestEvent other hother)]
        exact h.seen other (hrestMem other hother)
    · dsimp only
      rw [List.forall_mem_append, List.forall_mem_cons]
      refine ⟨?_, ?_, ?_⟩
      · intro other hother
        rw [hsame _ (hpreEvent other hother)]
        exact (h.numbered other (hpreMem other hother)).trans (Nat.le_succ _)
      · rw [hevent, hself]
      · intro other hother
        rw [hsame _ (hrestEvent other hother)]
        exact (h.numbered other (hrestMem other hother)).trans (Nat.le_succ _)
    · dsimp only
      refine List.pairwise_append.mpr ⟨?_, List.pairwise_cons.mpr ⟨?_, ?_⟩, ?_⟩
      · refine hordpre.imp_of_mem fun hother hother' hpair => ?_
        rw [InOrder, hsame _ (hpreEvent _ hother), hsame _ (hpreEvent _ hother')]
        exact hpair
      · intro other hother
        have hle := h.numbered other (hrestMem other hother)
        rw [InOrder, hevent, hself, hsame _ (hrestEvent other hother), hlater other hother]
        exact ⟨(hrestEvent other hother).symm, by omega, fun hcontra => by cases hcontra⟩
      · refine hordrest.imp_of_mem fun hother hother' hpair => ?_
        rw [InOrder, hsame _ (hrestEvent _ hother), hsame _ (hrestEvent _ hother')]
        exact hpair
      · intro other hother
        rw [List.forall_mem_cons]
        constructor
        · have hle := h.numbered other (hpreMem other hother)
          rw [InOrder, hevent, hself, hsame _ (hpreEvent other hother)]
          exact ⟨hpreEvent other hother, by omega, fun _ => ⟨hearlier other hother, by omega⟩⟩
        · intro later hlater'
          rw [InOrder, hsame _ (hpreEvent other hother), hsame _ (hrestEvent later hlater')]
          exact hacross other hother later (List.mem_cons_of_mem d hlater')
    · intro habsent
      rw [h.waiting habsent d hmem] at hdeferred
      cases hdeferred

variable [DecidableEq η]

theorem Sound.step (h : w.Sound env) (action : Action ε η) (horderly : w.Orderly env action) :
    Sound env (w.step env action) := by
  cases action with
  | subscribe key handler => exact h.rewire (nodup_subscribe h.handlers key handler) (subscribe_log _ _ _)
  | unsubscribe key handler => exact h.rewire (nodup_unsubscribe h.handlers key handler) (unsubscribe_log _ _ _)
  | enterLoop =>
    unfold World.step
    split_ifs
    · refine ⟨h.handlers, h.fair, h.seen, h.numbered, h.ordered, ?_, h.logged⟩
      intro hcontra
      cases hcontra
    · exact h
  | endLoop => exact h.endLoop horderly
  | publish e =>
    unfold World.step
    split_ifs with hloop
    · exact h
    · exact h.publish horderly.1 horderly.2 hloop
  | publishSync e => exact h.publishSync horderly
  | start => exact h.start horderly
  | call i coroutine => exact h.call horderly
  | settle i error => exact h.settle i error

/-- In a run of orderly steps the bus keeps its promises in every state. -/
theorem delivers_of_orderly (env : Wiring ε η) (actions : List (Action ε η))
    (h : Guarded (step env) (Orderly env) {} actions) : Always (step env) (Delivers env) {} actions :=
  (always_of_guarded (fun _ action hw => hw.step action) (sound_initial env) h).mono fun _ hw => hw.delivers

instance (env : Wiring ε η) (w : World ε η) : (action : Action ε η) → Decidable (w.Orderly env action)
  | .publish e =>
    inferInstanceAs (Decidable ((∀ d ∈ w.publications, d.event ≠ e) ∧ ∀ d ∈ w.publications, d.isDeferred = false))
  | .publishSync e => inferInstanceAs (Decidable (∀ d ∈ w.publications, d.event ≠ e))
  | .start =>
    inferInstanceAs (Decidable (∀ d ∈ w.pending.head?, ∀ h ∈ d.subscribed, h ∈ w.bus.handlers (env.key d.event)))
  | .call i coroutine =>
    inferInstanceAs (Decidable (∀ d ∈ w.publications[i]?, d.awaited = false → coroutine = false))
  | .endLoop => inferInstanceAs (Decidable (∀ d ∈ w.publications, d.awaited = true → d.isFinished = true))
  | .subscribe _ _ => isTrue trivial
  | .unsubscribe _ _ => isTrue trivial
  | .enterLoop => isTrue trivial
  | .settle _ _ => isTrue trivial

/-- Registrations for three handlers, of which 0 is a coroutine function. -/
def registrations : Wiring Nat Nat where
  event e := { eventId := toString e, eventType := .REGISTERED, signalId := "SIG" }
  isCoroutineFunction h := h == 0
  handlerName h := toString h

/-- A failing direct call, a coroutine function in a loop of its own, and two tasks before a `publish`. -/
theorem delivers_of_orderly_paths :
    Always (step registrations) (Delivers registrations) {}
      [.subscribe "signal.registered" 1, .publishSync 0, .call 0 false, .settle 0 (some "crash"),
        .subscribe "signal.registered" 0, .publishSync 1, .call 1 false, .settle 1 (some "crash"), .call 1 true,
        .settle 1 none, .endLoop, .enterLoop, .publishSync 2, .publishSync 3, .start, .start, .publish 4,
        .call 4 false, .settle 4 none] :=
  delivers_of_orderly registrations _ (by decide +kernel)

/-- Without a loop the coroutine of an undeclared handler is never awaited, and on a loop a `publish` overtakes the task
of an earlier `publish_sync`. -/
theorem lost_and_overtaken :
    ¬Delivers registrations (after registrations [.subscribe "signal.registered" 2, .publishSync 0, .call 0 true]) ∧
      ¬Delivers registrations (after registrations [.enterLoop, .publishSync 0, .publish 1, .start]) := by
  constructor
  · intro h
    have honce := h.once
    revert honce
    decide +kernel
  · intro h
    have hordered := h.ordered
    revert hordered
    decide +kernel

end World
end Droid.Signals.EventBus
