import Droid.History.Download
import Mathlib.Tactic.Positivity

/-! The lifecycle of download jobs. The numbers of a job are kept by every run; its id and its last status
are kept where the requests come when the service expects them. -/
namespace Droid.History.Download
open Lib Text

/-! Chunks. -/

/-- The filter counts what it counted before, and the changed element anew. -/
theorem length_filter_modify {α : Type} (p : α → Bool) (f : α → α) {l : List α} {i : Nat} {a : α}
    (h : l[i]? = some a) :
    ((l.modify i f).filter p).length + (if p a then 1 else 0) =
      (l.filter p).length + if p (f a) then 1 else 0 := by
  induction l generalizing i with
  | nil => cases h
  | cons x rest ih =>
    cases i with
    | zero =>
      obtain rfl := Option.some.inj h
      rw [List.modify_zero_cons, List.filter_cons, List.filter_cons]
      split <;> split <;> simp only [List.length_cons]
    | succ i =>
      have hrest := ih (i := i) h
      rw [List.modify_succ_cons, List.filter_cons, List.filter_cons]
      split
      · rw [List.length_cons, List.length_cons]
        omega
      · exact hrest

/-- The chunk from which on the pipeline has not yet fetched. -/
def Task.next : Task → Option Nat
  | .enqueuing | .created => some 0
  | .resuming i | .saving i | .fetching i => some i
  | _ => none

/-- The chunk that is being fetched. -/
def Task.current : Task → Option Nat
  | .saving i | .fetching i => some i
  | _ => none

/-- What is always true of a job and its pipeline. -/
structure Slot.Sound (slot : Slot) : Prop where
  counted : slot.job.completedChunks = slot.job.downloaded
  unfailed : slot.job.status = .COMPLETED → ∀ c ∈ slot.job.chunks, c.status ≠ .FAILED
  unfinished : slot.task.next.isSome → slot.job.status ≠ .COMPLETED
  ahead : ∀ i, slot.task.next = some i → ∀ j c, i ≤ j → slot.job.chunks[j]? = some c → c.status ≠ .COMPLETED
  current : ∀ i, slot.task.current = some i → i < slot.job.chunks.length
  merging : slot.task = .merging [] → ∀ c ∈ slot.job.chunks, c.status ≠ .FAILED
  progress : slot.task.next.isSome → slot.job.progressPct = progress slot.job.completedChunks slot.job.totalChunks

namespace Slot
variable {slot : Slot}

/-- A job that no pipeline has work on. -/
theorem sound_idle (slot : Slot) (hcounted : slot.job.completedChunks = slot.job.downloaded)
    (hunfailed : slot.job.status = .COMPLETED → ∀ c ∈ slot.job.chunks, c.status ≠ .FAILED)
    (hnext : slot.task.next = none) (hcurrent : slot.task.current = none)
    (hmerging : slot.task = .merging [] → ∀ c ∈ slot.job.chunks, c.status ≠ .FAILED) : slot.Sound where
  counted := hcounted
  unfailed := hunfailed
  unfinished := by
    rw [hnext]
    intro h
    cases h
  ahead := by
    rw [hnext]
    intro i h
    cases h
  current := by
    rw [hcurrent]
    intro i h
    cases h
  merging := hmerging
  progress := by
    rw [hnext]
    intro h
    cases h

theorem Sound.kill (h : slot.Sound) : slot.kill.Sound := by
  rw [Slot.kill]
  split
  · exact h
  · refine sound_idle _ h.counted h.unfailed rfl rfl ?_
    intro hmerging
    cases hmerging

theorem Sound.callback (h : slot.Sound) : slot.callback.Sound := by
  rw [Slot.callback]
  split
  · refine sound_idle _ h.counted h.unfailed rfl rfl ?_
    intro hmerging
    cases hmerging
  · exact h

theorem Sound.spawn (h : slot.Sound) : slot.spawn.Sound := by
  rw [Slot.spawn]
  split
  · rename_i htask
    have hnext : slot.task.next = some 0 := by rw [htask]; rfl
    refine ⟨h.counted, h.unfailed, fun _ => h.unfinished (by rw [hnext]; rfl), ?_, ?_, ?_,
      fun _ => h.progress (by rw [hnext]; rfl)⟩
    · intro i hi
      exact h.ahead i (hnext.trans hi)
    · intro i hi
      cases hi
    · intro hmerging
      cases hmerging
  · exact h

/-- A cancellation neither completes nor fails a chunk, nor does it undo either. -/
theorem cancelled_status {c : Chunk} :
    let c' := if c.status = .PENDING ∨ c.status = .DOWNLOADING then { c with status := ChunkStatus.CANCELLED } else c
    (c'.status = .COMPLETED ↔ c.status = .COMPLETED) ∧ (c'.status = .FAILED ↔ c.status = .FAILED) := by
  intro c'
  by_cases hopen : c.status = .PENDING ∨ c.status = .DOWNLOADING
  · have hc' : c' = { c with status := ChunkStatus.CANCELLED } := if_pos hopen
    rw [hc']
    have hstatus : c.status ≠ .COMPLETED ∧ c.status ≠ .FAILED := by
      rcases hopen with hopen | hopen <;> rw [hopen] <;> decide
    exact ⟨iff_of_false ChunkStatus.noConfusion hstatus.1, iff_of_false ChunkStatus.noConfusion hstatus.2⟩
  · have hc' : c' = c := if_neg hopen
    rw [hc']
    exact ⟨Iff.rfl, Iff.rfl⟩

theorem downloaded_cancel (job : Job) (message : String) : (job.cancel message).downloaded = job.downloaded := by
  rw [Job.downloaded, Job.downloaded, Job.cancel, List.filter_map, List.length_map]
  congr 1
  apply List.filter_congr
  intro c _
  exact decide_eq_decide.mpr cancelled_status.1

theorem Sound.cancel (h : slot.Sound) (message : String) : (slot.cancel message).Sound := by
  have hfailed : (∀ c ∈ slot.job.chunks, c.status ≠ .FAILED) →
      ∀ c ∈ (slot.job.cancel message).chunks, c.status ≠ .FAILED := by
    intro hnone c' hc'
    obtain ⟨c, hc, rfl⟩ := List.mem_map.mp hc'
    exact fun heq => hnone c hc (cancelled_status.2.mp heq)
  constructor
  · exact h.counted.trans (downloaded_cancel slot.job message).symm
  · intro hstatus
    cases hstatus
  · intro _ hstatus
    cases hstatus
  · intro i hi j c' hij hc'
    rw [Slot.cancel, Job.cancel, List.getElem?_map, Option.map_eq_some_iff] at hc'
    obtain ⟨c, hc, rfl⟩ := hc'
    exact fun heq => h.ahead i hi j c hij hc (cancelled_status.1.mp heq)
  · intro i hi
    rw [Slot.cancel, Job.cancel, List.length_map]
    exact h.current i hi
  · exact fun hmerging => hfailed (h.merging hmerging)
  · exact h.progress

/-! The pipeline. -/

theorem downloaded_setChunk {job : Job} {i : Nat} {c : Chunk} (hc : job.chunks[i]? = some c)
    (hopen : c.status ≠ .COMPLETED) (f : Chunk → Chunk) :
    (job.setChunk i f).downloaded = job.downloaded + if (f c).status = .COMPLETED then 1 else 0 := by
  have hcount := length_filter_modify (fun c : Chunk => decide (c.status = .COMPLETED)) f hc
  simp only [decide_eq_true_eq] at hcount
  rw [if_neg hopen, Nat.add_zero] at hcount
  exact hcount

theorem getElem?_setChunk (job : Job) (i : Nat) (f : Chunk → Chunk) (j : Nat) :
    (job.setChunk i f).chunks[j]? = (job.chunks[j]?).map fun c => if i = j then f c else c := by
  rw [Job.setChunk, List.getElem?_modify, Option.map_eq_map]

theorem Sound.begun (h : slot.Sound) (hnext : slot.task.next = some 0) :
    ({ slot with job := { slot.job with status := .RUNNING }, task := .resuming 0 } : Slot).Sound where
  counted := h.counted
  unfailed := fun hstatus => JobStatus.noConfusion hstatus
  unfinished := fun _ hstatus => JobStatus.noConfusion hstatus
  ahead := fun i hi => h.ahead i (hnext.trans hi)
  current := fun i hi => absurd hi.symm (Option.some_ne_none i)
  merging := fun hmerging => Task.noConfusion hmerging
  progress := fun _ => h.progress (by rw [hnext]; rfl)

theorem Sound.downloading (h : slot.Sound) {i : Nat} (hnext : slot.task.next = some i)
    (hi : i < slot.job.chunks.length) :
    ({ slot with job := slot.job.setChunk i fun c => { c with status := .DOWNLOADING }, task := .saving i } :
      Slot).Sound where
  counted := by
    have hc := List.getElem?_eq_getElem hi
    rw [downloaded_setChunk hc (h.ahead i hnext i _ (Nat.le_refl i) hc), if_neg ChunkStatus.noConfusion]
    exact h.counted
  unfailed := fun hstatus => absurd hstatus (h.unfinished (by rw [hnext]; rfl))
  unfinished := fun _ => h.unfinished (by rw [hnext]; rfl)
  ahead := by
    intro k hk j c' hkj hc'
    obtain rfl := Option.some.inj hk
    rw [getElem?_setChunk, Option.map_eq_some_iff] at hc'
    obtain ⟨c, hc, rfl⟩ := hc'
    split
    · exact ChunkStatus.noConfusion
    · exact h.ahead i hnext j c hkj hc
  current := by
    intro k hk
    obtain rfl := Option.some.inj hk
    rw [Job.setChunk, List.length_modify]
    exact hi
  merging := fun hmerging => Task.noConfusion hmerging
  progress := fun _ => h.progress (by rw [hnext]; rfl)

/-- The chunks after one that is fetched are as they were. -/
theorem Sound.later (h : slot.Sound) {i : Nat} (hnext : slot.task.next = some i) (f : Chunk → Chunk) :
    ∀ j c, i + 1 ≤ j → (slot.job.setChunk i f).chunks[j]? = some c → c.status ≠ .COMPLETED := by
  intro j c' hij hc'
  rw [getElem?_setChunk, Option.map_eq_some_iff] at hc'
  obtain ⟨c, hc, rfl⟩ := hc'
  rw [if_neg (by omega)]
  exact h.ahead i hnext j c (by omega) hc

theorem Sound.fetched (h : slot.Sound) {i : Nat} (htask : slot.task = .fetching i) (outcome : Outcome) :
    (slot.fetched i outcome).Sound := by
  have hnext : slot.task.next = some i := by rw [htask]; rfl
  have hsome : slot.task.next.isSome := by rw [hnext]; rfl
  have hi : i < slot.job.chunks.length := h.current i (by rw [htask]; rfl)
  have hc := List.getElem?_eq_getElem hi
  have hopen := h.ahead i hnext i _ (Nat.le_refl i) hc
  cases outcome with
  | rows n =>
    refine ⟨?_, fun hstatus => absurd hstatus (h.unfinished hsome), fun _ => h.unfinished hsome, ?_,
      fun k hk => absurd hk.symm (Option.some_ne_none k), fun hmerging => Task.noConfusion hmerging, fun _ => rfl⟩
    · have hcount := downloaded_setChunk hc hopen fun c => { c with status := .COMPLETED, rowsFetched := n }
      rw [if_pos rfl, ← h.counted] at hcount
      exact hcount.symm
    · intro k hk j c hkj hc
      obtain rfl := Option.some.inj hk
      exact h.later hnext _ j c hkj hc
  | error message =>
    refine ⟨?_, fun hstatus => absurd hstatus (h.unfinished hsome), fun _ => h.unfinished hsome, ?_,
      fun k hk => absurd hk.symm (Option.some_ne_none k), fun hmerging => Task.noConfusion hmerging, fun _ => h.progress hsome⟩
    · have hcount := downloaded_setChunk hc hopen fun c =>
        { c with status := .FAILED, errorMessage := some message }
      rw [if_neg ChunkStatus.noConfusion, ← h.counted] at hcount
      exact hcount.symm
    · intro k hk j c hkj hc
      obtain rfl := Option.some.inj hk
      exact h.later hnext _ j c hkj hc

theorem failed_eq_nil {job : Job}
    (h : (job.chunks.filter fun c => c.status = .FAILED).map Chunk.errorMessage = []) :
    ∀ c ∈ job.chunks, c.status ≠ .FAILED := by
  intro c hc hstatus
  rw [List.map_eq_nil_iff, List.filter_eq_nil_iff] at h
  exact h c hc (decide_eq_true hstatus)

theorem Sound.combine (h : slot.Sound) : slot.combine.Sound := by
  rw [Slot.combine]
  cases hfailed : (slot.job.chunks.filter fun c => c.status = .FAILED).map Chunk.errorMessage with
  | nil =>
    have hnone := failed_eq_nil hfailed
    dsimp only
    split
    · exact sound_idle _ h.counted (fun _ => hnone) rfl rfl fun hmerging => Task.noConfusion hmerging
    · exact sound_idle _ h.counted h.unfailed rfl rfl fun _ => hnone
  | cons first rest =>
    dsimp only
    split
    · exact sound_idle _ h.counted (fun hstatus => JobStatus.noConfusion hstatus) rfl rfl
        fun hmerging => Task.noConfusion hmerging
    · refine sound_idle _ h.counted h.unfailed rfl rfl ?_
      intro hmerging
      cases hmerging

theorem Sound.merged (h : slot.Sound) {failed : List (Option String)} (htask : slot.task = .merging failed)
    (outcome : Outcome) : (slot.merged failed outcome).Sound := by
  cases outcome with
  | rows n =>
    cases failed with
    | nil => exact sound_idle _ h.counted (fun _ => h.merging htask) rfl rfl fun hmerging => Task.noConfusion hmerging
    | cons first rest =>
      exact sound_idle _ h.counted (fun hstatus => JobStatus.noConfusion hstatus) rfl rfl
        fun hmerging => Task.noConfusion hmerging
  | error message =>
    exact sound_idle _ h.counted (fun hstatus => JobStatus.noConfusion hstatus) rfl rfl
      fun hmerging => Task.noConfusion hmerging

theorem Sound.advance (h : slot.Sound) (outcome : Outcome) : (slot.advance outcome).Sound := by
  rw [Slot.advance]
  cases htask : slot.task with
  | created => exact h.begun (by rw [htask]; rfl)
  | resuming i =>
    dsimp only
    split
    · rename_i hi
      exact h.downloading (by rw [htask]; rfl) hi
    · exact h.combine
  | saving i =>
    have hnext : slot.task.next = some i := by rw [htask]; rfl
    have hsome : slot.task.next.isSome := by rw [hnext]; rfl
    refine ⟨h.counted, h.unfailed, fun _ => h.unfinished hsome, fun k hk => h.ahead k (hnext.trans hk), ?_,
      fun hmerging => Task.noConfusion hmerging, fun _ => h.progress hsome⟩
    intro k hk
    exact h.current k (by rw [htask]; exact hk)
  | fetching i => exact h.fetched htask outcome
  | merging failed => exact h.merged htask outcome
  | ending => exact sound_idle _ h.counted h.unfailed rfl rfl fun hmerging => Task.noConfusion hmerging
  | loaded => exact h
  | enqueuing => exact h
  | finished => exact h
  | gone => exact h

/-! What happens to a job. -/

/-- One of the things that the service or the pipeline does to a job. -/
inductive Does (slot : Slot) : Slot → Prop where
  | spawn : Does slot slot.spawn
  | advance (outcome : Outcome) : Does slot (slot.advance outcome)
  | callback : Does slot slot.callback
  | kill : Does slot slot.kill
  | cancel (message : String) : Does slot (slot.cancel message)

inductive Moves (slot : Slot) : Slot → Prop where
  | refl : Moves slot slot
  | tail {mid last : Slot} : Moves slot mid → Does mid last → Moves slot last

theorem Does.moves {slot' : Slot} (h : Does slot slot') : Moves slot slot' := .tail .refl h

theorem Moves.trans {mid last : Slot} (h : Moves slot mid) (h' : Moves mid last) : Moves slot last := by
  induction h' with
  | refl => exact h
  | tail _ hdoes ih => exact .tail ih hdoes

theorem jobId_combine (slot : Slot) : slot.combine.job.jobId = slot.job.jobId := by
  rw [Slot.combine]
  cases (slot.job.chunks.filter fun c => c.status = .FAILED).map Chunk.errorMessage <;>
    dsimp only <;> split <;> rfl

theorem progress_combine (slot : Slot) : slot.combine.job.progressPct = slot.job.progressPct := by
  rw [Slot.combine]
  cases (slot.job.chunks.filter fun c => c.status = .FAILED).map Chunk.errorMessage <;>
    dsimp only <;> split <;> rfl

theorem jobId_advance (slot : Slot) (outcome : Outcome) : (slot.advance outcome).job.jobId = slot.job.jobId := by
  rw [Slot.advance]
  cases slot.task with
  | resuming i =>
    dsimp only
    split
    · rfl
    · exact jobId_combine slot
  | fetching i => cases outcome <;> rfl
  | merging failed => cases outcome <;> cases failed <;> rfl
  | _ => rfl

theorem Does.jobId {slot' : Slot} (h : Does slot slot') : slot'.job.jobId = slot.job.jobId := by
  cases h with
  | spawn =>
    rw [Slot.spawn]
    split <;> rfl
  | advance outcome => exact jobId_advance slot outcome
  | callback =>
    rw [Slot.callback]
    split <;> rfl
  | kill =>
    rw [Slot.kill]
    split <;> rfl
  | cancel message => rfl

theorem progress_le_succ (completedChunks totalChunks : Nat) :
    Download.progress completedChunks totalChunks ≤ Download.progress (completedChunks + 1) totalChunks := by
  apply roundTo_mono
  have htotal : (0 : ℚ) ≤ max 1 (totalChunks : ℚ) := le_max_of_le_left (by norm_num)
  have hchunks : (completedChunks : ℚ) ≤ ((completedChunks + 1 : Nat) : ℚ) := by
    exact_mod_cast Nat.le_succ completedChunks
  exact mul_le_mul_of_nonneg_right (div_le_div_of_nonneg_right hchunks htotal) (by norm_num)

theorem Sound.progress_advance (h : slot.Sound) (outcome : Outcome) :
    slot.job.progressPct ≤ (slot.advance outcome).job.progressPct := by
  rw [Slot.advance]
  cases htask : slot.task with
  | resuming i =>
    dsimp only
    split
    · exact le_refl _
    · exact (progress_combine slot).ge
  | fetching i =>
    cases outcome with
    | rows n =>
      rw [h.progress (by rw [htask]; rfl)]
      exact progress_le_succ _ _
    | error message => exact le_refl _
  | merging failed => cases outcome <;> cases failed <;> exact le_refl _
  | _ => exact le_refl _

theorem Sound.does (h : slot.Sound) {slot' : Slot} (hdoes : Does slot slot') :
    slot'.Sound ∧ slot.job.progressPct ≤ slot'.job.progressPct := by
  cases hdoes with
  | spawn =>
    refine ⟨h.spawn, ?_⟩
    rw [Slot.spawn]
    split <;> exact le_refl _
  | advance outcome => exact ⟨h.advance outcome, h.progress_advance outcome⟩
  | callback =>
    refine ⟨h.callback, ?_⟩
    rw [Slot.callback]
    split <;> exact le_refl _
  | kill =>
    refine ⟨h.kill, ?_⟩
    rw [Slot.kill]
    split <;> exact le_refl _
  | cancel message => exact ⟨h.cancel message, le_refl _⟩

theorem Sound.moves (h : slot.Sound) {slot' : Slot} (hmoves : Moves slot slot') :
    slot'.Sound ∧ slot.job.progressPct ≤ slot'.job.progressPct := by
  induction hmoves with
  | refl => exact ⟨h, le_refl _⟩
  | tail _ hdoes ih =>
    obtain ⟨hsound, hle⟩ := ih.1.does hdoes
    exact ⟨hsound, ih.2.trans hle⟩

theorem Moves.jobId {slot' : Slot} (h : Moves slot slot') : slot'.job.jobId = slot.job.jobId := by
  induction h with
  | refl => rfl
  | tail _ hdoes ih => exact hdoes.jobId.trans ih

end Slot

/-! What an event does to the jobs. -/

namespace State
variable {s s' s'' : State}

/-- The jobs of the second state are those of the first, moved on. -/
structure Moved (s s' : State) : Prop where
  length : s'.slots.length = s.slots.length
  moves : ∀ (n : Nat) (slot' : Slot), s'.slots[n]? = some slot' →
    ∃ slot, s.slots[n]? = some slot ∧ slot.Moves slot'

theorem Moved.of_eq (h : s'.slots = s.slots) : Moved s s' where
  length := by rw [h]
  moves n slot' hslot' := ⟨slot', h ▸ hslot', .refl⟩

theorem Moved.trans (h : Moved s s') (h' : Moved s' s'') : Moved s s'' where
  length := h'.length.trans h.length
  moves n slot'' hslot'' := by
    obtain ⟨slot', hslot', hmoves'⟩ := h'.moves n slot'' hslot''
    obtain ⟨slot, hslot, hmoves⟩ := h.moves n slot' hslot'
    exact ⟨slot, hslot, hmoves.trans hmoves'⟩

theorem getElem?_modify (s : State) (n : Nat) (f : Slot → Slot) (m : Nat) :
    (s.modify n f).slots[m]? = (s.slots[m]?).map fun slot => if n = m then f slot else slot := by
  rw [modify, List.getElem?_modify, Option.map_eq_map]

theorem slots_saveJob (s : State) (n : Nat) : (s.saveJob n).slots = s.slots := by
  rw [saveJob]
  split <;> rfl

theorem moved_modify (s : State) (n : Nat) {f : Slot → Slot} (hf : ∀ slot, Slot.Does slot (f slot)) :
    Moved s (s.modify n f) where
  length := List.length_modify ..
  moves m slot' hslot' := by
    rw [getElem?_modify, Option.map_eq_some_iff] at hslot'
    obtain ⟨slot, hslot, rfl⟩ := hslot'
    refine ⟨slot, hslot, ?_⟩
    split
    · exact (hf slot).moves
    · exact .refl

theorem moved_cancelTask (s : State) (jobId : String) : Moved s (s.cancelTask jobId) := by
  rw [cancelTask]
  split
  · exact (moved_modify s _ fun slot => .kill).trans (.of_eq rfl)
  · exact .of_eq rfl

theorem moved_cancelJob (s : State) (jobId : String) : Moved s (s.cancelJob jobId) := by
  rw [cancelJob]
  split
  · exact (moved_cancelTask s jobId).trans
      ((moved_modify _ _ fun slot => .cancel _).trans (.of_eq (slots_saveJob _ _)))
  · exact moved_cancelTask s jobId

theorem moved_reconcileFrom (s : State) (jobs : List Nat) : Moved s (s.reconcileFrom jobs) := by
  rw [reconcileFrom]
  split
  · exact .of_eq rfl
  · exact (moved_modify s _ fun slot => .cancel _).trans (.of_eq (slots_saveJob _ _))

theorem moved_runJobPipeline (s : State) (n : Nat) (outcome : Outcome) : Moved s (s.runJobPipeline n outcome) := by
  have hmodify := moved_modify s n fun slot => (.advance outcome : Slot.Does slot _)
  rw [runJobPipeline]
  split
  · dsimp only
    split
    · exact hmodify.trans (.of_eq (slots_saveJob _ _))
    · exact hmodify
  · exact .of_eq rfl

def newSlot (symbol timeframe : String) (startDate endDate : Int) (second : Nat) (ranges : List (Int × Int)) : Slot where
  job := newJob symbol timeframe startDate endDate second ranges
  task := .enqueuing

theorem slots_enqueueDownload (s : State) (symbol timeframe : String) (startDate endDate : Int) (second : Nat) :
    (s.enqueueDownload symbol timeframe startDate endDate second).slots = s.slots ∨
      ∃ ranges, splitDateRange startDate endDate = some ranges ∧
        (s.enqueueDownload symbol timeframe startDate endDate second).slots =
          s.slots ++ [newSlot symbol timeframe startDate endDate second ranges] := by
  rw [enqueueDownload]
  split
  · exact Or.inl rfl
  · rename_i ranges hranges
    exact Or.inr ⟨ranges, hranges, slots_saveJob _ _⟩

theorem moved_step (s : State) {event : Event}
    (h : ∀ symbol timeframe startDate endDate second,
      event ≠ .enqueue symbol timeframe startDate endDate second) : Moved s (step s event) := by
  cases event with
  | enqueue symbol timeframe startDate endDate second => exact absurd rfl (h symbol timeframe startDate endDate second)
  | spawn n =>
    rw [step, spawnTask]
    split
    · split
      · exact (moved_modify s n fun slot => .spawn).trans (.of_eq rfl)
      · exact .of_eq rfl
    · exact .of_eq rfl
  | advance n outcome => exact moved_runJobPipeline s n outcome
  | callback n =>
    rw [step, doneCallback]
    split
    · split
      · exact (moved_modify s n fun slot => .callback).trans (.of_eq rfl)
      · exact .of_eq rfl
    · exact .of_eq rfl
  | cancel jobId => exact moved_cancelJob s jobId
  | delete jobId =>
    rw [step, deleteJob]
    split
    · exact (moved_cancelJob s jobId).trans (.of_eq rfl)
    · exact moved_cancelJob s jobId
  | remove i =>
    rw [step, removeJob]
    split <;> exact .of_eq rfl
  | reconcile => exact moved_reconcileFrom s _
  | reconcileNext i =>
    rw [step, reconcileNext]
    split
    · have hmoved : Moved s { s with reconciles := s.reconciles.eraseIdx i } := .of_eq rfl
      exact hmoved.trans (moved_reconcileFrom _ _)
    · exact .of_eq rfl

theorem Moved.forward (h : Moved s s') {n : Nat} {slot : Slot} (hslot : s.slots[n]? = some slot) :
    ∃ slot', s'.slots[n]? = some slot' ∧ slot.Moves slot' := by
  have hlt : n < s'.slots.length := by
    rw [h.length]
    exact (List.getElem?_eq_some_iff.mp hslot).1
  obtain ⟨old, hold, hmoves⟩ := h.moves n _ (List.getElem?_eq_getElem hlt)
  obtain rfl := Option.some.inj (hslot.symm.trans hold)
  exact ⟨_, List.getElem?_eq_getElem hlt, hmoves⟩

end State

/-! The numbers, along every run. -/

def Numbered (s : State) : Prop := ∀ slot ∈ s.slots, slot.Sound

theorem newSlot_sound (symbol timeframe : String) (startDate endDate : Int) (second : Nat)
    (ranges : List (Int × Int)) : (State.newSlot symbol timeframe startDate endDate second ranges).Sound := by
  have hpending : ∀ c ∈ (newJob symbol timeframe startDate endDate second ranges).chunks, c.status = .PENDING := by
    intro c hc
    obtain ⟨r, -, rfl⟩ := List.mem_map.mp hc
    rfl
  refine ⟨?_, fun hstatus => JobStatus.noConfusion hstatus, fun _ hstatus => JobStatus.noConfusion hstatus, ?_,
    fun i hi => absurd hi.symm (Option.some_ne_none i), fun hmerging => Task.noConfusion hmerging, ?_⟩
  · have hnone : (newJob symbol timeframe startDate endDate second ranges).chunks.filter
        (fun c => c.status = .COMPLETED) = [] := by
      rw [List.filter_eq_nil_iff]
      intro c hc
      rw [hpending c hc]
      decide
    rw [State.newSlot, Job.downloaded, hnone]
    rfl
  · intro i _ j c _ hc
    rw [hpending c (List.mem_of_getElem? hc)]
    decide
  · intro _
    change (0 : ℚ) = progress 0 _
    rw [progress, Nat.cast_zero, zero_div, zero_mul, roundTo_zero]

section
variable {s : State}

theorem Numbered.moved {s' : State} (h : Numbered s) (hmoved : s.Moved s') : Numbered s' := by
  intro slot' hslot'
  obtain ⟨n, hn⟩ := List.mem_iff_getElem?.mp hslot'
  obtain ⟨slot, hslot, hmoves⟩ := hmoved.moves n slot' hn
  exact ((h slot (List.mem_of_getElem? hslot)).moves hmoves).1

/-- The jobs after an event: the old ones moved on, and perhaps a new one. -/
theorem step_slots (s : State) (event : Event) :
    s.Moved (step s event) ∨ ∃ symbol timeframe startDate endDate second ranges,
      event = .enqueue symbol timeframe startDate endDate second ∧ splitDateRange startDate endDate = some ranges ∧
      (step s event).slots = s.slots ++ [State.newSlot symbol timeframe startDate endDate second ranges] := by
  by_cases h : ∃ symbol timeframe startDate endDate second, event = .enqueue symbol timeframe startDate endDate second
  · obtain ⟨symbol, timeframe, startDate, endDate, second, rfl⟩ := h
    rcases State.slots_enqueueDownload s symbol timeframe startDate endDate second with hsame | ⟨ranges, hranges, hnew⟩
    · exact Or.inl (.of_eq hsame)
    · exact Or.inr ⟨symbol, timeframe, startDate, endDate, second, ranges, rfl, hranges, hnew⟩
  · push Not at h
    exact Or.inl (State.moved_step s h)

theorem Numbered.step (h : Numbered s) (event : Event) : Numbered (step s event) := by
  rcases step_slots s event with hmoved | ⟨symbol, timeframe, startDate, endDate, second, ranges, -, -, hnew⟩
  · exact h.moved hmoved
  · intro slot hslot
    rw [hnew, List.mem_append, List.mem_singleton] at hslot
    rcases hslot with hslot | rfl
    · exact h slot hslot
    · exact newSlot_sound ..

/-- The old jobs are there after an event, at their places. -/
theorem moves_of_step (s : State) (event : Event) {n : Nat} {slot : Slot} (hslot : s.slots[n]? = some slot) :
    ∃ slot', (Download.step s event).slots[n]? = some slot' ∧ slot.Moves slot' := by
  rcases step_slots s event with hmoved | ⟨symbol, timeframe, startDate, endDate, second, ranges, -, -, hnew⟩
  · exact hmoved.forward hslot
  · refine ⟨slot, ?_, .refl⟩
    rw [hnew, List.getElem?_append_left (List.getElem?_eq_some_iff.mp hslot).1, hslot]

theorem Started.numbered (h : Started s) : Numbered s := by
  intro slot hslot
  have htask := h.loaded slot hslot
  refine Slot.sound_idle slot (h.lawful.counted slot hslot) (h.lawful.unfailed slot hslot) (by rw [htask]; rfl)
    (by rw [htask]; rfl) ?_
  intro hmerging
  rw [htask] at hmerging
  cases hmerging

/-- The jobs keep their places and ids, and their progress does not decrease. -/
def Grows (s s' : State) : Prop :=
  ∀ (n : Nat) (slot : Slot), s.slots[n]? = some slot → ∃ slot', s'.slots[n]? = some slot' ∧
    slot'.job.jobId = slot.job.jobId ∧ slot.job.progressPct ≤ slot'.job.progressPct

theorem Grows.refl (s : State) : Grows s s := fun _ slot hslot => ⟨slot, hslot, rfl, le_refl _⟩

theorem Grows.trans {s s' s'' : State} (h : Grows s s') (h' : Grows s' s'') : Grows s s'' := by
  intro n slot hslot
  obtain ⟨slot', hslot', hid, hle⟩ := h n slot hslot
  obtain ⟨slot'', hslot'', hid', hle'⟩ := h' n slot' hslot'
  exact ⟨slot'', hslot'', hid'.trans hid, hle.trans hle'⟩

theorem Numbered.grows (h : Numbered s) (event : Event) : Grows s (Download.step s event) := by
  intro n slot hslot
  obtain ⟨slot', hslot', hmoves⟩ := moves_of_step s event hslot
  exact ⟨slot', hslot', hmoves.jobId, ((h slot (List.mem_of_getElem? hslot)).moves hmoves).2⟩

/-- Whatever the requests and their order: the completed chunks are counted, a completed job has no failed
chunk, and progress does not decrease. -/
theorem numbers_of_run (h : Started s) (events : List Event) :
    Always Download.step Numbered s events ∧
      ∀ before between, before ++ between <+: events →
        Grows (run Download.step s before) (run Download.step s (before ++ between)) := by
  have hnumbered : Always Download.step Numbered s events :=
    always_of_step (fun _ event h => h.step event) h.numbered events
  have hany : Guarded Download.step (fun _ _ => True) s events := guarded_of_mem (fun _ _ _ => trivial) s
  exact ⟨hnumbered, (related_iff_guarded Grows.refl (fun _ _ _ => Grows.trans) s events).mpr
    (hany.mono hnumbered fun s event hs _ => hs.grows event)⟩

end

/-! The ids and the statuses, along the careful runs. -/

/-- A coroutine at work has set the status of its job. -/
def Slot.Live (slot : Slot) : Prop :=
  match slot.task with
  | .enqueuing | .created => slot.job.status = .QUEUED
  | .resuming _ | .saving _ | .fetching _ | .merging _ => slot.job.status = .RUNNING
  | _ => True

def Task.running : Task → Bool
  | .created | .resuming _ | .saving _ | .fetching _ | .merging _ | .ending => true
  | _ => false

theorem Task.running_of_busy {task : Task} (h : task.busy = true) (hne : task ≠ .enqueuing) :
    task.running = true := by
  cases task <;> first | rfl | exact absurd h (by decide) | exact absurd rfl hne

namespace Slot
variable {slot : Slot}

theorem live_of_idle (h : slot.task.busy = false) : slot.Live := by
  rw [Live]
  cases htask : slot.task <;> rw [htask] at h <;> trivial

theorem Live.spawn (h : slot.Live) : slot.spawn.Live := by
  rw [Slot.spawn]
  split
  · rename_i htask
    rw [Live, htask] at h
    exact h
  · exact h

theorem live_callback (h : slot.Live) : slot.callback.Live := by
  rw [Slot.callback]
  split
  · trivial
  · exact h

theorem live_kill (h : slot.Live) : slot.kill.Live := by
  rw [Slot.kill]
  split
  · exact h
  · trivial

theorem live_combine (h : slot.job.status = .RUNNING) : slot.combine.Live := by
  rw [Slot.combine]
  cases (slot.job.chunks.filter fun c => c.status = .FAILED).map Chunk.errorMessage <;>
    dsimp only <;> split
  · trivial
  · exact h
  · trivial
  · exact h

theorem Live.advance (h : slot.Live) (outcome : Outcome) : (slot.advance outcome).Live := by
  rw [Live] at h
  rw [Slot.advance]
  cases htask : slot.task with
  | created => rfl
  | resuming i =>
    rw [htask] at h
    dsimp only
    split
    · exact h
    · exact live_combine h
  | saving i =>
    rw [htask] at h
    exact h
  | fetching i =>
    rw [htask] at h
    cases outcome <;> exact h
  | merging failed => cases outcome <;> cases failed <;> trivial
  | ending => trivial
  | loaded =>
    rw [Live, htask]
    trivial
  | enqueuing =>
    rw [htask] at h
    rw [Live, htask]
    exact h
  | finished =>
    rw [Live, htask]
    trivial
  | gone =>
    rw [Live, htask]
    trivial

/-- A pipeline whose job is over only ends. -/
theorem Live.settled_advance (h : slot.Live) (hterminal : slot.job.status.Terminal) (outcome : Outcome) :
    (slot.advance outcome).job.status = slot.job.status := by
  have hqueued : slot.job.status ≠ .QUEUED := by
    intro heq
    rw [heq] at hterminal
    exact absurd hterminal (by decide)
  have hrunning : slot.job.status ≠ .RUNNING := by
    intro heq
    rw [heq] at hterminal
    exact absurd hterminal (by decide)
  rw [Live] at h
  rw [Slot.advance]
  cases htask : slot.task <;> rw [htask] at h <;>
    first | rfl | exact absurd h hqueued | exact absurd h hrunning

theorem running_of_advance {outcome : Outcome} (h : (slot.advance outcome).task.running = true) :
    slot.task.running = true := by
  rw [Slot.advance] at h
  cases htask : slot.task <;> rw [htask] at h <;> first | rfl | exact htask ▸ h

theorem running_of_kill (h : slot.kill.task.running = true) : False := by
  rw [Slot.kill] at h
  split at h
  · rename_i htask
    rw [htask] at h
    cases h
  · cases h

theorem running_of_callback (h : slot.callback.task.running = true) : slot.task.running = true := by
  rw [Slot.callback] at h
  split at h
  · cases h
  · exact h

end Slot

/-- Between careful events: the ids are different, every task at work is the active one of its id, and the
catalogue has each job under its id. -/
structure Kept (s : State) : Prop where
  ids : (s.slots.map fun slot => slot.job.jobId).Nodup
  live : ∀ slot ∈ s.slots, slot.Live
  active : ∀ (n : Nat) (slot : Slot), s.slots[n]? = some slot → slot.task.running = true →
    s.activeTasks.get? slot.job.jobId = some n
  known : ∀ jobId n, s.memJobs.get? jobId = some n → ∃ slot, s.slots[n]? = some slot ∧ slot.job.jobId = jobId

def Settled (s s' : State) : Prop :=
  ∀ (n : Nat) (slot slot' : Slot), s.slots[n]? = some slot → s'.slots[n]? = some slot' →
    slot.job.status.Terminal → slot'.job.status = slot.job.status

namespace Settled
variable {s s' s'' : State}

theorem of_eq (h : s'.slots = s.slots) : Settled s s' := by
  intro n slot slot' hslot hslot' _
  rw [h] at hslot'
  obtain rfl := Option.some.inj (hslot.symm.trans hslot')
  rfl

theorem trans (h : Settled s s') (hmoved : s.Moved s') (h' : Settled s' s'') : Settled s s'' := by
  intro n slot slot'' hslot hslot'' hterminal
  obtain ⟨slot', hslot', -⟩ := hmoved.forward hslot
  have heq := h n slot slot' hslot hslot' hterminal
  exact (h' n slot' slot'' hslot' hslot'' (heq ▸ hterminal)).trans heq

theorem saveJob (h : Settled s s') (n : Nat) : Settled s (s'.saveJob n) := by
  intro m slot slot' hslot hslot'
  rw [State.slots_saveJob] at hslot'
  exact h m slot slot' hslot hslot'

end Settled

theorem settled_modify {s : State} {n : Nat} {f : Slot → Slot}
    (h : ∀ slot, s.slots[n]? = some slot → slot.job.status.Terminal → (f slot).job.status = slot.job.status) :
    Settled s (s.modify n f) := by
  intro m slot slot' hslot hslot' hterminal
  rw [State.getElem?_modify, hslot, Option.map_some] at hslot'
  obtain rfl := Option.some.inj hslot'
  split
  · rename_i heq
    exact h slot (heq ▸ hslot) hterminal
  · rfl

namespace Kept
variable {s : State}

theorem unique (h : Kept s) {n m : Nat} {slot slot' : Slot} (hslot : s.slots[n]? = some slot)
    (hslot' : s.slots[m]? = some slot') (hid : slot.job.jobId = slot'.job.jobId) : n = m := by
  have hlt := (List.getElem?_eq_some_iff.mp hslot).1
  refine (List.getElem?_inj (by rwa [List.length_map]) h.ids).mp ?_
  rw [List.getElem?_map, List.getElem?_map, hslot, hslot', Option.map_some, Option.map_some, hid]

theorem saveJob (h : Kept s) (n : Nat) : Kept (s.saveJob n) := by
  rw [State.saveJob]
  split
  · rename_i slot hslot
    refine ⟨h.ids, h.live, h.active, ?_⟩
    intro jobId m hm
    rw [Dict.get?_insert] at hm
    split at hm
    · rename_i hid
      obtain rfl := Option.some.inj hm
      exact ⟨slot, hslot, hid.symm⟩
    · exact h.known jobId m hm
  · exact h

theorem modifyTasks (h : Kept s) (n : Nat) {f : Slot → Slot} {tasks : Dict String Nat}
    (hid : ∀ slot, (f slot).job.jobId = slot.job.jobId) (hlive : ∀ slot, s.slots[n]? = some slot → (f slot).Live)
    (hself : ∀ slot, s.slots[n]? = some slot → (f slot).task.running = true → tasks.get? slot.job.jobId = some n)
    (hothers : ∀ (m : Nat) (slot : Slot), n ≠ m → s.slots[m]? = some slot → slot.task.running = true →
      tasks.get? slot.job.jobId = some m) :
    Kept { s.modify n f with activeTasks := tasks } := by
  have hids : ((s.modify n f).slots.map fun slot => slot.job.jobId) = s.slots.map fun slot => slot.job.jobId := by
    apply List.ext_getElem?
    intro m
    rw [List.getElem?_map, List.getElem?_map, State.getElem?_modify, Option.map_map]
    congr 1
    funext slot
    rw [Function.comp_apply]
    split
    · exact hid slot
    · rfl
  refine ⟨hids ▸ h.ids, ?_, ?_, ?_⟩
  · intro slot' hslot'
    obtain ⟨m, hm⟩ := List.mem_iff_getElem?.mp hslot'
    rw [State.getElem?_modify, Option.map_eq_some_iff] at hm
    obtain ⟨slot, hslot, rfl⟩ := hm
    split
    · rename_i heq
      exact hlive slot (heq ▸ hslot)
    · exact h.live slot (List.mem_of_getElem? hslot)
  · intro m slot' hm hrun
    rw [State.getElem?_modify, Option.map_eq_some_iff] at hm
    obtain ⟨slot, hslot, rfl⟩ := hm
    split at hrun
    · rename_i heq
      subst heq
      rw [if_pos rfl, hid]
      exact hself slot hslot hrun
    · rename_i hne
      rw [if_neg hne]
      exact hothers m slot hne hslot hrun
  · intro jobId m hm
    obtain ⟨slot, hslot, hjob⟩ := h.known jobId m hm
    refine ⟨if n = m then f slot else slot, ?_, ?_⟩
    · rw [State.getElem?_modify, hslot, Option.map_some]
    · split
      · exact (hid slot).trans hjob
      · exact hjob

theorem modify (h : Kept s) (n : Nat) {f : Slot → Slot} (hid : ∀ slot, (f slot).job.jobId = slot.job.jobId)
    (hrunning : ∀ slot, (f slot).task.running = true → slot.task.running = true)
    (hlive : ∀ slot, s.slots[n]? = some slot → (f slot).Live) : Kept (s.modify n f) :=
  h.modifyTasks n hid hlive (fun slot hslot hrun => h.active n slot hslot (hrunning slot hrun))
    fun m slot _ hslot hrun => h.active m slot hslot hrun

theorem cancel (h : Kept s) (n : Nat) (message : String)
    (hidle : ∀ slot, s.slots[n]? = some slot → slot.task.busy = false) :
    Kept (s.modify n fun slot => slot.cancel message) :=
  h.modify n (fun _ => rfl) (fun _ hrunning => hrunning) fun slot hslot => Slot.live_of_idle (hidle slot hslot)

theorem jobId_ne (h : Kept s) {n m : Nat} (hne : n ≠ m) {slot slot' : Slot} (hslot : s.slots[n]? = some slot)
    (hslot' : s.slots[m]? = some slot') : slot'.job.jobId ≠ slot.job.jobId :=
  fun hid => hne (h.unique hslot hslot' hid.symm)

/-- The other fields may change as long as the active tasks are those at work. -/
theorem withTasks (h : Kept s) {tasks : Dict String Nat} {deletes : List String} {reconciles : List (List Nat)}
    (hactive : ∀ (n : Nat) (slot : Slot), s.slots[n]? = some slot → slot.task.running = true →
      tasks.get? slot.job.jobId = some n) :
    Kept { s with activeTasks := tasks, deletes := deletes, reconciles := reconciles } :=
  ⟨h.ids, h.live, hactive, h.known⟩

theorem cancelTask (h : Kept s) (jobId : String) :
    Kept (s.cancelTask jobId) ∧ ∀ (n : Nat) (slot : Slot), (s.cancelTask jobId).slots[n]? = some slot →
      slot.job.jobId = jobId → slot.task.running = false := by
  rw [State.cancelTask]
  cases hget : s.activeTasks.get? jobId with
  | none =>
    refine ⟨h, ?_⟩
    rintro n slot hslot rfl
    by_contra hrunning
    rw [h.active n slot hslot (Bool.not_eq_false _ ▸ hrunning)] at hget
    cases hget
  | some m =>
    have hkept : Kept (s.modify m Slot.kill) := h.modify m (fun slot => Slot.Does.kill.jobId)
      (fun slot hrun => (Slot.running_of_kill hrun).elim)
      (fun slot hslot => Slot.live_kill (h.live slot (List.mem_of_getElem? hslot)))
    have hidle : ∀ (n : Nat) (slot : Slot), (s.modify m Slot.kill).slots[n]? = some slot →
        slot.job.jobId = jobId → slot.task.running = false := by
      intro n slot hslot hid
      by_contra hrunning
      have hrunning : slot.task.running = true := Bool.not_eq_false _ ▸ hrunning
      have hactive := hkept.active n slot hslot hrunning
      rw [hid] at hactive
      obtain rfl : m = n := Option.some.inj (hget.symm.trans hactive)
      rw [State.getElem?_modify, Option.map_eq_some_iff] at hslot
      obtain ⟨old, -, rfl⟩ := hslot
      rw [if_pos rfl] at hrunning
      exact Slot.running_of_kill hrunning
    refine ⟨hkept.withTasks ?_, hidle⟩
    intro n slot hslot hrunning
    have hne : slot.job.jobId ≠ jobId := by
      intro hid
      rw [hidle n slot hslot hid] at hrunning
      cases hrunning
    rw [Dict.get?_erase, if_neg hne]
    exact hkept.active n slot hslot hrunning

theorem cancelTask_slots (s : State) (jobId : String) {n : Nat} {slot' : Slot}
    (h : (s.cancelTask jobId).slots[n]? = some slot') :
    ∃ slot, s.slots[n]? = some slot ∧ (slot' = slot ∨ slot' = slot.kill) := by
  rw [State.cancelTask] at h
  split at h
  · rename_i m _
    have h : (s.modify m Slot.kill).slots[n]? = some slot' := h
    rw [State.getElem?_modify, Option.map_eq_some_iff] at h
    obtain ⟨slot, hslot, rfl⟩ := h
    refine ⟨slot, hslot, ?_⟩
    split
    · exact Or.inr rfl
    · exact Or.inl rfl
  · exact ⟨slot', h, Or.inl rfl⟩

theorem memJobs_cancelTask (s : State) (jobId : String) : (s.cancelTask jobId).memJobs = s.memJobs := by
  rw [State.cancelTask]
  split <;> rfl

/-- The job that a request cancels: it is the one of the id, and no coroutine works on it any more. -/
theorem idle_cancelTask (h : Kept s) {jobId : String} (hcancel : Cancellable s jobId) {n : Nat} {slot : Slot}
    (hget : (s.cancelTask jobId).memJobs.get? jobId = some n) (hslot : (s.cancelTask jobId).slots[n]? = some slot) :
    slot.task.busy = false ∧ (slot.job.status.Terminal → slot.job.status = .CANCELLED) := by
  have hidle : slot.task.running = false := by
    obtain ⟨other, hother, hid⟩ := (h.cancelTask jobId).1.known jobId n hget
    obtain rfl := Option.some.inj (hother.symm.trans hslot)
    exact (h.cancelTask jobId).2 n other hslot hid
  obtain ⟨old, hold, hkilled⟩ := cancelTask_slots s jobId hslot
  rw [memJobs_cancelTask] at hget
  obtain ⟨hover, htask⟩ := hcancel n hget old hold
  have hne : slot.task ≠ .enqueuing := by
    rcases hkilled with rfl | rfl
    · exact htask
    · rw [Slot.kill]
      split
      · exact htask
      · exact Task.noConfusion
  have hjob : slot.job = old.job := by
    rcases hkilled with rfl | rfl
    · rfl
    · rw [Slot.kill]
      split <;> rfl
  refine ⟨?_, hjob ▸ hover⟩
  by_contra hbusy
  rw [Task.running_of_busy (Bool.not_eq_false _ ▸ hbusy) hne] at hidle
  cases hidle

theorem cancelJob (h : Kept s) {jobId : String} (hcancel : Cancellable s jobId) : Kept (s.cancelJob jobId) := by
  rw [State.cancelJob]
  split
  · rename_i n hget
    exact Kept.saveJob (Kept.cancel (h.cancelTask jobId).1 n "Cancelled by user" fun slot hslot =>
      (h.idle_cancelTask hcancel hget hslot).1) n
  · exact (h.cancelTask jobId).1

theorem settled_cancelJob (h : Kept s) {jobId : String} (hcancel : Cancellable s jobId) :
    Settled s (s.cancelJob jobId) := by
  have htask : Settled s (s.cancelTask jobId) := by
    intro n slot slot' hslot hslot' _
    obtain ⟨old, hold, hkilled⟩ := cancelTask_slots s jobId hslot'
    obtain rfl := Option.some.inj (hold.symm.trans hslot)
    rcases hkilled with rfl | rfl
    · rfl
    · rw [Slot.kill]
      split <;> rfl
  rw [State.cancelJob]
  split
  · rename_i n hget
    refine htask.trans (State.moved_cancelTask s jobId) (Settled.saveJob (settled_modify ?_) n)
    intro slot hslot hterminal
    exact ((h.idle_cancelTask hcancel hget hslot).2 hterminal).symm
  · exact htask

/-! The reconciliation. -/

theorem find?_of_dropWhile {α : Type} {p : α → Bool} {l rest : List α} {a : α}
    (h : l.dropWhile (fun x => !p x) = a :: rest) : l.find? p = some a := by
  induction l with
  | nil => cases h
  | cons x xs ih =>
    rw [List.dropWhile_cons] at h
    rw [List.find?_cons]
    cases hx : p x with
    | true =>
      rw [hx] at h
      exact congrArg some (List.cons.inj h).1
    | false =>
      rw [hx] at h
      exact ih h

theorem reconcileFrom (h : Kept s) {jobs : List Nat} (hidle : OrphanIdle s jobs) :
    Kept (s.reconcileFrom jobs) ∧ Settled s (s.reconcileFrom jobs) := by
  rw [State.reconcileFrom]
  split
  · exact ⟨h, .of_eq rfl⟩
  · rename_i n later hdrop
    have hfind := find?_of_dropWhile hdrop
    have hkept := Kept.saveJob (h.cancel n "Interrupted by server restart" (hidle n hfind)) n
    refine ⟨hkept.withTasks hkept.active, Settled.trans (settled_modify (s := s) (n := n) ?_) ?_
      (.of_eq (State.slots_saveJob _ _))⟩
    · intro slot hslot hterminal
      have horphan : s.orphaned n = true := List.find?_some hfind
      rw [State.orphaned, hslot] at horphan
      rcases Bool.or_eq_true_iff.mp horphan with hstatus | hstatus <;>
        rw [of_decide_eq_true hstatus] at hterminal <;> exact absurd hterminal (by decide)
    · exact State.moved_modify s n fun slot => .cancel _

/-! The coroutines. -/

theorem runJobPipeline (h : Kept s) (n : Nat) (outcome : Outcome) :
    Kept (s.runJobPipeline n outcome) ∧ Settled s (s.runJobPipeline n outcome) := by
  have hkept : Kept (s.modify n fun slot => slot.advance outcome) :=
    h.modify n (fun slot => slot.jobId_advance outcome) (fun slot => Slot.running_of_advance)
      fun slot hslot => (h.live slot (List.mem_of_getElem? hslot)).advance outcome
  have hsettled : Settled s (s.modify n fun slot => slot.advance outcome) := settled_modify fun slot hslot hterminal =>
    (h.live slot (List.mem_of_getElem? hslot)).settled_advance hterminal outcome
  rw [State.runJobPipeline]
  split
  · dsimp only
    split
    · exact ⟨hkept.saveJob n, hsettled.saveJob n⟩
    · exact ⟨hkept, hsettled⟩
  · exact ⟨h, .of_eq rfl⟩

theorem spawnTask (h : Kept s) (n : Nat) : Kept (s.spawnTask n) ∧ Settled s (s.spawnTask n) := by
  rw [State.spawnTask]
  split
  · rename_i slot hslot
    split
    · refine ⟨?_, Settled.trans (settled_modify (s := s) (n := n) (f := Slot.spawn) ?_) ?_ (.of_eq rfl)⟩
      · refine h.modifyTasks n (fun slot => Slot.Does.spawn.jobId) ?_ ?_ ?_
        · intro slot hslot
          exact (h.live slot (List.mem_of_getElem? hslot)).spawn
        · intro slot' hslot' _
          obtain rfl := Option.some.inj (hslot.symm.trans hslot')
          rw [Dict.get?_insert, if_pos rfl]
        · intro m slot' hne hslot' hrunning
          rw [Dict.get?_insert, if_neg (h.jobId_ne hne hslot hslot')]
          exact h.active m slot' hslot' hrunning
      · intro slot _ _
        rw [Slot.spawn]
        split <;> rfl
      · exact State.moved_modify s n fun slot => .spawn
    · exact ⟨h, .of_eq rfl⟩
  · exact ⟨h, .of_eq rfl⟩

theorem doneCallback (h : Kept s) (n : Nat) : Kept (s.doneCallback n) ∧ Settled s (s.doneCallback n) := by
  rw [State.doneCallback]
  split
  · rename_i slot hslot
    split
    · rename_i htask
      refine ⟨?_, Settled.trans (settled_modify (s := s) (n := n) (f := Slot.callback) ?_) ?_ (.of_eq rfl)⟩
      · refine h.modifyTasks n (fun slot => Slot.Does.callback.jobId) ?_ ?_ ?_
        · intro slot hslot
          exact Slot.live_callback (h.live slot (List.mem_of_getElem? hslot))
        · intro slot' hslot' hrunning
          obtain rfl := Option.some.inj (hslot.symm.trans hslot')
          have hrunning := Slot.running_of_callback hrunning
          rw [htask] at hrunning
          cases hrunning
        · intro m slot' hne hslot' hrunning
          rw [Dict.get?_erase, if_neg (h.jobId_ne hne hslot hslot')]
          exact h.active m slot' hslot' hrunning
      · intro slot _ _
        rw [Slot.callback]
        split <;> rfl
      · exact State.moved_modify s n fun slot => .callback
    · exact ⟨h, .of_eq rfl⟩
  · exact ⟨h, .of_eq rfl⟩

/-! The requests that make and remove a job. -/

theorem append (h : Kept s) {slot : Slot} (hlive : slot.Live) (hidle : slot.task.running = false)
    (hfresh : ∀ old ∈ s.slots, old.job.jobId ≠ slot.job.jobId) : Kept { s with slots := s.slots ++ [slot] } := by
  have hold : ∀ (n : Nat) (slot' : Slot), (s.slots ++ [slot])[n]? = some slot' →
      s.slots[n]? = some slot' ∨ slot' = slot := by
    intro n slot' hslot'
    rw [List.getElem?_append] at hslot'
    split at hslot'
    · exact Or.inl hslot'
    · exact Or.inr (List.mem_singleton.mp (List.mem_of_getElem? hslot'))
  refine ⟨?_, ?_, ?_, ?_⟩
  · rw [List.map_append, List.map_singleton, List.nodup_append]
    refine ⟨h.ids, List.nodup_singleton _, ?_⟩
    intro id hid other hother
    obtain ⟨old, hmem, rfl⟩ := List.mem_map.mp hid
    rw [List.mem_singleton.mp hother]
    exact hfresh old hmem
  · intro slot' hslot'
    rcases List.mem_append.mp hslot' with hslot' | hslot'
    · exact h.live slot' hslot'
    · exact List.mem_singleton.mp hslot' ▸ hlive
  · intro n slot' hslot' hrunning
    rcases hold n slot' hslot' with hslot' | rfl
    · exact h.active n slot' hslot' hrunning
    · rw [hidle] at hrunning
      cases hrunning
  · intro jobId n hget
    obtain ⟨old, hslot, hid⟩ := h.known jobId n hget
    exact ⟨old, List.getElem?_append_left (List.getElem?_eq_some_iff.mp hslot).1 ▸ hslot, hid⟩

theorem enqueueDownload (h : Kept s) {symbol timeframe : String} {startDate endDate : Int} {second : Nat}
    (hfresh : startDate ≤ endDate → ∀ slot ∈ s.slots, slot.job.jobId ≠ jobIdOf symbol timeframe second) :
    Kept (s.enqueueDownload symbol timeframe startDate endDate second) := by
  rw [State.enqueueDownload]
  split
  · exact h
  · rename_i ranges hranges
    have hle : startDate ≤ endDate := by
      rw [splitDateRange] at hranges
      split at hranges
      · cases hranges
      · omega
    have hlive : (State.newSlot symbol timeframe startDate endDate second ranges).Live := rfl
    exact Kept.saveJob (h.append hlive rfl (hfresh hle)) _

theorem settled_enqueueDownload (s : State) (symbol timeframe : String) (startDate endDate : Int) (second : Nat) :
    Settled s (s.enqueueDownload symbol timeframe startDate endDate second) := by
  intro n slot slot' hslot hslot' _
  rcases State.slots_enqueueDownload s symbol timeframe startDate endDate second with hsame | ⟨ranges, -, hnew⟩
  · exact congrArg (·.job.status) (Option.some.inj ((hsame ▸ hslot').symm.trans hslot))
  · rw [hnew, List.getElem?_append_left (List.getElem?_eq_some_iff.mp hslot).1] at hslot'
    exact congrArg (·.job.status) (Option.some.inj (hslot'.symm.trans hslot))

theorem removeJob (h : Kept s) (i : Nat) : Kept (s.removeJob i) := by
  rw [State.removeJob]
  split
  · refine ⟨h.ids, h.live, h.active, ?_⟩
    intro jobId n hget
    rw [Dict.get?_erase] at hget
    split at hget
    · cases hget
    · exact h.known jobId n hget
  · exact h

theorem step (h : Kept s) {event : Event} (hcareful : Careful s event) :
    Kept (Download.step s event) ∧ Settled s (Download.step s event) := by
  cases event with
  | enqueue symbol timeframe startDate endDate second =>
    exact ⟨h.enqueueDownload hcareful, settled_enqueueDownload s symbol timeframe startDate endDate second⟩
  | spawn n => exact h.spawnTask n
  | advance n outcome => exact h.runJobPipeline n outcome
  | callback n => exact h.doneCallback n
  | cancel jobId => exact ⟨h.cancelJob hcareful, h.settled_cancelJob hcareful⟩
  | delete jobId =>
    rw [Download.step, State.deleteJob]
    split
    · have hkept := h.cancelJob hcareful
      exact ⟨hkept.withTasks hkept.active, h.settled_cancelJob hcareful⟩
    · exact ⟨h.cancelJob hcareful, h.settled_cancelJob hcareful⟩
  | remove i =>
    refine ⟨h.removeJob i, .of_eq ?_⟩
    rw [Download.step, State.removeJob]
    split <;> rfl
  | reconcile => exact h.reconcileFrom hcareful
  | reconcileNext i =>
    rw [Download.step, State.reconcileNext]
    split
    · rename_i jobs hjobs
      have hkept : Kept { s with reconciles := s.reconciles.eraseIdx i } := h.withTasks h.active
      exact hkept.reconcileFrom (hcareful jobs hjobs)
    · exact ⟨h, .of_eq rfl⟩

end Kept

theorem Started.kept {s : State} (h : Started s) : Kept s := by
  have htask : ∀ slot ∈ s.slots, slot.task.busy = false ∧ slot.task.running = false := by
    intro slot hslot
    rw [h.loaded slot hslot]
    exact ⟨rfl, rfl⟩
  refine ⟨h.lawful.ids, fun slot hslot => Slot.live_of_idle (htask slot hslot).1, ?_, h.known⟩
  intro n slot hslot hrunning
  rw [(htask slot (List.mem_of_getElem? hslot)).2] at hrunning
  cases hrunning

theorem Numbered.lawful {s : State} (h : Numbered s) (hkept : Kept s) : Lawful s where
  ids := hkept.ids
  counted := fun slot hslot => (h slot hslot).counted
  unfailed := fun slot hslot => (h slot hslot).unfailed

theorem Continues.refl (s : State) : Continues s s :=
  fun _ slot hslot => ⟨slot, hslot, rfl, fun _ => rfl, le_refl _⟩

theorem Continues.trans {s s' s'' : State} (h : Continues s s') (h' : Continues s' s'') : Continues s s'' := by
  intro n slot hslot
  obtain ⟨slot', hslot', hmid⟩ := h n slot hslot
  obtain ⟨slot'', hslot'', hlast⟩ := h' n slot' hslot'
  refine ⟨slot'', hslot'', hlast.jobId.trans hmid.jobId, ?_, hmid.progress.trans hlast.progress⟩
  intro hterminal
  have hstatus := hmid.settled hterminal
  exact (hlast.settled (hstatus ▸ hterminal)).trans hstatus

theorem continues_step {s : State} (h : Numbered s) (hkept : Kept s) {event : Event} (hcareful : Careful s event) :
    Continues s (step s event) := by
  intro n slot hslot
  obtain ⟨slot', hslot', hid, hle⟩ := h.grows event n slot hslot
  exact ⟨slot', hslot', hid, (hkept.step hcareful).2 n slot slot' hslot hslot', hle⟩

/-- The law holds of every run in which the service is used with care. -/
theorem lifecycle_of_careful {s : State} (hs : Started s) {events : List Event}
    (h : Guarded step Careful s events) : Lifecycle s events := by
  have hinv : Always step (fun s => Numbered s ∧ Kept s) s events :=
    always_of_guarded (fun s event hinv hcareful => ⟨hinv.1.step event, (hinv.2.step hcareful).1⟩)
      ⟨hs.numbered, hs.kept⟩ h
  exact ⟨hinv.mono fun s hinv => hinv.1.lawful hinv.2,
    (related_iff_guarded Continues.refl (fun _ _ _ => Continues.trans) s events).mpr
      (h.mono hinv fun s event hinv hcareful => continues_step hinv.1 hinv.2 hcareful)⟩

def interrupted : Job where
  jobId := "job_SENSEX_1m_1699999000"
  datasetId := "SENSEX_1M"
  symbol := "SENSEX"
  timeframe := "1m"
  rangeFrom := 0
  rangeTo := 59
  status := .RUNNING
  progressPct := 50
  totalChunks := 2
  completedChunks := 1
  rowsDownloaded := 375
  chunks := [{ rangeFrom := 0, rangeTo := 29, status := .COMPLETED, rowsFetched := 375 },
    { rangeFrom := 30, rangeTo := 59, status := .DOWNLOADING }]

def restarted : State where
  slots := [{ job := interrupted, task := .loaded }]
  memJobs := Dict.empty.insert "job_SENSEX_1m_1699999000" 0
  activeTasks := .empty
  deletes := []
  reconciles := []

theorem started_restarted : Started restarted where
  loaded := by
    intro slot hslot
    rw [List.mem_singleton.mp hslot]
  lawful := by
    refine ⟨List.nodup_singleton _, ?_, ?_⟩
    · intro slot hslot
      rw [List.mem_singleton.mp hslot]
      rfl
    · intro slot hslot hstatus
      rw [List.mem_singleton.mp hslot] at hstatus
      cases hstatus
  known := by
    intro jobId n hget
    rw [restarted, Dict.get?_insert] at hget
    split at hget
    · rename_i hid
      obtain rfl := Option.some.inj hget
      exact ⟨_, rfl, hid.symm⟩
    · cases hget
  idle := ⟨rfl, rfl, rfl⟩

/-- The restart is reconciled, one download is cancelled under way, and another one completes. -/
def careful : List Event := [.reconcile, .reconcileNext 0, .enqueue "nifty" "1m" 0 9 1700000000, .spawn 1,
  .advance 1 (.rows 0), .enqueue " Banknifty" "5m" 0 9 1700000000, .advance 1 (.rows 0), .advance 1 (.rows 0), .spawn 2,
  .cancel "job_NIFTY_1m_1700000000", .callback 1, .advance 2 (.rows 0), .advance 2 (.rows 0),
  .advance 2 (.rows 0), .advance 2 (.rows 75), .advance 2 (.rows 0), .advance 2 (.rows 0), .advance 2 (.rows 0),
  .callback 2, .cancel "job_NIFTY_1m_1700000000"]

theorem careful_lifecycle : Started restarted ∧ Guarded step Careful restarted careful ∧ Lifecycle restarted careful :=
  ⟨started_restarted, by decide +kernel, lifecycle_of_careful started_restarted (by decide +kernel)⟩

/-- A download that completes, and is cancelled after that. -/
def cancelledLate : List Event := [.enqueue "nifty" "1m" 0 9 1700000000, .spawn 1, .advance 1 (.rows 0),
  .advance 1 (.rows 0), .advance 1 (.rows 0), .advance 1 (.rows 3750), .advance 1 (.rows 0), .advance 1 (.rows 0),
  .advance 1 (.rows 0), .callback 1]

theorem cancelledLate_numbers : Always step Numbered restarted cancelledLate ∧
    ∀ before between, before ++ between <+: cancelledLate →
      Grows (run step restarted before) (run step restarted (before ++ between)) :=
  numbers_of_run started_restarted cancelledLate

theorem cancelledLate_breaks :
    Started restarted ∧ ¬ Lifecycle restarted (cancelledLate ++ [.cancel "job_NIFTY_1m_1700000000"]) := by
  refine ⟨started_restarted, ?_⟩
  intro h
  have hbefore : ((run step restarted cancelledLate).slots[1]?).map (·.job.status) = some .COMPLETED := by
    decide +kernel
  have hafter : ((run step restarted (cancelledLate ++ [.cancel "job_NIFTY_1m_1700000000"])).slots[1]?).map
      (·.job.status) = some .CANCELLED := by
    decide +kernel
  obtain ⟨slot, hslot, hstatus⟩ := Option.map_eq_some_iff.mp hbefore
  obtain ⟨slot', hslot', hcontinues⟩ := h.continues _ _ (List.prefix_refl _) 1 slot hslot
  rw [hslot', Option.map_some, hcontinues.settled (hstatus ▸ Or.inl rfl), hstatus] at hafter
  cases hafter

end Droid.History.Download
