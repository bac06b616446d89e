import Droid.Feed.EventBuffer

/-! What a step of the buffer moves, drops and hands out, and the law of a run. -/
namespace Droid.Feed.MarketEventBuffer
open Lib

variable {α : Type} {priority : α → EventPriority} {b : MarketEventBuffer α}

/-- What `publish` does to the queues and the counters of the dropped events. -/
inductive Published (priority : α → EventPriority) (b : MarketEventBuffer α) (event : α) (b' : MarketEventBuffer α) : Prop
  | refused (queue : b'.queue = b.queue)
    (dropped : b'.dropped = Function.update b.dropped (priority event) (b.dropped (priority event) + 1))
    (high : priority event = .HIGH → b.lowQueue = [] ∧ b.mediumQueue = [])
  | displaced (victim : α) (rest : List α) (head : b.queue (priority victim) = victim :: rest)
    (lower : priority victim ≠ .HIGH)
    (queue : b'.queue = Function.update (Function.update b.queue (priority victim) rest) (priority event)
      (Function.update b.queue (priority victim) rest (priority event) ++ [event]))
    (dropped : b'.dropped = Function.update b.dropped (priority victim) (b.dropped (priority victim) + 1))
  | enqueued (queue : b'.queue = Function.update b.queue (priority event) (b.queue (priority event) ++ [event]))
    (dropped : b'.dropped = b.dropped)

theorem queue_enqueue (priority : α → EventPriority) (b : MarketEventBuffer α) (event : α) :
    (enqueue priority b event).queue = Function.update b.queue (priority event) (b.queue (priority event) ++ [event]) := by
  funext p
  cases hevent : priority event <;> cases p <;> simp [enqueue, hevent, queue]

theorem dropped_enqueue (priority : α → EventPriority) (b : MarketEventBuffer α) (event : α) :
    (enqueue priority b event).dropped = b.dropped := by
  funext p
  cases hevent : priority event <;> cases p <;> simp [enqueue, hevent, dropped]

/-- The buffer without the oldest event of a queue, and with the new event counted. -/
structure Shed (priority : α → EventPriority) (b b₁ : MarketEventBuffer α) (victim : α) (rest : List α) : Prop where
  head : b.queue (priority victim) = victim :: rest
  queue : b₁.queue = Function.update b.queue (priority victim) rest
  dropped : b₁.dropped = Function.update b.dropped (priority victim) (b.dropped (priority victim) + 1)
  limits : b₁.maxCapacity = b.maxCapacity ∧ b₁.highWatermark = b.highWatermark ∧
    b₁.criticalWatermark = b.criticalWatermark
  published : b₁.totalPublished = b.totalPublished + 1
  consumed : b₁.totalConsumed = b.totalConsumed

theorem depth_eq (b : MarketEventBuffer α) :
    b.depth = (b.queue .HIGH).length + (b.queue .MEDIUM).length + (b.queue .LOW).length := rfl

theorem Shed.depth {b₁ : MarketEventBuffer α} {victim : α} {rest : List α} (h : Shed priority b b₁ victim rest) :
    b₁.depth + 1 = b.depth := by
  have hlength := congrArg List.length h.head
  rw [List.length_cons] at hlength
  rw [depth_eq, depth_eq, h.queue]
  cases hvictim : priority victim <;> rw [hvictim] at hlength <;> simp <;> omega

theorem Shed.lost {b₁ : MarketEventBuffer α} {victim : α} {rest : List α} (h : Shed priority b b₁ victim rest) :
    b₁.droppedLow + b₁.droppedMedium + b₁.droppedHigh = b.droppedLow + b.droppedMedium + b.droppedHigh + 1 := by
  have hlow := congrFun h.dropped .LOW
  have hmedium := congrFun h.dropped .MEDIUM
  have hhigh := congrFun h.dropped .HIGH
  cases hvictim : priority victim <;> rw [hvictim] at hlow hmedium hhigh <;>
    simp [MarketEventBuffer.dropped] at hlow hmedium hhigh <;> omega

theorem enqueue_kept (priority : α → EventPriority) (b : MarketEventBuffer α) (event : α) :
    let b' := enqueue priority b event
    (b'.maxCapacity = b.maxCapacity ∧ b'.highWatermark = b.highWatermark ∧ b'.criticalWatermark = b.criticalWatermark) ∧
      b'.totalPublished = b.totalPublished ∧ b'.totalConsumed = b.totalConsumed ∧
      b'.droppedLow = b.droppedLow ∧ b'.droppedMedium = b.droppedMedium ∧ b'.droppedHigh = b.droppedHigh ∧
      b'.depth = b.depth + 1 := by
  cases hevent : priority event <;> simp [enqueue, hevent, MarketEventBuffer.depth] <;> omega

theorem sorted_update {queue : EventPriority → List α} (h : ∀ p, ∀ event ∈ queue p, priority event = p)
    {p : EventPriority} {l : List α} (hl : ∀ event ∈ l, priority event = p) :
    ∀ q, ∀ event ∈ Function.update queue p l q, priority event = q := by
  intro q event hmem
  by_cases hq : q = p
  · subst hq
    rw [Function.update_self] at hmem
    exact hl event hmem
  · rw [Function.update_of_ne hq] at hmem
    exact h q event hmem

theorem sorted_enqueue (h : ∀ p, ∀ event ∈ b.queue p, priority event = p) (event : α) :
    ∀ p, ∀ other ∈ (enqueue priority b event).queue p, priority other = p := by
  rw [queue_enqueue]
  apply sorted_update h
  intro other hother
  rcases List.mem_append.mp hother with hold | hnew
  · exact h _ other hold
  · rw [List.mem_singleton.mp hnew]

theorem Sound.enqueue (h : b.Sound priority) (event : α) (hroom : (b.depth : Int) < b.maxCapacity) :
    (MarketEventBuffer.enqueue priority { b with totalPublished := b.totalPublished + 1 } event).Sound priority := by
  obtain ⟨⟨hcapacity, hhigh, hcritical⟩, hpublished, hconsumed, hlow, hmedium, hhighest, hdepth⟩ :=
    enqueue_kept priority { b with totalPublished := b.totalPublished + 1 } event
  have hledger := h.ledger
  have hsame : MarketEventBuffer.depth { b with totalPublished := b.totalPublished + 1 } = b.depth := rfl
  refine ⟨sorted_enqueue (b := { b with totalPublished := b.totalPublished + 1 }) h.sorted event, ?_, ?_, ?_, ?_⟩
  · rw [hhigh, hcapacity]
    exact h.high
  · rw [hcritical, hcapacity]
    exact h.critical
  · rw [hdepth, hcapacity, hsame]
    push_cast
    omega
  · rw [hpublished, hconsumed, hlow, hmedium, hhighest, hdepth, hsame]
    dsimp only
    omega

theorem Sound.displace (h : b.Sound priority) {b₁ : MarketEventBuffer α} {victim : α} {rest : List α}
    (hshed : Shed priority b b₁ victim rest) (hlower : priority victim ≠ .HIGH) (event : α) :
    Published priority b event (MarketEventBuffer.enqueue priority b₁ event) ∧
      (MarketEventBuffer.enqueue priority b₁ event).Sound priority := by
  obtain ⟨⟨hcapacity, hhigh, hcritical⟩, hpublished, hconsumed, hlow, hmedium, hhighest, hdepth⟩ :=
    enqueue_kept priority b₁ event
  obtain ⟨hcapacity₁, hhigh₁, hcritical₁⟩ := hshed.limits
  have hshorter := hshed.depth
  have hlost := hshed.lost
  have hledger := h.ledger
  have hsorted₁ : ∀ p, ∀ other ∈ b₁.queue p, priority other = p := by
    rw [hshed.queue]
    apply sorted_update h.sorted
    intro other hother
    exact h.sorted _ other (hshed.head ▸ List.mem_cons_of_mem _ hother)
  constructor
  · refine .displaced victim rest hshed.head hlower ?_ ?_
    · rw [queue_enqueue, hshed.queue]
    · rw [dropped_enqueue, hshed.dropped]
  · refine ⟨sorted_enqueue hsorted₁ event, ?_, ?_, ?_, ?_⟩
    · rw [hhigh, hhigh₁, hcapacity, hcapacity₁]
      exact h.high
    · rw [hcritical, hcritical₁, hcapacity, hcapacity₁]
      exact h.critical
    · rw [hdepth, hshorter, hcapacity, hcapacity₁]
      exact h.bounded
    · rw [hpublished, hconsumed, hlow, hmedium, hhighest, hdepth, hshed.published, hshed.consumed]
      omega

theorem Sound.refuse (h : b.Sound priority) {b' : MarketEventBuffer α} {event : α} (hqueue : b'.queue = b.queue)
    (hdropped : b'.dropped = Function.update b.dropped (priority event) (b.dropped (priority event) + 1))
    (hlimits : b'.maxCapacity = b.maxCapacity ∧ b'.highWatermark = b.highWatermark ∧
      b'.criticalWatermark = b.criticalWatermark)
    (hpublished : b'.totalPublished = b.totalPublished + 1) (hconsumed : b'.totalConsumed = b.totalConsumed) :
    b'.Sound priority := by
  obtain ⟨hcapacity, hhigh, hcritical⟩ := hlimits
  have hdepth : b'.depth = b.depth := by rw [depth_eq, depth_eq, hqueue]
  have hledger := h.ledger
  have hlow := congrFun hdropped .LOW
  have hmedium := congrFun hdropped .MEDIUM
  have hhighest := congrFun hdropped .HIGH
  refine ⟨hqueue ▸ h.sorted, ?_, ?_, ?_, ?_⟩
  · rw [hhigh, hcapacity]
    exact h.high
  · rw [hcritical, hcapacity]
    exact h.critical
  · rw [hdepth, hcapacity]
    exact h.bounded
  · rw [hpublished, hconsumed, hdepth]
    cases hevent : priority event <;> rw [hevent] at hlow hmedium hhighest <;>
      simp [MarketEventBuffer.dropped] at hlow hmedium hhighest <;> omega

/-- A publication drops the event, displaces a lower one, or has room. -/
theorem publish_spec (h : b.Sound priority) (event : α) :
    Published priority b event (publish priority b event).1 ∧ (publish priority b event).1.Sound priority := by
  unfold publish
  dsimp only
  by_cases hlow : b.highWatermark ≤ b.depth ∧ priority event = .LOW
  · rw [if_pos hlow]
    have hdropped : dropped { b with totalPublished := b.totalPublished + 1, droppedLow := b.droppedLow + 1 } =
        Function.update b.dropped (priority event) (b.dropped (priority event) + 1) := by
      funext p
      cases p <;> simp [dropped, hlow.2]
    refine ⟨.refused rfl hdropped ?_, h.refuse rfl hdropped ⟨rfl, rfl, rfl⟩ rfl rfl⟩
    intro hevent
    cases hlow.2.symm.trans hevent
  rw [if_neg hlow]
  by_cases hmedium : b.criticalWatermark ≤ b.depth ∧ priority event = .MEDIUM
  · rw [if_pos hmedium]
    have hdropped : dropped { b with totalPublished := b.totalPublished + 1, droppedMedium := b.droppedMedium + 1 } =
        Function.update b.dropped (priority event) (b.dropped (priority event) + 1) := by
      funext p
      cases p <;> simp [dropped, hmedium.2]
    refine ⟨.refused rfl hdropped ?_, h.refuse rfl hdropped ⟨rfl, rfl, rfl⟩ rfl rfl⟩
    intro hevent
    cases hmedium.2.symm.trans hevent
  rw [if_neg hmedium]
  by_cases hfull : b.maxCapacity ≤ b.depth
  · rw [if_pos hfull]
    -- the watermarks are within the capacity, so the event is a HIGH one
    have hevent : priority event = .HIGH := by
      cases hp : priority event with
      | HIGH => rfl
      | MEDIUM => exact absurd ⟨h.critical.trans hfull, hp⟩ hmedium
      | LOW => exact absurd ⟨h.high.trans hfull, hp⟩ hlow
    split
    · rename_i victim rest hqueue
      have hvictim : priority victim = .LOW := h.sorted .LOW victim (by simp [queue, hqueue])
      have hshed : Shed priority b
          { b with totalPublished := b.totalPublished + 1, lowQueue := rest, droppedLow := b.droppedLow + 1 }
          victim rest := by
        refine ⟨?_, ?_, ?_, ⟨rfl, rfl, rfl⟩, rfl, rfl⟩
        · rw [hvictim]
          exact hqueue
        · funext p
          cases p <;> simp [queue, hvictim]
        · funext p
          cases p <;> simp [dropped, hvictim]
      exact h.displace hshed (by simp [hvictim]) event
    · rename_i victim rest hqlow hqueue
      have hvictim : priority victim = .MEDIUM := h.sorted .MEDIUM victim (by simp [queue, hqueue])
      have hshed : Shed priority b
          { b with totalPublished := b.totalPublished + 1, mediumQueue := rest, droppedMedium := b.droppedMedium + 1 }
          victim rest := by
        refine ⟨?_, ?_, ?_, ⟨rfl, rfl, rfl⟩, rfl, rfl⟩
        · rw [hvictim]
          exact hqueue
        · funext p
          cases p <;> simp [queue, hvictim]
        · funext p
          cases p <;> simp [dropped, hvictim]
      exact h.displace hshed (by simp [hvictim]) event
    · rename_i hqlow hqmedium
      have hdropped : dropped { b with totalPublished := b.totalPublished + 1, droppedHigh := b.droppedHigh + 1 } =
          Function.update b.dropped (priority event) (b.dropped (priority event) + 1) := by
        funext p
        cases p <;> simp [dropped, hevent]
      exact ⟨.refused rfl hdropped fun _ => ⟨hqlow, hqmedium⟩, h.refuse rfl hdropped ⟨rfl, rfl, rfl⟩ rfl rfl⟩
  · rw [if_neg hfull]
    exact ⟨.enqueued (queue_enqueue _ _ _) (dropped_enqueue _ _ _), h.enqueue event (not_le.mp hfull)⟩

theorem Published.turn {event : α} {b' : MarketEventBuffer α} (h : Published priority b event b') :
    ∃ lost, ClassTurn priority b.queue b'.queue b.dropped b'.dropped [event] [] lost := by
  cases h with
  | refused hqueue hdropped =>
    rw [hqueue, hdropped]
    exact ⟨_, .refuse priority b.queue b.dropped event⟩
  | displaced victim rest hhead _ hqueue hdropped =>
    rw [hqueue, hdropped]
    exact ⟨_, (ClassTurn.displace hhead).trans (.enqueue priority _ _ event)⟩
  | enqueued hqueue hdropped =>
    rw [hqueue, hdropped]
    exact ⟨_, .enqueue priority b.queue b.dropped event⟩

theorem Published.high {event : α} {b' : MarketEventBuffer α} (h : Published priority b event b')
    (hsound : b.Sound priority) (hmore : b.droppedHigh < b'.droppedHigh) :
    ∀ other ∈ b.queued, priority other = .HIGH := by
  have hhigh : b.dropped .HIGH < b'.dropped .HIGH := hmore
  cases h with
  | refused _ hdropped hlower =>
    rw [hdropped] at hhigh
    have hevent : priority event = .HIGH := by
      by_contra hne
      rw [Function.update_of_ne (Ne.symm hne)] at hhigh
      exact lt_irrefl _ hhigh
    obtain ⟨hlow, hmedium⟩ := hlower hevent
    intro other hother
    simp only [queued, hlow, hmedium, List.append_nil] at hother
    exact hsound.sorted .HIGH other hother
  | displaced victim rest _ hvictim _ hdropped =>
    rw [hdropped, Function.update_of_ne (Ne.symm hvictim)] at hhigh
    exact absurd hhigh (lt_irrefl _)
  | enqueued _ hdropped =>
    rw [hdropped] at hhigh
    exact absurd hhigh (lt_irrefl _)

theorem publish_counts (priority : α → EventPriority) (b : MarketEventBuffer α) (event : α) :
    (publish priority b event).1.totalPublished = b.totalPublished + 1 ∧
      (publish priority b event).1.totalConsumed = b.totalConsumed := by
  have henqueue := fun b : MarketEventBuffer α => (enqueue_kept priority b event).2
  unfold publish
  dsimp only
  split_ifs
  · exact ⟨rfl, rfl⟩
  · exact ⟨rfl, rfl⟩
  · split
    · exact ⟨(henqueue _).1, (henqueue _).2.1⟩
    · exact ⟨(henqueue _).1, (henqueue _).2.1⟩
    · exact ⟨rfl, rfl⟩
  · exact ⟨(henqueue _).1, (henqueue _).2.1⟩

/-! ### Consumption -/

/-- An event taken from the front of its queue, with nothing of higher priority in the others. -/
structure Taken (priority : α → EventPriority) (b b' : MarketEventBuffer α) (event : α) : Prop where
  turn : ClassTurn priority b.queue b'.queue b.dropped b'.dropped [] [event] []
  sound : b'.Sound priority
  published : b'.totalPublished = b.totalPublished
  consumed : b'.totalConsumed = b.totalConsumed + 1
  highest : ∀ other ∈ b'.queued, (priority other).rank ≤ (priority event).rank

theorem mem_queued {event : α} : event ∈ b.queued ↔ ∃ p, event ∈ b.queue p := by
  constructor
  · intro h
    rcases List.mem_append.mp h with h | h
    · rcases List.mem_append.mp h with h | h
      · exact ⟨.HIGH, h⟩
      · exact ⟨.MEDIUM, h⟩
    · exact ⟨.LOW, h⟩
  · rintro ⟨p, h⟩
    cases p <;> simp only [queue] at h <;> simp [queued, h]

/-- One event less in a queue, where the queues above it are empty. -/
theorem Sound.take (h : b.Sound priority) {b' : MarketEventBuffer α} {event : α} (rest : List α)
    (hhead : b.queue (priority event) = event :: rest)
    (hqueue : b'.queue = Function.update b.queue (priority event) rest) (hdropped : b'.dropped = b.dropped)
    (hlimits : b'.maxCapacity = b.maxCapacity ∧ b'.highWatermark = b.highWatermark ∧
      b'.criticalWatermark = b.criticalWatermark)
    (hpublished : b'.totalPublished = b.totalPublished) (hconsumed : b'.totalConsumed = b.totalConsumed + 1)
    (habove : ∀ p, (priority event).rank < p.rank → b.queue p = []) : Taken priority b b' event := by
  obtain ⟨hcapacity, hhigh, hcritical⟩ := hlimits
  have hledger := h.ledger
  have hbounded := h.bounded
  have hlength := congrArg List.length hhead
  rw [List.length_cons] at hlength
  have hdepth : b'.depth + 1 = b.depth := by
    rw [depth_eq, depth_eq, hqueue]
    cases hp : priority event <;> rw [hp] at hlength <;> simp <;> omega
  have hlow : b'.droppedLow = b.droppedLow := congrFun hdropped .LOW
  have hmedium : b'.droppedMedium = b.droppedMedium := congrFun hdropped .MEDIUM
  have hhighest : b'.droppedHigh = b.droppedHigh := congrFun hdropped .HIGH
  have hsorted : ∀ p, ∀ other ∈ b'.queue p, priority other = p := by
    rw [hqueue]
    apply sorted_update h.sorted
    intro other hother
    exact h.sorted _ other (hhead ▸ List.mem_cons_of_mem _ hother)
  refine ⟨?_, ⟨hsorted, ?_, ?_, ?_, ?_⟩, hpublished, hconsumed, ?_⟩
  · rw [hqueue, hdropped]
    exact .take hhead
  · rw [hhigh, hcapacity]
    exact h.high
  · rw [hcritical, hcapacity]
    exact h.critical
  · rw [hcapacity]
    omega
  · rw [hpublished, hconsumed, hlow, hmedium, hhighest]
    omega
  · intro other hother
    obtain ⟨p, hp⟩ := mem_queued.mp hother
    rw [hsorted p other hp]
    by_contra hlt
    have hempty := habove p (not_le.mp hlt)
    have hne : p ≠ priority event := by
      rintro rfl
      exact lt_irrefl _ (not_le.mp hlt)
    rw [hqueue, Function.update_of_ne hne, hempty] at hp
    cases hp

theorem consume_spec (h : b.Sound priority) :
    b.consume = (b, none) ∨ ∃ event, b.consume.2 = some event ∧ Taken priority b b.consume.1 event := by
  unfold consume
  split
  · rename_i event rest hqueue
    have hevent : priority event = .HIGH := h.sorted .HIGH event (by simp [queue, hqueue])
    refine Or.inr ⟨event, rfl, h.take rest ?_ ?_ rfl ⟨rfl, rfl, rfl⟩ rfl rfl ?_⟩
    · rw [hevent]
      exact hqueue
    · funext p
      cases p <;> simp [queue, hevent]
    · rw [hevent]
      intro p hp
      cases p <;> simp [EventPriority.rank] at hp
  · rename_i event rest hhigh hqueue
    have hevent : priority event = .MEDIUM := h.sorted .MEDIUM event (by simp [queue, hqueue])
    refine Or.inr ⟨event, rfl, h.take rest ?_ ?_ rfl ⟨rfl, rfl, rfl⟩ rfl rfl ?_⟩
    · rw [hevent]
      exact hqueue
    · funext p
      cases p <;> simp [queue, hevent]
    · rw [hevent]
      intro p hp
      cases p <;> simp [EventPriority.rank, queue, hhigh] at hp ⊢
  · rename_i event rest hhigh hmedium hqueue
    have hevent : priority event = .LOW := h.sorted .LOW event (by simp [queue, hqueue])
    refine Or.inr ⟨event, rfl, h.take rest ?_ ?_ rfl ⟨rfl, rfl, rfl⟩ rfl rfl ?_⟩
    · rw [hevent]
      exact hqueue
    · funext p
      cases p <;> simp [queue, hevent]
    · rw [hevent]
      intro p hp
      cases p <;> simp [EventPriority.rank, queue, hhigh, hmedium] at hp ⊢
  · exact Or.inl rfl

/-- Events taken one after the other, each with nothing of higher priority behind it. -/
structure TakenAll (priority : α → EventPriority) (b b' : MarketEventBuffer α) (events : List α) : Prop where
  turn : ClassTurn priority b.queue b'.queue b.dropped b'.dropped [] events []
  sound : b'.Sound priority
  published : b'.totalPublished = b.totalPublished
  consumed : b'.totalConsumed = b.totalConsumed + events.length
  ordered : events.Pairwise fun event later => (priority later).rank ≤ (priority event).rank
  highest : ∀ event ∈ events, ∀ other ∈ b'.queued, (priority other).rank ≤ (priority event).rank

theorem TakenAll.nil (h : b.Sound priority) : TakenAll priority b b [] where
  turn := .refl priority b.queue b.dropped
  sound := h
  published := rfl
  consumed := rfl
  ordered := .nil
  highest := by simp

theorem TakenAll.mem {b' : MarketEventBuffer α} {events : List α} (h : TakenAll priority b b' events) {event : α}
    (hmem : event ∈ events ∨ event ∈ b'.queued) : event ∈ b.queued := by
  have hevents := h.turn.events
  rw [mem_queued]
  rcases hmem with hout | hleft
  · refine ⟨priority event, ?_⟩
    have hperm := hevents (priority event)
    rw [ofClass_nil, List.append_nil, List.append_nil] at hperm
    refine hperm.mem_iff.mpr (List.mem_append_left _ ?_)
    exact List.mem_filter.mpr ⟨hout, decide_eq_true rfl⟩
  · obtain ⟨p, hp⟩ := mem_queued.mp hleft
    refine ⟨p, ?_⟩
    have hperm := hevents p
    rw [ofClass_nil, List.append_nil, List.append_nil] at hperm
    exact hperm.mem_iff.mpr (List.mem_append_right _ hp)

theorem TakenAll.cons {b₁ b' : MarketEventBuffer α} {event : α} {events : List α} (h : Taken priority b b₁ event)
    (hrest : TakenAll priority b₁ b' events) : TakenAll priority b b' (event :: events) where
  turn := h.turn.trans hrest.turn
  sound := hrest.sound
  published := hrest.published.trans h.published
  consumed := by
    have hfirst := h.consumed
    have hothers := hrest.consumed
    rw [List.length_cons]
    omega
  ordered := List.pairwise_cons.mpr ⟨fun later hlater => h.highest later (hrest.mem (Or.inl hlater)), hrest.ordered⟩
  highest := by
    intro taken htaken other hother
    rcases List.mem_cons.mp htaken with rfl | hlater
    · exact h.highest other (hrest.mem (Or.inr hother))
    · exact hrest.highest taken hlater other hother

theorem consume_taken (h : b.Sound priority) : TakenAll priority b b.consume.1 b.consume.2.toList := by
  rcases consume_spec h with hnone | ⟨event, hsome, htaken⟩
  · rw [hnone]
    exact .nil h
  · rw [hsome]
    exact .cons htaken (.nil htaken.sound)

theorem consumeBatch_taken (h : b.Sound priority) (n : Nat) :
    TakenAll priority b (b.consumeBatch n).1 (b.consumeBatch n).2 := by
  induction n generalizing b with
  | zero => exact .nil h
  | succ n ih =>
    rcases consume_spec h with hnone | ⟨event, hsome, htaken⟩
    · rw [consumeBatch, hnone]
      exact .nil h
    · have hconsume : b.consume = (b.consume.1, some event) := Prod.ext rfl hsome
      rw [consumeBatch, hconsume]
      exact .cons htaken (ih htaken.sound)

/-! ### Runs -/

/-- What a run has moved, dropped and counted. -/
structure Traced (priority : α → EventPriority) (t : Trace α) : Prop where
  sound : t.buffer.Sound priority
  turn : ∃ lost, ClassTurn priority (fun _ => []) t.buffer.queue (fun _ => 0) t.buffer.dropped t.published t.consumed lost
  published : t.buffer.totalPublished = t.published.length
  consumed : t.buffer.totalConsumed = t.consumed.length

theorem Traced.taken {t : Trace α} (h : Traced priority t) {b' : MarketEventBuffer α} {events : List α}
    (htaken : TakenAll priority t.buffer b' events) :
    Traced priority { buffer := b', published := t.published, consumed := t.consumed ++ events } where
  sound := htaken.sound
  turn := by
    obtain ⟨lost, hturn⟩ := h.turn
    have hboth := hturn.trans htaken.turn
    rw [List.append_nil, List.append_nil] at hboth
    exact ⟨lost, hboth⟩
  published := htaken.published.trans h.published
  consumed := by
    rw [List.length_append, ← h.consumed]
    exact htaken.consumed

theorem Traced.step {t : Trace α} (h : Traced priority t) (op : Op α) : Traced priority (step priority t op) := by
  cases op with
  | publish event =>
    obtain ⟨hpublished, hsound⟩ := publish_spec h.sound event
    obtain ⟨hcount, hconsumed⟩ := publish_counts priority t.buffer event
    refine ⟨hsound, ?_, ?_, ?_⟩
    · obtain ⟨lost, hturn⟩ := h.turn
      obtain ⟨refused, hstep⟩ := hpublished.turn
      exact ⟨_, hturn.trans hstep⟩
    · refine hcount.trans ?_
      rw [h.published]
      simp [MarketEventBuffer.step]
    · refine hconsumed.trans ?_
      rw [h.consumed]
      exact congrArg List.length (List.append_nil t.consumed).symm
  | consume => exact h.taken (consume_taken h.sound)
  | consumeBatch maxBatchSize => exact h.taken (consumeBatch_taken h.sound _)

theorem init_sound {highWatermark criticalWatermark : ℚ} (hhigh : highWatermark ≤ 1) (hcritical : criticalWatermark ≤ 1)
    (maxCapacity : Nat) : (init maxCapacity highWatermark criticalWatermark : MarketEventBuffer α).Sound priority := by
  have hint : ∀ watermark : ℚ, watermark ≤ 1 →
      (if 0 ≤ maxCapacity * watermark then ⌊maxCapacity * watermark⌋ else ⌈maxCapacity * watermark⌉) ≤ (maxCapacity : Int) := by
    intro watermark hle
    have hcapacity : (0 : ℚ) ≤ maxCapacity := Nat.cast_nonneg _
    split_ifs with hsign
    · have hfloor : (⌊maxCapacity * watermark⌋ : ℚ) ≤ maxCapacity :=
        (Int.floor_le _).trans (mul_le_of_le_one_right hcapacity hle)
      exact_mod_cast hfloor
    · have hceil : ⌈maxCapacity * watermark⌉ ≤ 0 := Int.ceil_le.mpr (by simpa using (not_le.mp hsign).le)
      omega
  refine ⟨?_, hint _ hhigh, hint _ hcritical, Int.natCast_nonneg _, rfl⟩
  intro p event hmem
  cases p <;> cases hmem

theorem traced_after {highWatermark criticalWatermark : ℚ} (hhigh : highWatermark ≤ 1) (hcritical : criticalWatermark ≤ 1)
    (maxCapacity : Nat) (ops : List (Op α)) :
    Traced priority (after priority maxCapacity highWatermark criticalWatermark ops) := by
  have hstart : Traced priority { buffer := init maxCapacity highWatermark criticalWatermark } := by
    refine ⟨init_sound hhigh hcritical maxCapacity, ⟨[], ?_⟩, rfl, rfl⟩
    have hqueue : (init maxCapacity highWatermark criticalWatermark : MarketEventBuffer α).queue = fun _ => [] := by
      funext p
      cases p <;> rfl
    have hdropped : (init maxCapacity highWatermark criticalWatermark : MarketEventBuffer α).dropped = fun _ => 0 := by
      funext p
      cases p <;> rfl
    rw [hqueue, hdropped]
    exact .refl priority _ _
  exact run_of_always (always_of_step (fun t op ht => ht.step op) hstart ops)

theorem after_concat (priority : α → EventPriority) (maxCapacity : Nat) (highWatermark criticalWatermark : ℚ)
    (pre : List (Op α)) (op : Op α) :
    after priority maxCapacity highWatermark criticalWatermark (pre ++ [op]) =
      step priority (after priority maxCapacity highWatermark criticalWatermark pre) op := by
  rw [after, run_append, run_cons, run_nil, ← after]

/-! The capacity stays the one the buffer was made with. -/

theorem publish_maxCapacity (priority : α → EventPriority) (b : MarketEventBuffer α) (event : α) :
    (publish priority b event).1.maxCapacity = b.maxCapacity := by
  have henqueue := fun b : MarketEventBuffer α => (enqueue_kept priority b event).1.1
  unfold publish
  dsimp only
  split_ifs
  · rfl
  · rfl
  · split
    · exact henqueue _
    · exact henqueue _
    · rfl
  · exact henqueue _

theorem consume_maxCapacity (b : MarketEventBuffer α) : b.consume.1.maxCapacity = b.maxCapacity := by
  unfold consume
  split <;> rfl

theorem consumeBatch_maxCapacity (b : MarketEventBuffer α) (n : Nat) :
    (b.consumeBatch n).1.maxCapacity = b.maxCapacity := by
  induction n generalizing b with
  | zero => rfl
  | succ n ih =>
    have hfirst := b.consume_maxCapacity
    rw [consumeBatch]
    split
    · rename_i b' hconsume
      rw [hconsume] at hfirst
      exact hfirst
    · rename_i b' event hconsume
      rw [hconsume] at hfirst
      exact (ih b').trans hfirst

theorem step_maxCapacity (priority : α → EventPriority) (t : Trace α) (op : Op α) :
    (step priority t op).buffer.maxCapacity = t.buffer.maxCapacity := by
  cases op with
  | publish event => exact publish_maxCapacity priority t.buffer event
  | consume => exact t.buffer.consume_maxCapacity
  | consumeBatch maxBatchSize => exact t.buffer.consumeBatch_maxCapacity maxBatchSize.toNat

theorem after_maxCapacity (priority : α → EventPriority) (maxCapacity : Nat) (highWatermark criticalWatermark : ℚ)
    (ops : List (Op α)) :
    (after priority maxCapacity highWatermark criticalWatermark ops).buffer.maxCapacity = maxCapacity :=
  run_of_always (always_of_step (P := fun t : Trace α => t.buffer.maxCapacity = maxCapacity)
    (fun t op ht => (step_maxCapacity priority t op).trans ht) rfl ops)

structure BufferLaw (priority : α → EventPriority) (maxCapacity : Nat) (highWatermark criticalWatermark : ℚ)
    (ops : List (Op α)) (t : Trace α) : Prop where
  ledger : t.buffer.totalPublished =
    t.buffer.totalConsumed + (t.buffer.droppedLow + t.buffer.droppedMedium + t.buffer.droppedHigh) + t.buffer.depth
  bounded : t.buffer.depth ≤ maxCapacity
  counted : t.buffer.totalPublished = t.published.length ∧ t.buffer.totalConsumed = t.consumed.length
  accounted : ∃ lost, ∀ p, (ofClass priority p t.published).Perm
    (ofClass priority p t.consumed ++ ofClass priority p lost ++ t.buffer.queue p) ∧
      t.buffer.dropped p = (ofClass priority p lost).length
  fifo : ∀ p, (ofClass priority p t.consumed).Sublist (ofClass priority p t.published)
  high : ∀ pre op, pre ++ [op] <+: ops →
    (after priority maxCapacity highWatermark criticalWatermark pre).buffer.droppedHigh <
      (after priority maxCapacity highWatermark criticalWatermark (pre ++ [op])).buffer.droppedHigh →
    ∀ event ∈ (after priority maxCapacity highWatermark criticalWatermark pre).buffer.queued, priority event = .HIGH
  strict : ∀ pre op, pre ++ [op] <+: ops →
    let out := returned (after priority maxCapacity highWatermark criticalWatermark pre).buffer op
    out.Pairwise (fun event later => (priority later).rank ≤ (priority event).rank) ∧
      ∀ event ∈ out, ∀ other ∈ (after priority maxCapacity highWatermark criticalWatermark (pre ++ [op])).buffer.queued,
        (priority other).rank ≤ (priority event).rank

theorem droppedHigh_step {t : Trace α} (h : Traced priority t) {op : Op α}
    (hmore : t.buffer.droppedHigh < (step priority t op).buffer.droppedHigh) :
    ∀ event ∈ t.buffer.queued, priority event = .HIGH := by
  have hsame : ∀ {b' : MarketEventBuffer α} {events : List α}, TakenAll priority t.buffer b' events →
      b'.droppedHigh = t.buffer.droppedHigh := fun htaken => htaken.turn.counted .HIGH
  cases op with
  | publish event => exact (publish_spec h.sound event).1.high h.sound hmore
  | consume => exact absurd hmore (by rw [step, hsame (consume_taken h.sound)]; exact lt_irrefl _)
  | consumeBatch maxBatchSize =>
    exact absurd hmore (by rw [step, hsame (consumeBatch_taken h.sound _)]; exact lt_irrefl _)

theorem returned_step {t : Trace α} (h : Traced priority t) (op : Op α) :
    (returned t.buffer op).Pairwise (fun event later => (priority later).rank ≤ (priority event).rank) ∧
      ∀ event ∈ returned t.buffer op, ∀ other ∈ (step priority t op).buffer.queued,
        (priority other).rank ≤ (priority event).rank := by
  cases op with
  | publish event => exact ⟨.nil, by simp [returned]⟩
  | consume =>
    have htaken := consume_taken h.sound
    exact ⟨htaken.ordered, htaken.highest⟩
  | consumeBatch maxBatchSize =>
    have htaken := consumeBatch_taken h.sound maxBatchSize.toNat
    exact ⟨htaken.ordered, htaken.highest⟩

theorem bufferLaw (priority : α → EventPriority) (maxCapacity : Nat) {highWatermark criticalWatermark : ℚ}
    (hhigh : highWatermark ≤ 1) (hcritical : criticalWatermark ≤ 1) (ops : List (Op α)) :
    BufferLaw priority maxCapacity highWatermark criticalWatermark ops
      (after priority maxCapacity highWatermark criticalWatermark ops) := by
  have htraced : ∀ ops, Traced priority (after priority maxCapacity highWatermark criticalWatermark ops) :=
    traced_after hhigh hcritical maxCapacity
  have hcapacity := after_maxCapacity priority maxCapacity highWatermark criticalWatermark ops
  refine ⟨(htraced ops).sound.ledger, ?_, ⟨(htraced ops).published, (htraced ops).consumed⟩, ?_, ?_, ?_, ?_⟩
  · have hbounded := (htraced ops).sound.bounded
    rw [hcapacity] at hbounded
    exact_mod_cast hbounded
  · obtain ⟨lost, hturn⟩ := (htraced ops).turn
    refine ⟨lost, fun p => ⟨?_, ?_⟩⟩
    · simpa using hturn.events p
    · simpa using hturn.counted p
  · intro p
    obtain ⟨lost, hturn⟩ := (htraced ops).turn
    have horder := hturn.order p
    rw [List.nil_append] at horder
    exact (List.sublist_append_left _ _).trans horder
  · intro pre op _ hmore
    rw [after_concat] at hmore
    exact droppedHigh_step (htraced pre) hmore
  · intro pre op _
    rw [after_concat]
    exact returned_step (htraced pre) op

/-- Two LOW events fill the buffer, so the watermark refuses a third one and a HIGH one displaces the first. -/
theorem bufferLaw_full :
    BufferLaw (fun event : EventPriority × Nat => event.1) 2 (4 / 5) (19 / 20)
      [.publish (.LOW, 0), .publish (.LOW, 1), .publish (.LOW, 2), .publish (.HIGH, 3), .consume, .consumeBatch 5]
      (after (fun event : EventPriority × Nat => event.1) 2 (4 / 5) (19 / 20)
        [.publish (.LOW, 0), .publish (.LOW, 1), .publish (.LOW, 2), .publish (.HIGH, 3), .consume, .consumeBatch 5]) :=
  bufferLaw _ 2 (by norm_num) (by norm_num) _

end Droid.Feed.MarketEventBuffer
