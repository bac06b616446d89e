import Droid.Stream.AppStreamHub
import Mathlib.Logic.Function.Iterate
import Mathlib.Tactic.Tauto

/-! What each operation of the hub does to one subscriber's queue. -/
namespace Droid.Stream
open Lib

variable {δ : Type}

def frames (items : List (Item δ)) : List (Frame δ) := items.filterMap Item.frame?

theorem frames_append (a b : List (Item δ)) : frames (a ++ b) = frames a ++ frames b :=
  List.filterMap_append

theorem mem_frames {items : List (Item δ)} {f : Frame δ} : f ∈ frames items ↔ .frame f ∈ items := by
  rw [frames, List.mem_filterMap]
  constructor
  · rintro ⟨i, hi, hf⟩
    cases i with
    | frame g =>
      cases hf
      exact hi
    | EVICT => cases hf
  · intro h
    exact ⟨.frame f, h, rfl⟩

/-- How many deliveries in a row were drops, up to the last one. -/
def trailing (drops : List Bool) : Nat := (drops.reverse.takeWhile id).length

theorem trailing_drop (drops : List Bool) : trailing (drops ++ [true]) = trailing drops + 1 := by
  simp [trailing]

theorem trailing_put (drops : List Bool) : trailing (drops ++ [false]) = 0 := by
  simp [trailing]

theorem suffix_of_trailing {drops : List Bool} {n : Nat} (h : n ≤ trailing drops) :
    List.replicate n true <:+ drops := by
  have hall : drops.reverse.takeWhile id = List.replicate (trailing drops) true := by
    rw [List.eq_replicate_iff]
    exact ⟨rfl, List.all_eq_true.mp List.all_takeWhile⟩
  rw [← List.reverse_prefix, List.reverse_replicate]
  refine List.IsPrefix.trans ?_ (List.takeWhile_prefix id)
  rw [hall]
  exact List.prefix_replicate_iff.mpr ⟨by simpa using h, by simp⟩

namespace Queue
variable {q q' : Queue δ}

/-- What the subscriber has read and what lies before it. -/
def content (q : Queue δ) : List (Frame δ) := if q.evicted then q.read else q.read ++ frames q.items

structure Sane (q : Queue δ) : Prop where
  size : q.items.length ≤ QUEUE_MAXSIZE
  unmarked : q.evicted = false → .EVICT ∉ q.items
  live : q.subscribed = true → q.evicted = false
  ended : q.ended = true → q.evicted = true
  marked : q.evicted = true → q.ended = false → q.items.head? = some .EVICT
  counted : q.subscribed = true → q.dropCount = trailing q.drops

/-- What one step does to a queue, by the frame that enters it. -/
inductive Turn (q q' : Queue δ) : Option (Frame δ) → Prop
  | kept (items : q'.items = q.items) (read : q'.read = q.read) (evicted : q'.evicted = q.evicted) :
    Turn q q' none
  | read (f : Frame δ) (items : q.items = .frame f :: q'.items) (read : q'.read = q.read ++ [f])
    (unevicted : q.evicted = false) (evicted : q'.evicted = false) : Turn q q' none
  | entered (f : Frame δ) (items : q'.items = q.items ++ [.frame f]) (read : q'.read = q.read)
    (evicted : q'.evicted = q.evicted) : Turn q q' (some f)
  | replaced (f victim : Frame δ) (older newer : List (Item δ))
    (before : q.items = older ++ .frame victim :: newer) (items : q'.items = older ++ newer ++ [.frame f])
    (lower : f.rank < victim.rank) (oldest : ∀ g, .frame g ∈ older → g.rank ≤ f.rank)
    (read : q'.read = q.read) (evicted : q'.evicted = q.evicted) : Turn q q' (some f)
  | evicted (read : q'.read = q.read) (evicted : q'.evicted = true) : Turn q q' none

theorem Turn.refl (q : Queue δ) : Turn q q none := .kept rfl rfl rfl

theorem Turn.sublist {o : Option (Frame δ)} (h : Turn q q' o) :
    q'.content.Sublist (q.content ++ o.toList) := by
  cases h with
  | kept hitems hread hevicted =>
    rw [content, content, hitems, hread, hevicted]
    exact List.sublist_append_left _ _
  | read f hitems hread hunevicted hevicted =>
    rw [content, content, hitems, hread, hunevicted, hevicted]
    simp [frames, Item.frame?]
  | entered f hitems hread hevicted =>
    rw [content, content, hitems, hread, hevicted]
    split
    · exact List.sublist_append_left _ _
    · rw [frames_append, ← List.append_assoc]
      exact List.Sublist.refl _
  | replaced f victim older newer hbefore hitems hlower holdest hread hevicted =>
    rw [content, content, hbefore, hitems, hread, hevicted]
    split
    · exact List.sublist_append_left _ _
    · rw [frames_append, ← List.append_assoc]
      refine List.Sublist.append ?_ (List.Sublist.refl _)
      refine List.Sublist.append (List.Sublist.refl _) (List.Sublist.filterMap _ ?_)
      exact List.Sublist.append (List.Sublist.refl _) (List.sublist_cons_self _ _)
  | evicted hread hevicted =>
    rw [content, content, hread, if_pos hevicted, Option.toList_none, List.append_nil]
    split
    · exact List.Sublist.refl _
    · exact List.sublist_append_left _ _

/-- A P0 frame leaves a queue only when it is read. -/
theorem Turn.keeps {o : Option (Frame δ)} (h : Turn q q' o) (hlive : q'.evicted = false) {g : Frame δ}
    (hg : g ∈ q.content ++ o.toList) (hrank : g.rank = 0) : g ∈ q'.content := by
  cases h with
  | kept hitems hread hevicted =>
    rw [content, hitems, hread, hevicted]
    rwa [Option.toList_none, List.append_nil, content] at hg
  | read f hitems hread hunevicted hevicted =>
    rw [content, hunevicted, hitems] at hg
    rw [content, hevicted, hread]
    simpa [frames, Item.frame?] using hg
  | entered f hitems hread hevicted =>
    rw [hlive] at hevicted
    rw [content, ← hevicted] at hg
    rw [content, hlive, hitems, hread, frames_append]
    simpa [frames, Item.frame?] using hg
  | replaced f victim older newer hbefore hitems hlower holdest hread hevicted =>
    rw [hlive] at hevicted
    rw [content, ← hevicted, hbefore] at hg
    rw [content, hlive, hitems, hread]
    have hne : g ≠ victim := by
      rintro rfl
      omega
    simp only [Bool.false_eq_true, if_false, Option.toList_some, List.mem_append, mem_frames,
      List.mem_cons, Item.frame.injEq] at hg ⊢
    tauto
  | evicted hread hevicted =>
    rw [hlive] at hevicted
    cases hevicted

structure Change (q q' : Queue δ) (o : Option (Frame δ)) : Prop where
  turn : Turn q q' o
  sane : q'.Sane
  subscribed : q'.subscribed = true → q.subscribed = true
  joined : q'.joined = q.joined

theorem Change.refl (h : q.Sane) : Change q q none := ⟨.refl q, h, id, rfl⟩

/-- Nothing of the puts that sleep or wake concerns the rest. -/
theorem Sane.puts (h : q.Sane) (putters woken : List Nat) : ({ q with putters, woken } : Queue δ).Sane :=
  ⟨h.size, h.unmarked, h.live, h.ended, h.marked, h.counted⟩

theorem change_puts (h : q.Sane) (putters woken : List Nat) :
    Change q ({ q with putters, woken } : Queue δ) none :=
  ⟨.kept rfl rfl rfl, h.puts putters woken, id, rfl⟩

theorem wakeNext_eq (q : Queue δ) : ∃ putters woken, q.wakeNext = { q with putters, woken } := by
  rw [wakeNext]
  split
  · exact ⟨q.putters, q.woken, rfl⟩
  · exact ⟨_, _, rfl⟩

theorem popped_eq (q : Queue δ) :
    ∃ putters woken, q.popped = { q with items := q.items.tail, putters, woken } := by
  obtain ⟨putters, woken, h⟩ := wakeNext_eq ({ q with items := q.items.tail } : Queue δ)
  exact ⟨putters, woken, h⟩

theorem drained_eq (q : Queue δ) : ∃ putters woken, q.drained = { q with items := [], putters, woken } := by
  have hfold : ∀ (l : List (Item δ)) (q : Queue δ), ∃ putters woken,
      l.foldl (fun q _ => q.popped) q = { q with items := q.items.drop l.length, putters, woken } := by
    intro l
    induction l with
    | nil => exact fun q => ⟨q.putters, q.woken, rfl⟩
    | cons i l ih =>
      intro q
      obtain ⟨putters, woken, hpopped⟩ := popped_eq q
      obtain ⟨putters', woken', hrest⟩ := ih q.popped
      refine ⟨putters', woken', ?_⟩
      rw [List.foldl_cons, hrest, hpopped]
      simp
  obtain ⟨putters, woken, h⟩ := hfold q.items q
  refine ⟨putters, woken, ?_⟩
  rw [drained, h, List.drop_length]

theorem evictQueue_eq (hsubscribed : q.subscribed = true) : ∃ putters woken, q.evictQueue =
    { q with items := [.EVICT], putters, woken, subscribed := false, dropCount := 0, evicted := true } := by
  obtain ⟨putters, woken, h⟩ := drained_eq q
  refine ⟨putters, woken, ?_⟩
  rw [evictQueue, if_pos hsubscribed, h]

/-- An evicted queue holds its mark alone. -/
theorem sane_evicted (q : Queue δ) (putters woken : List Nat) :
    ({ q with items := [.EVICT], putters, woken, subscribed := false, dropCount := 0, evicted := true } :
      Queue δ).Sane where
  size := Nat.le_of_ble_eq_true rfl
  unmarked := nofun
  live := nofun
  ended := fun _ => rfl
  marked := fun _ _ => rfl
  counted := nofun

theorem subscribed_evictQueue (q : Queue δ) : q.evictQueue.subscribed = false := by
  cases hsubscribed : q.subscribed with
  | false =>
    rw [evictQueue, hsubscribed]
    exact hsubscribed
  | true =>
    obtain ⟨putters, woken, heq⟩ := evictQueue_eq hsubscribed
    rw [heq]

theorem change_evictQueue (h : q.Sane) : Change q q.evictQueue none := by
  cases hsubscribed : q.subscribed with
  | false =>
    rw [evictQueue, hsubscribed]
    exact .refl h
  | true =>
    obtain ⟨putters, woken, heq⟩ := evictQueue_eq hsubscribed
    rw [heq]
    exact ⟨.evicted rfl rfl, sane_evicted q putters woken, fun _ => hsubscribed, rfl⟩

theorem not_full_iff : q.full = false ↔ q.items.length < QUEUE_MAXSIZE := by
  rw [full, decide_eq_false_iff_not, not_le]

theorem change_entered (h : q.Sane) (hroom : q.full = false) (f : Frame δ) (putters woken : List Nat) :
    Change q (({ q with putters, woken } : Queue δ).entered f) (some f) := by
  refine ⟨.entered f rfl rfl rfl, ⟨?_, ?_, h.live, h.ended, ?_, ?_⟩, id, rfl⟩
  · rw [entered, List.length_append]
    exact not_full_iff.mp hroom
  · intro hlive hmem
    rcases List.mem_append.mp hmem with hmem | hmem
    · exact h.unmarked hlive hmem
    · cases List.mem_singleton.mp hmem
  · intro hevicted hended
    have hhead := h.marked hevicted hended
    rw [entered, List.head?_append, hhead]
    rfl
  · intro _
    exact (trailing_put q.drops).symm

theorem mem_content_entered (hlive : q.evicted = false) (f : Frame δ) : f ∈ (q.entered f).content := by
  rw [content, entered, if_neg (Bool.eq_false_iff.mp hlive), frames_append]
  exact List.mem_append_right _ (List.mem_append_right _ List.mem_cons_self)

/-- The count of a subscriber's drops reaches the bound only by as many drops in a row. -/
theorem change_noteDrop {o : Option (Frame δ)} {q₁ : Queue δ} (hturn : Turn q q₁ o) (h : q₁.Sane)
    (hsubscribed : q₁.subscribed = true) (hwas : q.subscribed = true) (hread : q₁.read = q.read)
    (hjoined : q₁.joined = q.joined) :
    ∃ o', Change q q₁.noteDrop o' ∧ (o' = none ∨ o' = o) ∧
      (q₁.noteDrop.evicted = true → List.replicate MAX_CONSECUTIVE_DROPS true <:+ q₁.noteDrop.drops) := by
  have hcount : q₁.dropCount + 1 = trailing (q₁.drops ++ [true]) := by
    rw [trailing_drop, h.counted hsubscribed]
  have hlive := h.live hsubscribed
  by_cases hmany : MAX_CONSECUTIVE_DROPS ≤ q₁.dropCount + 1
  · obtain ⟨putters, woken, heq⟩ :=
      evictQueue_eq (q := { q₁ with drops := q₁.drops ++ [true] }) hsubscribed
    have hnote : q₁.noteDrop = ({ q₁ with drops := q₁.drops ++ [true] } : Queue δ).evictQueue := by
      rw [noteDrop]
      exact if_pos hmany
    rw [hnote, heq]
    refine ⟨none, ⟨.evicted hread rfl, sane_evicted _ putters woken, fun _ => hwas, hjoined⟩, .inl rfl, ?_⟩
    intro _
    exact suffix_of_trailing (hcount ▸ hmany)
  · have hnote : q₁.noteDrop =
        { q₁ with drops := q₁.drops ++ [true], dropCount := q₁.dropCount + 1 } := by
      rw [noteDrop]
      exact if_neg hmany
    rw [hnote]
    refine ⟨o, ⟨?_, ⟨h.size, h.unmarked, h.live, h.ended, h.marked, fun _ => hcount⟩, fun _ => hwas, hjoined⟩,
      .inr rfl, ?_⟩
    · cases hturn with
      | kept hitems hread hevicted => exact .kept hitems hread hevicted
      | read f hitems hread hunevicted hevicted => exact .read f hitems hread hunevicted hevicted
      | entered f hitems hread hevicted => exact .entered f hitems hread hevicted
      | replaced f victim older newer hbefore hitems hlower holdest hread hevicted =>
        exact .replaced f victim older newer hbefore hitems hlower holdest hread hevicted
      | evicted hread hevicted => exact .evicted hread hevicted
    · intro hevicted
      rw [hlive] at hevicted
      cases hevicted

/-- Whether a frame enters the queue if it is delivered at once. -/
def accepts (q : Queue δ) (rank : Nat) : Bool :=
  if rank = 0 then !q.full
  else decide (q.items.length < LOW_PRIORITY_WATERMARK) || q.items.any (Item.below rank)

theorem change_deliverNowait (h : q.Sane) (hsubscribed : q.subscribed = true) (f : Frame δ) :
    ∃ o, Change q (q.deliverNowait f) o ∧ (o = none ∨ o = some f ∧ q.accepts f.rank = true) ∧
      (f.rank = 0 → q.full = false → o = some f) ∧
      ((q.deliverNowait f).evicted = true →
        List.replicate MAX_CONSECUTIVE_DROPS true <:+ (q.deliverNowait f).drops) := by
  have hlive := h.live hsubscribed
  have hunevicted : (q.entered f).evicted = true →
      List.replicate MAX_CONSECUTIVE_DROPS true <:+ (q.entered f).drops := by
    intro hevicted
    cases hlive.symm.trans hevicted
  rw [accepts]
  by_cases hrank : f.rank = 0
  · rw [deliverNowait, if_pos hrank, if_pos hrank]
    cases hfull : q.full with
    | true =>
      obtain ⟨o, hchange, ho, hdrops⟩ := change_noteDrop (.refl q) h hsubscribed hsubscribed rfl rfl
      exact ⟨o, hchange, .inl (ho.elim id id), nofun, hdrops⟩
    | false => exact ⟨some f, change_entered h hfull f q.putters q.woken, .inr ⟨rfl, rfl⟩, fun _ _ => rfl, hunevicted⟩
  · rw [if_neg hrank]
    by_cases hlow : q.items.length < LOW_PRIORITY_WATERMARK
    · rw [deliverNowait, if_neg hrank, if_pos hlow]
      have hroom : q.full = false := not_full_iff.mpr (lt_trans hlow (by decide))
      refine ⟨some f, change_entered h hroom f q.putters q.woken, .inr ⟨rfl, ?_⟩, fun _ _ => rfl, hunevicted⟩
      rw [decide_eq_true hlow, Bool.true_or]
    · obtain ⟨putters, woken, hdrained⟩ := drained_eq q
      cases hany : q.items.any (Item.below f.rank) with
      | true =>
        -- the oldest frame of lower priority makes room
        obtain ⟨item, hmem, hbelow⟩ := List.any_eq_true.mp hany
        obtain ⟨victim, older, newer, holder, hvictim, hitems, herase⟩ := List.exists_of_eraseP hmem hbelow
        cases victim with
        | EVICT => cases hvictim
        | frame victim =>
          have hlower : f.rank < victim.rank := of_decide_eq_true hvictim
          have holdest : ∀ g, .frame g ∈ older → g.rank ≤ f.rank := by
            intro g hg
            by_contra hlt
            exact holder _ hg (decide_eq_true (not_le.mp hlt))
          have hdeliver : q.deliverNowait f =
              noteDrop { q with items := older ++ newer ++ [.frame f], putters, woken } := by
            rw [deliverNowait, if_neg hrank, if_neg hlow, dropOldestBelow, hany, hdrained, herase]
            rfl
          have hsane : ({ q with items := older ++ newer ++ [.frame f], putters, woken } : Queue δ).Sane := by
            have hsize := h.size
            rw [hitems] at hsize
            refine ⟨?_, ?_, h.live, h.ended, ?_, h.counted⟩
            · simpa [Nat.add_assoc] using hsize
            · intro _ hmark
              refine h.unmarked hlive ?_
              rw [hitems]
              simpa using hmark
            · intro hevicted
              cases hlive.symm.trans hevicted
          rw [hdeliver]
          have hturn : Turn q { q with items := older ++ newer ++ [.frame f], putters, woken } (some f) :=
            .replaced f victim older newer hitems rfl hlower holdest rfl rfl
          obtain ⟨o, hchange, ho, hdrops⟩ := change_noteDrop hturn hsane hsubscribed hsubscribed rfl rfl
          refine ⟨o, hchange, ho.imp_right fun ho => ⟨ho, ?_⟩, fun hzero => absurd hzero hrank, hdrops⟩
          rw [Bool.or_true]
      | false =>
        have herase : q.items.eraseP (Item.below f.rank) = q.items :=
          List.eraseP_of_forall_not (List.any_eq_false.mp hany)
        have hdeliver : q.deliverNowait f = noteDrop { q with putters, woken } := by
          rw [deliverNowait, if_neg hrank, if_neg hlow, dropOldestBelow, hany, hdrained, herase]
          rfl
        rw [hdeliver]
        have hturn : Turn q { q with putters, woken } none := .kept rfl rfl rfl
        obtain ⟨o, hchange, ho, hdrops⟩ :=
          change_noteDrop hturn (h.puts putters woken) hsubscribed hsubscribed rfl rfl
        exact ⟨o, hchange, .inl (ho.elim id id), fun hzero => absurd hzero hrank, hdrops⟩

theorem cancelPut_eq (q : Queue δ) (n : Nat) :
    ∃ putters woken, q.cancelPut n = { q with putters, woken } := by
  rw [cancelPut]
  split
  · dsimp only
    split
    · exact ⟨q.putters, q.woken.erase n, rfl⟩
    · obtain ⟨putters, woken, h⟩ := wakeNext_eq ({ q with woken := q.woken.erase n } : Queue δ)
      exact ⟨putters, woken, h⟩
  · exact ⟨q.putters.erase n, q.woken, rfl⟩

theorem change_timeout (h : q.Sane) (n : Nat) : Change q (q.cancelPut n).evictQueue none := by
  obtain ⟨putters, woken, heq⟩ := cancelPut_eq q n
  rw [heq]
  have hchange := change_evictQueue (h.puts putters woken)
  refine ⟨?_, hchange.sane, hchange.subscribed, hchange.joined⟩
  cases hchange.turn with
  | kept hitems hread hevicted => exact .kept hitems hread hevicted
  | read f hitems hread hunevicted hevicted => exact .read f hitems hread hunevicted hevicted
  | evicted hread hevicted => exact .evicted hread hevicted

theorem change_get (h : q.Sane) : Change q q.get none := by
  rw [get]
  split
  · exact .refl h
  · rename_i hended
    rw [Bool.not_eq_true] at hended
    obtain ⟨putters, woken, hpopped⟩ := popped_eq q
    split
    · exact .refl h
    · rename_i f items hitems
      have hlive : q.evicted = false := by
        by_contra hevicted
        have hhead := h.marked (Bool.eq_true_of_not_eq_false hevicted) hended
        rw [hitems] at hhead
        cases hhead
      have hsize := h.size
      have hunmarked := h.unmarked hlive
      rw [hpopped, hitems]
      rw [hitems] at hsize hunmarked
      refine ⟨.read f hitems rfl hlive hlive, ⟨Nat.le_of_succ_le hsize, ?_, h.live, h.ended, ?_, h.counted⟩, id,
        rfl⟩
      · exact fun _ hmark => hunmarked (List.mem_cons_of_mem _ hmark)
      · intro hevicted
        cases hlive.symm.trans hevicted
    · rename_i items hitems
      have hevicted : q.evicted = true := by
        by_contra hlive
        refine h.unmarked (Bool.eq_false_of_not_eq_true hlive) ?_
        rw [hitems]
        exact List.mem_cons_self
      have hsize := h.size
      rw [hpopped, hitems]
      rw [hitems] at hsize
      refine ⟨.evicted rfl hevicted, ⟨Nat.le_of_succ_le hsize, ?_, nofun, fun _ => hevicted, nofun, nofun⟩, nofun,
        rfl⟩
      intro hlive
      cases hevicted.symm.trans hlive

theorem evicted_get (q : Queue δ) : q.get.evicted = q.evicted := by
  obtain ⟨putters, woken, hpopped⟩ := popped_eq q
  rw [get]
  split
  · rfl
  · split
    · rfl
    · rw [hpopped]
    · rw [hpopped]

theorem change_unsubscribe (h : q.Sane) :
    Change q ({ q with subscribed := false, dropCount := 0 } : Queue δ) none :=
  ⟨.kept rfl rfl rfl, ⟨h.size, h.unmarked, nofun, h.ended, h.marked, nofun⟩, nofun, rfl⟩

/-- Reading a queue to its end reads every frame in it. -/
theorem read_get (h : q.Sane) (hlive : q.evicted = false) :
    (Queue.get^[q.items.length] q).read = q.read ++ frames q.items := by
  induction hitems : q.items generalizing q with
  | nil => exact (List.append_nil _).symm
  | cons i items ih =>
    have hended : q.ended = false := by
      by_contra hended
      cases hlive.symm.trans (h.ended (Bool.eq_true_of_not_eq_false hended))
    cases i with
    | EVICT =>
      refine absurd ?_ (h.unmarked hlive)
      rw [hitems]
      exact List.mem_cons_self
    | frame f =>
      obtain ⟨putters, woken, hpopped⟩ := popped_eq q
      have hget : q.get = { q with items := items, putters, woken, read := q.read ++ [f] } := by
        rw [get, if_neg (Bool.eq_false_iff.mp hended), hitems, hpopped, hitems]
        rfl
      have hrest := ih (change_get h).sane (by rw [hget]; exact hlive) (by rw [hget])
      rw [List.length_cons, Function.iterate_succ_apply, hrest, hget, List.append_assoc]
      rfl

end Queue
end Droid.Stream
