import Droid.Algo.ConflictResolver
import Droid.Lib.Rounding

/-! Arbitration between the candidates on one underlying: calls against puts, and the cap on one side. -/
namespace Droid.Algo.Fusion
open Lib Lib.Text

/-- A direction names a call, a put, or neither. -/
inductive TradeDirection where
  | longCall | longPut | neutral
  deriving DecidableEq, Repr

structure Candidate where
  underlying : Option String
  strategy : String
  direction : TradeDirection
  overallConfidence : Option ℚ
  deriving DecidableEq

/-- An object of the candidate list; `is` compares places. -/
structure CandidateObject where
  candidate : Candidate
  place : Nat
  deriving DecidableEq

namespace CandidateObject
variable (c : CandidateObject)

def key : String := upper (orText c.candidate.underlying "UNKNOWN")

def conf : ℚ := c.candidate.overallConfidence.getD 50

abbrev direction : TradeDirection := c.candidate.direction

end CandidateObject

/-- What the list of dropped reasons reports. -/
inductive DropReason where
  | conflictTie (underlying : String) (call put : CandidateObject)
  | tieReject (underlying : String) (extra : CandidateObject)
  | inFavorOf (underlying : String) (loser winner : CandidateObject) (side : String)
  | opposingSideLoser (underlying : String) (extra : CandidateObject)
  | correlatedHaircut (underlying : String) (second : CandidateObject) (orig haircut : ℚ)
  | droppedCorrelated (underlying : String) (extra : CandidateObject) (kept : Option CandidateObject)
  deriving DecidableEq

/-- The text of a reason, given how floats are written. The tie is reported by its two confidences. -/
def DropReason.text (float : ℚ → String) : DropReason → String
  | .conflictTie u call put =>
    s!"{u}:CONFLICT_TIE_REJECT_BOTH (call={float call.conf}, put={float put.conf})"
  | .tieReject u extra => s!"{u}:{extra.candidate.strategy}_DROPPED_CORRELATED (tie-reject)"
  | .inFavorOf u loser winner side =>
    s!"{u}:{loser.candidate.strategy}_DROPPED_IN_FAVOR_OF_{winner.candidate.strategy}_{side}"
  | .opposingSideLoser u extra => s!"{u}:{extra.candidate.strategy}_DROPPED_CORRELATED (opposing-side loser)"
  | .correlatedHaircut u second orig haircut =>
    s!"{u}:{second.candidate.strategy}_CORRELATED_HAIRCUT_0.5x ({float orig}->{float haircut})"
  | .droppedCorrelated u extra kept =>
    let keptStrategy := (kept.map (·.candidate.strategy)).getD "?"
    s!"{u}:{extra.candidate.strategy}_DROPPED_CORRELATED (conf={float extra.conf}, kept={keptStrategy})"

/-- The candidate a reason is about. The text of a tie has no strategy in it: whether it names its
pair is a matter of reading. -/
def DropReason.Names (tieNamesPair : Bool) (c : CandidateObject) : DropReason → Prop
  | .conflictTie _ call put => tieNamesPair = true ∧ (c = call ∨ c = put)
  | .tieReject _ extra => c = extra
  | .inFavorOf _ loser _ _ => c = loser
  | .opposingSideLoser _ extra => c = extra
  | .correlatedHaircut _ second _ _ => c = second
  | .droppedCorrelated _ extra _ => c = extra

/-- What a pass approves and reports, and the confidences it writes. -/
structure Arbitration where
  approved : List CandidateObject := []
  dropped : List DropReason := []
  haircuts : List (CandidateObject × ℚ) := []

/-- The parameters of a call. -/
structure Caps where
  tieEpsilon : ℚ := 5
  maxSameDirection : Nat := 1

variable (caps : Caps)

def capSameDirection (items : List CandidateObject) (underlying : String) : Arbitration :=
  if items.length ≤ caps.maxSameDirection then { approved := items }
  else
    let ranked := items.insertionSort fun a b => b.conf ≤ a.conf
    let keep := ranked.take caps.maxSameDirection
    let extras := ranked.drop caps.maxSameDirection
    -- only the second of two kept ones takes the haircut
    let haircuts := if 2 ≤ caps.maxSameDirection ∧ keep.length = 2 then
        (keep.drop 1).map fun second => (second, roundTo 1 (second.conf * (1 / 2)))
      else []
    { approved := keep
      dropped := haircuts.map (fun h => .correlatedHaircut underlying h.1 h.1.conf h.2) ++
        extras.map fun extra => .droppedCorrelated underlying extra keep.head?
      haircuts }

/-- `max(items, key=_conf)`. -/
def best (items : List CandidateObject) : Option CandidateObject := firstLeast (fun c => -c.conf) items

def without (items : List CandidateObject) (c : CandidateObject) : List CandidateObject :=
  items.filter fun x => x ≠ c

/-- The stronger side: its leftovers are capped into a list that nobody reads. -/
def favor (underlying side : String) (winners losers : List CandidateObject) (winner loser : CandidateObject) :
    Arbitration :=
  let leftovers := capSameDirection caps (without winners winner) underlying
  { approved := [winner]
    dropped := .inFavorOf underlying loser winner side :: leftovers.dropped ++
      (without losers loser).map fun extra => .opposingSideLoser underlying extra
    haircuts := leftovers.haircuts }

def ofDirection (direction : TradeDirection) (items : List CandidateObject) : List CandidateObject :=
  items.filter fun c => c.direction = direction

/-- `calls or puts or other`. -/
def firstSide (items : List CandidateObject) : List CandidateObject :=
  if ofDirection .longCall items ≠ [] then ofDirection .longCall items
  else if ofDirection .longPut items ≠ [] then ofDirection .longPut items
  else ofDirection .neutral items

def arbitrate (underlying : String) (items : List CandidateObject) : Arbitration :=
  let calls := ofDirection .longCall items
  let puts := ofDirection .longPut items
  match best calls, best puts with
  | some bestCall, some bestPut =>
    if |bestCall.conf - bestPut.conf| < caps.tieEpsilon then
      { dropped := .conflictTie underlying bestCall bestPut ::
          (without calls bestCall ++ without puts bestPut).map fun extra => .tieReject underlying extra }
    else if bestPut.conf < bestCall.conf then favor caps underlying "CALL" calls puts bestCall bestPut
    else favor caps underlying "PUT" puts calls bestPut bestCall
  | _, _ => capSameDirection caps (firstSide items) underlying

def objects (candidates : List Candidate) : List CandidateObject :=
  candidates.zipIdx.map fun c => { candidate := c.1, place := c.2 }

def resolveCandidateConflicts (candidates : List Candidate) : Arbitration :=
  if candidates.length ≤ 1 then { approved := objects candidates }
  else
    let byUnderlying := (grouped (·.key) (objects candidates)).entries
    { approved := byUnderlying.flatMap fun e => (arbitrate caps e.1 e.2).approved
      dropped := byUnderlying.flatMap fun e => (arbitrate caps e.1 e.2).dropped
      haircuts := byUnderlying.flatMap fun e => (arbitrate caps e.1 e.2).haircuts }

def Arbitration.confidenceAfter (out : Arbitration) (c : CandidateObject) : Option ℚ :=
  match out.haircuts.lookup c with
  | some haircut => some haircut
  | none => c.candidate.overallConfidence

theorem best_eq_none {items : List CandidateObject} : best items = none ↔ items = [] := firstLeast_eq_none

theorem best_mem {items : List CandidateObject} {b : CandidateObject} (h : best items = some b) : b ∈ items :=
  firstLeast_mem h

theorem conf_le_best {items : List CandidateObject} {b : CandidateObject} (h : best items = some b) :
    ∀ c ∈ items, c.conf ≤ b.conf :=
  fun c hc => neg_le_neg_iff.mp (firstLeast_le h c hc)

theorem mem_ofDirection {d : TradeDirection} {items : List CandidateObject} {c : CandidateObject} :
    c ∈ ofDirection d items ↔ c ∈ items ∧ c.direction = d := by
  rw [ofDirection, List.mem_filter, decide_eq_true_iff]

theorem mem_without {items : List CandidateObject} {b c : CandidateObject} :
    c ∈ without items b ↔ c ∈ items ∧ c ≠ b := by
  rw [without, List.mem_filter, decide_eq_true_iff]

section Cap
variable {caps} {items : List CandidateObject} {underlying : String} {tieNamesPair : Bool} {c : CandidateObject}

private theorem mem_ranked_take {n : Nat} (h : c ∈ (items.insertionSort fun a b => b.conf ≤ a.conf).take n) :
    c ∈ items :=
  (List.mem_insertionSort _).mp (List.mem_of_mem_take h)

private theorem mem_ranked_drop {n : Nat} (h : c ∈ (items.insertionSort fun a b => b.conf ≤ a.conf).drop n) :
    c ∈ items :=
  (List.mem_insertionSort _).mp (List.mem_of_mem_drop h)

theorem mem_capSameDirection (h : c ∈ (capSameDirection caps items underlying).approved) : c ∈ items := by
  rw [capSameDirection] at h
  split at h
  · exact h
  · exact mem_ranked_take h

theorem length_capSameDirection : (capSameDirection caps items underlying).approved.length ≤ caps.maxSameDirection := by
  rw [capSameDirection]
  split
  · assumption
  · exact List.length_take_le _ _

/-- The strongest candidate is kept, and no reason is about it. -/
theorem capSameDirection_keeps_best (underlying : String) (tieNamesPair : Bool) (hcap : 1 ≤ caps.maxSameDirection)
    (hne : items ≠ []) :
    ∃ b ∈ (capSameDirection caps items underlying).approved, (∀ x ∈ items, x.conf ≤ b.conf) ∧
      (items.Nodup → ∀ r ∈ (capSameDirection caps items underlying).dropped, ¬r.Names tieNamesPair b) := by
  rw [capSameDirection]
  split
  · cases hbest : best items with
    | none => exact absurd (best_eq_none.mp hbest) hne
    | some b => exact ⟨b, best_mem hbest, conf_le_best hbest, fun _ r hr => by cases hr⟩
  · have hperm := List.perm_insertionSort (fun a b : CandidateObject => b.conf ≤ a.conf) items
    have hsorted := List.pairwise_insertionSort (fun a b : CandidateObject => b.conf ≤ a.conf) items
    cases hranked : items.insertionSort (fun a b => b.conf ≤ a.conf) with
    | nil =>
      rw [hranked] at hperm
      exact absurd (List.nil_perm.mp hperm) hne
    | cons b rest =>
      rw [hranked] at hperm hsorted
      obtain ⟨n, hn⟩ := Nat.exists_eq_add_of_le' hcap
      rw [hn]
      refine ⟨b, List.mem_cons_self, ?_, ?_⟩
      · intro x hx
        rcases List.mem_cons.mp (hperm.mem_iff.mpr hx) with rfl | hrest
        · exact le_rfl
        · exact (List.pairwise_cons.mp hsorted).1 x hrest
      · intro hnodup r hr
        have hfirst : b ∉ rest := (List.nodup_cons.mp (hperm.nodup_iff.mpr hnodup)).1
        rcases List.mem_append.mp hr with hr | hr
        · obtain ⟨h, hh, rfl⟩ := List.mem_map.mp hr
          split at hh
          · obtain ⟨second, hsecond, rfl⟩ := List.mem_map.mp hh
            rintro rfl
            exact hfirst (List.mem_of_mem_take (by simpa using hsecond))
          · cases hh
        · obtain ⟨extra, hextra, rfl⟩ := List.mem_map.mp hr
          rintro rfl
          exact hfirst (List.mem_of_mem_drop (by simpa using hextra))

theorem capSameDirection_accounted (h : c ∈ items) : c ∈ (capSameDirection caps items underlying).approved ∨
    ∃ r ∈ (capSameDirection caps items underlying).dropped, r.Names tieNamesPair c := by
  rw [capSameDirection]
  split
  · exact Or.inl h
  · have hranked := (List.mem_insertionSort (fun a b : CandidateObject => b.conf ≤ a.conf)).mpr h
    rw [← List.take_append_drop caps.maxSameDirection (items.insertionSort _)] at hranked
    rcases List.mem_append.mp hranked with hkeep | hextra
    · exact Or.inl hkeep
    · exact Or.inr ⟨_, List.mem_append_right _ (List.mem_map_of_mem hextra), rfl⟩

theorem mem_of_names {r : DropReason} (hr : r ∈ (capSameDirection caps items underlying).dropped)
    (h : r.Names tieNamesPair c) : c ∈ items := by
  rw [capSameDirection] at hr
  split at hr
  · cases hr
  · rcases List.mem_append.mp hr with hr | hr
    · obtain ⟨x, hx, rfl⟩ := List.mem_map.mp hr
      split at hx
      · obtain ⟨second, hsecond, rfl⟩ := List.mem_map.mp hx
        cases h
        exact mem_ranked_take (List.mem_of_mem_drop hsecond)
      · cases hx
    · obtain ⟨extra, hextra, rfl⟩ := List.mem_map.mp hr
      cases h
      exact mem_ranked_drop hextra

theorem haircut_kept {h : CandidateObject × ℚ} (hh : h ∈ (capSameDirection caps items underlying).haircuts) :
    h.1 ∈ (capSameDirection caps items underlying).approved := by
  rw [capSameDirection] at hh ⊢
  split at hh
  · cases hh
  · rename_i hlong
    rw [if_neg hlong]
    dsimp only at hh ⊢
    split at hh
    · obtain ⟨second, hsecond, rfl⟩ := List.mem_map.mp hh
      exact List.mem_of_mem_drop hsecond
    · cases hh

end Cap

/-- What holds of a pass, whatever the candidates. -/
structure PassSound (items : List CandidateObject) (out : Arbitration) : Prop where
  mem : ∀ c ∈ out.approved, c ∈ items
  oneSide : ∀ b ∈ out.approved, ∀ c ∈ out.approved, b.direction = c.direction
  capped : out.approved.length ≤ caps.maxSameDirection
  best : ∀ c ∈ out.approved, ∃ b ∈ out.approved, b.direction = c.direction ∧
    ∀ x ∈ items, x.direction = c.direction → x.conf ≤ b.conf

/-- Nothing neutral stands beside a side, and of two sides the stronger one has one candidate. -/
def Accountable (tieNamesPair : Bool) (items : List CandidateObject) : Prop :=
  (ofDirection .longCall items ≠ [] ∨ ofDirection .longPut items ≠ [] → ofDirection .neutral items = []) ∧
  ∀ bestCall bestPut, best (ofDirection .longCall items) = some bestCall →
    best (ofDirection .longPut items) = some bestPut →
    if |bestCall.conf - bestPut.conf| < caps.tieEpsilon then tieNamesPair = true
    else if bestPut.conf < bestCall.conf then (ofDirection .longCall items).length = 1
    else (ofDirection .longPut items).length = 1

/-- Every candidate is approved or reported as dropped. -/
def AccountedIn (tieNamesPair : Bool) (items : List CandidateObject) (out : Arbitration) : Prop :=
  ∀ c ∈ items, c ∈ out.approved ∨ ∃ r ∈ out.dropped, r.Names tieNamesPair c

section Pass
variable {caps} {items winners losers : List CandidateObject} {underlying side : String} {tieNamesPair : Bool}
  {c winner loser : CandidateObject}

theorem firstSide_eq (items : List CandidateObject) : ∃ d, firstSide items = ofDirection d items := by
  rw [firstSide]
  split
  · exact ⟨_, rfl⟩
  · split <;> exact ⟨_, rfl⟩

private theorem sound_capped (hcap : 1 ≤ caps.maxSameDirection) (d : TradeDirection) :
    PassSound caps items (capSameDirection caps (ofDirection d items) underlying) where
  mem c hc := (mem_ofDirection.mp (mem_capSameDirection hc)).1
  oneSide b hb c hc := (mem_ofDirection.mp (mem_capSameDirection hb)).2.trans
    (mem_ofDirection.mp (mem_capSameDirection hc)).2.symm
  capped := length_capSameDirection
  best c hc := by
    have hd := (mem_ofDirection.mp (mem_capSameDirection hc)).2
    obtain ⟨b, hb, hmax, -⟩ := capSameDirection_keeps_best underlying true hcap
      (List.ne_nil_of_mem (mem_capSameDirection hc))
    refine ⟨b, hb, (mem_ofDirection.mp (mem_capSameDirection hb)).2.trans hd.symm, ?_⟩
    intro x hx hxd
    exact hmax x (mem_ofDirection.mpr ⟨hx, hxd.trans hd⟩)

private theorem sound_favor (hcap : 1 ≤ caps.maxSameDirection) {d : TradeDirection}
    (hwinner : best (ofDirection d items) = some winner) :
    PassSound caps items (favor caps underlying side (ofDirection d items) losers winner loser) where
  mem c hc := by
    rw [favor, List.mem_singleton] at hc
    exact hc ▸ (mem_ofDirection.mp (best_mem hwinner)).1
  oneSide b hb c hc := by
    rw [favor, List.mem_singleton] at hb hc
    rw [hb, hc]
  capped := hcap
  best c hc := by
    rw [favor, List.mem_singleton] at hc
    subst hc
    refine ⟨c, List.mem_singleton_self c, rfl, ?_⟩
    intro x hx hxd
    exact conf_le_best hwinner x (mem_ofDirection.mpr ⟨hx, hxd.trans (mem_ofDirection.mp (best_mem hwinner)).2⟩)

theorem arbitrate_sound (hcap : 1 ≤ caps.maxSameDirection) (items : List CandidateObject) (underlying : String) :
    PassSound caps items (arbitrate caps underlying items) := by
  simp only [arbitrate]
  split
  · rename_i bestCall bestPut hcall hput
    split
    · refine ⟨?_, ?_, Nat.zero_le _, ?_⟩ <;> exact fun c hc => absurd hc List.not_mem_nil
    · split
      · exact sound_favor hcap hcall
      · exact sound_favor hcap hput
  · obtain ⟨d, hd⟩ := firstSide_eq items
    rw [hd]
    exact sound_capped hcap d

/-- A reason is about a candidate of the pass. -/
theorem mem_of_arbitrate_names {r : DropReason} (hr : r ∈ (arbitrate caps underlying items).dropped)
    (h : r.Names tieNamesPair c) : c ∈ items := by
  have hside : ∀ d {x}, x ∈ ofDirection d items → x ∈ items := fun d x hx => (mem_ofDirection.mp hx).1
  have hfavor : ∀ {side d d' winner loser}, best (ofDirection d' items) = some loser →
      r ∈ (favor caps underlying side (ofDirection d items) (ofDirection d' items) winner loser).dropped →
      c ∈ items := by
    intro side d d' winner loser hloser hr
    rcases List.mem_cons.mp hr with rfl | hr
    · cases h
      exact hside _ (best_mem hloser)
    · rcases List.mem_append.mp hr with hr | hr
      · exact hside _ (mem_without.mp (mem_of_names hr h)).1
      · obtain ⟨extra, hextra, rfl⟩ := List.mem_map.mp hr
        cases h
        exact hside _ (mem_without.mp hextra).1
  simp only [arbitrate] at hr
  split at hr
  · rename_i bestCall bestPut hcall hput
    split at hr
    · rcases List.mem_cons.mp hr with rfl | hr
      · rcases h.2 with rfl | rfl
        · exact hside _ (best_mem hcall)
        · exact hside _ (best_mem hput)
      · obtain ⟨extra, hextra, rfl⟩ := List.mem_map.mp hr
        cases h
        rcases List.mem_append.mp hextra with hextra | hextra
        · exact hside _ (mem_without.mp hextra).1
        · exact hside _ (mem_without.mp hextra).1
    · split at hr
      · exact hfavor hput hr
      · exact hfavor hcall hr
  · obtain ⟨d, hd⟩ := firstSide_eq items
    rw [hd] at hr
    exact hside _ (mem_of_names hr h)

private theorem length_eq_one_iff_without (hmem : winner ∈ winners) (hnodup : winners.Nodup) :
    winners.length = 1 ↔ without winners winner = [] := by
  constructor
  · intro hone
    obtain ⟨only, rfl⟩ := List.length_eq_one_iff.mp hone
    rw [List.mem_singleton.mp hmem]
    simp [without]
  · intro hnil
    have hall : ∀ c ∈ winners, c = winner := by
      intro c hc
      by_contra hne
      have hrest := mem_without.mpr ⟨hc, hne⟩
      rw [hnil] at hrest
      cases hrest
    have hle := (List.subperm_of_subset hnodup fun c hc => List.mem_singleton.mpr (hall c hc)).length_le
    have hpos := List.length_pos_of_mem hmem
    rw [List.length_singleton] at hle
    omega

/-- On the stronger side, the leftovers that the cap would have kept are nowhere. -/
private theorem favor_accounted_iff {d d' : TradeDirection} (hsides : d ≠ d') (hcap : 1 ≤ caps.maxSameDirection)
    (hnodup : items.Nodup) (hwinner : best (ofDirection d items) = some winner)
    (hloser : best (ofDirection d' items) = some loser) :
    (∀ c ∈ items, c.direction = d ∨ c.direction = d' →
      c ∈ (favor caps underlying side (ofDirection d items) (ofDirection d' items) winner loser).approved ∨
      ∃ r ∈ (favor caps underlying side (ofDirection d items) (ofDirection d' items) winner loser).dropped,
        r.Names tieNamesPair c) ↔ (ofDirection d items).length = 1 := by
  have hnodup' : (ofDirection d items).Nodup := hnodup.filter _
  rw [length_eq_one_iff_without (best_mem hwinner) hnodup']
  constructor
  · intro hall
    by_contra hne
    obtain ⟨b, hb, -, hunnamed⟩ := capSameDirection_keeps_best underlying tieNamesPair hcap hne
    obtain ⟨hbside, hbw⟩ := mem_without.mp (mem_capSameDirection hb)
    obtain ⟨hbitems, hbd⟩ := mem_ofDirection.mp hbside
    have hother : ∀ x ∈ ofDirection d' items, b ≠ x := by
      rintro x hx rfl
      exact hsides (hbd.symm.trans (mem_ofDirection.mp hx).2)
    rcases hall b hbitems (Or.inl hbd) with happroved | ⟨r, hr, hnames⟩
    · exact hbw (List.mem_singleton.mp happroved)
    · rcases List.mem_cons.mp hr with rfl | hr
      · exact hother loser (best_mem hloser) hnames
      · rcases List.mem_append.mp hr with hr | hr
        · exact hunnamed (hnodup'.filter _) r hr hnames
        · obtain ⟨extra, hextra, rfl⟩ := List.mem_map.mp hr
          exact hother extra (mem_without.mp hextra).1 hnames
  · intro hnil c hc hside
    rcases hside with hd | hd
    · refine Or.inl (List.mem_singleton.mpr ?_)
      by_contra hne
      have hrest := mem_without.mpr ⟨mem_ofDirection.mpr ⟨hc, hd⟩, hne⟩
      rw [hnil] at hrest
      cases hrest
    · right
      by_cases hc' : c = loser
      · exact ⟨_, List.mem_cons_self, hc'⟩
      · refine ⟨.opposingSideLoser underlying c, List.mem_cons_of_mem _ (List.mem_append_right _ ?_), rfl⟩
        exact List.mem_map_of_mem (mem_without.mpr ⟨mem_ofDirection.mpr ⟨hc, hd⟩, hc'⟩)

private theorem direction_of_favor {d d' : TradeDirection} (hwinner : best (ofDirection d items) = some winner)
    (hloser : best (ofDirection d' items) = some loser)
    (h : c ∈ (favor caps underlying side (ofDirection d items) (ofDirection d' items) winner loser).approved ∨
      ∃ r ∈ (favor caps underlying side (ofDirection d items) (ofDirection d' items) winner loser).dropped,
        r.Names tieNamesPair c) : c.direction = d ∨ c.direction = d' := by
  rcases h with happroved | ⟨r, hr, hnames⟩
  · rw [List.mem_singleton.mp happroved]
    exact Or.inl (mem_ofDirection.mp (best_mem hwinner)).2
  · rcases List.mem_cons.mp hr with rfl | hr
    · cases hnames
      exact Or.inr (mem_ofDirection.mp (best_mem hloser)).2
    · rcases List.mem_append.mp hr with hr | hr
      · exact Or.inl (mem_ofDirection.mp (mem_without.mp (mem_of_names hr hnames)).1).2
      · obtain ⟨extra, hextra, rfl⟩ := List.mem_map.mp hr
        cases hnames
        exact Or.inr (mem_ofDirection.mp (mem_without.mp hextra).1).2

private theorem tie_accounted_iff {bestCall bestPut : CandidateObject}
    (hcall : best (ofDirection .longCall items) = some bestCall)
    (hput : best (ofDirection .longPut items) = some bestPut) :
    AccountedIn tieNamesPair items
      { dropped := .conflictTie underlying bestCall bestPut ::
          (without (ofDirection .longCall items) bestCall ++ without (ofDirection .longPut items) bestPut).map
            fun extra => .tieReject underlying extra } ↔
      ofDirection .neutral items = [] ∧ tieNamesPair = true := by
  obtain ⟨hcallMem, hcallDir⟩ := mem_ofDirection.mp (best_mem hcall)
  obtain ⟨hputMem, hputDir⟩ := mem_ofDirection.mp (best_mem hput)
  constructor
  · intro hall
    constructor
    · refine List.eq_nil_iff_forall_not_mem.mpr fun c hc => ?_
      obtain ⟨hitems, hneutral⟩ := mem_ofDirection.mp hc
      rcases hall c hitems with happroved | ⟨r, hr, hnames⟩
      · cases happroved
      · rcases List.mem_cons.mp hr with rfl | hr
        · rcases hnames.2 with rfl | rfl
          · exact absurd (hneutral.symm.trans hcallDir) (by decide)
          · exact absurd (hneutral.symm.trans hputDir) (by decide)
        · obtain ⟨extra, hextra, rfl⟩ := List.mem_map.mp hr
          cases hnames
          rcases List.mem_append.mp hextra with hextra | hextra <;>
            exact absurd (hneutral.symm.trans (mem_ofDirection.mp (mem_without.mp hextra).1).2) (by decide)
    · rcases hall bestCall hcallMem with happroved | ⟨r, hr, hnames⟩
      · cases happroved
      · rcases List.mem_cons.mp hr with rfl | hr
        · exact hnames.1
        · obtain ⟨extra, hextra, rfl⟩ := List.mem_map.mp hr
          cases hnames
          rcases List.mem_append.mp hextra with hextra | hextra
          · exact absurd rfl (mem_without.mp hextra).2
          · exact absurd (hcallDir.symm.trans (mem_ofDirection.mp (mem_without.mp hextra).1).2) (by decide)
  · rintro ⟨hneutral, hreads⟩ c hc
    right
    cases hd : c.direction with
    | neutral =>
      have hmem := mem_ofDirection.mpr ⟨hc, hd⟩
      rw [hneutral] at hmem
      cases hmem
    | longCall =>
      by_cases hbest : c = bestCall
      · exact ⟨_, List.mem_cons_self, hreads, Or.inl hbest⟩
      · exact ⟨.tieReject underlying c, List.mem_cons_of_mem _ (List.mem_map_of_mem (List.mem_append_left _
          (mem_without.mpr ⟨mem_ofDirection.mpr ⟨hc, hd⟩, hbest⟩))), rfl⟩
    | longPut =>
      by_cases hbest : c = bestPut
      · exact ⟨_, List.mem_cons_self, hreads, Or.inr hbest⟩
      · exact ⟨.tieReject underlying c, List.mem_cons_of_mem _ (List.mem_map_of_mem (List.mem_append_right _
          (mem_without.mpr ⟨mem_ofDirection.mpr ⟨hc, hd⟩, hbest⟩))), rfl⟩

/-- Without a conflict, only what stands beside the first side is lost. -/
private theorem oneSided_accounted_iff
    (hside : ofDirection .longCall items = [] ∨ ofDirection .longPut items = []) :
    AccountedIn tieNamesPair items (capSameDirection caps (firstSide items) underlying) ↔
      (ofDirection .longCall items ≠ [] ∨ ofDirection .longPut items ≠ [] → ofDirection .neutral items = []) := by
  have hin : ∀ {c}, (c ∈ (capSameDirection caps (firstSide items) underlying).approved ∨
      ∃ r ∈ (capSameDirection caps (firstSide items) underlying).dropped, r.Names tieNamesPair c) ↔
      c ∈ firstSide items := by
    intro c
    constructor
    · rintro (happroved | ⟨r, hr, hnames⟩)
      · exact mem_capSameDirection happroved
      · exact mem_of_names hr hnames
    · exact capSameDirection_accounted
  have hall : AccountedIn tieNamesPair items (capSameDirection caps (firstSide items) underlying) ↔
      ∀ c ∈ items, c ∈ firstSide items := forall₂_congr fun c _ => hin
  have hmem : ∀ {c}, c ∈ items → ofDirection c.direction items ≠ [] := fun hc =>
    List.ne_nil_of_mem (mem_ofDirection.mpr ⟨hc, rfl⟩)
  rw [hall, firstSide]
  split
  · rename_i hcalls
    have hputs := hside.resolve_left hcalls
    constructor
    · intro hfirst _
      refine List.eq_nil_iff_forall_not_mem.mpr fun c hc => ?_
      obtain ⟨hitems, hneutral⟩ := mem_ofDirection.mp hc
      exact absurd (hneutral.symm.trans (mem_ofDirection.mp (hfirst c hitems)).2) (by decide)
    · intro hneutral c hc
      cases hd : c.direction with
      | longCall => exact mem_ofDirection.mpr ⟨hc, hd⟩
      | longPut => exact absurd hputs (hd ▸ hmem hc)
      | neutral => exact absurd (hneutral (Or.inl hcalls)) (hd ▸ hmem hc)
  · rename_i hcalls
    rw [not_not] at hcalls
    split
    · rename_i hputs
      constructor
      · intro hfirst _
        refine List.eq_nil_iff_forall_not_mem.mpr fun c hc => ?_
        obtain ⟨hitems, hneutral⟩ := mem_ofDirection.mp hc
        exact absurd (hneutral.symm.trans (mem_ofDirection.mp (hfirst c hitems)).2) (by decide)
      · intro hneutral c hc
        cases hd : c.direction with
        | longCall => exact absurd hcalls (hd ▸ hmem hc)
        | longPut => exact mem_ofDirection.mpr ⟨hc, hd⟩
        | neutral => exact absurd (hneutral (Or.inr hputs)) (hd ▸ hmem hc)
    · rename_i hputs
      rw [not_not] at hputs
      refine iff_of_true (fun c hc => ?_) (fun h => ?_)
      · cases hd : c.direction with
        | longCall => exact absurd hcalls (hd ▸ hmem hc)
        | longPut => exact absurd hputs (hd ▸ hmem hc)
        | neutral => exact mem_ofDirection.mpr ⟨hc, hd⟩
      · rcases h with h | h
        · exact absurd hcalls h
        · exact absurd hputs h

private theorem contested_accounted_iff {d d' : TradeDirection} (hsides : d ≠ d')
    (hcover : ∀ e, e = d ∨ e = d' ∨ e = .neutral) (hneutral : d ≠ .neutral ∧ d' ≠ .neutral)
    (hcap : 1 ≤ caps.maxSameDirection) (hnodup : items.Nodup) (hwinner : best (ofDirection d items) = some winner)
    (hloser : best (ofDirection d' items) = some loser) :
    AccountedIn tieNamesPair items
      (favor caps underlying side (ofDirection d items) (ofDirection d' items) winner loser) ↔
      ofDirection .neutral items = [] ∧ (ofDirection d items).length = 1 := by
  rw [← favor_accounted_iff hsides hcap hnodup hwinner hloser]
  constructor
  · intro hall
    refine ⟨List.eq_nil_iff_forall_not_mem.mpr fun c hc => ?_, fun c hc _ => hall c hc⟩
    obtain ⟨hitems, hd⟩ := mem_ofDirection.mp hc
    rcases direction_of_favor hwinner hloser (hall c hitems) with hw | hl
    · exact hneutral.1 (hw.symm.trans hd)
    · exact hneutral.2 (hl.symm.trans hd)
  · rintro ⟨hnone, hboth⟩ c hc
    rcases hcover c.direction with hd | hd | hd
    · exact hboth c hc (Or.inl hd)
    · exact hboth c hc (Or.inr hd)
    · have hmem := mem_ofDirection.mpr ⟨hc, hd⟩
      rw [hnone] at hmem
      cases hmem

theorem arbitrate_accounted_iff (hcap : 1 ≤ caps.maxSameDirection) (hnodup : items.Nodup) :
    AccountedIn tieNamesPair items (arbitrate caps underlying items) ↔ Accountable caps tieNamesPair items := by
  rw [Accountable]
  simp only [arbitrate]
  cases hcall : best (ofDirection .longCall items) with
  | none =>
    rw [oneSided_accounted_iff (Or.inl (best_eq_none.mp hcall)), iff_self_and]
    intro _ bestCall bestPut h
    cases h
  | some bestCall =>
    have hcalls : ofDirection .longCall items ≠ [] := List.ne_nil_of_mem (best_mem hcall)
    cases hput : best (ofDirection .longPut items) with
    | none =>
      rw [oneSided_accounted_iff (Or.inr (best_eq_none.mp hput)), iff_self_and]
      intro _ bestCall bestPut _ h
      cases h
    | some bestPut =>
      rw [imp_iff_right (Or.inl hcalls)]
      have hpair : ∀ {p : CandidateObject → CandidateObject → Prop},
          (∀ x y, some bestCall = some x → some bestPut = some y → p x y) ↔ p bestCall bestPut := by
        intro p
        constructor
        · intro h
          exact h bestCall bestPut rfl rfl
        · intro h x y hx hy
          cases hx
          cases hy
          exact h
      rw [hpair]
      dsimp only
      split
      · exact tie_accounted_iff hcall hput
      · split
        · exact contested_accounted_iff (by decide) (fun e => by cases e <;> decide) ⟨by decide, by decide⟩ hcap
            hnodup hcall hput
        · exact contested_accounted_iff (by decide) (fun e => by cases e <;> decide) ⟨by decide, by decide⟩ hcap
            hnodup hput hcall

/-- Where nothing is lost, confidences change among the approved only. -/
theorem arbitrate_haircut (hnodup : items.Nodup) (h : Accountable caps tieNamesPair items)
    {x : CandidateObject × ℚ} (hx : x ∈ (arbitrate caps underlying items).haircuts) :
    x.1 ∈ (arbitrate caps underlying items).approved := by
  have hfavor : ∀ {side d d' winner loser}, best (ofDirection d items) = some winner →
      (ofDirection d items).length = 1 →
      (favor caps underlying side (ofDirection d items) (ofDirection d' items) winner loser).haircuts = [] := by
    intro side d d' winner loser hwinner hone
    have hempty : capSameDirection caps [] underlying = {} := if_pos (Nat.zero_le _)
    rw [length_eq_one_iff_without (best_mem hwinner) (hnodup.filter _)] at hone
    rw [favor, hone, hempty]
  simp only [arbitrate] at hx ⊢
  cases hcall : best (ofDirection .longCall items) with
  | none =>
    rw [hcall] at hx
    exact haircut_kept hx
  | some bestCall =>
    cases hput : best (ofDirection .longPut items) with
    | none =>
      rw [hcall, hput] at hx
      exact haircut_kept hx
    | some bestPut =>
      have hclean := h.2 bestCall bestPut hcall hput
      rw [hcall, hput] at hx
      dsimp only at hx
      split at hx
      · cases hx
      · rename_i htie
        rw [if_neg htie] at hclean
        split at hx
        · rename_i hlt
          rw [if_pos hlt] at hclean
          rw [hfavor hcall hclean] at hx
          cases hx
        · rename_i hlt
          rw [if_neg hlt] at hclean
          rw [hfavor hput hclean] at hx
          cases hx

end Pass

section Whole
variable {caps} {candidates : List Candidate} {tieNamesPair : Bool} {c : CandidateObject}

theorem objects_nodup (candidates : List Candidate) : (objects candidates).Nodup := by
  refine List.Nodup.of_map (·.place) ?_
  rw [objects, List.map_map]
  have hplaces : (CandidateObject.place ∘ fun c : Candidate × Nat => { candidate := c.1, place := c.2 }) = Prod.snd := rfl
  rw [hplaces, List.zipIdx_map_snd]
  exact List.nodup_range'

def onUnderlying (underlying : String) (candidates : List Candidate) : List CandidateObject :=
  (objects candidates).filter fun c => c.key = underlying

theorem mem_onUnderlying : c ∈ onUnderlying c.key candidates ↔ c ∈ objects candidates := by
  rw [onUnderlying, List.mem_filter, decide_eq_true_iff, and_iff_left rfl]

structure LosesNothing (caps : Caps) (tieNamesPair : Bool) (candidates : List Candidate) (out : Arbitration) :
    Prop where
  oneSide : ∀ underlying, ¬((∃ c ∈ out.approved, c.key = underlying ∧ c.direction = .longCall) ∧
    ∃ c ∈ out.approved, c.key = underlying ∧ c.direction = .longPut)
  capped : ∀ underlying direction,
    (out.approved.filter fun c => c.key = underlying ∧ c.direction = direction).length ≤ caps.maxSameDirection
  best : ∀ c ∈ out.approved, ∃ b ∈ out.approved, b.key = c.key ∧ b.direction = c.direction ∧
    ∀ x ∈ objects candidates, x.key = c.key → x.direction = c.direction → x.conf ≤ b.conf
  unchanged : ∀ c ∈ objects candidates, c ∉ out.approved → out.confidenceAfter c = c.candidate.overallConfidence
  accounted : ∀ c ∈ objects candidates, c ∈ out.approved ∨ ∃ r ∈ out.dropped, r.Names tieNamesPair c

private theorem mem_entries {e : String × List CandidateObject}
    (he : e ∈ (grouped (·.key) (objects candidates)).entries) : e.2 = onUnderlying e.1 candidates :=
  (mem_grouped he).1

private theorem entry_of_mem (hc : c ∈ objects candidates) :
    (c.key, onUnderlying c.key candidates) ∈ (grouped (·.key) (objects candidates)).entries :=
  mem_grouped_of_mem hc

private theorem key_of_mem {underlying : String} (h : c ∈ onUnderlying underlying candidates) : c.key = underlying :=
  of_decide_eq_true (List.mem_filter.mp h).2

private theorem approved_iff (hcap : 1 ≤ caps.maxSameDirection) (hmany : ¬candidates.length ≤ 1) :
    c ∈ (resolveCandidateConflicts caps candidates).approved ↔
      c ∈ objects candidates ∧ c ∈ (arbitrate caps c.key (onUnderlying c.key candidates)).approved := by
  rw [resolveCandidateConflicts, if_neg hmany, List.mem_flatMap]
  constructor
  · rintro ⟨⟨u, items⟩, he, hc⟩
    have hitems := mem_entries he
    dsimp only at hitems hc
    subst hitems
    have hmem := (arbitrate_sound hcap _ _).mem c hc
    rw [key_of_mem hmem]
    exact ⟨List.mem_of_mem_filter hmem, hc⟩
  · rintro ⟨hc, happroved⟩
    exact ⟨_, entry_of_mem hc, happroved⟩

private theorem names_iff (hmany : ¬candidates.length ≤ 1) (hc : c ∈ objects candidates) :
    (∃ r ∈ (resolveCandidateConflicts caps candidates).dropped, r.Names tieNamesPair c) ↔
      ∃ r ∈ (arbitrate caps c.key (onUnderlying c.key candidates)).dropped, r.Names tieNamesPair c := by
  rw [resolveCandidateConflicts, if_neg hmany]
  constructor
  · rintro ⟨r, hr, hnames⟩
    obtain ⟨⟨u, items⟩, he, hr⟩ := List.mem_flatMap.mp hr
    have hitems := mem_entries he
    dsimp only at hitems hr
    subst hitems
    rw [key_of_mem (mem_of_arbitrate_names hr hnames)]
    exact ⟨r, hr, hnames⟩
  · rintro ⟨r, hr, hnames⟩
    exact ⟨r, List.mem_flatMap.mpr ⟨_, entry_of_mem hc, hr⟩, hnames⟩

private theorem onUnderlying_nodup (underlying : String) (candidates : List Candidate) :
    (onUnderlying underlying candidates).Nodup :=
  (objects_nodup candidates).filter _

private theorem all_accounted_iff (hcap : 1 ≤ caps.maxSameDirection) (hmany : ¬candidates.length ≤ 1) :
    (∀ c ∈ objects candidates, c ∈ (resolveCandidateConflicts caps candidates).approved ∨
      ∃ r ∈ (resolveCandidateConflicts caps candidates).dropped, r.Names tieNamesPair c) ↔
      ∀ underlying, Accountable caps tieNamesPair (onUnderlying underlying candidates) := by
  have hgroup : ∀ underlying, Accountable caps tieNamesPair (onUnderlying underlying candidates) ↔
      AccountedIn tieNamesPair (onUnderlying underlying candidates)
        (arbitrate caps underlying (onUnderlying underlying candidates)) := fun underlying =>
    (arbitrate_accounted_iff hcap (onUnderlying_nodup underlying candidates)).symm
  simp only [hgroup]
  constructor
  · intro hall underlying c hc
    have hkey := key_of_mem hc
    have hobject := List.mem_of_mem_filter hc
    have haccounted := hall c hobject
    rw [approved_iff hcap hmany, names_iff hmany hobject, hkey] at haccounted
    exact haccounted.imp_left And.right
  · intro hall c hc
    rw [approved_iff hcap hmany, names_iff hmany hc, and_iff_right hc]
    exact hall c.key c (mem_onUnderlying.mpr hc)

private theorem unchanged_of_accountable (hmany : ¬candidates.length ≤ 1)
    (h : ∀ underlying, Accountable caps tieNamesPair (onUnderlying underlying candidates))
    (hc : c ∉ (resolveCandidateConflicts caps candidates).approved) :
    (resolveCandidateConflicts caps candidates).confidenceAfter c = c.candidate.overallConfidence := by
  have hnone : (resolveCandidateConflicts caps candidates).haircuts.lookup c = none := by
    rw [List.lookup_eq_none_iff]
    rintro ⟨x, haircut⟩ hx
    simp only [bne_iff_ne, ne_eq]
    rintro rfl
    apply hc
    rw [resolveCandidateConflicts, if_neg hmany] at hx ⊢
    obtain ⟨⟨u, items⟩, he, hx⟩ := List.mem_flatMap.mp hx
    have hitems := mem_entries he
    dsimp only at hitems hx
    subst hitems
    exact List.mem_flatMap.mpr ⟨_, he, arbitrate_haircut (onUnderlying_nodup u candidates) (h u) hx⟩
  rw [Arbitration.confidenceAfter, hnone]

private theorem oneSide_of_many (hcap : 1 ≤ caps.maxSameDirection) (hmany : ¬candidates.length ≤ 1)
    (underlying : String) :
    ¬((∃ c ∈ (resolveCandidateConflicts caps candidates).approved, c.key = underlying ∧ c.direction = .longCall) ∧
      ∃ c ∈ (resolveCandidateConflicts caps candidates).approved, c.key = underlying ∧ c.direction = .longPut) := by
  rintro ⟨⟨b, hb, hbu, hbd⟩, c, hc, hcu, hcd⟩
  have hb' := ((approved_iff hcap hmany).mp hb).2
  have hc' := ((approved_iff hcap hmany).mp hc).2
  rw [hbu] at hb'
  rw [hcu] at hc'
  have hsame := (arbitrate_sound hcap _ _).oneSide b hb' c hc'
  rw [hbd, hcd] at hsame
  cases hsame

private theorem capped_of_many (hcap : 1 ≤ caps.maxSameDirection) (hmany : ¬candidates.length ≤ 1)
    (underlying : String) (direction : TradeDirection) :
    ((resolveCandidateConflicts caps candidates).approved.filter
      fun c => c.key = underlying ∧ c.direction = direction).length ≤ caps.maxSameDirection := by
  by_cases hnone : onUnderlying underlying candidates = []
  · have hempty : (resolveCandidateConflicts caps candidates).approved.filter
        (fun c => c.key = underlying ∧ c.direction = direction) = [] := by
      refine List.filter_eq_nil_iff.mpr fun c hc hkey => ?_
      have hmem := mem_onUnderlying.mpr ((approved_iff hcap hmany).mp hc).1
      rw [(of_decide_eq_true hkey).1, hnone] at hmem
      cases hmem
    rw [hempty]
    exact Nat.zero_le _
  · have hown : (resolveCandidateConflicts caps candidates).approved.filter (fun c => c.key = underlying) =
        (arbitrate caps underlying (onUnderlying underlying candidates)).approved := by
      rw [resolveCandidateConflicts, if_neg hmany]
      exact filter_flatMap_grouped (f := fun u items => (arbitrate caps u items).approved)
        (fun u items => (arbitrate_sound hcap items u).mem) hnone
    have hsplit : (resolveCandidateConflicts caps candidates).approved.filter
        (fun c => c.key = underlying ∧ c.direction = direction) =
        ((resolveCandidateConflicts caps candidates).approved.filter fun c => c.key = underlying).filter
          fun c => c.direction = direction := by
      rw [List.filter_filter]
      congr 1
      funext c
      rw [Bool.decide_and, Bool.and_comm]
    rw [hsplit, hown]
    exact (List.length_filter_le _ _).trans (arbitrate_sound hcap _ _).capped

private theorem best_of_many (hcap : 1 ≤ caps.maxSameDirection) (hmany : ¬candidates.length ≤ 1)
    (hc : c ∈ (resolveCandidateConflicts caps candidates).approved) :
    ∃ b ∈ (resolveCandidateConflicts caps candidates).approved, b.key = c.key ∧ b.direction = c.direction ∧
      ∀ x ∈ objects candidates, x.key = c.key → x.direction = c.direction → x.conf ≤ b.conf := by
  obtain ⟨hobject, happroved⟩ := (approved_iff hcap hmany).mp hc
  have hsound := arbitrate_sound hcap (onUnderlying c.key candidates) c.key
  obtain ⟨b, hb, hdirection, hmax⟩ := hsound.best c happroved
  have hbmem := hsound.mem b hb
  have hbkey := key_of_mem hbmem
  refine ⟨b, (approved_iff hcap hmany).mpr ⟨List.mem_of_mem_filter hbmem, hbkey ▸ hb⟩, hbkey, hdirection, ?_⟩
  intro x hx hkey hd
  exact hmax x (List.mem_filter.mpr ⟨hx, decide_eq_true hkey⟩) hd

private theorem objects_short (h : candidates.length ≤ 1) : objects candidates = [] ∨ ∃ c, objects candidates = [c] := by
  match candidates, h with
  | [], _ => exact Or.inl rfl
  | [c], _ => exact Or.inr ⟨_, rfl⟩

private theorem short_sound (hcap : 1 ≤ caps.maxSameDirection) (h : candidates.length ≤ 1) :
    LosesNothing caps tieNamesPair candidates (resolveCandidateConflicts caps candidates) := by
  rw [resolveCandidateConflicts, if_pos h]
  have hsame : ∀ b ∈ objects candidates, ∀ c ∈ objects candidates, b = c := by
    rcases objects_short h with hnil | ⟨o, ho⟩
    · rw [hnil]
      exact fun b hb => absurd hb List.not_mem_nil
    · rw [ho]
      exact fun b hb c hc => (List.mem_singleton.mp hb).trans (List.mem_singleton.mp hc).symm
  refine ⟨?_, ?_, ?_, fun _ _ _ => rfl, fun c hc => Or.inl hc⟩
  · rintro underlying ⟨⟨b, hb, -, hbd⟩, c, hc, -, hcd⟩
    rw [hsame b hb c hc, hcd] at hbd
    cases hbd
  · intro underlying direction
    have hlength : (objects candidates).length ≤ 1 := by rwa [objects, List.length_map, List.length_zipIdx]
    exact ((List.length_filter_le _ _).trans hlength).trans hcap
  · intro c hc
    refine ⟨c, hc, rfl, rfl, fun x hx _ _ => ?_⟩
    rw [hsame x hx c hc]

private theorem accountable_short (h : candidates.length ≤ 1) (underlying : String) :
    Accountable caps tieNamesPair (onUnderlying underlying candidates) := by
  have hsame : ∀ b ∈ onUnderlying underlying candidates, ∀ c ∈ onUnderlying underlying candidates, b = c := by
    intro b hb c hc
    have hb' := List.mem_of_mem_filter hb
    have hc' := List.mem_of_mem_filter hc
    rcases objects_short h with hnil | ⟨o, ho⟩
    · rw [hnil] at hb'
      cases hb'
    · rw [ho, List.mem_singleton] at hb' hc'
      rw [hb', hc']
  have hone : ∀ d e, ofDirection d (onUnderlying underlying candidates) ≠ [] →
      ofDirection e (onUnderlying underlying candidates) ≠ [] → d = e := by
    intro d e hd he
    obtain ⟨b, hb⟩ := List.exists_mem_of_ne_nil _ hd
    obtain ⟨c, hc⟩ := List.exists_mem_of_ne_nil _ he
    obtain ⟨hb, hbd⟩ := mem_ofDirection.mp hb
    obtain ⟨hc, hcd⟩ := mem_ofDirection.mp hc
    rw [← hbd, ← hcd, hsame b hb c hc]
  constructor
  · rintro hside
    by_contra hneutral
    rcases hside with hcall | hput
    · exact absurd (hone _ _ hcall hneutral) (by decide)
    · exact absurd (hone _ _ hput hneutral) (by decide)
  · intro bestCall bestPut hcall hput
    have hboth := hone _ _ (List.ne_nil_of_mem (best_mem hcall)) (List.ne_nil_of_mem (best_mem hput))
    cases hboth

/-- What the losing side has is reported. What is lost is the rest of the winning side and whatever is
neither call nor put, and a tie is reported without a name. -/
theorem losesNothing_iff (caps : Caps) (hcap : 1 ≤ caps.maxSameDirection) (tieNamesPair : Bool)
    (candidates : List Candidate) :
    LosesNothing caps tieNamesPair candidates (resolveCandidateConflicts caps candidates) ↔
      ∀ underlying, Accountable caps tieNamesPair (onUnderlying underlying candidates) := by
  by_cases hshort : candidates.length ≤ 1
  · exact iff_of_true (short_sound hcap hshort) (accountable_short hshort)
  · constructor
    · intro h
      exact (all_accounted_iff hcap hshort).mp h.accounted
    · intro h
      exact ⟨oneSide_of_many hcap hshort, capped_of_many hcap hshort, fun c hc => best_of_many hcap hshort hc,
        fun c _ hc => unchanged_of_accountable hshort h hc, (all_accounted_iff hcap hshort).mpr h⟩

def callCandidate (strategy : String) (confidence : ℚ) : Candidate :=
  { underlying := some "NIFTY", strategy, direction := .longCall, overallConfidence := some confidence }

def putCandidate (strategy : String) (confidence : ℚ) : Candidate :=
  { underlying := some "NIFTY", strategy, direction := .longPut, overallConfidence := some confidence }

theorem losesNothing_callAndPut :
    LosesNothing {} true [callCandidate "BREAKOUT" 85, putCandidate "MEAN_REVERSION" 68]
        (resolveCandidateConflicts {} [callCandidate "BREAKOUT" 85, putCandidate "MEAN_REVERSION" 68]) ↔
      ∀ underlying, Accountable {} true
        (onUnderlying underlying [callCandidate "BREAKOUT" 85, putCandidate "MEAN_REVERSION" 68]) :=
  losesNothing_iff {} (by decide) true _

/-- Of two calls against a put, the second call is neither approved nor reported. -/
theorem second_call_lost : ¬∃ tieNamesPair, LosesNothing {} tieNamesPair
    [callCandidate "BREAKOUT" 85, callCandidate "ORB" 80, putCandidate "MEAN_REVERSION" 68]
    (resolveCandidateConflicts {}
      [callCandidate "BREAKOUT" 85, callCandidate "ORB" 80, putCandidate "MEAN_REVERSION" 68]) := by
  rintro ⟨tieNamesPair, h⟩
  have hout : (resolveCandidateConflicts {}
      [callCandidate "BREAKOUT" 85, callCandidate "ORB" 80, putCandidate "MEAN_REVERSION" 68]).approved =
        [⟨callCandidate "BREAKOUT" 85, 0⟩] ∧
      (resolveCandidateConflicts {}
        [callCandidate "BREAKOUT" 85, callCandidate "ORB" 80, putCandidate "MEAN_REVERSION" 68]).dropped =
        [.inFavorOf "NIFTY" ⟨putCandidate "MEAN_REVERSION" 68, 2⟩ ⟨callCandidate "BREAKOUT" 85, 0⟩ "CALL"] := by
    decide +kernel
  have hlost := h.accounted ⟨callCandidate "ORB" 80, 1⟩ (by decide +kernel)
  rw [hout.1, hout.2] at hlost
  simp [DropReason.Names] at hlost

end Whole

end Droid.Algo.Fusion
