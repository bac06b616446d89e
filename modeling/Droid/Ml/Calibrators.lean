import Droid.Lib.Pools
import Droid.Lib.StableSort
import Mathlib.Algebra.Order.Ring.Rat
import Mathlib.Algebra.Order.Field.Rat
import Mathlib.Data.List.GetD
import Mathlib.Order.Bounds.Basic

/-! The isotonic challenger: pool-adjacent-violators for each class against the rest, and the stepwise lookup. -/
namespace Droid.Ml.Calibrators
open Lib

/-! ### Pool-adjacent-violators -/

/-- The while loop: the last block, as a sum and a count, takes in the blocks before it whose average is higher. -/
def mergeBlocks (sum : ℚ) (count : ℕ) : List (ℚ × ℕ) → List (ℚ × ℕ)
  | [] => [(sum, count)]
  | (sum', count') :: blocks =>
    if sum / count < sum' / count' then mergeBlocks (sum' + sum) (count' + count) blocks
    else (sum, count) :: (sum', count') :: blocks

/-- The blocks, the last one first. -/
def pavaBlocks (ySorted : List ℚ) : List (ℚ × ℕ) := ySorted.foldl (fun blocks v => mergeBlocks v 1 blocks) []

def pava1d (ySorted : List ℚ) : List ℚ :=
  (pavaBlocks ySorted).reverse.flatMap fun block => List.replicate block.2 (block.1 / block.2)

/-! ### The fit -/

inductive FitError where
  | inSample
  | label (i : ℕ) (v : ℤ)
  | entries (i n : ℕ)
  | entryRange (i : ℕ) (row : List ℚ)
  | lengthMismatch (y oosP : ℕ)
  | noRows
  deriving DecidableEq

def checkOos (oos : Bool) : Except FitError Unit := if oos then pure () else throw .inSample

def validateLabels (y : List ℤ) : Except FitError (List ℤ) :=
  match y.zipIdx.find? fun p => !decide (p.1 = 0 ∨ p.1 = 1 ∨ p.1 = 2) with
  | some (v, i) => throw (.label i v)
  | none => pure y

def rowError (row : List ℚ) (i : ℕ) : Option FitError :=
  if row.length ≠ 3 then some (.entries i row.length)
  else if row.any fun v => !decide (0 ≤ v ∧ v ≤ 1) then some (.entryRange i row)
  else none

def validatePRows (rows : List (List ℚ)) : Except FitError (List (List ℚ)) :=
  match rows.zipIdx.findSome? fun p => rowError p.1 p.2 with
  | some e => throw e
  | none => pure rows

/-- The step points of a class: `xs` and `ys` of the parameters. -/
structure ClassMap where
  xs : List ℚ := []
  ys : List ℚ := []
  deriving DecidableEq

/-- A turn of the loop that collapses to unique scores; the knots stand last first. -/
def collapseStep (knots : List (ℚ × ℚ)) (p : ℚ × ℚ) : List (ℚ × ℚ) :=
  match knots with
  | [] => [p]
  | (x, f) :: knots => if p.1 = x then (x, max f p.2) :: knots else p :: (x, f) :: knots

def collapse (xsSorted fitted : List ℚ) : ClassMap :=
  let knots := ((xsSorted.zip fitted).foldl collapseStep []).reverse
  { xs := knots.map Prod.fst, ys := knots.map Prod.snd }

/-- The map of one class, from its score and its 0/1 label in each row. -/
def fitClass (rows : List (ℚ × ℚ)) : ClassMap :=
  let pairs := rows.insertionSort fun a b => a.1 ≤ b.1
  collapse (pairs.map Prod.fst) (pava1d (pairs.map Prod.snd))

/-- Class `k` against the rest; a row has its three entries here. -/
def classRow (k : ℕ) (p : ℤ × List ℚ) : ℚ × ℚ := (p.2.getD k 0, if p.1 = (k : ℤ) then 1 else 0)

/-! ### The lookup -/

def searchKnot (p : ℚ) (xs : List ℚ) (lo hi : ℕ) : ℕ :=
  if lo < hi then
    let mid := (lo + hi + 1) / 2
    -- `mid` is at most `hi`, which is a position of `xs`
    if xs.getD mid 0 ≤ p then searchKnot p xs mid hi else searchKnot p xs lo (mid - 1)
  else lo
termination_by hi - lo

/-- Nothing where Python runs past the end of `ys`. -/
def isotonicLookup (p : ℚ) (xs ys : List ℚ) : Option ℚ :=
  match xs.head?, xs.getLast? with
  | some first, some last =>
    if p ≤ first then ys.head?
    else if last ≤ p then ys.getLast?
    else ys[searchKnot p xs 0 (xs.length - 1)]?
  | _, _ => some p

def epsClip : ℚ := 1 / 10 ^ 12

def applyIsotonicRow (row : List ℚ) (params : List ClassMap) : Option (List ℚ) := do
  let vals ← [0, 1, 2].mapM fun k =>
    let cell := params.getD k {}
    isotonicLookup (row.getD k 0) cell.xs cell.ys
  let vals := vals.map fun v => min (max v epsClip) 1
  let s := vals.sum
  if s ≤ 0 then return List.replicate 3 (1 / 3)
  return vals.map (· / s)

/-! ### The calibration error, before and after -/

def argmaxRow (row : List ℚ) : ℕ :=
  [1, 2].foldl (fun best k => if row.getD best 0 < row.getD k 0 then k else best) 0

/-- Bin `b` of `nb` covers its lower end, and the last one 1 as well. -/
def inBin (nb b : ℕ) (conf : ℚ) : Bool :=
  decide ((b : ℚ) / nb ≤ conf ∧ (conf < (b + 1 : ℚ) / nb ∨ b + 1 = nb ∧ conf ≤ 1))

/-- The gap of a bin, weighted by its share of the rows, which are confidences and whether the class was right. -/
def binGap (rows : List (ℚ × Bool)) (nb b : ℕ) : ℚ :=
  let idx := rows.filter fun r => inBin nb b r.1
  if idx.isEmpty then 0
  else
    let acc := (idx.map fun r => if r.2 then (1 : ℚ) else 0).sum / idx.length
    let conf := (idx.map Prod.fst).sum / idx.length
    (idx.length : ℚ) / rows.length * |acc - conf|

def ece (y : List ℤ) (rows : List (List ℚ)) (nBins : ℕ := 10) : ℚ :=
  if y.isEmpty then 0
  else
    let scored := (y.zip rows).map fun p => (p.2.max?.getD 0, decide ((argmaxRow p.2 : ℤ) = p.1))
    ((List.range nBins).map (binGap scored nBins)).sum

structure IsotonicFit where
  params : List ClassMap
  fitN : ℕ
  eceBefore : ℚ
  eceAfter : ℚ

/-- The fit window and the version go through unread. -/
def fitIsotonicOvr (oosP : List (List ℚ)) (y : List ℤ) (oos : Bool := true) :
    Except FitError (Option IsotonicFit) := do
  checkOos oos
  let yy ← validateLabels y
  let PP ← validatePRows oosP
  if yy.length ≠ PP.length then throw (.lengthMismatch yy.length PP.length)
  if yy.isEmpty then throw .noRows
  let params := [0, 1, 2].map fun k => fitClass ((yy.zip PP).map (classRow k))
  return (PP.mapM fun row => applyIsotonicRow row params).map fun cal =>
    { params, fitN := yy.length, eceBefore := ece yy PP, eceAfter := ece yy cal }

/-! ### The pools of the blocks -/

/-- The blocks are pools with non-decreasing averages, the last one first. -/
structure Stacked (blocks : List (ℚ × ℕ)) (groups : List (List ℚ)) : Prop where
  blocks_eq : blocks = groups.map fun g => (g.sum, g.length)
  pools : ∀ g ∈ groups, Pool g
  ordered : (groups.map mean).Pairwise (· ≥ ·)

theorem Stacked.merge {blocks : List (ℚ × ℕ)} {groups : List (List ℚ)} (h : Stacked blocks groups) {g : List ℚ}
    (hg : Pool g) :
    ∃ groups', Stacked (mergeBlocks g.sum g.length blocks) groups' ∧
      groups'.reverse.flatten = groups.reverse.flatten ++ g := by
  obtain ⟨rfl, hpools, hordered⟩ := h
  induction groups generalizing g with
  | nil => exact ⟨[g], ⟨rfl, by simpa using hg, by simp⟩, by simp⟩
  | cons g' groups ih =>
    obtain ⟨hg', hrest⟩ := List.forall_mem_cons.mp hpools
    rw [List.map_cons, List.pairwise_cons] at hordered
    obtain ⟨hfirst, htail⟩ := hordered
    have hmerge : mergeBlocks g.sum g.length ((g' :: groups).map fun g => (g.sum, g.length)) =
        if mean g < mean g' then
          mergeBlocks (g'.sum + g.sum) (g'.length + g.length) (groups.map fun g => (g.sum, g.length))
        else (g :: g' :: groups).map fun g => (g.sum, g.length) := rfl
    rw [hmerge]
    by_cases hlt : mean g < mean g'
    · have hpool := hg'.append hg hlt.le
      obtain ⟨groups', hstacked, hflatten⟩ := ih hpool hrest htail
      rw [List.sum_append, List.length_append] at hstacked
      refine ⟨groups', ?_, ?_⟩
      · rw [if_pos hlt]
        exact hstacked
      · rw [hflatten]
        simp
    · rw [if_neg hlt]
      refine ⟨g :: g' :: groups, ⟨rfl, List.forall_mem_cons.mpr ⟨hg, hpools⟩, ?_⟩, by simp⟩
      rw [List.map_cons, List.pairwise_cons]
      refine ⟨?_, List.pairwise_cons.mpr ⟨hfirst, htail⟩⟩
      intro a ha
      rcases List.mem_cons.mp ha with rfl | hmem
      · exact not_lt.mp hlt
      · exact (hfirst a hmem).trans (not_lt.mp hlt)

theorem pavaBlocks_stacked (ys : List ℚ) : ∃ groups, Stacked (pavaBlocks ys) groups ∧ groups.reverse.flatten = ys := by
  induction ys using List.reverseRecOn with
  | nil => exact ⟨[], ⟨rfl, by simp, by simp⟩, rfl⟩
  | append_singleton ys y ih =>
    obtain ⟨groups, hstacked, hflatten⟩ := ih
    obtain ⟨groups', hmerged, hall⟩ := hstacked.merge (Pool.singleton y)
    have hlast : Stacked (mergeBlocks y 1 (pavaBlocks ys)) groups' := by simpa using hmerged
    refine ⟨groups', ?_, by rw [hall, hflatten]⟩
    rw [pavaBlocks, List.foldl_append]
    exact hlast

theorem pava1d_balanced (ys : List ℚ) : ∃ c, Balanced c 0 (plain ys) (pava1d ys) := by
  obtain ⟨groups, ⟨hblocks, hpools, hordered⟩, rfl⟩ := pavaBlocks_stacked ys
  have hout : pava1d groups.reverse.flatten = stepwise groups.reverse (groups.reverse.map mean) := by
    rw [pava1d, hblocks, ← List.map_reverse, List.flatMap_map, stepwise_map]
    rfl
  rw [hout]
  apply exists_balanced_of_pools
  · intro g hg
    exact hpools g (List.mem_reverse.mp hg)
  · rw [List.map_reverse, List.pairwise_reverse]
    exact hordered

/-- What comes out is the one non-decreasing sequence nearest to what goes in. -/
theorem pava1d_isIsotonic (ys : List ℚ) : IsIsotonic (plain ys) (pava1d ys) := by
  obtain ⟨c, h⟩ := pava1d_balanced ys
  exact h.isIsotonic (plain_pos ys)

theorem pava1d_eq {c : ℚ} {ys v : List ℚ} (h : Balanced c 0 (plain ys) v) : pava1d ys = v :=
  (pava1d_isIsotonic ys).unique (h.isIsotonic (plain_pos ys))

/-! ### The knot that is looked up -/

theorem searchKnot_spec {p : ℚ} {xs : List ℚ} (hxs : xs.Pairwise (· < ·)) {lo hi : ℕ} (hhi : hi < xs.length)
    (hle : lo ≤ hi) (hlo : xs.getD lo 0 ≤ p) (hup : ∀ j, hi < j → j < xs.length → p < xs.getD j 0) :
    searchKnot p xs lo hi < xs.length ∧ xs.getD (searchKnot p xs lo hi) 0 ≤ p ∧
      ∀ j, searchKnot p xs lo hi < j → j < xs.length → p < xs.getD j 0 := by
  fun_induction searchKnot p xs lo hi with
  | case1 lo hi hlt mid hmid ih => exact ih hhi (by omega) hmid hup
  | case2 lo hi hlt mid hmid ih =>
    refine ih (by omega) (by omega) hlo ?_
    intro j hj hlength
    have hmono : xs.getD mid 0 ≤ xs.getD j 0 := by
      rw [List.getD_eq_getElem xs 0 hlength, List.getD_eq_getElem xs 0 (by omega : mid < xs.length)]
      rcases Nat.lt_or_ge mid j with hmj | hmj
      · exact (List.pairwise_iff_getElem.mp hxs mid j (by omega) hlength hmj).le
      · obtain rfl : mid = j := by omega
        exact le_rfl
    exact (not_le.mp hmid).trans_le hmono
  | case3 lo hi hlt =>
    obtain rfl : lo = hi := by omega
    exact ⟨hhi, hlo, hup⟩

/-- The value at the greatest knot that is not above `p`, and the first value below the knots. -/
structure LooksUp (p : ℚ) (xs ys : List ℚ) : Prop where
  unfitted : xs = [] → isotonicLookup p xs ys = some p
  below : ∀ first ∈ xs.head?, p ≤ first → isotonicLookup p xs ys = ys.head?
  knot : ∀ x : ℚ, IsGreatest {x | x ∈ xs ∧ x ≤ p} x → ∀ i : ℕ, xs[i]? = some x → isotonicLookup p xs ys = ys[i]?
  total : (isotonicLookup p xs ys).isSome

theorem isotonicLookup_cons (p x : ℚ) (xs ys : List ℚ) :
    isotonicLookup p (x :: xs) ys =
      if p ≤ x then ys.head?
      else if (x :: xs).getLast (List.cons_ne_nil x xs) ≤ p then ys.getLast?
      else ys[searchKnot p (x :: xs) 0 xs.length]? := by
  rw [isotonicLookup, List.head?_cons, List.getLast?_eq_some_getLast (List.cons_ne_nil x xs)]
  rfl

theorem looksUp {p : ℚ} {xs ys : List ℚ} (hxs : xs.Pairwise (· < ·)) (hlength : ys.length = xs.length) :
    LooksUp p xs ys := by
  cases xs with
  | nil => exact ⟨fun _ => rfl, by simp, by simp, rfl⟩
  | cons x xs =>
    have hlast : (x :: xs).getLast (List.cons_ne_nil x xs) = (x :: xs).getD xs.length 0 := by
      rw [List.getLast_eq_getElem, List.getD_eq_getElem]
      rfl
    have hmono : ∀ i j (hi : i < (x :: xs).length) (hj : j < (x :: xs).length), (x :: xs)[i] ≤ (x :: xs)[j] → i ≤ j := by
      intro i j hi hj hle
      by_contra hji
      exact absurd hle (not_le.mpr (List.pairwise_iff_getElem.mp hxs j i hj hi (Nat.lt_of_not_le hji)))
    -- the search starts where the first knot is below and nothing stands past the last one
    have hsearch : x < p → searchKnot p (x :: xs) 0 xs.length < (x :: xs).length ∧
        (x :: xs).getD (searchKnot p (x :: xs) 0 xs.length) 0 ≤ p ∧
          ∀ j, searchKnot p (x :: xs) 0 xs.length < j → j < (x :: xs).length → p < (x :: xs).getD j 0 := by
      intro hxp
      refine searchKnot_spec hxs (Nat.lt_succ_self _) (Nat.zero_le _) hxp.le ?_
      intro j hj hjl
      rw [List.length_cons] at hjl
      omega
    refine ⟨fun h => absurd h (List.cons_ne_nil x xs), ?_, ?_, ?_⟩
    · intro first hfirst hle
      obtain rfl : x = first := by simpa using hfirst
      rw [isotonicLookup_cons, if_pos hle]
    · rintro a ⟨⟨-, hap⟩, hgreatest⟩ i hi
      obtain ⟨hil, rfl⟩ := List.getElem?_eq_some_iff.mp hi
      rw [isotonicLookup_cons]
      split_ifs with hfirst hpast
      · have hzero : i ≤ 0 := hmono i 0 hil (Nat.succ_pos _) (hap.trans hfirst)
        obtain rfl := Nat.le_zero.mp hzero
        exact List.head?_eq_getElem?
      · have hend : xs.length ≤ i := by
          refine hmono xs.length i (Nat.lt_succ_self _) hil (hgreatest ⟨List.getElem_mem _, ?_⟩)
          rw [← List.getD_eq_getElem _ 0, ← hlast]
          exact hpast
        obtain rfl : i = xs.length := Nat.le_antisymm (Nat.le_of_lt_succ hil) hend
        rw [List.getLast?_eq_getElem?, hlength, List.length_cons, Nat.add_sub_cancel]
      · obtain ⟨hk, hkp, hbeyond⟩ := hsearch (not_le.mp hfirst)
        rw [List.getD_eq_getElem _ 0 hk] at hkp
        have hki := hmono _ i hk hil (hgreatest ⟨List.getElem_mem hk, hkp⟩)
        have hik : i ≤ searchKnot p (x :: xs) 0 xs.length := by
          by_contra hlt
          have hgt := hbeyond i (Nat.lt_of_not_le hlt) hil
          rw [List.getD_eq_getElem _ 0 hil] at hgt
          exact absurd hap (not_le.mpr hgt)
        rw [Nat.le_antisymm hik hki]
    · have hys : ys ≠ [] := by
        rw [← List.length_pos_iff, hlength]
        exact Nat.succ_pos _
      rw [isotonicLookup_cons]
      split_ifs with hfirst hpast
      · simpa using hys
      · simpa using hys
      · have hk := (hsearch (not_le.mp hfirst)).1
        rw [List.getElem?_eq_getElem (hlength ▸ hk)]
        rfl

end Droid.Ml.Calibrators
