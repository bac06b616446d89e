import Mathlib.Data.List.DropRight

/-! Queues of bounded length that hold the newest elements of a stream; the oldest leave first. -/
namespace Droid.Lib

/-- The last elements pushed, oldest first, `cap` of them at most. -/
structure Window (α : Type) (cap : Nat) where
  items : List α
  bounded : items.length ≤ cap

namespace Window
variable {α : Type} {cap : Nat}

def empty : Window α cap := ⟨[], Nat.zero_le cap⟩

theorem length_rtake (n : Nat) (l : List α) : (l.rtake n).length = min n l.length := by
  rw [List.rtake, List.length_drop]
  omega

theorem rtake_suffix (n : Nat) (l : List α) : l.rtake n <:+ l := List.drop_suffix _ l

def push (w : Window α cap) (x : α) : Window α cap where
  items := (w.items ++ [x]).rtake cap
  bounded := by
    rw [length_rtake]
    exact Nat.min_le_left _ _

/-- An element that is in the queue already moves to the end. -/
def touch [DecidableEq α] (w : Window α cap) (x : α) : Window α cap :=
  push ⟨w.items.filter (· ≠ x), (List.length_filter_le _ _).trans w.bounded⟩ x

@[simp] theorem items_empty : (empty : Window α cap).items = [] := rfl

theorem items_push (w : Window α cap) (x : α) : (w.push x).items = (w.items ++ [x]).rtake cap := rfl

theorem length_push (w : Window α cap) (x : α) :
    (w.push x).items.length = min cap (w.items.length + 1) := by
  rw [items_push, length_rtake, List.length_append, List.length_singleton]

theorem mem_of_mem_push {w : Window α cap} {x y : α} (h : y ∈ (w.push x).items) :
    y ∈ w.items ∨ y = x := by
  have hmem : y ∈ w.items ++ [x] := (rtake_suffix cap _).subset h
  simpa only [List.mem_append, List.mem_singleton] using hmem

theorem touch_of_notMem [DecidableEq α] {w : Window α cap} {x : α} (h : x ∉ w.items) :
    w.touch x = w.push x := by
  have hkeep : w.items.filter (· ≠ x) = w.items := by
    apply List.filter_eq_self.mpr
    intro y hy
    exact decide_eq_true fun hyx => h (hyx ▸ hy)
  simp only [touch, hkeep]

/-- A shorter queue fed the same elements stays the newest part of a longer one. -/
theorem push_suffix {small : Nat} {v : Window α small} {w : Window α cap} (hcap : small ≤ cap)
    (h : v.items <:+ w.items) (x : α) : (v.push x).items <:+ (w.push x).items := by
  have hlen : v.items.length ≤ w.items.length := h.length_le
  have hboth : v.items ++ [x] <:+ w.items ++ [x] := by
    obtain ⟨older, holder⟩ := h
    exact ⟨older, by rw [← List.append_assoc, holder]⟩
  apply List.suffix_of_suffix_length_le ((rtake_suffix _ _).trans hboth) (rtake_suffix _ _)
  rw [← items_push, ← items_push, length_push, length_push]
  omega

end Window

end Droid.Lib
