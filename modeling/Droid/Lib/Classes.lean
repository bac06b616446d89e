import Mathlib.Data.List.Perm.Basic
import Mathlib.Logic.Function.Basic

/-! Queues by class, with a count of what each class has lost: what enters, leaves and is lost between two states. -/
namespace Droid.Lib
variable {α κ : Type} [DecidableEq κ]

def ofClass (cls : α → κ) (k : κ) (l : List α) : List α := l.filter fun a => decide (cls a = k)

@[simp] theorem ofClass_nil (cls : α → κ) (k : κ) : ofClass cls k [] = [] := rfl

@[simp] theorem ofClass_append (cls : α → κ) (k : κ) (l l' : List α) :
    ofClass cls k (l ++ l') = ofClass cls k l ++ ofClass cls k l' := List.filter_append _ _

theorem ofClass_singleton_self (cls : α → κ) (a : α) : ofClass cls (cls a) [a] = [a] := by
  simp [ofClass]

theorem ofClass_singleton_of_ne {cls : α → κ} {a : α} {k : κ} (h : k ≠ cls a) : ofClass cls k [a] = [] := by
  simp [ofClass, Ne.symm h]

/-- From one state to another, `entered` comes in, `taken` goes out in the order it came, and `lost` is counted. -/
structure ClassTurn (cls : α → κ) (queue queue' : κ → List α) (count count' : κ → Nat) (entered taken lost : List α) :
    Prop where
  order : ∀ k, (ofClass cls k taken ++ queue' k).Sublist (queue k ++ ofClass cls k entered)
  events : ∀ k, (queue k ++ ofClass cls k entered).Perm (ofClass cls k taken ++ ofClass cls k lost ++ queue' k)
  counted : ∀ k, count' k = count k + (ofClass cls k lost).length

namespace ClassTurn
variable {cls : α → κ} {queue queue' queue'' : κ → List α} {count count' count'' : κ → Nat}
  {entered taken lost entered' taken' lost' : List α}

theorem refl (cls : α → κ) (queue : κ → List α) (count : κ → Nat) : ClassTurn cls queue queue count count [] [] [] where
  order k := by simp
  events k := by simp
  counted k := rfl

theorem trans (h : ClassTurn cls queue queue' count count' entered taken lost)
    (h' : ClassTurn cls queue' queue'' count' count'' entered' taken' lost') :
    ClassTurn cls queue queue'' count count'' (entered ++ entered') (taken ++ taken') (lost ++ lost') where
  order k := by
    have hfirst := (h.order k).append (List.Sublist.refl (ofClass cls k entered'))
    have hsecond := (List.Sublist.refl (ofClass cls k taken)).append (h'.order k)
    rw [ofClass_append, ofClass_append, List.append_assoc, ← List.append_assoc (queue k)]
    rw [← List.append_assoc (ofClass cls k taken) (queue' k)] at hsecond
    exact hsecond.trans hfirst
  events k := by
    have hfirst := (h.events k).append_right (ofClass cls k entered')
    have hsecond := (h'.events k).append_left (ofClass cls k taken ++ ofClass cls k lost)
    rw [ofClass_append, ofClass_append, ofClass_append, ← List.append_assoc (queue k)]
    rw [List.append_assoc _ (queue' k)] at hfirst
    refine (hfirst.trans hsecond).trans ?_
    -- what the second turn has taken goes before what the first one has lost
    simp only [List.append_assoc]
    apply List.Perm.append_left
    rw [← List.append_assoc (ofClass cls k lost), ← List.append_assoc (ofClass cls k taken')]
    exact List.perm_append_comm.append_right _
  counted k := by
    rw [h'.counted, h.counted, ofClass_append, List.length_append, Nat.add_assoc]

theorem enqueue (cls : α → κ) (queue : κ → List α) (count : κ → Nat) (a : α) :
    ClassTurn cls queue (Function.update queue (cls a) (queue (cls a) ++ [a])) count count [a] [] [] where
  order k := by
    by_cases hk : k = cls a
    · subst hk
      simp [ofClass_singleton_self]
    · simp [Function.update_of_ne hk]
  events k := by
    by_cases hk : k = cls a
    · subst hk
      simp [ofClass_singleton_self]
    · simp [Function.update_of_ne hk, ofClass_singleton_of_ne hk]
  counted k := rfl

theorem refuse (cls : α → κ) (queue : κ → List α) (count : κ → Nat) (a : α) :
    ClassTurn cls queue queue count (Function.update count (cls a) (count (cls a) + 1)) [a] [] [a] where
  order k := by simp
  events k := by simpa using List.perm_append_comm
  counted k := by
    by_cases hk : k = cls a
    · subst hk
      simp [ofClass_singleton_self]
    · simp [Function.update_of_ne hk, ofClass_singleton_of_ne hk]

theorem displace {a : α} {rest : List α} (h : queue (cls a) = a :: rest) :
    ClassTurn cls queue (Function.update queue (cls a) rest) count (Function.update count (cls a) (count (cls a) + 1))
      [] [] [a] where
  order k := by
    by_cases hk : k = cls a
    · subst hk
      simp [h]
    · simp [Function.update_of_ne hk]
  events k := by
    by_cases hk : k = cls a
    · subst hk
      simp [h, ofClass_singleton_self]
    · simp [Function.update_of_ne hk, ofClass_singleton_of_ne hk]
  counted k := by
    by_cases hk : k = cls a
    · subst hk
      simp [ofClass_singleton_self]
    · simp [Function.update_of_ne hk, ofClass_singleton_of_ne hk]

theorem take {a : α} {rest : List α} (h : queue (cls a) = a :: rest) :
    ClassTurn cls queue (Function.update queue (cls a) rest) count count [] [a] [] where
  order k := by
    by_cases hk : k = cls a
    · subst hk
      simp [h, ofClass_singleton_self]
    · simp [Function.update_of_ne hk, ofClass_singleton_of_ne hk]
  events k := by
    by_cases hk : k = cls a
    · subst hk
      simp [h, ofClass_singleton_self]
    · simp [Function.update_of_ne hk, ofClass_singleton_of_ne hk]
  counted k := rfl

end ClassTurn
end Droid.Lib
