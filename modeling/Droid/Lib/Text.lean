import Mathlib.Data.String.Basic
import Mathlib.Data.List.Infix
import Mathlib.Data.List.DropRight

/-! Texts without regard to case, blanks at their ends, and two fields joined by a separator. -/
namespace Droid.Lib.Text

def upper (s : String) : String := String.ofList (s.toList.map Char.toUpper)

def lower (s : String) : String := String.ofList (s.toList.map Char.toLower)

def isSpace (c : Char) : Bool :=
  c.toNat ∈ [0x20, 0x85, 0xa0, 0x1680, 0x2028, 0x2029, 0x202f, 0x205f, 0x3000] ||
    decide (0x09 ≤ c.toNat ∧ c.toNat ≤ 0x0d) || decide (0x1c ≤ c.toNat ∧ c.toNat ≤ 0x1f) ||
    decide (0x2000 ≤ c.toNat ∧ c.toNat ≤ 0x200a)

def strip (s : String) : String :=
  String.ofList (((s.toList.dropWhile isSpace).reverse.dropWhile isSpace).reverse)

/-- `sub in s`. -/
def hasText (s sub : String) : Bool := decide (sub.toList <:+: s.toList)

private theorem toNat_toUpper (c : Char) :
    c.toUpper.toNat = if 97 ≤ c.toNat ∧ c.toNat ≤ 122 then c.toNat - 32 else c.toNat := by
  delta Char.toUpper
  simp only [UInt32.le_iff_toNat_le, Char.toNat]
  split
  · rename_i h
    have hlower : 97 ≤ c.val.toNat ∧ c.val.toNat ≤ 122 := by simpa using h
    have hshift : ('A'.val - 'a'.val).toNat = 4294967264 := by decide
    rw [if_pos hlower, UInt32.toNat_add, hshift]
    omega
  · rename_i h
    rw [if_neg (by simpa using h)]

private theorem toNat_toLower (c : Char) :
    c.toLower.toNat = if 65 ≤ c.toNat ∧ c.toNat ≤ 90 then c.toNat + 32 else c.toNat := by
  delta Char.toLower
  simp only [UInt32.le_iff_toNat_le, Char.toNat]
  split
  · rename_i h
    have hupper : 65 ≤ c.val.toNat ∧ c.val.toNat ≤ 90 := by simpa using h
    have hshift : ('a'.val - 'A'.val).toNat = 32 := by decide
    rw [if_pos hupper, UInt32.toNat_add, hshift]
    omega
  · rename_i h
    rw [if_neg (by simpa using h)]

private theorem toUpper_toUpper (c : Char) : c.toUpper.toUpper = c.toUpper := by
  apply Char.toNat_inj.mp
  rw [toNat_toUpper, toNat_toUpper]
  split_ifs <;> omega

private theorem toLower_toUpper (c : Char) : c.toUpper.toLower = c.toLower := by
  apply Char.toNat_inj.mp
  rw [toNat_toLower, toNat_toLower, toNat_toUpper]
  split_ifs <;> omega

private theorem toUpper_toLower (c : Char) : c.toLower.toUpper = c.toUpper := by
  apply Char.toNat_inj.mp
  rw [toNat_toUpper, toNat_toUpper, toNat_toLower]
  split_ifs <;> omega

@[simp] theorem upper_upper (s : String) : upper (upper s) = upper s := by
  simp [upper, Function.comp_def, toUpper_toUpper]

@[simp] theorem lower_upper (s : String) : lower (upper s) = lower s := by
  simp [upper, lower, Function.comp_def, toLower_toUpper]

@[simp] theorem upper_lower (s : String) : upper (lower s) = upper s := by
  simp [upper, lower, Function.comp_def, toUpper_toLower]

theorem upper_eq_iff {a b : String} : upper a = upper b ↔ lower a = lower b := by
  constructor
  · intro h
    have hl := congrArg lower h
    rwa [lower_upper, lower_upper] at hl
  · intro h
    have hu := congrArg upper h
    rwa [upper_lower, upper_lower] at hu

/-- A character that is no letter. -/
def Caseless (c : Char) : Prop := c.toUpper = c ∧ c.toLower = c

instance (c : Char) : Decidable (Caseless c) := inferInstanceAs (Decidable (_ ∧ _))

private theorem toUpper_eq_iff {x c : Char} (hc : Caseless c) : x.toUpper = c ↔ x = c := by
  constructor
  · intro h
    have hlower := toLower_toUpper x
    have hx : x.toLower = c := by rw [← hlower, h, hc.2]
    apply Char.toNat_inj.mp
    have hu := congrArg Char.toNat h
    have hl := congrArg Char.toNat hx
    rw [toNat_toUpper] at hu
    rw [toNat_toLower] at hl
    split_ifs at hu hl <;> omega
  · rintro rfl
    exact hc.1

theorem mem_upper {c : Char} (hc : Caseless c) (s : String) :
    c ∈ (upper s).toList ↔ c ∈ s.toList := by
  rw [upper, String.toList_ofList, List.mem_map]
  constructor
  · rintro ⟨x, hx, hxc⟩
    rwa [(toUpper_eq_iff hc).mp hxc] at hx
  · intro h
    exact ⟨c, h, hc.1⟩

theorem mem_lower {c : Char} (hc : Caseless c) (s : String) :
    c ∈ (lower s).toList ↔ c ∈ s.toList := by
  rw [← mem_upper hc, upper_lower, mem_upper hc]

private theorem mem_dropWhile {p : Char → Bool} {c : Char} (hc : ¬ p c) {l : List Char} (h : c ∈ l) :
    c ∈ l.dropWhile p := by
  induction l with
  | nil => exact h
  | cons x l ih =>
    rw [List.dropWhile_cons]
    split
    · rename_i hx
      rcases List.mem_cons.mp h with rfl | h
      · exact absurd hx hc
      · exact ih h
    · exact h

/-- Only blanks are stripped. -/
theorem mem_strip {c : Char} (hc : ¬ isSpace c) {s : String} (h : c ∈ s.toList) :
    c ∈ (strip s).toList := by
  rw [strip, String.toList_ofList, List.mem_reverse]
  apply mem_dropWhile hc
  rw [List.mem_reverse]
  exact mem_dropWhile hc h

theorem strip_toList (s : String) : (strip s).toList = (s.toList.dropWhile isSpace).rdropWhile isSpace := by
  rw [strip, String.toList_ofList]
  rfl

@[simp] theorem strip_strip (s : String) : strip (strip s) = strip s := by
  apply String.toList_inj.mp
  rw [strip_toList, strip_toList]
  have hfront : ((s.toList.dropWhile isSpace).rdropWhile isSpace).dropWhile isSpace =
      (s.toList.dropWhile isSpace).rdropWhile isSpace := by
    apply List.dropWhile_eq_self_iff.mpr
    intro hlen
    have hfront := List.rdropWhile_prefix isSpace (l := s.toList.dropWhile isSpace)
    rw [hfront.getElem hlen]
    exact List.dropWhile_eq_self_iff.mp (List.dropWhile_idempotent isSpace s.toList) _
  rw [hfront, List.rdropWhile_idempotent isSpace]

def joined (sep : Char) (a b : String) : String := String.ofList (a.toList ++ sep :: b.toList)

theorem toList_joined (sep : Char) (a b : String) : (joined sep a b).toList = a.toList ++ sep :: b.toList := by
  rw [joined, String.toList_ofList]

private theorem append_cons_inj {sep : Char} {a b x y : List Char} (hx : sep ∉ x) (hy : sep ∉ y)
    (h : a ++ sep :: x = b ++ sep :: y) : a = b ∧ x = y := by
  induction a generalizing b with
  | nil =>
    cases b with
    | nil =>
      rw [List.nil_append, List.nil_append, List.cons.injEq] at h
      exact ⟨rfl, h.2⟩
    | cons c b =>
      rw [List.nil_append, List.cons_append, List.cons.injEq] at h
      exact absurd (h.2 ▸ List.mem_append_right b List.mem_cons_self) hx
  | cons c a ih =>
    cases b with
    | nil =>
      rw [List.nil_append, List.cons_append, List.cons.injEq] at h
      exact absurd (h.2 ▸ List.mem_append_right a List.mem_cons_self) hy
    | cons d b =>
      rw [List.cons_append, List.cons_append, List.cons.injEq] at h
      obtain ⟨rfl, hxy⟩ := ih h.2
      exact ⟨by rw [h.1], hxy⟩

/-- Where the second field has no separator, the joined text gives both back. -/
theorem joined_inj {sep : Char} {a b x y : String} (hx : sep ∉ x.toList) (hy : sep ∉ y.toList)
    (h : joined sep a x = joined sep b y) : a = b ∧ x = y := by
  obtain ⟨hab, hxy⟩ := append_cons_inj hx hy (String.ofList_injective h)
  exact ⟨String.toList_inj.mp hab, String.toList_inj.mp hxy⟩

-- texts are compared by the lemmas above, never by their characters
attribute [irreducible] upper lower strip joined

end Droid.Lib.Text
