import DocForms.Schema.Address
import DocForms.Schema.Name
import Mathlib.Data.List.Basic
import Mathlib.Data.Set.Operations
import Std.Data.String.ToNat

/-! The keys of places. Names have neither dots nor brackets in them, so the key of a place says
which place it is. -/
namespace DocForms

/-- The characters that separate names in keys. -/
def isSeparator (c : Char) : Bool := c == '.' || c == '[' || c == ']'

theorem isLowerLetter_not_separator {c : Char} (h : isLowerLetter c = true) :
    isSeparator c = false := by
  simp only [isLowerLetter, Bool.and_eq_true, decide_eq_true_eq] at h
  simp only [isSeparator, Bool.or_eq_false_iff, beq_eq_false_iff_ne]
  refine ⟨⟨?_, ?_⟩, ?_⟩ <;> (rintro rfl; revert h; decide)

theorem isDigit_not_separator {c : Char} (h : c.isDigit = true) : isSeparator c = false := by
  simp only [isSeparator, Bool.or_eq_false_iff, beq_eq_false_iff_ne]
  refine ⟨⟨?_, ?_⟩, ?_⟩ <;> (rintro rfl; revert h; decide)

theorem isNameChar_not_separator {c : Char} (h : isNameChar c = true) : isSeparator c = false := by
  simp only [isNameChar, Bool.or_eq_true, beq_iff_eq] at h
  rcases h with (h | h) | rfl
  · exact isLowerLetter_not_separator h
  · exact isDigit_not_separator h
  · decide

/-- No separator is in a text. -/
def Unbroken (s : String) : Prop := ∀ c, isSeparator c = true → c ∉ s.toList

/-- No separator is in a name. -/
theorem isName_not_mem {s : String} (h : isName s = true) {c : Char} (hc : isSeparator c = true) :
    c ∉ s.toList := by
  intro hmem
  unfold isName at h
  split at h
  · cases h
  · rename_i d ds hs
    rw [Bool.and_eq_true, List.all_eq_true] at h
    rw [hs] at hmem
    have hno : isSeparator c = false := by
      rcases List.mem_cons.mp hmem with rfl | hmem
      · exact isLowerLetter_not_separator h.1
      · exact isNameChar_not_separator (h.2 c hmem)
    simp [hno] at hc

theorem repr_not_mem (n : Nat) {c : Char} (hc : isSeparator c = true) : c ∉ n.repr.toList := by
  intro hmem
  rw [Nat.toList_repr] at hmem
  have hno := isDigit_not_separator (Nat.isDigit_of_mem_toDigits (by decide) (by decide) hmem)
  simp [hno] at hc

namespace Address

/-- The places whose names are proper ones. -/
def Proper : Address → Prop
  | .top field => isName field
  | .member group field => isName group ∧ isName field
  | .cell group _ field => isName group ∧ isName field

/-- Every name in a place has a property. -/
def EveryName (p : String → Prop) : Address → Prop
  | .top field => p field
  | .member group field => p group ∧ p field
  | .cell group _ field => p group ∧ p field

theorem EveryName.imp {p q : String → Prop} {a : Address} (h : a.EveryName p)
    (hpq : ∀ s, p s → q s) : a.EveryName q := by
  cases a with
  | top => exact hpq _ h
  | member => exact ⟨hpq _ h.1, hpq _ h.2⟩
  | cell => exact ⟨hpq _ h.1, hpq _ h.2⟩

theorem Proper.everyName {a : Address} (h : a.Proper) : a.EveryName fun s => isName s = true := by
  cases a <;> exact h

theorem Proper.unbroken {a : Address} (h : a.Proper) : a.EveryName Unbroken :=
  h.everyName.imp fun _ hs _ => isName_not_mem hs

theorem key_top (field : String) : (top field).key.toList = field.toList := rfl

theorem key_member (group field : String) :
    (member group field).key.toList = group.toList ++ '.' :: field.toList := by
  simp [key, memberKey]

theorem key_cell (group : String) (row : Nat) (field : String) : (cell group row field).key.toList =
    group.toList ++ '[' :: (row.repr.toList ++ ']' :: '.' :: field.toList) := by
  simp [key, memberKey]

/-- A key without a dot is that of an ungrouped field. -/
theorem eq_top_of_key {a : Address} (h : '.' ∉ a.key.toList) : a = .top a.key := by
  cases a with
  | top f => rfl
  | member g f => exact absurd (by simp [key_member]) h
  | cell g i f => exact absurd (by simp [key_cell]) h

/-- How many names of groups and rows lead to a place. -/
def depth : Address → Nat
  | .top _ => 0
  | .member _ _ => 1
  | .cell _ _ _ => 2

/-- The separators in a key tell how deep its place is. -/
theorem depth_eq {a : Address} (ha : a.EveryName Unbroken) : a.depth =
    (if '.' ∈ a.key.toList then 1 else 0) + if '[' ∈ a.key.toList then 1 else 0 := by
  cases a with
  | top f =>
    have hdot := ha '.' rfl
    have hopen := ha '[' rfl
    rw [key_top, if_neg hdot, if_neg hopen, depth]
  | member g f =>
    have hg := ha.1 '[' rfl
    have hf := ha.2 '[' rfl
    rw [key_member, if_pos (by simp), if_neg (by simp [hg, hf]), depth]
  | cell g i f => rw [key_cell, if_pos (by simp), if_pos (by simp), depth]

/-- Different places have different keys, if no separator is in a name. -/
theorem key_injOn : Set.InjOn key {a | a.EveryName Unbroken} := by
  intro a ha b hb h
  have hd : a.depth = b.depth := by rw [depth_eq ha, depth_eq hb, h]
  have h : a.key.toList = b.key.toList := congrArg String.toList h
  cases a with
  | top f =>
    cases b with
    | top f' =>
      rw [key_top, key_top, String.toList_inj] at h
      rw [h]
    | member => cases hd
    | cell => cases hd
  | member g f =>
    cases b with
    | top => cases hd
    | member g' f' =>
      rw [key_member, key_member, List.append_cons_inj_of_notMem (ha.1 _ rfl) (ha.2 _ rfl)] at h
      rw [String.toList_inj.mp h.1, String.toList_inj.mp h.2.2]
    | cell => cases hd
  | cell g i f =>
    cases b with
    | top => cases hd
    | member => cases hd
    | cell g' i' f' =>
      have hf (c : Char) (hc : isSeparator c = true) (hne : c ≠ '.') : c ∉ '.' :: f.toList := by
        rw [List.mem_cons, not_or]
        exact ⟨hne, ha.2 c hc⟩
      have hrow : '[' ∉ i.repr.toList ++ ']' :: '.' :: f.toList := by
        rw [List.mem_append, List.mem_cons, not_or, not_or]
        exact ⟨repr_not_mem i rfl, by decide, hf '[' rfl (by decide)⟩
      rw [key_cell, key_cell, List.append_cons_inj_of_notMem (ha.1 _ rfl) hrow,
        List.append_cons_inj_of_notMem (repr_not_mem i rfl) (hf ']' rfl (by decide))] at h
      obtain ⟨hg, -, hi, -, hf⟩ := h
      rw [String.toList_inj.mp hg, Nat.repr_injective (String.toList_inj.mp hi),
        String.toList_inj.mp (List.cons.inj hf).2]

theorem eq_of_key_eq {a b : Address} (ha : a.Proper) (hb : b.Proper) (h : a.key = b.key) : a = b :=
  key_injOn ha.unbroken hb.unbroken h

end Address
end DocForms
