import DocForms.Proofs.Decimal.Whole
import DocForms.Proofs.Rendering.Showing
import DocForms.Proofs.Value.Written
import Std.Data.String.ToInt

/-! How integers are displayed. An integer is displayed in all its digits. The text of an integer is
read as a binary number before it is displayed, so that its digits after the first 53 bits are those
of the nearest binary number. -/
namespace DocForms

namespace Decimal
open Text
variable {cs : List Char} {c : Char}

theorem integerText_toList (n : Int) :
    (integerText n).toList = (if n < 0 then ['-'] else []) ++ Nat.toDigits 10 n.natAbs := by
  cases n with
  | ofNat n =>
    have hn : ¬ Int.ofNat n < 0 := Int.not_lt.mpr (Int.natCast_nonneg n)
    rw [if_neg hn]
    exact String.toList_ofList
  | negSucc n =>
    rw [if_pos (Int.negSucc_lt_zero n)]
    exact (String.toList_append ..).trans (congrArg _ String.toList_ofList)

theorem isDigit_of_mem {n : Nat} (hc : c ∈ Nat.toDigits 10 n) : c.isDigit = true :=
  Nat.isDigit_of_mem_toDigits (by decide) (by decide) hc

theorem exists_digitChar (hc : c.isDigit = true) : ∃ d < 10, c = Nat.digitChar d :=
  ⟨_, Iso.eq_digitChar (if_pos (Char.isDigit_iff_toNat.mp hc))⟩

/-- The text of an integer ends in a digit. -/
theorem integerText_ne {n : Int} {s : String} (hs : s.toList.getLast?.any Char.isDigit = false) :
    integerText n ≠ s := by
  rintro rfl
  have hne : Nat.toDigits 10 n.natAbs ≠ [] := Nat.toDigits_ne_nil
  rw [integerText_toList, List.getLast?_append_of_ne_nil _ hne, List.getLast?_eq_some_getLast hne,
    Option.any_some, isDigit_of_mem (List.getLast_mem hne)] at hs
  cases hs

theorem integerText_inj {a b : Int} : integerText a = integerText b ↔ a = b := by
  rw [integerText, integerText, Int.toString_eq_repr, Int.toString_eq_repr]
  exact Int.repr_inj

theorem written_integerText {n : Int} (hc : c ∈ (integerText n).toList) : Iso.Written c := by
  rw [integerText_toList, List.mem_append] at hc
  rcases hc with hc | hc
  · split at hc
    · obtain rfl := List.mem_singleton.mp hc
      exact .inl (by decide)
    · cases hc
  · exact .inr (exists_digitChar (isDigit_of_mem hc))

theorem trim_integerText (n : Int) : trim (integerText n) = integerText n := by
  rw [trim, trimChars_of_written fun _ => written_integerText, String.ofList_toList]

theorem takeSign_of_isDigit (hc : c.isDigit = true) : takeSign (c :: cs) = (false, c :: cs) := by
  unfold takeSign
  split
  · rename_i heq
    obtain ⟨rfl, -⟩ := List.cons.inj heq
    cases hc
  · rename_i heq
    obtain ⟨rfl, -⟩ := List.cons.inj heq
    cases hc
  · rfl

theorem toLower_of_isDigit (hc : c.isDigit = true) : c.toLower = c := by
  obtain ⟨d, hd, rfl⟩ := exists_digitChar hc
  interval_cases d <;> rfl

/-- No number has a name that begins with a digit. -/
theorem readName?_of_isDigit (neg : Bool) (hc : c.isDigit = true) :
    readName? neg (c :: cs) = none := by
  have hne {s : String} (hs : s.toList.head?.any Char.isDigit = false) :
      String.ofList ((c :: cs).map Char.toLower) ≠ s := by
    rintro rfl
    rw [String.toList_ofList, List.map_cons, toLower_of_isDigit hc] at hs
    exact Bool.false_ne_true (hs.symm.trans hc)
  unfold readName?
  split
  · rename_i heq
    exact absurd heq (hne (by decide))
  · rename_i heq
    exact absurd heq (hne (by decide))
  · rename_i heq
    exact absurd heq (hne (by decide))
  · rfl

theorem readUnsigned?_toDigits (neg : Bool) (n : Nat) :
    readUnsigned? neg (Nat.toDigits 10 n) = some (Binary64.ofDecimal neg n 0) := by
  obtain ⟨ds, hdigits, hne, hvalue⟩ := digits_toDigits n
  have hwhole : ds.isEmpty = false := List.isEmpty_eq_false_iff.mpr hne
  unfold readUnsigned?
  rw [digitRun_of_digits hdigits]
  simp [hwhole, readExponent?, hvalue]

/-- The text of an integer is read as the decimal that it is. -/
theorem readFloat?_integerText (n : Int) :
    readFloat? (integerText n) = some (Binary64.ofDecimal (n < 0) n.natAbs 0) := by
  obtain ⟨c, cs, hcs⟩ := List.exists_cons_of_ne_nil (Nat.toDigits_ne_nil (n := n.natAbs) (b := 10))
  have hc : c.isDigit = true := isDigit_of_mem (hcs ▸ List.mem_cons_self)
  have hpadding {c : Char} (hc : c ∈ (integerText n).toList) : isPadding c = false := by
    rw [isPadding, isBlank_written (written_integerText hc), Bool.false_and]
  have hsign : takeSign (trimEnds isPadding (integerText n).toList) =
      (decide (n < 0), Nat.toDigits 10 n.natAbs) := by
    rw [trimEnds_of_none fun _ => hpadding, integerText_toList]
    split
    · rename_i hn
      rw [decide_eq_true hn]
      rfl
    · rename_i hn
      rw [decide_eq_false hn, hcs]
      exact takeSign_of_isDigit hc
  unfold readFloat?
  rw [hsign]
  dsimp only
  rw [readUnsigned?_toDigits, hcs, readName?_of_isDigit _ hc]
  rfl

end Decimal

namespace Rendering
open Binary64
variable {x : Binary64} {z n : Int}

theorem floatText_whole (h : Whole x z) : floatText x = integerText z := by
  obtain ⟨hinteger, htruncate⟩ := h
  rw [floatText, hinteger, htruncate]

/-- The text of an integer is displayed as the nearest binary number. -/
theorem numeral_integerText (n : Int) : numeral (integerText n) =
    if nearest n.natAbs < 2 ^ width then integerText (signed (n < 0) (nearest n.natAbs))
    else if n < 0 then "-inf" else "inf" := by
  obtain ⟨hfinite, hinfinite⟩ := ofDecimal_zero (decide (n < 0)) n.natAbs
  have hne : integerText n ≠ "" := Decimal.integerText_ne (by decide)
  have hread : numeral (integerText n) =
      floatText (ofDecimal (decide (n < 0)) n.natAbs 0) := by
    rw [numeral, if_neg hne, Decimal.trim_integerText, Decimal.readFloat?_integerText]
  rw [hread]
  split
  · rename_i hlt
    exact floatText_whole (hfinite hlt)
  · rename_i hge
    rw [hinfinite (Nat.not_lt.mp hge)]
    by_cases hn : n < 0
    · rw [decide_eq_true hn, if_pos hn]
      rfl
    · rw [decide_eq_false hn, if_neg hn]
      rfl

theorem signed_eq_iff {m : Nat} : signed (n < 0) m = n ↔ m = n.natAbs := by
  unfold signed
  split
  · rename_i hn
    have hn : n < 0 := decide_eq_true_eq.mp hn
    omega
  · rename_i hn
    have hn : ¬ n < 0 := fun h => hn (decide_eq_true h)
    omega

theorem numeral_integerText_eq_iff : numeral (integerText n) = integerText n ↔ Exact n.natAbs := by
  rw [numeral_integerText, exact_iff]
  split
  · rename_i hlt
    rw [Decimal.integerText_inj, signed_eq_iff]
    exact ⟨fun hsame => ⟨hsame, hsame ▸ hlt⟩, fun h => h.1⟩
  · rename_i hge
    refine iff_of_false ?_ fun h => hge (h.1.symm ▸ h.2)
    split
    · exact (Decimal.integerText_ne (by decide)).symm
    · exact (Decimal.integerText_ne (by decide)).symm

theorem render_number {f : Field} {v : Value} (hkind : f.kind = .number) (hv : v.isNull = false) :
    Renderers.standard.render v (some f) = number v := by
  rw [Renderers.render, hv, hkind]
  rfl

theorem number_int (n : Int) : number (.int n) = shown (.int n) := rfl

theorem number_text (s : String) : number (.text s) = .ok (numeral s) := rfl

/-- In a number field an integer that has a text is displayed in all its digits, and no other is
displayed. The text of an integer is displayed so just if the integer is a binary number. Any other
text of an integer is displayed as the nearest binary number, or as infinity. -/
theorem integer_displayed_iff {f : Field} (hkind : f.kind = .number) (n : Int) :
    ((Value.int n).hasText = true →
      Renderers.standard.render (.int n) (some f) = .ok (integerText n)) ∧
    ((Value.int n).hasText = false →
      Renderers.standard.render (.int n) (some f) = .error (.misuse .content)) ∧
    Renderers.standard.render (.text (integerText n)) (some f) =
      .ok (if nearest n.natAbs < 2 ^ width then integerText (signed (n < 0) (nearest n.natAbs))
      else if n < 0 then "-inf" else "inf") ∧
    (Renderers.standard.render (.text (integerText n)) (some f) = .ok (integerText n) ↔
      Exact n.natAbs) := by
  rw [render_number hkind rfl, render_number hkind rfl, number_int, number_text, Except.ok.injEq,
    Except.ok.injEq]
  refine ⟨fun h => ?_, fun h => ?_, numeral_integerText n, numeral_integerText_eq_iff⟩
  · exact Value.written_of_hasText _ h
  · exact Value.written_of_not_hasText _ h

/-- A field for a number. -/
def amountField : Field :=
  { id := "a", typeId := "t", name := "amount", label := "Amount", kind := .number }

theorem million_displayed : amountField.kind = .number ∧ Exact 1250000 ∧
    Renderers.standard.render (.text "1250000") (some amountField) = .ok "1250000" := by
  have hexact : Exact 1250000 := exact_of_le (by decide)
  have hshown := ((integer_displayed_iff (f := amountField) rfl 1250000).2.2.2).mpr hexact
  rw [show integerText 1250000 = "1250000" by decide +kernel] at hshown
  exact ⟨rfl, hexact, hshown⟩

/-- The first integer that loses its last digit when it is stored as a text. -/
theorem lost_digit : let n : Int := 2 ^ 53 + 1
    integerText n = "9007199254740993" ∧
    Renderers.standard.render (.int n) (some amountField) = .ok "9007199254740993" ∧
    Renderers.standard.render (.text (integerText n)) (some amountField) =
      .ok "9007199254740992" := by
  decide +kernel

/-- Integers of at most 53 bits are displayed alike, however they are stored. -/
theorem small_integer_displayed {f : Field} (hkind : f.kind = .number) (h : n.natAbs ≤ 2 ^ 53) :
    Renderers.standard.render (.text (integerText n)) (some f) =
      Renderers.standard.render (.int n) (some f) := by
  have htext : (Value.int n).hasText = true := by
    have hlt : n.natAbs < 10 ^ 16 := h.trans_lt (by decide)
    exact Value.hasText_int.mpr (hlt.trans_le (Nat.pow_le_pow_right (by decide) (by decide)))
  rw [render_number hkind rfl, render_number hkind rfl, number_text, number_int,
    numeral_integerText_eq_iff.mpr (exact_of_le h)]
  exact (Value.written_of_hasText _ htext).symm

end Rendering
end DocForms
