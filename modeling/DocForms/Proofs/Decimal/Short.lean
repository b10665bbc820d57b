import Mathlib.Algebra.Ring.Int.Defs
import DocForms.Json.Reader
import DocForms.Proofs.Decimal.Whole

/-! Numbers that are short enough to be written. A number that is read has no more digits than its
text, and the whole part of a binary number has a few hundred at most. -/
namespace DocForms

namespace Decimal
variable {cs : List Char} {ds : List Nat} {n : Int}

/-- The integers that have texts. -/
def Short (n : Int) : Prop := n.natAbs < 10 ^ maxIntegerDigits

theorem Short.neg (h : Short n) : Short (-n) := by
  rwa [Short, Int.natAbs_neg]

theorem short_of_le {m : Nat} (hn : n.natAbs < 10 ^ m) (hm : m ≤ maxIntegerDigits) : Short n :=
  hn.trans_le (Nat.pow_le_pow_right (by decide) hm)

theorem Short.of_le {k m : Nat} (h : Short k) (hm : m ≤ k) : Short m := hm.trans_lt h

theorem short_of_lt_ten (hn : n.natAbs < 10) : Short n :=
  short_of_le (m := 1) (by rwa [Nat.pow_one]) (by decide)

/-- Each further digit of a number makes it ten times as great. -/
theorem foldl_digits_lt {α : Type} {value : α → Nat} {as : List α} (h : ∀ a ∈ as, value a < 10)
    (n : Nat) : as.foldl (fun n a => n * 10 + value a) n < (n + 1) * 10 ^ as.length := by
  induction as generalizing n with
  | nil => simp
  | cons a as ih =>
    have hrest := ih (fun b hb => h b (List.mem_cons_of_mem _ hb)) (n * 10 + value a)
    have hdigit := h a (List.mem_cons_self ..)
    calc (a :: as).foldl (fun n a => n * 10 + value a) n
      _ < (n * 10 + value a + 1) * 10 ^ as.length := hrest
      _ ≤ (n + 1) * 10 * 10 ^ as.length := Nat.mul_le_mul_right _ (by omega)
      _ = (n + 1) * 10 ^ (a :: as).length := by rw [List.length_cons, Nat.pow_succ']; ring

theorem ofDigits_lt (h : ∀ d ∈ ds, d < 10) : ofDigits ds < 10 ^ ds.length := by
  have hlt := @foldl_digits_lt Nat id ds h 0
  rwa [Nat.zero_add, Nat.one_mul] at hlt

theorem digitValue?_lt {c : Char} {d : Nat} (h : Text.digitValue? c = some d) : d < 10 := by
  obtain ⟨s, -, rfl⟩ := Option.map_eq_some_iff.mp h
  exact Nat.mod_lt _ (by decide)

theorem digitRun_lt : ∀ d ∈ (digitRun cs).1, d < 10 := by
  fun_induction digitRun cs with
  | case1 => nofun
  | case2 c d hd => exact List.forall_mem_singleton.mpr (digitValue?_lt hd)
  | case3 c hd => nofun
  | case4 c n rest hd => nofun
  | case5 c n rest d hd hn tail htail ih => exact List.forall_mem_singleton.mpr (digitValue?_lt hd)
  | case6 c n rest d hd hn ds tail hne hrest ih =>
    rw [hrest] at ih
    exact List.forall_mem_cons.mpr ⟨digitValue?_lt hd, ih⟩
  | case7 c n rest d hd hn ds tail hrest ih =>
    rw [hrest] at ih
    exact List.forall_mem_cons.mpr ⟨digitValue?_lt hd, ih⟩

theorem short_signed {neg : Bool} {m : Nat} (h : Short m) :
    Short (if neg then -(m : Int) else m) := by
  split
  · exact h.neg
  · exact h

/-- A text of too many digits is not read. -/
theorem readInt?_short {s : String} (h : readInt? s = some n) : Short n := by
  unfold readInt? at h
  dsimp only at h
  split at h
  · cases h
  · rename_i ds hrun
    split at h
    · cases h
    · rename_i hlength
      obtain rfl := Option.some.inj h
      have hlt : ∀ d ∈ (digitRun (takeSign (Text.trimEnds isPadding s.toList)).2).1, d < 10 :=
        digitRun_lt
      rw [hrun] at hlt
      exact short_signed (short_of_le (ofDigits_lt hlt) (Nat.not_lt.mp hlength))
  · cases h

end Decimal

namespace Binary64
variable {x : Binary64} {m n d e k : Nat}

/-- The whole part of the number, if it is finite, has a text. -/
def Short (x : Binary64) : Prop := ∀ z ∈ x.truncate?, Decimal.Short z

theorem two_pow_lt (k : Nat) : 2 ^ k < 10 ^ (k + 1) :=
  calc 2 ^ k
    _ ≤ 10 ^ k := Nat.pow_le_pow_left (by decide) k
    _ < 10 ^ (k + 1) := Nat.pow_lt_pow_right (by decide) (Nat.lt_succ_self k)

theorem shifted_le {top : Nat} (hm : m ≤ 2 ^ k) (he : e ≤ top) : m * 2 ^ e ≤ 2 ^ (k + top) :=
  calc m * 2 ^ e
    _ ≤ 2 ^ k * 2 ^ top := Nat.mul_le_mul hm (Nat.pow_le_pow_right (by decide) he)
    _ = 2 ^ (k + top) := (Nat.pow_add ..).symm

theorem short_finite {neg : Bool} {e : Int} {top : Nat} (hm : m ≤ 2 ^ k) (he : e ≤ top)
    (htop : k + top < Decimal.maxIntegerDigits) : Short (.finite neg m e) := by
  rintro z hz
  obtain rfl := Option.some.inj hz
  refine Decimal.short_signed (Decimal.short_of_le (Nat.lt_of_le_of_lt ?_ (two_pow_lt (k + top))) htop)
  rw [Int.natAbs_natCast]
  split
  · exact shifted_le hm (by omega)
  · calc m / 2 ^ (-e).toNat
      _ ≤ m := Nat.div_le_self ..
      _ ≤ 2 ^ k := hm
      _ ≤ 2 ^ (k + top) := Nat.pow_le_pow_right (by decide) (Nat.le_add_right ..)

theorem short_rounded {neg : Bool} {e : Int} (hm : m ≤ 2 ^ 54) (he : ¬ maxExponent < e) :
    Short (.finite neg m e) :=
  short_finite hm (Int.not_lt.mp he) (by decide)

theorem short_zero (neg : Bool) : Short (zero neg) :=
  short_rounded (Nat.zero_le _) (by decide)

/-- The fraction that is rounded to the mantissa is less than two to this power. -/
theorem scaled_lt (hd : d ≠ 0) {e : Int}
    (he : (Nat.log2 n : Int) - Nat.log2 d - 53 ≤ e) :
    (scaleBy n d e).1 / (scaleBy n d e).2 < 2 ^ 54 := by
  have hhigh : n < 2 ^ (Nat.log2 n + 1) := Nat.lt_log2_self
  have hlow : 2 ^ Nat.log2 d ≤ d := Nat.log2_self_le hd
  unfold scaleBy
  split
  · have hpos : 0 < d * 2 ^ e.toNat := Nat.mul_pos (Nat.pos_of_ne_zero hd) (Nat.two_pow_pos _)
    refine (Nat.div_lt_iff_lt_mul hpos).mpr ?_
    calc n
      _ < 2 ^ (Nat.log2 n + 1) := hhigh
      _ ≤ 2 ^ (54 + (Nat.log2 d + e.toNat)) := Nat.pow_le_pow_right (by decide) (by omega)
      _ = 2 ^ 54 * (2 ^ Nat.log2 d * 2 ^ e.toNat) := by rw [Nat.pow_add, Nat.pow_add]
      _ ≤ 2 ^ 54 * (d * 2 ^ e.toNat) := Nat.mul_le_mul_left _ (Nat.mul_le_mul_right _ hlow)
  · refine (Nat.div_lt_iff_lt_mul (Nat.pos_of_ne_zero hd)).mpr ?_
    calc n * 2 ^ (-e).toNat
      _ < 2 ^ (Nat.log2 n + 1) * 2 ^ (-e).toNat :=
        Nat.mul_lt_mul_of_pos_right hhigh (Nat.two_pow_pos _)
      _ = 2 ^ (Nat.log2 n + 1 + (-e).toNat) := (Nat.pow_add ..).symm
      _ ≤ 2 ^ (54 + Nat.log2 d) := Nat.pow_le_pow_right (by decide) (by omega)
      _ = 2 ^ 54 * 2 ^ Nat.log2 d := Nat.pow_add ..
      _ ≤ 2 ^ 54 * d := Nat.mul_le_mul_left _ hlow

theorem le_exponentOf (n d : Nat) : (Nat.log2 n : Int) - Nat.log2 d - 53 ≤ exponentOf n d := by
  unfold exponentOf
  dsimp only
  split <;> omega

theorem short_ofFraction (neg : Bool) (n d : Nat) : Short (ofFraction neg n d) := by
  unfold ofFraction
  split
  · exact short_zero neg
  · rename_i hzero
    have hd : d ≠ 0 := by
      rintro rfl
      simp at hzero
    have hquotient := scaled_lt hd (le_exponentOf n d)
    dsimp only
    generalize scaleBy n d (exponentOf n d) = scaled at hquotient
    have hround := roundHalfEven_cases scaled.1 scaled.2
    split
    · split
      · nofun
      · rename_i hle
        exact short_rounded (Nat.pow_le_pow_right (by decide) (by decide)) hle
    · split
      · nofun
      · rename_i hle
        exact short_rounded (by omega) hle

/-- A decimal that is too great is read as infinity. -/
theorem short_ofDecimal (neg : Bool) (digits : Nat) (power : Int) :
    Short (ofDecimal neg digits power) := by
  unfold ofDecimal
  split
  · exact short_zero neg
  · dsimp only
    split
    · nofun
    · split
      · exact short_zero neg
      · split
        · exact short_ofFraction _ _ _
        · exact short_ofFraction _ _ _

end Binary64
end DocForms
