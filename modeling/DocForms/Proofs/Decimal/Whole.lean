import Mathlib.Algebra.Ring.Int.Defs
import DocForms.Decimal.Reader
import DocForms.Proofs.Calendar.Days

/-! Whole numbers as binary numbers. The text of a whole number is read as the nearest number with 53
significant bits, and that is the whole number itself just if its further bits are zeros and it does
not lie beyond the finite numbers. -/
namespace DocForms

namespace Binary64

/-- Every finite number is less than two to this power. -/
def width : Nat := 1024

/-- How many bits a number has after its first 53. -/
def excess (n : Nat) : Nat := Nat.log2 n - 52

/-- A number with its first 53 bits only, rounded at the last of them, a half going to the even
neighbour. -/
def nearest (n : Nat) : Nat := roundHalfEven n (2 ^ excess n) * 2 ^ excess n

/-- The whole numbers that are finite binary numbers. -/
def Exact (n : Nat) : Prop := ∃ m < 2 ^ 53, ∃ e ≤ 971, n = m * 2 ^ e

variable {n d m e : Nat}

/-! ### Rounding -/

theorem roundHalfEven_cases (n d : Nat) :
    roundHalfEven n d = n / d ∨ roundHalfEven n d = n / d + 1 := by
  have hparity : n / d % 2 < 2 := Nat.mod_lt _ (by decide)
  unfold roundHalfEven
  dsimp only
  split
  · exact .inl rfl
  · split
    · exact .inr rfl
    · omega

theorem roundHalfEven_mul (hd : 0 < d) (m : Nat) : roundHalfEven (m * d) d = m := by
  have hrest : m * d % d = 0 := Nat.mul_mod_left m d
  have hquotient : m * d / d = m := Nat.mul_div_cancel m hd
  unfold roundHalfEven
  dsimp only
  rw [hrest, hquotient, if_pos (by omega)]

theorem excess_le (hm : m < 2 ^ 53) : excess (m * 2 ^ e) ≤ e := by
  by_cases hzero : m * 2 ^ e = 0
  · rw [hzero]
    exact Nat.zero_le e
  · have hlt : m * 2 ^ e < 2 ^ (53 + e) := by
      rw [Nat.pow_add]
      exact Nat.mul_lt_mul_of_pos_right hm (Nat.two_pow_pos e)
    have hlog := (Nat.log2_lt hzero).mpr hlt
    unfold excess
    omega

/-- A number that has 53 significant bits is not changed. -/
theorem nearest_of_bits (hm : m < 2 ^ 53) : nearest (m * 2 ^ e) = m * 2 ^ e := by
  obtain ⟨k, hk⟩ : ∃ k, e = k + excess (m * 2 ^ e) :=
    ⟨e - excess (m * 2 ^ e), by have := excess_le (e := e) hm; omega⟩
  have hsplit : m * 2 ^ e = m * 2 ^ k * 2 ^ excess (m * 2 ^ e) := by
    rw [Nat.mul_assoc, ← Nat.pow_add, ← hk]
  calc nearest (m * 2 ^ e)
    _ = roundHalfEven (m * 2 ^ k * 2 ^ excess (m * 2 ^ e)) (2 ^ excess (m * 2 ^ e)) *
        2 ^ excess (m * 2 ^ e) := by rw [← hsplit, nearest]
    _ = m * 2 ^ k * 2 ^ excess (m * 2 ^ e) := by rw [roundHalfEven_mul (Nat.two_pow_pos _)]
    _ = m * 2 ^ e := hsplit.symm

/-- The mantissa of a number with more than 53 bits. -/
theorem mantissa_bounds (h : 52 < Nat.log2 n) :
    2 ^ 52 ≤ roundHalfEven n (2 ^ excess n) ∧ roundHalfEven n (2 ^ excess n) ≤ 2 ^ 53 := by
  have hn : n ≠ 0 := by
    rintro rfl
    simp at h
  have hlow : 2 ^ (52 + excess n) ≤ n := by
    have hself := Nat.log2_self_le hn
    rwa [show 52 + excess n = Nat.log2 n by unfold excess; omega]
  have hhigh : n < 2 ^ (53 + excess n) := by
    have hself := Nat.lt_log2_self (n := n)
    rwa [show 53 + excess n = Nat.log2 n + 1 by unfold excess; omega]
  have hpos := Nat.two_pow_pos (excess n)
  rw [Nat.pow_add] at hlow hhigh
  have hfloor := (Nat.le_div_iff_mul_le hpos).mpr hlow
  have hceil := (Nat.div_lt_iff_lt_mul hpos).mpr hhigh
  rcases roundHalfEven_cases n (2 ^ excess n) with h | h <;> omega

theorem le_nearest (h : 2 ^ width ≤ n) : 2 ^ width ≤ nearest n := by
  have hn : n ≠ 0 := by
    rintro rfl
    exact absurd h (Nat.not_le.mpr (Nat.two_pow_pos width))
  have hlog : width ≤ Nat.log2 n := (Nat.le_log2 hn).mpr h
  unfold width at hlog
  obtain ⟨hmantissa, -⟩ := mantissa_bounds (n := n) (by omega)
  calc 2 ^ width
    _ ≤ 2 ^ (52 + excess n) := Nat.pow_le_pow_right (by decide) (by unfold width excess; omega)
    _ = 2 ^ 52 * 2 ^ excess n := Nat.pow_add ..
    _ ≤ nearest n := Nat.mul_le_mul_right _ hmantissa

theorem shifted_lt (hm : m < 2 ^ 53) (he : 53 + e ≤ width) : m * 2 ^ e < 2 ^ width := by
  calc m * 2 ^ e
    _ < 2 ^ 53 * 2 ^ e := Nat.mul_lt_mul_of_pos_right hm (Nat.two_pow_pos e)
    _ = 2 ^ (53 + e) := (Nat.pow_add ..).symm
    _ ≤ 2 ^ width := Nat.pow_le_pow_right (by decide) he

theorem le_shifted (hm : 2 ^ 52 ≤ m) (he : width ≤ 52 + e) : 2 ^ width ≤ m * 2 ^ e := by
  calc 2 ^ width
    _ ≤ 2 ^ (52 + e) := Nat.pow_le_pow_right (by decide) he
    _ = 2 ^ 52 * 2 ^ e := Nat.pow_add ..
    _ ≤ m * 2 ^ e := Nat.mul_le_mul_right _ hm

/-- The exact numbers are those that rounding leaves as they are and that are not too great. -/
theorem exact_iff : Exact n ↔ nearest n = n ∧ n < 2 ^ width := by
  constructor
  · intro h
    obtain ⟨m, hm, e, he, rfl⟩ := h
    exact ⟨nearest_of_bits hm, shifted_lt hm (by unfold width; omega)⟩
  · rintro ⟨hsame, hlt⟩
    by_cases hlog : Nat.log2 n ≤ 52
    · refine ⟨n, ?_, 0, Nat.zero_le _, by simp⟩
      calc n
        _ < 2 ^ (Nat.log2 n + 1) := Nat.lt_log2_self
        _ ≤ 2 ^ 53 := Nat.pow_le_pow_right (by decide) (by omega)
    · obtain ⟨hlow, hhigh⟩ := mantissa_bounds (n := n) (by omega)
      have hn : n ≠ 0 := by
        rintro rfl
        simp at hlog
      have htop : Nat.log2 n < width := (Nat.log2_lt hn).mpr hlt
      unfold width at htop
      rcases Nat.lt_or_eq_of_le hhigh with hbits | hcarry
      · exact ⟨_, hbits, excess n, by unfold excess; omega, hsame.symm⟩
      · -- the mantissa is a power of two, and so is the number
        have hpower : n = 2 ^ 52 * 2 ^ (excess n + 1) := by
          rw [← Nat.pow_add, show 52 + (excess n + 1) = 53 + excess n by omega, Nat.pow_add, ← hcarry]
          exact hsame.symm
        have hexponent : 52 + (excess n + 1) < width := by
          by_contra hle
          have := le_shifted (Nat.le_refl _) (Nat.not_lt.mp hle)
          omega
        unfold width at hexponent
        exact ⟨2 ^ 52, by decide, excess n + 1, by omega, hpower⟩

theorem exact_of_le (h : n ≤ 2 ^ 53) : Exact n := by
  rcases Nat.lt_or_eq_of_le h with hlt | rfl
  · exact ⟨n, hlt, 0, Nat.zero_le _, by simp⟩
  · exact ⟨1, by decide, 53, by decide, by decide⟩

/-! ### Fractions that are whole -/

theorem exponentOf_one (hn : n ≠ 0) : exponentOf n 1 = (Nat.log2 n : Int) - 52 := by
  have hself := Nat.log2_self_le hn
  have hscale : scaleBy n 1 ((Nat.log2 n : Int) - Nat.log2 1) = (n, 2 ^ Nat.log2 n) := by
    rw [show Nat.log2 1 = 0 by rfl]
    simp [scaleBy]
  unfold exponentOf
  dsimp only
  rw [hscale, if_pos hself, show Nat.log2 1 = 0 by rfl]
  unfold minExponent
  omega

section
variable {a b : Nat} (neg : Bool)

theorem ofFraction_bits (hn : n ≠ 0) (hscale : scaleBy n 1 ((Nat.log2 n : Int) - 52) = (a, b))
    (hm : roundHalfEven a b ≠ 2 ^ 53) :
    ofFraction neg n 1 = if 971 < (Nat.log2 n : Int) - 52 then .infinite neg
      else .finite neg (roundHalfEven a b) ((Nat.log2 n : Int) - 52) := by
  unfold ofFraction
  dsimp only
  rw [exponentOf_one hn, hscale, if_neg (by simpa using hn), if_neg hm]
  rfl

theorem ofFraction_carry (hn : n ≠ 0) (hscale : scaleBy n 1 ((Nat.log2 n : Int) - 52) = (a, b))
    (hm : roundHalfEven a b = 2 ^ 53) :
    ofFraction neg n 1 = if 971 < (Nat.log2 n : Int) - 52 + 1 then .infinite neg
      else .finite neg (2 ^ 52) ((Nat.log2 n : Int) - 52 + 1) := by
  unfold ofFraction
  dsimp only
  rw [exponentOf_one hn, hscale, if_neg (by simpa using hn), if_pos hm]
  rfl

end

/-- A number with a sign. -/
def signed (neg : Bool) (n : Nat) : Int := if neg then -(n : Int) else n

/-- The number is an integer. -/
def Whole (x : Binary64) (z : Int) : Prop := x.isInteger = true ∧ x.truncate? = some z

theorem whole_shifted (neg : Bool) (m e : Nat) :
    Whole (.finite neg m (e : Int)) (signed neg (m * 2 ^ e)) := by
  have he : (0 : Int) ≤ e := Int.natCast_nonneg e
  refine ⟨by simp [isInteger], ?_⟩
  rw [truncate?, if_pos he, Int.toNat_natCast]
  rfl

theorem whole_unshifted (neg : Bool) (n k : Nat) :
    Whole (.finite neg (n * 2 ^ k) (-(k : Int))) (signed neg n) := by
  constructor
  · simp [isInteger]
  · have hcut : (if (0 : Int) ≤ -(k : Int) then n * 2 ^ k * 2 ^ (-(k : Int)).toNat
        else n * 2 ^ k / 2 ^ (-(-(k : Int))).toNat) = n := by
      split
      · simp [show k = 0 by omega]
      · rw [Int.neg_neg, Int.toNat_natCast, Nat.mul_div_cancel _ (Nat.two_pow_pos k)]
    rw [truncate?, hcut]
    rfl

theorem whole_zero (neg : Bool) : Whole (zero neg) (signed neg 0) := by
  have hzero := whole_unshifted neg 0 1074
  rwa [Nat.zero_mul] at hzero

theorem nearest_of_log (h : Nat.log2 n ≤ 52) : nearest n = n := by
  have hlt : n < 2 ^ 53 := by
    calc n
      _ < 2 ^ (Nat.log2 n + 1) := Nat.lt_log2_self
      _ ≤ 2 ^ 53 := Nat.pow_le_pow_right (by decide) (by omega)
  have hsame := nearest_of_bits (e := 0) hlt
  rwa [Nat.pow_zero, Nat.mul_one] at hsame

/-- A number of at most 53 bits is shifted until it has 53, and loses none. -/
theorem ofFraction_short (neg : Bool) (hn : n ≠ 0) (hlog : Nat.log2 n ≤ 52) :
    Whole (ofFraction neg n 1) (signed neg n) := by
  have hbits : Nat.log2 n + 1 + (52 - Nat.log2 n) = 53 := by omega
  have hlt : n * 2 ^ (52 - Nat.log2 n) < 2 ^ 53 := by
    rw [← hbits, Nat.pow_add]
    exact Nat.mul_lt_mul_of_pos_right Nat.lt_log2_self (Nat.two_pow_pos _)
  have hexponent : (Nat.log2 n : Int) - 52 = -((52 - Nat.log2 n : Nat) : Int) := by omega
  have hscale : scaleBy n 1 ((Nat.log2 n : Int) - 52) = (n * 2 ^ (52 - Nat.log2 n), 1) := by
    rw [hexponent, scaleBy]
    split
    · simp [show 52 - Nat.log2 n = 0 by omega]
    · simp
  have hround := roundHalfEven_mul (d := 1) (by decide) (n * 2 ^ (52 - Nat.log2 n))
  rw [Nat.mul_one] at hround
  have hvalue := ofFraction_bits neg hn hscale (by rw [hround]; exact Nat.ne_of_lt hlt)
  rw [if_neg (by omega), hround, hexponent] at hvalue
  rw [hvalue]
  exact whole_unshifted neg n _

/-- Of a longer number the bits after the first 53 are rounded away. -/
theorem ofFraction_long (neg : Bool) (hn : n ≠ 0) (hlog : 52 < Nat.log2 n) :
    (nearest n < 2 ^ width → Whole (ofFraction neg n 1) (signed neg (nearest n))) ∧
    (2 ^ width ≤ nearest n → ofFraction neg n 1 = .infinite neg) := by
  have hexponent : (Nat.log2 n : Int) - 52 = (excess n : Int) := by
    unfold excess
    omega
  have hscale : scaleBy n 1 ((Nat.log2 n : Int) - 52) = (n, 2 ^ excess n) := by
    rw [hexponent]
    simp [scaleBy]
  obtain ⟨hlow, hhigh⟩ := mantissa_bounds hlog
  rcases Nat.lt_or_eq_of_le hhigh with hbits | hcarry
  · have hvalue := ofFraction_bits neg hn hscale (Nat.ne_of_lt hbits)
    rw [hvalue, hexponent]
    split
    · refine ⟨fun hlt => ?_, fun _ => rfl⟩
      exact absurd (le_shifted hlow (by unfold width; omega)) (Nat.not_le.mpr hlt)
    · refine ⟨fun _ => whole_shifted neg _ (excess n), fun hle => ?_⟩
      exact absurd (shifted_lt hbits (by unfold width; omega)) (Nat.not_lt.mpr hle)
  · -- rounding gives a power of two, which takes the next exponent
    have hvalue := ofFraction_carry neg hn hscale hcarry
    have hpower : nearest n = 2 ^ 52 * 2 ^ (excess n + 1) := by
      rw [nearest, hcarry, ← Nat.pow_add, ← Nat.pow_add, Nat.add_comm (excess n), ← Nat.add_assoc]
    rw [hvalue, hexponent, hpower]
    split
    · refine ⟨fun hlt => ?_, fun _ => rfl⟩
      exact absurd (le_shifted (Nat.le_refl _) (by unfold width; omega)) (Nat.not_le.mpr hlt)
    · refine ⟨fun _ => whole_shifted neg _ (excess n + 1), fun hle => ?_⟩
      exact absurd (shifted_lt (by decide) (by unfold width; omega)) (Nat.not_lt.mpr hle)

/-- The fraction `n / 1` is read as the nearest number to `n`, if that is finite. -/
theorem ofFraction_one (neg : Bool) (hn : n ≠ 0) :
    (nearest n < 2 ^ width → Whole (ofFraction neg n 1) (signed neg (nearest n))) ∧
    (2 ^ width ≤ nearest n → ofFraction neg n 1 = .infinite neg) := by
  rcases Nat.lt_or_ge 52 (Nat.log2 n) with hlog | hlog
  · exact ofFraction_long neg hn hlog
  · rw [nearest_of_log hlog]
    refine ⟨fun _ => ofFraction_short neg hn hlog, fun hle => ?_⟩
    have htop : width ≤ Nat.log2 n := (Nat.le_log2 hn).mpr hle
    unfold width at htop
    omega

theorem ten_pow_le {k : Nat} (hk : 0 < k) (h : k < (Nat.toDigits 10 n).length) : 10 ^ k ≤ n := by
  have hlength := Nat.not_le.mpr h
  rwa [Nat.length_toDigits_le_iff (by decide) hk, Nat.not_lt] at hlength

/-- A number that is too long to be read digit by digit is not a finite one. -/
theorem two_pow_width_le (h : 310 < (Nat.toDigits 10 n).length) : 2 ^ width ≤ n := by
  have hstep (a b : Nat) : 2 ^ (93 * a + b) ≤ 10 ^ (28 * a + b) := by
    rw [Nat.pow_add, Nat.pow_mul, Nat.pow_add, Nat.pow_mul]
    exact Nat.mul_le_mul (Nat.pow_le_pow_left (by decide) a) (Nat.pow_le_pow_left (by decide) b)
  rw [show width = 93 * 11 + 1 by decide]
  exact Nat.le_trans (hstep 11 1) (ten_pow_le (by decide) (by omega))

/-- The decimal of a whole number is read as the nearest number to it, if that is finite. -/
theorem ofDecimal_zero (neg : Bool) (n : Nat) :
    (nearest n < 2 ^ width → Whole (ofDecimal neg n 0) (signed neg (nearest n))) ∧
    (2 ^ width ≤ nearest n → ofDecimal neg n 0 = .infinite neg) := by
  by_cases hn : n = 0
  · subst hn
    have hzero : nearest 0 = 0 := nearest_of_log (by decide)
    rw [hzero]
    refine ⟨fun _ => whole_zero neg, fun hle => ?_⟩
    exact absurd hle (Nat.not_le.mpr (Nat.two_pow_pos width))
  · have hone := ofFraction_one neg hn
    unfold ofDecimal
    dsimp only
    rw [if_neg hn]
    by_cases hlong : 310 < (Nat.toDigits 10 n).length
    · rw [if_pos (by omega)]
      refine ⟨fun hlt => ?_, fun _ => rfl⟩
      exact absurd (le_nearest (two_pow_width_le hlong)) (Nat.not_le.mpr hlt)
    · rw [if_neg (by omega), if_neg (by omega), if_pos (Int.le_refl 0)]
      simpa using hone

end Binary64

namespace Decimal
open Text
variable {c : Char} {cs : List Char} {ds : List Nat} {n : Nat}

/-! ### Digits that are read -/

theorem ne_underscore (h : digitValue? c = some n) : (c == '_') = false := by
  apply beq_eq_false_iff_ne.mpr
  rintro rfl
  cases h

theorem digitRun_of_digits (h : cs.map digitValue? = ds.map some) : digitRun cs = (ds, []) := by
  induction cs generalizing ds with
  | nil =>
    obtain rfl := List.map_eq_nil_iff.mp h.symm
    rfl
  | cons c cs ih =>
    obtain ⟨d, ds, rfl, hc, hcs⟩ := List.map_eq_cons_iff.mp h.symm
    have hrun := ih hcs.symm
    cases cs with
    | nil =>
      obtain rfl := List.map_eq_nil_iff.mp hcs
      rw [digitRun, ← hc]
    | cons c' cs =>
      obtain ⟨d', ds', rfl, hc', -⟩ := List.map_eq_cons_iff.mp hcs
      rw [digitRun, ← hc]
      simp only [ne_underscore hc'.symm, hrun]
      rfl

theorem digitValue?_of_isDigit (h : c.isDigit = true) :
    digitValue? c = some (c.toNat - '0'.toNat) := by
  obtain ⟨hlt, hc⟩ := Iso.eq_digitChar (c := c) (if_pos (Char.isDigit_iff_toNat.mp h))
  calc digitValue? c
    _ = digitValue? (Nat.digitChar (c.toNat - '0'.toNat)) := congrArg digitValue? hc
    _ = some (c.toNat - '0'.toNat) := Display.digitValue?_digitChar hlt

/-- The values of the digits of a number. -/
theorem digits_toDigits (n : Nat) : ∃ ds, (Nat.toDigits 10 n).map digitValue? = ds.map some ∧
    ds ≠ [] ∧ ofDigits ds = n := by
  refine ⟨(Nat.toDigits 10 n).map fun c => c.toNat - '0'.toNat, ?_, ?_, ?_⟩
  · rw [List.map_map]
    apply List.map_congr_left
    intro c hc
    exact digitValue?_of_isDigit (Nat.isDigit_of_mem_toDigits (by decide) (by decide) hc)
  · exact List.map_eq_nil_iff.not.mpr Nat.toDigits_ne_nil
  · have hback := Nat.ofDigitChars_toDigits (b := 10) (n := n) (by decide) (by decide)
    rw [ofDigits, List.foldl_map]
    simpa only [Nat.ofDigitChars_eq_foldl, Nat.mul_comm 10] using hback

end Decimal
end DocForms
