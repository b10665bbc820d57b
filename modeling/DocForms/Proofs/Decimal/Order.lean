import DocForms.Decimal.Binary64
import Mathlib.Algebra.Order.Ring.Rat
import Mathlib.Algebra.Order.Field.Power
import Mathlib.Order.WithBot
import Mathlib.Tactic.Ring

/-! Numbers are ordered by their exact values, whatever their form. The value that is no number is in
no order with any number, so that neither it nor a number is the lesser one. -/
namespace DocForms.Number
variable {a b : Number} {p q : Int × Int}

/-- What `c * 2 ^ e` stands for. -/
def scaled (p : Int × Int) : ℚ := p.1 * 2 ^ p.2

/-- The value of a number, between minus and plus infinity. -/
def value? : Number → Option (WithBot (WithTop ℚ))
  | .int n => some ↑(scaled (n, 0) : WithTop ℚ)
  | .float .nan => none
  | .float (.infinite neg) => some (if neg then ⊥ else ⊤)
  | .float (.finite neg m e) => some ↑(scaled (if neg then -(m : Int) else m, e) : WithTop ℚ)

/-- The first number is at most the second one. -/
def AtMost (a b : Number) : Prop := ∃ x ∈ a.value?, ∃ y ∈ b.value?, x ≤ y

/-! ### Finite numbers -/

theorem scaled_eq (p : Int × Int) {low : Int} (h : low ≤ p.2) :
    scaled p = (p.1 * 2 ^ (p.2 - low).toNat : Int) * 2 ^ low := by
  have hpow : (2 : ℚ) ^ p.2 = 2 ^ (p.2 - low).toNat * 2 ^ low := by
    rw [← zpow_natCast, ← zpow_add₀ two_ne_zero, Int.toNat_of_nonneg (sub_nonneg.mpr h),
      sub_add_cancel]
  rw [scaled, hpow]
  push_cast
  ring

theorem compareParts_eq_lt : compareParts p q = .lt ↔ scaled p < scaled q := by
  have hpos : (0 : ℚ) < 2 ^ min p.2 q.2 := zpow_pos two_pos _
  rw [compareParts, compare_lt_iff_lt, scaled_eq p (min_le_left ..), scaled_eq q (min_le_right ..),
    mul_lt_mul_iff_left₀ hpos, Int.cast_lt]

/-- A number is finite, an infinity, or no number. -/
theorem value?_cases (a : Number) :
    (∃ p, a.tier? = some 0 ∧ a.parts? = some p ∧ a.value? = some ↑(scaled p : WithTop ℚ)) ∨
    (∃ neg, a = .float (.infinite neg)) ∨ a = .float .nan := by
  cases a with
  | int n => exact .inl ⟨_, rfl, rfl, rfl⟩
  | float x =>
    cases x with
    | nan => exact .inr (.inr rfl)
    | infinite neg => exact .inr (.inl ⟨neg, rfl⟩)
    | finite neg m e => exact .inl ⟨_, rfl, rfl, rfl⟩

/-! ### The order -/

theorem lt_iff : a.lt b = true ↔ ∃ x ∈ a.value?, ∃ y ∈ b.value?, x < y := by
  have infinite (neg : Bool) : (float (.infinite neg)).tier? = some (if neg then -1 else 1) ∧
      (float (.infinite neg)).parts? = none ∧
      (float (.infinite neg)).value? = some (if neg then ⊥ else ⊤) := ⟨rfl, rfl, rfl⟩
  have nan : (float .nan).tier? = none ∧ (float .nan).value? = none := ⟨rfl, rfl⟩
  have below (x : ℚ) : ((x : WithTop ℚ) : WithBot (WithTop ℚ)) < ⊤ :=
    WithBot.coe_lt_coe.mpr (WithTop.coe_lt_top x)
  rw [lt, beq_iff_eq, compare?]
  rcases a.value?_cases with ⟨p, hat, hap, hav⟩ | ⟨neg, rfl⟩ | rfl
  · rcases b.value?_cases with ⟨q, hbt, hbp, hbv⟩ | ⟨neg, rfl⟩ | rfl
    · simp [hat, hap, hav, hbt, hbp, hbv, compareParts_eq_lt]
    · cases neg <;> simp [hat, hap, hav, infinite, compare_lt_iff_lt, below]
    · simp [hat, nan]
  · rcases b.value?_cases with ⟨q, hbt, hbp, hbv⟩ | ⟨neg', rfl⟩ | rfl
    · cases neg <;> simp [hbt, hbp, hbv, infinite, compare_lt_iff_lt]
    · cases neg <;> cases neg' <;> simp [infinite, compare_lt_iff_lt]
    · simp [nan]
  · simp [nan]

theorem exists_value (h : a ≠ .float .nan) : ∃ x, a.value? = some x := by
  rcases a.value?_cases with ⟨p, -, -, hv⟩ | ⟨neg, rfl⟩ | rfl
  · exact ⟨_, hv⟩
  · exact ⟨_, rfl⟩
  · exact absurd rfl h

/-- Among proper numbers, one that is not less than another is the greater one or equal. -/
theorem lt_eq_false_iff (ha : a ≠ .float .nan) (hb : b ≠ .float .nan) :
    a.lt b = false ↔ b.AtMost a := by
  obtain ⟨x, hx⟩ := exists_value ha
  obtain ⟨y, hy⟩ := exists_value hb
  rw [← Bool.not_eq_true, lt_iff, AtMost, hx, hy]
  simp

theorem not_nan_of_atMost (h : a.AtMost b) : a ≠ .float .nan ∧ b ≠ .float .nan := by
  obtain ⟨x, hx, y, hy, -⟩ := h
  constructor
  · rintro rfl
    cases hx
  · rintro rfl
    cases hy

end DocForms.Number
