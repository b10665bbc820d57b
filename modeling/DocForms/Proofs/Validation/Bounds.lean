import DocForms.Proofs.Decimal.Order
import DocForms.Proofs.Validation.Conformance

/-! The bounds of number fields. The value of a number field that passes validation stands for a
number, and that lies within the bounds of the field unless it is the value that is no number: this
one is not less than any bound and not greater either. -/
namespace DocForms

namespace Rules

/-- A proper number is among the bounds that the rules give. -/
def Bounded (r : Rules) : Prop :=
  ∃ n, (n ∈ r.minimum ∨ n ∈ r.maximum) ∧ n ≠ .float .nan

/-- The number lies within those bounds that are proper numbers. -/
structure Encloses (r : Rules) (x : Number) : Prop where
  least : ∀ n ∈ r.minimum, n ≠ .float .nan → n.AtMost x
  most : ∀ n ∈ r.maximum, n ≠ .float .nan → x.AtMost n

variable {r : Rules} {x : Number}

theorem FitsNumber.encloses (h : r.FitsNumber x) (hx : x ≠ .float .nan) : r.Encloses x where
  least n hn hbound := (Number.lt_eq_false_iff hx hbound).mp (h.least n hn)
  most n hn hbound := (Number.lt_eq_false_iff hbound hx).mp (h.most n hn)

theorem Encloses.ne_nan (h : r.Encloses x) (hr : r.Bounded) : x ≠ .float .nan := by
  obtain ⟨n, hmin | hmax, hn⟩ := hr
  · exact (Number.not_nan_of_atMost (h.least n hmin hn)).2
  · exact (Number.not_nan_of_atMost (h.most n hmax hn)).1

end Rules

namespace Validation
variable {form : Form} {s : Snapshot} {links : ResolvedLinks} {es : ErrorMap} {f : Field}
  {v : Value} {a : Address}

/-- A value without an entry in the error map is blank or admitted. -/
theorem admits_of_not_mem (h : problems .standard form s links = .ok es)
    (hc : Checked form s (.field f v a)) (hkey : a.key ∉ Keyed.names es) (hv : ¬ v.Blank) :
    f.Admits v a.key links := by
  by_contra hno
  exact hkey ((mem_keys h).mpr ⟨_, hc, .inr (.inr ⟨hv, hno⟩), rfl⟩)

/-- A value of a number field without an entry in the error map, if it is not blank, stands for a
number, which lies within the bounds of the field just if it is a proper number. -/
theorem within_bounds_iff (h : problems .standard form s links = .ok es)
    (hc : Checked form s (.field f v a)) (hkind : f.kind = .number) (hv : ¬ v.Blank)
    (hkey : a.key ∉ es.map (·.1)) :
    ∃ x, v.readNumber? = some x ∧
      ∀ r ∈ f.rules, r.Bounded → (r.Encloses x ↔ x ≠ .float .nan) := by
  have hadmits := admits_of_not_mem h hc hkey hv
  rw [Field.Admits, hkind] at hadmits
  obtain ⟨x, hx, hfits⟩ := hadmits
  exact ⟨x, hx, fun r hr hbounded => ⟨fun hin => hin.ne_nan hbounded, (hfits r hr).encloses⟩⟩

/-- A registry with a type of gauges, which show an amount between zero and ten. -/
def gauges : Registry :=
  let r := Registry.empty.after { given := some "t" }
    (.defineType (.named [("name", .text "Gauge"), ("code", .text "GAUGE")]))
  r.after { given := some "a" } (.defineField "t" (.named [("name", .text "amount"),
    ("label", .text "Amount"), ("type", .text "number"),
    ("validationRules", .named [("min", .int 0), ("max", .int 10)])]) true)

theorem gauges_reachable : Registry.Reachable gauges := by
  unfold gauges
  refine .step (.step .empty _ _ ?_) _ _ ?_
  · show Registry.type? _ "t" = none
    decide +kernel
  · show Registry.field? _ "a" = none
    decide +kernel

/-- The field of a gauge. -/
def gaugeField : Field :=
  { id := "a", typeId := "t", name := "amount", label := "Amount", kind := .number,
    rules := some { minimum := some (.int 0), maximum := some (.int 10) } }

/-- The form of a gauge. -/
def gaugeForm : Form where
  type := { id := "t", name := "Gauge", code := "GAUGE" }
  fields := [gaugeField]
  groups := []

theorem gauges_form : gauges.getForm "t" = .ok gaugeForm := by decide +kernel

/-- A gauge that shows an amount. -/
def shownAmount (s : String) : Snapshot := ⟨.named [("amount", .text s)], .named []⟩

theorem checked_shownAmount (s : String) :
    Checked gaugeForm (shownAmount s) (.field gaugeField (.text s) (.top "amount")) :=
  .top (List.mem_singleton.mpr rfl)

theorem within_bounds_shown : problems .standard gaugeForm (shownAmount " 7.5") [] = .ok [] ∧
    ∃ x, (Value.text " 7.5").readNumber? = some x ∧
      ∀ r ∈ gaugeField.rules, r.Bounded → (r.Encloses x ↔ x ≠ .float .nan) := by
  have h : problems .standard gaugeForm (shownAmount " 7.5") [] = .ok [] := by decide +kernel
  refine ⟨h, within_bounds_iff h (checked_shownAmount " 7.5") rfl ?_ (List.not_mem_nil)⟩
  rw [Value.blank_iff]
  decide +kernel

theorem nan_within_bounds : Registry.Reachable gauges ∧ gauges.getForm "t" = .ok gaugeForm ∧
    problems .standard gaugeForm (shownAmount "nan") [] = .ok [] ∧
    (Value.text "nan").readNumber? = some (.float .nan) ∧
    ∀ r ∈ gaugeField.rules, r.Bounded ∧ ¬ r.Encloses (.float .nan) := by
  refine ⟨gauges_reachable, gauges_form, by decide +kernel, by decide +kernel, ?_⟩
  rintro r ⟨⟩
  have hbounded : Rules.Bounded { minimum := some (.int 0), maximum := some (.int 10) } :=
    ⟨.int 0, .inl rfl, nofun⟩
  exact ⟨hbounded, fun hin => hin.ne_nan hbounded rfl⟩

end Validation
end DocForms
