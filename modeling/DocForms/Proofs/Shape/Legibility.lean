import DocForms.Proofs.Shape.Meeting
import DocForms.Proofs.Value.Written

/-! Everything in a value that has a text has one. So whatever is wrong with its shape, there is a
message that can be written. -/
namespace DocForms

namespace Shape

-- The violations at the parts of a value are those of the shapes for the parts.
mutual

theorem ruleViolations_legible {v : Value} (hv : v.hasText = true) (ofKind : Bool) (r : ShapeRule) :
    ∀ x ∈ ruleViolations ofKind v r, x.legible = true := by
  intro x hx
  cases r with
  | items shape =>
    simp only [ruleViolations] at hx
    split at hx
    · obtain ⟨⟨w, i⟩, hw, hx⟩ := List.mem_flatMap.mp hx
      obtain ⟨y, hy, rfl⟩ := List.mem_map.mp hx
      have hitem := List.mem_of_getElem? (List.mem_zipIdx_iff_getElem?.mp hw)
      exact shapeViolations_legible (Value.hasText_list.mp hv _ hitem) (kindHolds shape w) shape y hy
    · cases hx
  | properties entries =>
    simp only [ruleViolations] at hx
    split at hx
    · exact propertyViolations_legible hv entries x hx
    · cases hx
  | closed known =>
    simp only [ruleViolations] at hx
    split at hx
    · obtain ⟨message, -, rfl⟩ := List.mem_map.mp hx
      refine List.all_eq_true.mpr fun k hk => ?_
      obtain ⟨e, he, rfl⟩ := List.mem_map.mp (List.mem_filter.mp hk).1
      exact (Value.hasText_record.mp hv _ he).1
    · cases hx
  | required names =>
    simp only [ruleViolations] at hx
    split at hx
    · obtain ⟨n, -, rfl⟩ := List.mem_map.mp hx
      rfl
    · cases hx
  | type | oneOf | matching | minLength | minimum =>
    simp only [ruleViolations] at hx
    split at hx <;> simp_all

theorem shapeViolations_legible {v : Value} (hv : v.hasText = true) (ofKind : Bool)
    (rs : List ShapeRule) : ∀ x ∈ shapeViolations ofKind v rs, x.legible = true := by
  cases rs with
  | nil => simp [shapeViolations]
  | cons r rs =>
    rw [shapeViolations]
    intro x hx
    rcases List.mem_append.mp hx with hx | hx
    · exact ruleViolations_legible hv ofKind r x hx
    · exact shapeViolations_legible hv ofKind rs x hx

theorem propertyViolations_legible {es : Entries} (hes : (Value.record es).hasText = true)
    (entries : List (String × List ShapeRule)) :
    ∀ x ∈ propertyViolations es entries, x.legible = true := by
  cases entries with
  | nil => simp [propertyViolations]
  | cons e more =>
    obtain ⟨name, shape⟩ := e
    rw [propertyViolations]
    intro x hx
    rcases List.mem_append.mp hx with hx | hx
    · split at hx
      · rename_i v hv
        obtain ⟨y, hy, rfl⟩ := List.mem_map.mp hx
        exact shapeViolations_legible (Value.hasText_get? hes hv) (kindHolds shape v) shape y hy
      · cases hx
    · exact propertyViolations_legible hes more x hx

end

theorem report_graceful {v : Value} (hv : v.hasText = true) (shape : Shape) :
    Graceful (report shape v) := by
  have hall : (violations shape v).all (·.legible) = true :=
    List.all_eq_true.mpr (shapeViolations_legible hv (kindHolds shape v) shape)
  rw [report, if_pos hall]
  exact graceful_ok _

end Shape
end DocForms
