import DocForms.Proofs.Fault
import DocForms.Shape.Basic

/-! No violation of a shape is reported of a value that meets each of its demands, and of no other
value. -/
namespace DocForms.Shape
variable {shape : Shape} {v : Value} {es : Entries}

attribute [local simp] ruleViolations shapeViolations propertyViolations TypeName.holds

/-- A value meets a demand if it does not violate it. -/
def Met (v : Value) (r : ShapeRule) : Prop := ruleViolations true v r = []

/-- A value meets a shape if it meets each of its demands. -/
def Meets (shape : Shape) (v : Value) : Prop := ∀ r ∈ shape, Met v r

/-- Whether a demand is met does not depend on the kind of value that stands beside it. -/
theorem met_iff (ofKind : Bool) (v : Value) (r : ShapeRule) :
    ruleViolations ofKind v r = [] ↔ Met v r := by
  unfold Met
  cases r with
  | type names => simp only [ruleViolations]; split <;> simp
  | oneOf values => simp only [ruleViolations]; split <;> simp
  | required names => simp only [ruleViolations]; split <;> simp
  | properties entries => simp only [ruleViolations]
  | closed known => simp only [ruleViolations]; split <;> simp
  | matching p => simp only [ruleViolations]; split <;> (try split) <;> simp
  | minLength n => simp only [ruleViolations]; split <;> (try split) <;> simp
  | minimum n => simp only [ruleViolations]; split <;> (try split) <;> simp
  | items shape => simp only [ruleViolations]

theorem shapeViolations_eq_nil {ofKind : Bool} :
    shapeViolations ofKind v shape = [] ↔ Meets shape v := by
  unfold Meets
  induction shape with
  | nil => simp
  | cons r rs ih =>
    rw [shapeViolations, List.append_eq_nil_iff, met_iff, ih, List.forall_mem_cons]

theorem violations_eq_nil : violations shape v = [] ↔ Meets shape v := shapeViolations_eq_nil

theorem violation?_eq_none : violation? shape v = none ↔ Meets shape v := by
  rw [← violations_eq_nil, violation?]
  split <;> simp_all

theorem report_eq_none : report shape v = .ok none ↔ Meets shape v := by
  rw [← violation?_eq_none, report]
  split
  · simp
  · rename_i hshown
    have hsome : violation? shape v ≠ none := by
      rw [Ne, violation?_eq_none, ← violations_eq_nil]
      rintro hnil
      simp [hnil] at hshown
    simp [misuse, hsome]

/-! ### Demands -/

theorem met_type {names : List TypeName} : Met v (.type names) ↔ ∃ n ∈ names, n.holds v = true := by
  rw [Met, ruleViolations]
  split <;> simp_all

theorem holds_of_met {n : TypeName} (h : Met v (.type [n])) : n.holds v = true := by
  obtain ⟨m, hm, hv⟩ := met_type.mp h
  obtain rfl := List.mem_singleton.mp hm
  exact hv

theorem record_of_met (h : Met v (.type [.object])) : ∃ es, v = .record es := by
  have hv := holds_of_met h
  unfold TypeName.holds at hv
  split at hv <;> simp_all

theorem list_of_met (h : Met v (.type [.array])) : ∃ vs, v = .list vs := by
  have hv := holds_of_met h
  unfold TypeName.holds at hv
  split at hv <;> simp_all

theorem text_of_met (h : Met v (.type [.string])) : ∃ s, v = .text s := by
  have hv := holds_of_met h
  unfold TypeName.holds at hv
  split at hv <;> simp_all

theorem number_of_met (h : Met v (.type [.integer])) : ∃ n, v.number? = some n := by
  have hv := holds_of_met h
  cases hnumber : v.number? with
  | none => simp [hnumber] at hv
  | some n => exact ⟨n, rfl⟩

theorem met_oneOf {values : List Value} :
    Met v (.oneOf values) ↔ ∃ w ∈ values, listed v w = true := by
  rw [Met, ruleViolations]
  split <;> simp_all

/-- A text is listed as nothing but itself. -/
theorem eq_of_listed {s : String} (h : listed v (.text s) = true) : v = .text s := by
  cases v with
  | atom a =>
    cases a with
    | text t => exact congrArg Value.text (beq_iff_eq.mp h)
    | _ => simp [listed, Value.same, Atom.same, Atom.number?] at h
  | _ => cases h

theorem eq_of_listed_null (h : listed v .null = true) : v = .null := by
  cases v with
  | atom a =>
    cases a with
    | null => rfl
    | _ => simp [listed, Value.same, Atom.same, Atom.number?] at h
  | _ => cases h

theorem met_required {names : List String} :
    Met (.record es) (.required names) ↔ ∀ n ∈ names, Entries.has es n = true := by
  rw [Met, ruleViolations]
  simp

theorem propertyViolations_eq_nil {entries : List (String × Shape)} :
    propertyViolations es entries = [] ↔
      ∀ e ∈ entries, ∀ w, Entries.get? es e.1 = some w → Meets e.2 w := by
  induction entries with
  | nil => simp
  | cons e entries ih =>
    obtain ⟨name, shape⟩ := e
    rw [propertyViolations, List.append_eq_nil_iff, ih, List.forall_mem_cons]
    cases hw : Entries.get? es name with
    | none => simp
    | some w => simp [shapeViolations_eq_nil]

theorem met_properties {entries : List (String × Shape)} : Met (.record es) (.properties entries) ↔
    ∀ e ∈ entries, ∀ w, Entries.get? es e.1 = some w → Meets e.2 w := by
  rw [Met, ruleViolations, propertyViolations_eq_nil]

/-- What stands at a named entry of a record meets the shape for the entry. -/
theorem Meets.property {entries : List (String × Shape)} {e : String × Shape} {w : Value}
    (h : shape.Meets (.record es)) (hentries : .properties entries ∈ shape) (he : e ∈ entries)
    (hw : Entries.get? es e.1 = some w) : e.2.Meets w :=
  met_properties.mp (h _ hentries) e he w hw

theorem met_items {vs : List Value} : Met (.list vs) (.items shape) ↔ ∀ w ∈ vs, Meets shape w := by
  rw [Met, ruleViolations]
  simp only [List.flatMap_eq_nil_iff, List.map_eq_nil_iff, shapeViolations_eq_nil]
  constructor
  · intro h w hw
    obtain ⟨i, hi⟩ := List.mem_iff_getElem?.mp hw
    exact h (w, i) (List.mem_zipIdx_iff_getElem?.mpr hi)
  · rintro h ⟨w, i⟩ hw
    exact h w (List.mem_of_getElem? (List.mem_zipIdx_iff_getElem?.mp hw))

theorem met_matching {p : Pattern} {s : String} :
    Met (.text s) (.matching p) ↔ p.occursIn s = true := by
  rw [Met, ruleViolations]
  split <;> simp_all

theorem met_minimum {n x : Number} (h : v.number? = some x) :
    Met v (.minimum n) ↔ x.lt n = false := by
  rw [Met, ruleViolations, h]
  split <;> simp_all

end DocForms.Shape
