import DocForms.Proofs.Submission.Instances
import Mathlib.Logic.Basic

/-! The values that are checked are those at the places of a store, each under the key of its place.
What is known of links matters only at the places of links that have a number. -/
namespace DocForms
variable {s : Store} {A B : ResolvedLinks} {f : Field} {g : FieldGroup}

namespace Store

theorem mem_instances_top (h : f ∈ s.form.fields) : (f, .top f.name) ∈ s.instances := by
  refine List.mem_flatMap.mpr ⟨(none, f), ?_, List.mem_map_of_mem (List.mem_singleton.mpr rfl)⟩
  exact List.mem_append_left _ (List.mem_map_of_mem h)

theorem mem_instances_group {a : Address} (hg : g ∈ s.form.groups) (hf : f ∈ g.fields)
    (ha : a ∈ s.places (some g) f) : (f, a) ∈ s.instances := by
  refine List.mem_flatMap.mpr ⟨(some g, f), ?_, List.mem_map_of_mem ha⟩
  exact List.mem_append_right _ (List.mem_flatMap.mpr ⟨g, hg, List.mem_map_of_mem hf⟩)

/-- Nothing else is known of the links of the store. -/
def SameLinks (s : Store) (A B : ResolvedLinks) : Prop :=
  ∀ f a, (f, a) ∈ s.instances → f.kind = .documentLink → ∀ l, s.linkAt? a = some l →
    Text.isBlankText l.documentNumber = false → A.document? a.key = B.document? a.key

end Store

/-- Validators that use what is known of links only for links that have a number, and only what is
known at their own keys. -/
def Validators.Local (vs : Validators) : Prop :=
  ∀ (f : Field) (v : Value) (key : String) (A B : ResolvedLinks),
    (f.kind = .documentLink → ∀ l, LinkValue.ofValue? v = some l →
      Text.isBlankText l.documentNumber = false → A.document? key = B.document? key) →
    vs f.kind f v key A = vs f.kind f v key B

theorem Validators.standard_local : Validators.standard.Local := by
  intro f v key A B h
  cases hk : f.kind with
  | documentLink =>
    simp only [Validators.standard, Validation.link]
    split
    · rfl
    · rename_i l hl
      cases hb : Text.isBlankText l.documentNumber with
      | true => rfl
      | false => rw [h hk l hl hb]
  | _ => rfl

/-- A validator that does not use what is known of links may take the place of another one. -/
theorem Validators.Local.register {vs : Validators} (h : vs.Local) (kind : FieldKind) {v : Validator}
    (hv : ∀ f value key A B, v f value key A = v f value key B) : (vs.register kind v).Local := by
  intro f value key A B hlinks
  unfold Validators.register
  split
  · exact hv f value key A B
  · exact h f value key A B hlinks

namespace Validation
variable {vs : Validators} (hvs : vs.Local) (h : s.SameLinks A B)
include hvs h

/-- A value at its place is checked alike. -/
theorem checkField_congr {a : Address} (ha : (f, a) ∈ s.instances) (es : ErrorMap) :
    checkField vs A f (s.valueAt a) a.key es = checkField vs B f (s.valueAt a) a.key es := by
  have hv := hvs f (s.valueAt a) a.key A B fun hk l hl hb => h f a ha hk l hl hb
  simp only [checkField, fieldProblem?, hv]

theorem checkRow_congr {address : String → Address} {row : Entries}
    (hrow : ∀ f ∈ g.fields, (f, address f.name) ∈ s.instances ∧
      s.valueAt (address f.name) = Entries.get row f.name) (es : ErrorMap) :
    checkRow vs A g address row es = checkRow vs B g address row es := by
  refine foldlM_congr (fun f hf es => ?_) es
  obtain ⟨hmem, hval⟩ := hrow f hf
  rw [← hval]
  exact checkField_congr hvs h hmem es

theorem checkRows_congr (hg : g ∈ s.form.groups) (hr : g.repeatable = true)
    {rs : List Row} (hrs : s.groupValues g.name = .rows rs) (es : ErrorMap) :
    checkRows vs A g (rs.map Row.toValue) es = checkRows vs B g (rs.map Row.toValue) es := by
  refine bind_congr fun problem => foldlM_congr (fun e he es => ?_) _
  obtain ⟨v, i⟩ := e
  obtain ⟨row, hrow, rfl⟩ := List.getElem?_map ▸ List.mem_zipIdx_iff_getElem?.mp he |>
    Option.map_eq_some_iff.mp
  have hi := (List.getElem?_eq_some_iff.mp hrow).1
  refine checkRow_congr hvs h (fun f hf => ⟨Store.mem_instances_group hg hf ?_, ?_⟩) es
  · simp [Store.places, hr, hrs, hi]
  · simp [Store.valueAt, hrs, hrow, rowEntries, Row.toValue, Value.named, Entries.get_ofNames, Row.get]

theorem checkGroup_congr (hg : g ∈ s.form.groups) (es : ErrorMap) :
    let v := ((s.groups.lookup g.name).map GroupValues.toValue).getD .null
    checkGroup vs A g v es = checkGroup vs B g v es := by
  have member (r : Row) (hv : s.groupValues g.name = .row r) (hr : g.repeatable = false) :
      checkRow vs A g (.member g.name) (Entries.ofNames r) es =
        checkRow vs B g (.member g.name) (Entries.ofNames r) es := by
    refine checkRow_congr hvs h (fun f hf => ⟨Store.mem_instances_group hg hf ?_, ?_⟩) es
    · simp [Store.places, hr]
    · simp [Store.valueAt, hv, Entries.get_ofNames, Row.get]
  -- a group of the wrong shape is reported, and none of its fields is checked
  cases hv : s.groups.lookup g.name with
  | none =>
    cases hr : g.repeatable with
    | true => simp [checkGroup, hr, checkRows]
    | false =>
      simp only [checkGroup, hr, Option.map_none, Option.getD_none]
      exact member [] (by simp [Store.groupValues, hv]) hr
  | some v =>
    have hvalues : s.groupValues g.name = v := by simp [Store.groupValues, hv]
    cases hr : g.repeatable with
    | true =>
      cases v with
      | row r => simp [checkGroup, hr, GroupValues.toValue, Row.toValue, Value.named]
      | rows rs =>
        simp only [checkGroup, hr, Option.map_some, Option.getD_some, GroupValues.toValue]
        exact checkRows_congr hvs h hg hr hvalues es
    | false =>
      cases v with
      | row r =>
        simp only [checkGroup, hr, Option.map_some, Option.getD_some, GroupValues.toValue,
          Row.toValue, Value.named]
        exact member r hvalues hr
      | rows rs => simp [checkGroup, hr, GroupValues.toValue]

/-- A submission is validated alike by whatever is known alike of its links. -/
theorem problems_congr :
    problems vs s.form s.snapshot A = problems vs s.form s.snapshot B := by
  have top (name : String) : s.snapshot.simple.field name = .ok (s.valueAt (.top name)) :=
    congrArg Except.ok (Entries.get_ofNames s.simple name)
  have group (name : String) : s.snapshot.groups.field name =
      .ok (((s.groups.lookup name).map GroupValues.toValue).getD .null) :=
    congrArg Except.ok (s.groups_get name)
  refine congrArg₂ (· >>= ·) (foldlM_congr (fun f hf es => ?_) []) (funext fun es =>
    foldlM_congr (fun g hg es => ?_) es)
  · rw [top]
    exact checkField_congr hvs h (Store.mem_instances_top hf) es
  · rw [group]
    exact checkGroup_congr hvs h hg es

end Validation
end DocForms
