import DocForms.Proofs.Fault
import DocForms.Proofs.Keyed
import DocForms.Proofs.Registry.Forms
import DocForms.Proofs.Schema.Address
import DocForms.Submission

/-! The places of a store, and what its snapshot holds there. -/
namespace DocForms

namespace Entries

/-- In a record with named keys, a name is looked up by the text that it is. -/
theorem lookup?_ofNames (es : List (String × Value)) (name : String) :
    lookup? (.text name) (ofNames es) = es.lookup name := by
  induction es with
  | nil => rfl
  | cons e es ih =>
    obtain ⟨n, v⟩ := e
    rw [lookup?, ofNames, List.map_cons, List.find?_cons, List.lookup_cons, Atom.same]
    cases name == n with
    | true => rfl
    | false => exact ih

theorem get_ofNames (es : List (String × Value)) (name : String) :
    get (ofNames es) name = (es.lookup name).getD .null := by
  rw [get, get?, lookup?_ofNames]

end Entries

namespace Store

/-- The places of a field's values. -/
def places (s : Store) (g : Option FieldGroup) (f : Field) : List Address :=
  match g with
  | none => [.top f.name]
  | some g =>
    match g.repeatable, s.groupValues g.name with
    | true, .rows rs => (List.range rs.length).map fun i => .cell g.name i f.name
    | true, .row _ => []
    | false, _ => [.member g.name f.name]

/-- The value at a place, the missing value if it is not set. -/
def valueAt (s : Store) : Address → Value
  | .top f => s.simple.get f
  | .member g f =>
    match s.groupValues g with
    | .row r => r.get f
    | .rows _ => .null
  | .cell g i f =>
    match s.groupValues g with
    | .row r => r.get f
    | .rows rs => (rs.getD i []).get f

/-- The fields of the form with the places of their values. -/
def instances (s : Store) : List (Field × Address) :=
  s.form.allFields.flatMap fun (g, f) => (s.places g f).map (f, ·)

/-- The link at a place, if there is one. -/
def linkAt? (s : Store) (a : Address) : Option LinkValue := LinkValue.ofValue? (s.valueAt a)

/-- The query for the link at a place, if there is one with a number. -/
def linkQuery? (s : Store) (types : List String) (a : Address) : Option (String × LinkQuery) :=
  match s.linkAt? a with
  | some l =>
    if Text.isBlankText l.documentNumber then none
    else some (a.key, ⟨.text l.documentNumber, types⟩)
  | none => none

/-- The queries for all links. -/
def linkQueries (s : Store) (known : List DocumentType) : List (String × LinkQuery) :=
  (s.instances.filter (·.1.kind = .documentLink)).filterMap fun (f, a) =>
    s.linkQuery? (f.candidates s.form.type.id known) a

variable {s : Store} {known : List DocumentType} {g : FieldGroup} {f : Field}

/-! ### The snapshot -/

theorem groups_get (s : Store) (name : String) :
    Entries.get (Entries.ofNames (s.groups.map fun g => (g.1, g.2.toValue))) name =
      ((s.groups.lookup name).map GroupValues.toValue).getD .null := by
  rw [Entries.get_ofNames]
  exact congrArg (·.getD Value.null) (Keyed.get?_map s.groups GroupValues.toValue name)

theorem lookup_named (es : List (String × Value)) (name : String) :
    Snapshot.lookup (.named es) (.text name) = .ok ((es.lookup name).getD .null) := by
  rw [← Entries.lookup?_ofNames]
  rfl

theorem lookup_groups (s : Store) (name : String) :
    Snapshot.lookup s.snapshot.groups (.text name) =
      .ok (((s.groups.lookup name).map GroupValues.toValue).getD .null) := by
  rw [← groups_get]
  rfl

theorem places_snapshot (s : Store) (g : Option FieldGroup) (f : Field) :
    Submission.places s.snapshot g f = .ok (s.places g f) := by
  cases g with
  | none => rfl
  | some g =>
    cases hr : g.repeatable with
    | false => simp [Submission.places, places, hr]
    | true =>
      have hentries : s.snapshot.groups.entries =
          .ok (Entries.ofNames (s.groups.map fun g => (g.1, g.2.toValue))) := rfl
      simp only [Submission.places, places, hr, if_true, hentries, bind, Except.bind, groups_get,
        groupValues]
      cases s.groups.lookup g.name with
      | none => rfl
      | some v =>
        cases v with
        | row r => rfl
        | rows rs => simp [GroupValues.toValue, pure, Except.pure]

theorem valueAt_snapshot (s : Store) (a : Address) :
    Submission.valueAt s.snapshot a = .ok (s.valueAt a) := by
  cases a with
  | top f => exact lookup_named s.simple f
  | member g f =>
    simp only [Submission.valueAt, Snapshot.get, Value.isNull, Bool.false_eq_true, if_false,
      lookup_groups, bind, Except.bind, valueAt, groupValues]
    cases s.groups.lookup g with
    | none => rfl
    | some v =>
      cases v with
      | row r => exact lookup_named r f
      | rows rs => rfl
  | cell g i f =>
    simp only [Submission.valueAt, Snapshot.get, Value.isNull, Bool.false_eq_true, if_false,
      lookup_groups, bind, Except.bind, valueAt, groupValues]
    cases s.groups.lookup g with
    | none => rfl
    | some v =>
      cases v with
      | row r => exact lookup_named r f
      | rows rs =>
        simp only [GroupValues.toValue, Option.map_some, Option.getD_some, List.length_map, Value.nat,
          Snapshot.rowAt?]
        by_cases hi : i < rs.length
        · have hrow : (rs.map Row.toValue).getD i .null = .named rs[i] := by simp [hi, Row.toValue]
          have hget : rs.getD i [] = rs[i] := by simp [hi]
          have hin : (0 : Int) ≤ i ∧ (i : Int) < rs.length := by omega
          simp only [hin, and_self, if_true, Int.toNat_natCast, hget]
          rw [hrow]
          exact lookup_named rs[i] f
        · have hget : rs.getD i [] = [] := by simp [hi]
          have hout : ¬ ((0 : Int) ≤ i ∧ (i : Int) < rs.length) := by omega
          simp only [hout, hget]
          rfl

/-- The lookups of a submission are those for the links of the store. -/
theorem linkQueries_snapshot (s : Store) (known : List DocumentType) :
    Submission.linkQueries s.form s.snapshot known = .ok (s.linkQueries known) := by
  have query (types : List String) (a : Address) :
      Submission.linkQuery? s.snapshot types a = .ok (s.linkQuery? types a) := by
    simp only [Submission.linkQuery?, valueAt_snapshot, linkQuery?, linkAt?, bind, Except.bind]
    cases LinkValue.ofValue? (s.valueAt a) with
    | none => rfl
    | some l => cases hb : Text.isBlankText l.documentNumber <;> simp only [hb] <;> rfl
  have field (e : Option FieldGroup × Field) : (do
      (← Submission.places s.snapshot e.1 e.2).mapM (Submission.linkQuery? s.snapshot
        (e.2.candidates s.form.type.id known))) =
      .ok ((s.places e.1 e.2).map (s.linkQuery? (e.2.candidates s.form.type.id known))) := by
    rw [places_snapshot]
    exact mapM_eq_ok fun a _ => query _ a
  rw [Submission.linkQueries, mapM_eq_ok fun e _ => field e, linkQueries, instances]
  refine congrArg Except.ok ?_
  generalize s.form.allFields = es
  induction es with
  | nil => rfl
  | cons e es ih =>
    rw [List.flatMap_cons, List.filter_append, List.filterMap_append, ← ih]
    by_cases hk : e.2.kind = .documentLink
    · have hall : ((s.places e.1 e.2).map (e.2, ·)).filter (·.1.kind = .documentLink) =
          (s.places e.1 e.2).map (e.2, ·) := by simp [List.filter_eq_self, hk]
      rw [hall]
      simp [hk, List.filterMap_map, Function.comp_def]
    · have hnone : ((s.places e.1 e.2).map (e.2, ·)).filter (·.1.kind = .documentLink) = [] := by
        simp [hk]
      rw [hnone]
      simp [hk]

/-! ### Keys -/

theorem places_of_mem_instances {a : Address} (h : (f, a) ∈ s.instances) : s.form.Places f a := by
  obtain ⟨⟨g, f'⟩, hmem, h⟩ := List.mem_flatMap.mp h
  obtain ⟨a', ha, he⟩ := List.mem_map.mp h
  obtain ⟨rfl, rfl⟩ : f' = f ∧ a' = a := by simpa using he
  rcases List.mem_append.mp hmem with hmem | hmem
  · obtain ⟨f, hf, he⟩ := List.mem_map.mp hmem
    obtain ⟨rfl, rfl⟩ : none = g ∧ f = f' := by simpa using he
    exact .inl ⟨hf, List.mem_singleton.mp ha⟩
  · obtain ⟨g', hg, hmem⟩ := List.mem_flatMap.mp hmem
    obtain ⟨f, hf, he⟩ := List.mem_map.mp hmem
    obtain ⟨rfl, rfl⟩ : some g' = g ∧ f = f' := by simpa using he
    refine .inr ⟨g', hg, hf, ?_⟩
    simp only [places] at ha
    split at ha
    · obtain ⟨i, -, rfl⟩ := List.mem_map.mp ha
      exact .inr ⟨i, rfl⟩
    · cases ha
    · exact .inl (List.mem_singleton.mp ha)

/-- A key belongs to one field and one place. -/
theorem instance_of_key (hn : s.form.WellNamed) {f f' : Field} {a a' : Address}
    (h : (f, a) ∈ s.instances) (h' : (f', a') ∈ s.instances) (hk : a.key = a'.key) :
    f = f' ∧ a = a' := by
  have hp := places_of_mem_instances h
  have hp' := places_of_mem_instances h'
  obtain rfl := Address.eq_of_key_eq (hp.proper hn) (hp'.proper hn) hk
  exact ⟨hp.unique hn hp', rfl⟩

end Store
end DocForms
