import DocForms.Proofs.Registry.Naming
import DocForms.Proofs.Registry.Assembly
import DocForms.Proofs.Schema.Address
import DocForms.Proofs.Fault

/-! The names in the forms of a registry, and the places of the fields of a form. -/
namespace DocForms

/-- Names are proper ones, and differ where both could stand. -/
structure Form.WellNamed (form : Form) : Prop where
  field : ∀ f ∈ form.fields, isName f.name = true
  group : ∀ g ∈ form.groups, isName g.name = true
  member : ∀ g ∈ form.groups, ∀ f ∈ g.fields, isName f.name = true
  fields : (form.fields.map Field.name).Nodup
  groups : (form.groups.map (·.name)).Nodup
  members : ∀ g ∈ form.groups, (g.fields.map Field.name).Nodup

namespace Form
variable {form : Form} {f f' : Field} {a : Address}

/-- An ungrouped field stands at its own name, and a field of a group in the row or the rows of the
group. -/
def Places (form : Form) (f : Field) (a : Address) : Prop :=
  (f ∈ form.fields ∧ a = .top f.name) ∨ ∃ g ∈ form.groups, f ∈ g.fields ∧
    (a = .member g.name f.name ∨ ∃ i, a = .cell g.name i f.name)

theorem Places.proper (hn : form.WellNamed) (h : form.Places f a) : a.Proper := by
  rcases h with ⟨hf, rfl⟩ | ⟨g, hg, hf, rfl | ⟨i, rfl⟩⟩
  · exact hn.field f hf
  · exact ⟨hn.group g hg, hn.member g hg f hf⟩
  · exact ⟨hn.group g hg, hn.member g hg f hf⟩

/-- A place belongs to one field. -/
theorem Places.unique (hn : form.WellNamed) (h : form.Places f a) (h' : form.Places f' a) :
    f = f' := by
  have member {g g' : FieldGroup} (hg : g ∈ form.groups) (hg' : g' ∈ form.groups)
      (hf : f ∈ g.fields) (hf' : f' ∈ g'.fields) (hgn : g.name = g'.name) (hfn : f.name = f'.name) :
      f = f' := by
    obtain rfl := List.inj_on_of_nodup_map hn.groups hg hg' hgn
    exact List.inj_on_of_nodup_map (hn.members g hg) hf hf' hfn
  rcases h with ⟨hf, ha⟩ | ⟨g, hg, hf, ha | ⟨i, ha⟩⟩ <;>
    rcases h' with ⟨hf', ha'⟩ | ⟨g', hg', hf', ha' | ⟨i', ha'⟩⟩ <;>
    simp only [ha, Address.top.injEq, Address.member.injEq, Address.cell.injEq, reduceCtorEq] at ha'
  · exact List.inj_on_of_nodup_map hn.fields hf hf' ha'
  · exact member hg hg' hf hf' ha'.1 ha'.2
  · exact member hg hg' hf hf' ha'.1 ha'.2.2

theorem group?_of_mem (hn : form.WellNamed) {g : FieldGroup} (hg : g ∈ form.groups) :
    form.group? g.name = some g := by
  cases hf : form.group? g.name with
  | none => simpa using List.find?_eq_none.mp hf g hg
  | some g' =>
    have hname : g'.name = g.name := by simpa using List.find?_some hf
    rw [List.inj_on_of_nodup_map hn.groups (List.mem_of_find?_eq_some hf) hg hname]

end Form

namespace Registry
variable {r : Registry} {id : String} {form : Form}

theorem getForm_eq_ok (h : r.getForm id = .ok form) : ∃ t, r.requireType id = .ok t ∧
    form = ⟨t, sortFields (r.scope id none), (sortGroups (r.groupsOf id)).map (r.withFields id)⟩ := by
  obtain ⟨t, ht, -⟩ := bind_eq_ok.mp h
  rw [getForm_eq ht] at h
  exact ⟨t, ht, (Except.ok.inj h).symm⟩

theorem nodup_scopeNames (hc : r.Consistent) (id : String) (group : Option String) :
    ((sortFields (r.scope id group)).map Field.name).Nodup := by
  refine ((sortFields_perm _).map _).nodup_iff.mpr ?_
  exact (List.filter_sublist.map _).nodup (nodup_fieldNames hc id)

/-- The form of a type is well named, whatever operations have been made. -/
theorem getForm_wellNamed (h : Reachable r) (hf : r.getForm id = .ok form) : form.WellNamed := by
  have hc := h.consistent
  obtain ⟨t, -, rfl⟩ := getForm_eq_ok hf
  have field {f : Field} {group : Option String} (hmem : f ∈ sortFields (r.scope id group)) :
      isName f.name = true := hc.named.field f (List.mem_filter.mp (mem_scope.mp hmem).1).1
  refine ⟨fun f => field, ?_, ?_, nodup_scopeNames hc id none, ?_, ?_⟩
  · intro g hg
    obtain ⟨g, hmem, rfl⟩ := List.mem_map.mp hg
    exact hc.named.group g (List.mem_filter.mp ((sortGroups_perm _).mem_iff.mp hmem)).1
  · intro g hg f hf
    obtain ⟨g, -, rfl⟩ := List.mem_map.mp hg
    exact field hf
  · rw [List.map_map]
    exact ((sortGroups_perm _).map _).nodup_iff.mpr (nodup_groupNames hc id)
  · intro g hg
    obtain ⟨g, -, rfl⟩ := List.mem_map.mp hg
    exact nodup_scopeNames hc id (some g.id)

/-- No ungrouped field has the name of a group. -/
theorem getForm_apart (h : Reachable r) (hf : r.getForm id = .ok form) {f : Field} {g : FieldGroup}
    (hmem : f ∈ form.fields) (hg : g ∈ form.groups) : f.name ≠ g.name := by
  obtain ⟨t, -, rfl⟩ := getForm_eq_ok hf
  obtain ⟨hmem, hu⟩ := mem_scope.mp hmem
  obtain ⟨g, hmemg, rfl⟩ := List.mem_map.mp hg
  obtain ⟨hmem, ht⟩ := List.mem_filter.mp hmem
  obtain ⟨hg, ht'⟩ := List.mem_filter.mp ((sortGroups_perm _).mem_iff.mp hmemg)
  have htype : f.typeId = g.typeId := (beq_iff_eq.mp ht).trans (beq_iff_eq.mp ht').symm
  exact h.consistent.named.apart f hmem hu g hg htype

end Registry
end DocForms
