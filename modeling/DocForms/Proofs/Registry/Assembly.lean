import DocForms.Proofs.Registry.Consistency

/-! The form of a type holds every field and every group of the type once, in reading order. -/
namespace DocForms.Registry
variable {r : Registry} {id : String}

/-- Listed by order, and by name where orders are equal. -/
def Sorted {α : Type} (order : α → Int) (name : α → String) (as : List α) : Prop :=
  as.Pairwise fun a b => order a < order b ∨ order a = order b ∧ name a ≤ name b

theorem precedes_iff {x y : Int} {a b : String} :
    precedes x y a b = true ↔ x < y ∨ x = y ∧ a ≤ b := by
  simp [precedes]

theorem precedes_trans {x y z : Int} {a b c : String} (h : precedes x y a b = true)
    (h' : precedes y z b c = true) : precedes x z a c = true := by
  rw [precedes_iff] at h h' ⊢
  rcases h with h | ⟨rfl, hab⟩ <;> rcases h' with h' | ⟨rfl, hbc⟩
  · exact .inl (by omega)
  · exact .inl h
  · exact .inl h'
  · exact .inr ⟨rfl, String.le_trans hab hbc⟩

theorem precedes_total (x y : Int) (a b : String) :
    (precedes x y a b || precedes y x b a) = true := by
  rw [Bool.or_eq_true, precedes_iff, precedes_iff]
  rcases Int.lt_trichotomy x y with h | rfl | h
  · exact .inl (.inl h)
  · exact (String.le_total a b).imp (fun h => .inr ⟨rfl, h⟩) fun h => .inr ⟨rfl, h⟩
  · exact .inr (.inl h)

theorem sorted_mergeSort {α : Type} (order : α → Int) (name : α → String) (as : List α) :
    Sorted order name (as.mergeSort fun a b => precedes (order a) (order b) (name a) (name b)) := by
  let le (a b : α) : Bool := precedes (order a) (order b) (name a) (name b)
  have trans (a b c : α) (h : le a b = true) (h' : le b c = true) : le a c = true :=
    precedes_trans h h'
  have total (a b : α) : (le a b || le b a) = true := precedes_total ..
  exact (List.pairwise_mergeSort trans total as).imp precedes_iff.mp

theorem sortFields_perm (fs : List Field) : (sortFields fs).Perm fs := List.mergeSort_perm ..

theorem sortGroups_perm (gs : List Group) : (sortGroups gs).Perm gs := List.mergeSort_perm ..

theorem sortFields_of_ascending {fs : List Field} (h : fs.Pairwise fun a b => a.order < b.order) :
    sortFields fs = fs :=
  List.mergeSort_of_pairwise (h.imp fun hlt => precedes_iff.mpr (.inl hlt))

theorem sortGroups_of_ascending {gs : List Group} (h : gs.Pairwise fun a b => a.order < b.order) :
    sortGroups gs = gs :=
  List.mergeSort_of_pairwise (h.imp fun hlt => precedes_iff.mpr (.inl hlt))

theorem requireType_of_mem (h : r.Identified) {t : DocumentType} (ht : t ∈ r.types) :
    r.requireType t.id = .ok t := by
  unfold requireType type?
  cases hf : r.types.find? (·.id == t.id) with
  | none => simpa using List.find?_eq_none.mp hf t ht
  | some u =>
    have hid : u.id = t.id := by simpa using List.find?_some hf
    rw [List.inj_on_of_nodup_map h.types (List.mem_of_find?_eq_some hf) ht hid]

theorem getForm_eq {t : DocumentType} (h : r.requireType id = .ok t) : r.getForm id =
    .ok ⟨t, sortFields (r.scope id none), (sortGroups (r.groupsOf id)).map (r.withFields id)⟩ := by
  simp [getForm, listFields, listGroups, h, bind, Except.bind, pure, Except.pure]

theorem listFields_all_eq {t : DocumentType} (h : r.requireType id = .ok t) :
    r.listFields id .all = .ok (sortFields (r.fieldsOf id)) := by
  simp [listFields, h, bind, Except.bind, pure, Except.pure]

/-! ### The fields of a form -/

/-- The fields of a type, scope after scope. -/
def scopes (r : Registry) (id : String) : List Field :=
  sortFields (r.scope id none) ++
    (sortGroups (r.groupsOf id)).flatMap fun g => sortFields (r.scope id (some g.id))

theorem mem_scope {group : Option String} {f : Field} :
    f ∈ sortFields (r.scope id group) ↔ f ∈ r.fieldsOf id ∧ f.groupId = group := by
  simp [sortFields, scope]

theorem mem_scopes (h : r.Consistent) {f : Field} : f ∈ r.scopes id ↔ f ∈ r.fieldsOf id := by
  rw [scopes, List.mem_append, List.mem_flatMap, mem_scope]
  constructor
  · rintro (⟨hf, -⟩ | ⟨g, -, hg⟩)
    · exact hf
    · exact (mem_scope.mp hg).1
  · intro hf
    cases hg : f.groupId with
    | none => exact .inl ⟨hf, rfl⟩
    | some gid =>
      obtain ⟨hmem, ht⟩ := List.mem_filter.mp hf
      obtain ⟨g, hgm, rfl, hgt⟩ := h.owned.grouped f hmem gid hg
      refine .inr ⟨g, (sortGroups_perm _).mem_iff.mpr ?_, mem_scope.mpr ⟨hf, hg⟩⟩
      exact List.mem_filter.mpr ⟨hgm, by simpa [hgt] using ht⟩

theorem nodup_fieldsOf (h : r.Identified) (id : String) : (r.fieldsOf id).Nodup :=
  h.fields.of_map.filter _

theorem nodup_groupsOf (h : r.Identified) (id : String) : (r.groupsOf id).Nodup :=
  h.groups.of_map.filter _

theorem nodup_scopes (h : r.Identified) (id : String) : (r.scopes id).Nodup := by
  have one (group : Option String) : (sortFields (r.scope id group)).Nodup :=
    (sortFields_perm _).nodup_iff.mpr ((nodup_fieldsOf h id).filter _)
  have ids : ((sortGroups (r.groupsOf id)).map Group.id).Nodup :=
    ((sortGroups_perm _).map _).nodup_iff.mpr ((List.filter_sublist.map _).nodup h.groups)
  rw [scopes, List.nodup_append]
  refine ⟨one none, List.nodup_flatMap.mpr ⟨fun g _ => one (some g.id), ?_⟩, fun f hf f' hf' => ?_⟩
  · refine (List.pairwise_map.mp ids).imp fun {g g'} hne f hf hf' => hne ?_
    have h := (mem_scope.mp hf).2.symm.trans (mem_scope.mp hf').2
    simpa using h
  · rintro rfl
    obtain ⟨g, -, hg⟩ := List.mem_flatMap.mp hf'
    have h := (mem_scope.mp hf).2.symm.trans (mem_scope.mp hg).2
    simp at h

theorem allFields_eq (t : DocumentType) :
    (Form.allFields ⟨t, sortFields (r.scope id none),
      (sortGroups (r.groupsOf id)).map (r.withFields id)⟩).map (·.2) = r.scopes id := by
  simp [Form.allFields, scopes, withFields, List.map_flatMap, List.flatMap_map, Function.comp_def]

/-- Whatever operations have been made, every field and every group belongs to a type that exists,
a grouped field to a group of its type, and every template to a type. The form of a type that
exists is found; it holds each field of the type once, ungrouped or under its own group, and each
group once, everything in reading order, and its fields are those that are listed for the type. -/
theorem assembly_lossless (h : Reachable r) :
    (∀ f ∈ r.fields, r.HasType f.typeId ∧ ∀ id, f.groupId = some id → r.HasGroup id f.typeId) ∧
    (∀ g ∈ r.groups, r.HasType g.typeId) ∧ (∀ e ∈ r.templates, r.HasType e.1) ∧
    ∀ t ∈ r.types, ∃ form all, r.getForm t.id = .ok form ∧ r.listFields t.id .all = .ok all ∧
      form.type = t ∧
      (form.allFields.map (·.2)).Perm (r.fieldsOf t.id) ∧ (r.fieldsOf t.id).Nodup ∧
      (form.allFields.map (·.2)).Perm all ∧
      (∀ e ∈ form.allFields, e.1.map (·.id) = e.2.groupId) ∧
      (form.groups.map (·.toGroup)).Perm (r.groupsOf t.id) ∧ (r.groupsOf t.id).Nodup ∧
      Sorted (·.order) (·.name) form.fields ∧ Sorted (·.order) (·.name) form.groups ∧
      (∀ g ∈ form.groups, Sorted (·.order) (·.name) g.fields) ∧ Sorted (·.order) (·.name) all := by
  have hc := h.consistent
  refine ⟨fun f hf => ⟨hc.owned.field f hf, hc.owned.grouped f hf⟩, hc.owned.group,
    hc.owned.template, fun t ht => ?_⟩
  have hreq := requireType_of_mem hc.identified ht
  have hperm : (r.scopes t.id).Perm (r.fieldsOf t.id) :=
    (List.perm_ext_iff_of_nodup (nodup_scopes hc.identified t.id)
      (nodup_fieldsOf hc.identified t.id)).mpr fun f => mem_scopes hc
  refine ⟨_, _, getForm_eq hreq, listFields_all_eq hreq, rfl, ?_, nodup_fieldsOf hc.identified _, ?_,
    ?_, ?_, nodup_groupsOf hc.identified _, sorted_mergeSort .., ?_, ?_, sorted_mergeSort ..⟩
  · rw [allFields_eq]
    exact hperm
  · rw [allFields_eq]
    exact hperm.trans (sortFields_perm _).symm
  · intro e he
    simp only [Form.allFields, List.mem_append, List.mem_map, List.mem_flatMap] at he
    rcases he with ⟨f, hf, rfl⟩ | ⟨_, ⟨g, -, rfl⟩, f, hf, rfl⟩
    · exact (mem_scope.mp hf).2.symm
    · exact (mem_scope.mp hf).2.symm
  · rw [List.map_map]
    exact (List.map_id _).symm ▸ sortGroups_perm _
  · exact List.pairwise_map.mpr (sorted_mergeSort Group.order Group.name _)
  · intro g hg
    obtain ⟨g', -, rfl⟩ := List.mem_map.mp hg
    exact sorted_mergeSort ..

theorem assembly_lossless_orders : Reachable orders ∧ (∀ f ∈ orders.fields, orders.HasType f.typeId) ∧
    orders.fields.map (·.name) = ["amount", "number"] ∧
    (orders.getForm "t").map (fun f => f.allFields.map fun e => (e.1.map (·.name), e.2.name)) =
      .ok [(none, "number"), (some "lines", "amount")] :=
  ⟨orders_reachable, fun f hf => ((assembly_lossless orders_reachable).1 f hf).1,
    by decide +kernel, by decide +kernel⟩

end DocForms.Registry
