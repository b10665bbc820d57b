import DocForms.Proofs.Registry.Amending
import DocForms.Proofs.Registry.Ordering
import DocForms.Proofs.Registry.Supply

/-! The orders in a scope: what is listed together. Operations that give no orders keep those of a
scope, add a member behind all others, or make the orders the positions. So the orders stay positions
as long as only members at the end are deleted. -/
namespace DocForms
namespace Registry

/-! ### Operations without orders -/

/-- An operation that gives no order to what it defines or changes, except that of a whole scope. -/
def Orderless : Operation → Prop
  | .defineField _ spec _ | .defineGroup _ spec =>
    ∀ es, spec.entries = .ok es → (Entries.get es "order").isNull = true
  | .updateField _ changes | .updateGroup _ changes =>
    ∀ es, changes.changes = .ok es → es.has "order" = false
  | _ => True

/-- No field is in another scope than before. -/
def Unmoved (r r' : Registry) : Prop :=
  ∀ f ∈ r.fields, ∀ f' ∈ r'.fields, f'.id = f.id → f'.groupId = f.groupId

/-! ### Scopes -/

/-- What is listed together: the fields of a type in one group or in none, or the groups of a type. -/
inductive Scope where
  | fields (typeId : String) (group : Option String)
  | groups (typeId : String)

/-- The members of a scope with their orders. -/
def places (r : Registry) : Scope → List (String × Int)
  | .fields t group => (r.scope t group).map fun f => (f.id, f.order)
  | .groups t => (r.groupsOf t).map fun g => (g.id, g.order)

/-- The members of a scope as they are listed, with their orders. -/
def listed (r : Registry) : Scope → List (String × Int)
  | .fields t group => (sortFields (r.scope t group)).map fun f => (f.id, f.order)
  | .groups t => (sortGroups (r.groupsOf t)).map fun g => (g.id, g.order)

theorem listed_perm (r : Registry) (s : Scope) : (r.listed s).Perm (r.places s) := by
  cases s with
  | fields t group => exact (sortFields_perm _).map _
  | groups t => exact (sortGroups_perm _).map _

theorem pairwise_listed (r : Registry) (s : Scope) :
    ((r.listed s).map Prod.snd).Pairwise (· ≤ ·) := by
  have hle {a b : Int} {p : Prop} (h : a < b ∨ a = b ∧ p) : a ≤ b := by omega
  cases s with
  | fields t group =>
    rw [listed, List.map_map, List.pairwise_map]
    exact (sorted_mergeSort Field.order Field.name _).imp hle
  | groups t =>
    rw [listed, List.map_map, List.pairwise_map]
    exact (sorted_mergeSort Group.order Group.name _).imp hle

theorem nodup_places {r : Registry} (hi : r.Identified) (s : Scope) :
    ((r.places s).map Prod.fst).Nodup := by
  cases s with
  | fields t group =>
    rw [places, List.map_map]
    exact nodup_scopeIds hi t group
  | groups t =>
    rw [places, List.map_map]
    exact nodup_groupIds hi t

theorem mem_places_fields {r : Registry} {t : String} {group : Option String} {p : String × Int} :
    p ∈ r.places (.fields t group) ↔
      ∃ f ∈ r.fields, f.typeId = t ∧ f.groupId = group ∧ p = (f.id, f.order) := by
  rw [places, scope_eq, List.mem_map]
  constructor
  · rintro ⟨f, hf, rfl⟩
    obtain ⟨hf, hscope⟩ := List.mem_filter.mp hf
    obtain ⟨ht, hg⟩ := Bool.and_eq_true_iff.mp hscope
    exact ⟨f, hf, beq_iff_eq.mp ht, beq_iff_eq.mp hg, rfl⟩
  · rintro ⟨f, hf, rfl, rfl, rfl⟩
    exact ⟨f, List.mem_filter.mpr ⟨hf, by simp [inScope]⟩, rfl⟩

theorem mem_places_groups {r : Registry} {t : String} {p : String × Int} :
    p ∈ r.places (.groups t) ↔ ∃ g ∈ r.groups, g.typeId = t ∧ p = (g.id, g.order) := by
  rw [places, groupsOf, List.mem_map]
  constructor
  · rintro ⟨g, hg, rfl⟩
    obtain ⟨hg, ht⟩ := List.mem_filter.mp hg
    exact ⟨g, hg, beq_iff_eq.mp ht, rfl⟩
  · rintro ⟨g, hg, rfl, rfl⟩
    exact ⟨g, List.mem_filter.mpr ⟨hg, beq_self_eq_true _⟩, rfl⟩

/-- Fields that each stay in their scope with their order. -/
theorem places_fields_subset {r r' : Registry} {t : String} {group : Option String}
    (h : ∀ f' ∈ r'.fields, f'.typeId = t → f'.groupId = group → ∃ f ∈ r.fields, f.id = f'.id ∧
      f.typeId = f'.typeId ∧ f.groupId = f'.groupId ∧ f.order = f'.order) :
    r'.places (.fields t group) ⊆ r.places (.fields t group) := by
  intro p hp
  obtain ⟨f', hf', ht, hg, rfl⟩ := mem_places_fields.mp hp
  obtain ⟨f, hf, hid, htype, hgroup, horder⟩ := h f' hf' ht hg
  exact mem_places_fields.mpr
    ⟨f, hf, htype.trans ht, hgroup.trans hg, by rw [hid, horder]⟩

theorem places_groups_subset {r r' : Registry} {t : String}
    (h : ∀ g' ∈ r'.groups, g'.typeId = t → ∃ g ∈ r.groups, g.id = g'.id ∧ g.typeId = g'.typeId ∧
      g.order = g'.order) : r'.places (.groups t) ⊆ r.places (.groups t) := by
  intro p hp
  obtain ⟨g', hg', ht, rfl⟩ := mem_places_groups.mp hp
  obtain ⟨g, hg, hid, htype, horder⟩ := h g' hg' ht
  exact mem_places_groups.mpr ⟨g, hg, htype.trans ht, by rw [hid, horder]⟩

/-- Records that are only left out keep the places of the others. -/
theorem places_subset {r r' : Registry} (hf : r'.fields ⊆ r.fields) (hg : r'.groups ⊆ r.groups)
    (s : Scope) : r'.places s ⊆ r.places s := by
  cases s with
  | fields t group =>
    exact places_fields_subset fun f hf' _ _ => ⟨f, hf hf', rfl, rfl, rfl, rfl⟩
  | groups t => exact places_groups_subset fun g hg' _ => ⟨g, hg hg', rfl, rfl, rfl⟩

/-- The orders of a scope are its positions. -/
def Gapless (r : Registry) (s : Scope) : Prop :=
  ((r.places s).map Prod.snd).Perm ((List.range (r.places s).length).map Int.ofNat)

theorem gapless_of_positions {r : Registry} {s : Scope} {names : List String} (hn : names.Nodup)
    (hids : ((r.places s).map Prod.fst).Perm names)
    (horders : ∀ p ∈ r.places s, p.2 = positionIn names p.1) : r.Gapless s := by
  have hmap : (r.places s).map Prod.snd = ((r.places s).map Prod.fst).map (positionIn names) := by
    rw [List.map_map]
    exact List.map_congr_left horders
  have hlength : (r.places s).length = names.length := by
    rw [← hids.length_eq, List.length_map]
  have hpositions : names.map (positionIn names) = (List.range names.length).map Int.ofNat := by
    refine List.ext_getElem (by simp) fun i hi hi' => ?_
    have hi : i < names.length := by simpa using hi
    simp [positionIn, hn.idxOf_getElem i hi]
  rw [Gapless, hmap, hlength, ← hpositions]
  exact hids.map _

/-- A request that puts a whole scope into a new order. -/
def Scope.reorder (ids : Value) : Scope → Operation
  | .fields t group => .reorderFields t ids group
  | .groups t => .reorderGroups t ids

theorem perm_pairs {α : Type} {id : α → String} {as : List α} {names : List String}
    {f : α → String × Int} (hf : ∀ a, (f a).1 = id a) (h : names.Perm (as.map id)) :
    ((as.map f).map Prod.fst).Perm names := by
  rw [List.map_map]
  exact (List.Perm.of_eq (List.map_congr_left fun a _ => hf a)).trans h.symm

theorem reorderFields_gapless {r : Registry} (hi : r.Identified) {t : String}
    {group : Option String} {names : List String}
    (hp : names.Perm ((r.scope t group).map (·.id))) :
    (r.withFieldPositions t group names).Gapless (.fields t group) := by
  have hplaces : (r.withFieldPositions t group names).places (.fields t group) =
      (r.scope t group).map fun f => (f.id, positionIn names f.id) := by
    rw [places, withFieldPositions, scope_withFieldOrders, List.map_map]
    rfl
  refine gapless_of_positions (hp.nodup_iff.mpr (nodup_scopeIds hi t group)) ?_ ?_
  · rw [hplaces]
    exact perm_pairs (fun _ => rfl) hp
  · rw [hplaces]
    intro p hmem
    obtain ⟨f, -, rfl⟩ := List.mem_map.mp hmem
    rfl

theorem reorderGroups_gapless {r : Registry} (hi : r.Identified) {t : String} {names : List String}
    (hp : names.Perm ((r.groupsOf t).map (·.id))) :
    (r.withGroupPositions t names).Gapless (.groups t) := by
  have hplaces : (r.withGroupPositions t names).places (.groups t) =
      (r.groupsOf t).map fun g => (g.id, positionIn names g.id) := by
    rw [places, withGroupPositions, groupsOf_withGroupOrders, List.map_map]
    rfl
  refine gapless_of_positions (hp.nodup_iff.mpr (nodup_groupIds hi t)) ?_ ?_
  · rw [hplaces]
    exact perm_pairs (fun _ => rfl) hp
  · rw [hplaces]
    intro p hmem
    obtain ⟨g, -, rfl⟩ := List.mem_map.mp hmem
    rfl

/-! ### What one operation does to a scope -/

/-- What an operation does to a scope: members stay with their orders or go, one is added behind the
others, or the orders become the positions. -/
inductive Shift (r r' : Registry) (s : Scope) : Prop
  | keeps (h : r'.places s ⊆ r.places s)
  | adds (id : String) (h : r'.places s = r.places s ++ [(id, ((r.places s).length : Int))])
  | orders (h : r'.Gapless s)

section Shifting
variable {r r' : Registry} {id typeId : String} {es : Entries}

theorem shift_of_subset (hf : r'.fields ⊆ r.fields) (hg : r'.groups ⊆ r.groups) (s : Scope) :
    Shift r r' s := .keeps (places_subset hf hg s)

theorem shift_of_same (hf : r'.fields = r.fields) (hg : r'.groups = r.groups) (s : Scope) :
    Shift r r' s := shift_of_subset (hf ▸ List.Subset.refl _) (hg ▸ List.Subset.refl _) s

theorem shift_of_storeTemplate {t : Template} {out : Registry × Template}
    (h : r.storeTemplate typeId t = .ok out) (s : Scope) : Shift r out.1 s := by
  simp only [storeTemplate, bind_eq_ok, pure_eq_ok] at h
  obtain ⟨form, -, -, -, rfl⟩ := h
  exact shift_of_same (by rfl) (by rfl) s

/-- A field that is defined under a new identifier is put behind all others. -/
theorem defineField_adds {ids : Ids} {spec : Value} {strict : Bool} {out : Registry × Field}
    (fresh : r.field? ids.take.1 = none)
    (h : ((r.defineField typeId spec strict).run.run ids).1 = .ok out) :
    ∃ t es, r.requireType typeId = .ok t ∧ spec.entries = .ok es ∧
      (∀ f ∈ r.fields, f.id ≠ ids.take.1) ∧
      r.buildField typeId ids.take.1 es strict = .ok out.2 ∧ out.1 = r.extend [] [out.2] := by
  have hnew : ∀ f ∈ r.fields, f.id ≠ ids.take.1 := by
    simpa using List.find?_eq_none.mp fresh
  have hadd := addField_of_define h
  simp only [addField, bind_eq_ok, pure_eq_ok] at hadd
  obtain ⟨t, ht, es, hes, f, hbuild, rfl⟩ := hadd
  refine ⟨t, es, ht, hes, hnew, hbuild, ?_⟩
  have hput : upsert Field.id f r.fields = r.fields ++ [f] :=
    upsert_new fun g hg => (buildField_owner hbuild).1 ▸ hnew g hg
  simp [extend, hput]

/-- A group that is defined under a new identifier is put behind all others. -/
theorem defineGroup_adds {ids : Ids} {spec : Value} {out : Registry × Group}
    (fresh : r.group? ids.take.1 = none)
    (h : ((r.defineGroup typeId spec).run.run ids).1 = .ok out) :
    ∃ t es, r.requireType typeId = .ok t ∧ spec.entries = .ok es ∧
      r.buildGroup typeId ids.take.1 es = .ok out.2 ∧ out.1 = r.extend [out.2] [] := by
  have hnew : ∀ g ∈ r.groups, g.id ≠ ids.take.1 := by
    simpa using List.find?_eq_none.mp fresh
  have hadd := addGroup_of_define h
  simp only [addGroup, bind_eq_ok, pure_eq_ok] at hadd
  obtain ⟨t, ht, es, hes, g, hbuild, rfl⟩ := hadd
  refine ⟨t, es, ht, hes, hbuild, ?_⟩
  have hput : upsert Group.id g r.groups = r.groups ++ [g] :=
    upsert_new fun g' hg' => (buildGroup_owner hbuild).1 ▸ hnew g' hg'
  simp [extend, hput]

/-- A field that is defined without an order gets the number of the fields in its scope. -/
theorem order_of_define {strict : Bool} {f : Field} (fresh : ∀ g ∈ r.fields, g.id ≠ id)
    (hnull : (Entries.get es "order").isNull = true)
    (h : r.buildField typeId id es strict = .ok f) :
    f.order = ((r.scope typeId f.groupId).length : Int) := by
  obtain ⟨-, -, -, -, -, -, horder⟩ := Definition.buildField_gives h
  have hothers : (r.scope typeId f.groupId).filter (·.id != id) = r.scope typeId f.groupId := by
    refine List.filter_eq_self.mpr fun g hg => ?_
    rw [scope_eq] at hg
    simpa using fresh g (List.mem_filter.mp hg).1
  rw [fieldOrder, if_pos hnull, hothers] at horder
  exact (Except.ok.inj horder).symm

theorem scope_extend_field {f : Field} {t : String} {group : Option String}
    (hf : inScope t group f = true) : (r.extend [] [f]).scope t group = r.scope t group ++ [f] := by
  rw [scope_eq, scope_eq, extend_fields, List.filter_append]
  simp [hf]

theorem shift_of_defineField {strict : Bool} {f : Field} (fresh : ∀ g ∈ r.fields, g.id ≠ id)
    (hnull : (Entries.get es "order").isNull = true)
    (h : r.buildField typeId id es strict = .ok f) (s : Scope) :
    Shift r (r.extend [] [f]) s := by
  obtain ⟨-, htype⟩ := buildField_owner h
  cases s with
  | groups t => exact .keeps (places_groups_subset fun g hg _ => ⟨g, by simpa using hg, rfl, rfl, rfl⟩)
  | fields t group =>
    cases hf : inScope t group f with
    | true =>
      obtain ⟨ht, hg⟩ := Bool.and_eq_true_iff.mp hf
      obtain rfl := htype.symm.trans (beq_iff_eq.mp ht)
      obtain rfl := beq_iff_eq.mp hg
      refine .adds f.id ?_
      rw [places, scope_extend_field hf, List.map_append, places, List.length_map,
        ← order_of_define fresh hnull h]
      rfl
    | false =>
      refine .keeps (places_fields_subset fun g hg ht hgroup => ?_)
      rcases List.mem_append.mp hg with hg | hg
      · exact ⟨g, hg, rfl, rfl, rfl, rfl⟩
      · obtain rfl := List.mem_singleton.mp hg
        simp [inScope, ht, hgroup] at hf

theorem groupsOf_extend_group {g : Group} {t : String} (hg : g.typeId = t) :
    (r.extend [g] []).groupsOf t = r.groupsOf t ++ [g] := by
  rw [groupsOf, groupsOf, extend_groups, List.filter_append]
  simp [hg]

theorem shift_of_defineGroup {g : Group} (hnull : (Entries.get es "order").isNull = true)
    (h : r.buildGroup typeId id es = .ok g) (s : Scope) : Shift r (r.extend [g] []) s := by
  obtain ⟨-, htype⟩ := buildGroup_owner h
  obtain ⟨-, -, -, -, -, horder⟩ := Definition.buildGroup_gives h
  cases s with
  | fields t group =>
    exact .keeps (places_fields_subset fun f hf _ _ => ⟨f, by simpa using hf, rfl, rfl, rfl, rfl⟩)
  | groups t =>
    by_cases ht : g.typeId = t
    · obtain rfl := htype.symm.trans ht
      refine .adds g.id ?_
      rw [places, groupsOf_extend_group ht, List.map_append, places, List.length_map, ← horder hnull]
      rfl
    · refine .keeps (places_groups_subset fun g' hg' ht' => ?_)
      rcases List.mem_append.mp hg' with hg' | hg'
      · exact ⟨g', hg', rfl, rfl, rfl⟩
      · exact absurd (List.mem_singleton.mp hg' ▸ ht') ht

/-- An update that names no order keeps that of the field. -/
theorem order_of_updateField {f g : Field} {changes : Value} (hf : r.field? id = some f)
    (hes : changes.changes = .ok es) (hspare : es.has "order" = false)
    (h : r.updateField id changes = .ok (r', g)) :
    r' = { r with fields := upsert Field.id g r.fields } ∧ g.id = id ∧ g.typeId = f.typeId ∧
      g.order = f.order := by
  obtain ⟨hr', hbuild⟩ := updateField_eq_ok hf hes h
  have hbuild := hbuild _ rfl
  obtain ⟨hid, htype⟩ := buildField_owner hbuild
  obtain ⟨-, -, -, -, -, -, horder⟩ := Definition.buildField_gives hbuild
  rw [Entries.get_merge hspare, Entries.get_ofNames] at horder
  exact ⟨hr', hid, htype, (Except.ok.inj horder).symm⟩

theorem shift_of_updateField {changes : Value} {out : Registry × Field} (hi : r.Identified)
    (hspare : ∀ es, changes.changes = .ok es → es.has "order" = false) (unmoved : r.Unmoved out.1)
    (h : r.updateField id changes = .ok out) (s : Scope) : Shift r out.1 s := by
  obtain ⟨f, hf⟩ : ∃ f, r.field? id = some f := by
    obtain ⟨f, hf, -⟩ := bind_eq_ok.mp h
    exact ⟨f, field?_of_require hf⟩
  obtain ⟨es, hes⟩ : ∃ es, changes.changes = .ok es := by
    obtain ⟨_, -, h⟩ := bind_eq_ok.mp h
    obtain ⟨_, -, h⟩ := bind_eq_ok.mp h
    obtain ⟨es, hes, -⟩ := bind_eq_ok.mp h
    exact ⟨es, hes⟩
  obtain ⟨hr', hid, htype, horder⟩ := order_of_updateField hf hes (hspare es hes) h
  have hmem := List.mem_of_find?_eq_some hf
  have hfid : f.id = id := by simpa using List.find?_some hf
  rw [hr'] at unmoved ⊢
  cases s with
  | groups t => exact .keeps (places_groups_subset fun g hg _ => ⟨g, hg, rfl, rfl, rfl⟩)
  | fields t group =>
    refine .keeps (places_fields_subset fun f' hf' _ _ => ?_)
    rcases (mem_upsert hi.fields).mp hf' with rfl | ⟨hold, -⟩
    · have hsame : f.id = out.2.id := hfid.trans hid.symm
      exact ⟨f, hmem, hsame, htype.symm, (unmoved f hmem _ hf' hsame.symm).symm, horder.symm⟩
    · exact ⟨f', hold, rfl, rfl, rfl, rfl⟩

/-- A group has the order that is given for it. -/
theorem order_of_buildGroup {g : Group} {n : Int} (hn : Entries.get es "order" = .int n)
    (h : r.buildGroup typeId id es = .ok g) : g.order = n := by
  unfold buildGroup at h
  simp only [↓check_eq_ok, bind_eq_ok, hn] at h
  obtain ⟨name, -, label, -, -, -, -, -, rows, -, h⟩ := h
  rw [if_neg (by simp [Value.isNull])] at h
  obtain ⟨order, horder, h⟩ := bind_eq_ok.mp h
  obtain rfl := pure_eq_ok.mp h
  exact (Except.ok.inj horder).symm

theorem shift_of_updateGroup {changes : Value} {out : Registry × Group} (hi : r.Identified)
    (hspare : ∀ es, changes.changes = .ok es → es.has "order" = false)
    (h : r.updateGroup id changes = .ok out) (s : Scope) : Shift r out.1 s := by
  unfold updateGroup at h
  simp only [bind_eq_ok, pure_eq_ok] at h
  obtain ⟨g, hrequired, _, hentries, es, hes, g', hbuild, rfl⟩ := h
  obtain rfl := Except.ok.inj hentries
  obtain ⟨hmem, hgid⟩ := group?_eq_some (requireGroup_ok hrequired)
  obtain ⟨hid, htype⟩ := buildGroup_owner hbuild
  have horder : g'.order = g.order := by
    refine order_of_buildGroup ?_ hbuild
    rw [Entries.get_merge (hspare es hes), Entries.get_ofNames]
    rfl
  cases s with
  | fields t group =>
    exact .keeps (places_fields_subset fun f hf _ _ => ⟨f, hf, rfl, rfl, rfl, rfl⟩)
  | groups t =>
    refine .keeps (places_groups_subset fun g₀ hg₀ _ => ?_)
    rcases (mem_upsert hi.groups).mp hg₀ with rfl | ⟨hold, -⟩
    · exact ⟨g, hmem, hgid.trans hid.symm, htype.symm, horder.symm⟩
    · exact ⟨g₀, hold, rfl, rfl, rfl⟩

theorem shift_of_reorderFields {ids : Value} {t : String} {group : Option String}
    {out : Registry × List Field} (hi : r.Identified)
    (h : r.reorderFields t ids group = .ok out) (s : Scope) :
    Shift r out.1 s ∧ out.1.Gapless (.fields t group) := by
  obtain ⟨type, htype, hchecked⟩ := bind_eq_ok.mp h
  obtain ⟨⟨⟩, hgroup, -⟩ := bind_eq_ok.mp hchecked
  obtain ⟨names, -, hp, rfl⟩ := (reorderFields_eq_ok hi htype hgroup).mp h
  have hgapless := reorderFields_gapless hi hp
  refine ⟨?_, hgapless⟩
  cases s with
  | groups t' => exact .keeps (places_groups_subset fun g hg _ => ⟨g, hg, rfl, rfl, rfl⟩)
  | fields t' group' =>
    by_cases hsame : t' = t ∧ group' = group
    · obtain ⟨rfl, rfl⟩ := hsame
      exact .orders hgapless
    · refine .keeps (places_fields_subset fun f' hf' ht hg => ?_)
      obtain ⟨f, hf, rfl⟩ := List.mem_map.mp hf'
      have hother : inScope t group f = false := by
        refine Bool.eq_false_iff.mpr fun hin => hsame ?_
        rw [if_pos hin] at ht hg
        obtain ⟨hft, hfg⟩ := Bool.and_eq_true_iff.mp hin
        exact ⟨ht.symm.trans (beq_iff_eq.mp hft), hg.symm.trans (beq_iff_eq.mp hfg)⟩
      exact ⟨f, hf, by simp [hother]⟩

theorem shift_of_reorderGroups {ids : Value} {t : String} {out : Registry × List FieldGroup}
    (hi : r.Identified) (h : r.reorderGroups t ids = .ok out) (s : Scope) :
    Shift r out.1 s ∧ out.1.Gapless (.groups t) := by
  obtain ⟨type, htype, -⟩ := bind_eq_ok.mp h
  obtain ⟨names, -, hp, hr', -⟩ := (reorderGroups_eq_ok hi htype).mp h
  have hgapless := reorderGroups_gapless hi hp
  rw [hr']
  refine ⟨?_, hgapless⟩
  cases s with
  | fields t' group =>
    exact .keeps (places_fields_subset fun f hf _ _ => ⟨f, hf, rfl, rfl, rfl, rfl⟩)
  | groups t' =>
    by_cases hsame : t' = t
    · obtain rfl := hsame
      exact .orders hgapless
    · refine .keeps (places_groups_subset fun g' hg' ht => ?_)
      obtain ⟨g, hg, rfl⟩ := List.mem_map.mp hg'
      have hother : (g.typeId == t) = false := by
        refine Bool.eq_false_iff.mpr fun hin => hsame ?_
        rw [if_pos hin] at ht
        exact ht.symm.trans (beq_iff_eq.mp hin)
      exact ⟨g, hg, by simp [hother]⟩

/-- Every scope is kept, added to or put into a new order. -/
theorem perform_shift {ids : Ids} {op : Operation} (hi : r.Identified)
    (fresh : r.Fresh ids.take.1 op) (orderless : Orderless op) (unmoved : r.Unmoved r')
    (h : ((r.perform op).run.run ids).1 = .ok r') (s : Scope) : Shift r r' s := by
  cases op <;> simp only [perform, map_result, plain_result] at h
  case deleteType =>
    simp only [deleteType, bind_eq_ok, pure_eq_ok] at h
    obtain ⟨-, -, rfl⟩ := h
    refine shift_of_subset ?_ ?_ s <;> exact List.filter_subset_self _
  case deleteField =>
    simp only [deleteField, bind_eq_ok, pure_eq_ok] at h
    obtain ⟨-, -, rfl⟩ := h
    refine shift_of_subset ?_ ?_ s
    · exact List.filter_subset_self _
    · exact List.Subset.refl _
  case deleteGroup =>
    simp only [deleteGroup, bind_eq_ok, pure_eq_ok] at h
    obtain ⟨-, -, rfl⟩ := h
    refine shift_of_subset ?_ ?_ s <;> exact List.filter_subset_self _
  all_goals
    obtain ⟨out, hout, rfl⟩ := map_eq_ok.mp h
  case updateField => exact shift_of_updateField hi orderless unmoved hout s
  case updateGroup => exact shift_of_updateGroup hi orderless hout s
  case reorderFields => exact (shift_of_reorderFields hi hout s).1
  case reorderGroups => exact (shift_of_reorderGroups hi hout s).1
  case defineField =>
    obtain ⟨t, es, -, hspec, hnew, hbuild, hr'⟩ := defineField_adds fresh hout
    rw [hr']
    exact shift_of_defineField hnew (orderless es hspec) hbuild s
  case defineGroup =>
    obtain ⟨t, es, -, hspec, hbuild, hr'⟩ := defineGroup_adds fresh hout
    rw [hr']
    exact shift_of_defineGroup (orderless es hspec) hbuild s
  case defineType =>
    have hout := addType_of_define hout
    simp only [addType, bind_eq_ok, pure_eq_ok] at hout
    obtain ⟨_, -, t, -, rfl⟩ := hout
    exact shift_of_same (by rfl) (by rfl) s
  case updateType =>
    simp only [updateType, bind_eq_ok, pure_eq_ok] at hout
    obtain ⟨_, -, _, -, t, -, rfl⟩ := hout
    exact shift_of_same (by rfl) (by rfl) s
  case saveTemplate =>
    obtain ⟨t, -, hout⟩ := bind_eq_ok.mp hout
    exact shift_of_storeTemplate hout s
  case storeTemplate => exact shift_of_storeTemplate hout s
  case createStarterTemplate =>
    simp only [createStarterTemplate, ↓check_eq_ok, bind_eq_ok] at hout
    obtain ⟨form, -, -, hout⟩ := hout
    exact shift_of_storeTemplate hout s
  case duplicateTemplate =>
    simp only [duplicateTemplate, ↓check_eq_ok, bind_eq_ok] at hout
    obtain ⟨t, -, -, hout⟩ := hout
    exact shift_of_storeTemplate hout s

end Shifting

/-! ### Scopes without gaps -/

section Gaps
variable {r r' : Registry} {s : Scope}

/-- The members of a scope. -/
def members (r : Registry) (s : Scope) : List String := (r.places s).map Prod.fst

/-- Of the members of a scope as they were listed, none is gone except the last ones. -/
def Truncates (r r' : Registry) (s : Scope) : Prop :=
  ∃ kept left, (r.listed s).map Prod.fst = kept ++ left ∧ (∀ id ∈ kept, id ∈ r'.members s) ∧
    ∀ id ∈ left, id ∉ r'.members s

theorem Gapless.listed_orders (h : r.Gapless s) :
    (r.listed s).map Prod.snd = (List.range (r.listed s).length).map Int.ofNat := by
  have hperm : ((r.listed s).map Prod.snd).Perm
      ((List.range (r.listed s).length).map Int.ofNat) := by
    rw [(r.listed_perm s).length_eq]
    exact ((r.listed_perm s).map Prod.snd).trans h
  refine List.Perm.eq_of_pairwise (fun a b _ _ => Int.le_antisymm) (r.pairwise_listed s) ?_ hperm
  rw [List.pairwise_map]
  exact List.pairwise_lt_range.imp fun hlt => Int.ofNat_le.mpr (Nat.le_of_lt hlt)

/-- What is left of the members when only the last ones go. -/
theorem Truncates.places_perm (h : Truncates r r' s) (hi : r.Identified) (hi' : r'.Identified)
    (hsub : r'.places s ⊆ r.places s) :
    ∃ kept left, r.listed s = kept ++ left ∧ (r'.places s).Perm kept := by
  obtain ⟨keptIds, leftIds, hids, hkept, hleft⟩ := h
  obtain ⟨kept, left, hlisted, rfl, rfl⟩ := List.map_eq_append_iff.mp hids
  refine ⟨kept, left, hlisted, ?_⟩
  have hnodup : (r.listed s).Nodup :=
    (r.listed_perm s).nodup_iff.mpr (nodup_places hi s).of_map
  rw [hlisted] at hnodup
  refine (List.perm_ext_iff_of_nodup (nodup_places hi' s).of_map hnodup.of_append_left).mpr
    fun p => ?_
  constructor
  · intro hp
    have hmem : p ∈ kept ++ left := hlisted ▸ (r.listed_perm s).symm.subset (hsub hp)
    refine (List.mem_append.mp hmem).resolve_right fun hgone => ?_
    exact hleft p.1 (List.mem_map_of_mem hgone) (List.mem_map_of_mem hp)
  · intro hp
    obtain ⟨q, hq, hid⟩ := List.mem_map.mp (hkept p.1 (List.mem_map_of_mem hp))
    have hold : p ∈ r.places s :=
      (r.listed_perm s).subset (hlisted ▸ List.mem_append_left left hp)
    exact List.inj_on_of_nodup_map (nodup_places hi s) (hsub hq) hold hid ▸ hq

/-- What keeps the orders of a scope its positions: new members, new orders, and the loss of the last
members. -/
theorem Gapless.shift (h : r.Gapless s) (hi : r.Identified) (hi' : r'.Identified)
    (hshift : Shift r r' s) (ht : Truncates r r' s) : r'.Gapless s := by
  cases hshift with
  | orders h => exact h
  | adds id hadds =>
    rw [Gapless, hadds, List.map_append, List.length_append, List.length_singleton,
      List.range_succ, List.map_append]
    exact h.append_right _
  | keeps hsub =>
    obtain ⟨kept, left, hlisted, hperm⟩ := ht.places_perm hi hi' hsub
    have horders := h.listed_orders
    rw [hlisted] at horders
    have hkept : kept.map Prod.snd = (List.range kept.length).map Int.ofNat := by
      have htake := congrArg (List.take kept.length) horders
      rwa [List.map_append, List.take_left' (List.length_map ..), ← List.map_take, List.take_range,
        List.length_append, Nat.min_eq_left (Nat.le_add_right ..)] at htake
    rw [Gapless, hperm.length_eq, ← hkept]
    exact hperm.map _

/-- No member of a gapless scope has an order that is not below their number. -/
theorem Gapless.lt (h : r.Gapless s) {p : String × Int} (hp : p ∈ r.places s) :
    p.2 < (r.places s).length := by
  have hmem := h.subset (List.mem_map_of_mem hp)
  obtain ⟨n, hn, heq⟩ := List.mem_map.mp hmem
  have hn := List.mem_range.mp hn
  rw [← heq]
  exact Int.ofNat_lt.mpr hn

end Gaps

end Registry
end DocForms
