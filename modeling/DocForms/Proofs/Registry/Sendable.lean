import DocForms.Proofs.Registry.Change
import DocForms.Proofs.Schema.Sendable

/-! Registries of which an answer can carry every record. An operation keeps a registry so if requests
can hold what it is given, and an answer can carry what it gives. -/
namespace DocForms

/-! ### Records -/

theorem Value.sendable_int? {n : Option Int} :
    (Value.int? n).Sendable ↔ ∀ m ∈ n, Decimal.Short m := by
  cases n with
  | none => exact iff_of_true rfl nofun
  | some m => exact sendable_int.trans (by simp)

open Value

theorem DocumentType.sendable_toValue {t : DocumentType} :
    t.toValue.Sendable ↔ t.description.Sendable ∧ t.category.Sendable := by
  rw [toValue, sendable_named, entries]
  simp only [List.forall_mem_cons, List.not_mem_nil, false_implies, implies_true, sendable_text,
    true_and, and_true]

theorem Field.sendable_toValue {f : Field} : f.toValue.Sendable ↔
    (∀ o ∈ f.options, o.toValue.Sendable) ∧ (∀ rs ∈ f.rules, rs.toValue.Sendable) ∧
      Decimal.Short f.order := by
  have hgiven {α : Type} (a : Option α) (g : α → Value) :
      ((a.map g).getD .null).Sendable ↔ ∀ x ∈ a, (g x).Sendable := by
    cases a with
    | none => exact iff_of_true rfl nofun
    | some x => simp
  rw [toValue, sendable_named]
  simp only [List.forall_mem_cons, List.not_mem_nil, false_implies, implies_true, sendable_text,
    sendable_text?, sendable_bool, hgiven, sendable_int, true_and, and_true]

theorem FieldGroup.sendable_toValue {g : FieldGroup} : g.toValue.Sendable ↔
    (FieldGroup.toValue { toGroup := g.toGroup }).Sendable ∧ ∀ f ∈ g.fields, f.toValue.Sendable := by
  rw [toValue, toValue, sendable_named, sendable_named]
  simp only [List.forall_mem_cons, List.not_mem_nil, false_implies, implies_true, sendable_list,
    List.forall_mem_map, List.map_nil, and_true, and_assoc]

theorem Group.sendable_toValue {g : Group} : (FieldGroup.toValue { toGroup := g }).Sendable ↔
    g.description.Sendable ∧ (∀ n ∈ g.minRows, Decimal.Short n) ∧
      (∀ n ∈ g.maxRows, Decimal.Short n) ∧ Decimal.Short g.order := by
  rw [FieldGroup.toValue, sendable_named]
  simp only [List.forall_mem_cons, List.not_mem_nil, false_implies, implies_true, sendable_text,
    sendable_bool, sendable_int?, sendable_int, sendable_list, List.map_nil, true_and, and_true]

section Upsert
variable {α : Type} {id : α → String} {r : α} {as : List α}

theorem forall_mem_upsert {p : α → Prop} (hr : p r) (has : ∀ a ∈ as, p a) :
    ∀ a ∈ upsert id r as, p a := by
  induction as with
  | nil => exact List.forall_mem_singleton.mpr hr
  | cons b as ih =>
    obtain ⟨hb, has⟩ := List.forall_mem_cons.mp has
    unfold upsert
    split
    · exact List.forall_mem_cons.mpr ⟨hr, has⟩
    · exact List.forall_mem_cons.mpr ⟨hb, ih has⟩

end Upsert

namespace Registry

/-- A body can carry every record of the registry. -/
structure Sendable (r : Registry) : Prop where
  type : ∀ t ∈ r.types, t.toValue.Sendable
  group : ∀ g ∈ r.groups, (FieldGroup.toValue { toGroup := g }).Sendable
  field : ∀ f ∈ r.fields, f.toValue.Sendable
  template : ∀ p ∈ r.templates, p.2.toValue.Sendable

/-- The numbers of fields and of groups have texts. New records are counted for their orders. -/
structure Countable (r : Registry) : Prop where
  fields : Decimal.Short r.fields.length
  groups : Decimal.Short r.groups.length

variable {r r' : Registry} {id typeId : String} {spec : Entries}

/-! ### What is built -/

theorem buildType_sendable {t : DocumentType} (hspec : (record spec).Sendable)
    (h : r.buildType id spec = .ok t) : t.toValue.Sendable := by
  unfold buildType at h
  simp only [↓check_eq_ok, bind_eq_ok] at h
  obtain ⟨name, -, code, -, -, -, -, h⟩ := h
  split at h
  · exact absurd h refuse_ne_ok
  · obtain rfl := pure_eq_ok.mp h
    exact DocumentType.sendable_toValue.mpr
      ⟨sendable_orNull (sendable_get hspec _), sendable_orNull (sendable_get hspec _)⟩

theorem recordRefusal_eq_ok {α : Type} {strict : Bool} {own : Refusal → Bool}
    {res : Except Fault (Option α)} {out : Option α × List String}
    (h : recordRefusal strict own res = .ok out) : out.1 = none ∨ res = .ok out.1 := by
  unfold recordRefusal at h
  split at h
  · obtain rfl := Except.ok.inj h
    exact .inr rfl
  · split at h
    · obtain rfl := Except.ok.inj h
      exact .inl rfl
    · cases h
  · cases h

theorem parse_sendable {strict : Bool} {kind : FieldKind} {options rules : Value}
    {field : Option String} {c : Constraints} (hoptions : options.Sendable) (hrules : rules.Sendable)
    (h : Constraints.parse strict kind options rules field = .ok c) :
    (∀ o ∈ c.options, o.toValue.Sendable) ∧ ∀ rs ∈ c.rules, rs.toValue.Sendable := by
  obtain ⟨first, hfirst, h⟩ := bind_eq_ok.mp h
  obtain ⟨second, hsecond, h⟩ := bind_eq_ok.mp h
  obtain rfl := pure_eq_ok.mp h
  constructor
  · intro o ho
    rcases recordRefusal_eq_ok hfirst with hnone | hparse
    · rw [hnone] at ho
      cases ho
    · exact Options.sendable_of_parse hoptions (hparse.trans (congrArg Except.ok ho))
  · intro rs hrs
    rcases recordRefusal_eq_ok hsecond with hnone | hparse
    · rw [hnone] at hrs
      cases hrs
    · exact Rules.sendable_of_parse hrules (hparse.trans (congrArg Except.ok hrs))

theorem length_scope_le (r : Registry) (typeId : String) (group : Option String) :
    (r.scope typeId group).length ≤ r.fields.length :=
  (List.length_filter_le ..).trans (List.length_filter_le ..)

theorem buildField_sendable {strict : Bool} {f : Field} (hc : r.Countable)
    (hspec : (record spec).Sendable) (h : r.buildField typeId id spec strict = .ok f) :
    f.toValue.Sendable := by
  unfold buildField at h
  simp only [↓check_eq_ok, bind_eq_ok, pure_eq_ok] at h
  obtain ⟨name, -, label, -, -, -, group, -, -, -, -, -, kind, -, constraints, hparse, order,
    horder, rfl⟩ := h
  obtain ⟨hoptions, hrules⟩ := parse_sendable (sendable_get hspec _) (sendable_get hspec _) hparse
  refine Field.sendable_toValue.mpr ⟨hoptions, hrules, ?_⟩
  unfold fieldOrder at horder
  split at horder
  · obtain rfl := Except.ok.inj horder
    exact hc.fields.of_le ((List.length_filter_le ..).trans (length_scope_le ..))
  · exact short_of_toInteger (sendable_get hspec _) horder

theorem rowBound_short {b : RowBound} {v : Value} {n : Option Int} (hv : v.Sendable)
    (h : rowBound b v = .ok n) : ∀ m ∈ n, Decimal.Short m := by
  unfold rowBound at h
  split at h
  · obtain rfl := Except.ok.inj h
    nofun
  · split at h
    · exact absurd h refuse_ne_ok
    · obtain rfl := Except.ok.inj h
      rintro m ⟨⟩
      exact sendable_int.mp hv
  · exact absurd h refuse_ne_ok

theorem rowBounds_short {repeatable : Bool} {low high : Option Int} (hspec : (record spec).Sendable)
    (h : rowBounds repeatable spec = .ok (low, high)) :
    (∀ n ∈ low, Decimal.Short n) ∧ ∀ n ∈ high, Decimal.Short n := by
  unfold rowBounds at h
  cases repeatable with
  | false =>
    obtain ⟨rfl, rfl⟩ : none = low ∧ none = high := by simpa [pure_eq_ok] using h
    exact ⟨nofun, nofun⟩
  | true =>
    simp only [Bool.not_true, Bool.false_eq_true, if_false, bind_eq_ok] at h
    obtain ⟨low', hlow, high', hhigh, h⟩ := h
    obtain ⟨rfl, rfl⟩ : low' = low ∧ high' = high := by
      split at h
      · split at h
        · exact absurd h refuse_ne_ok
        · exact Prod.mk.inj (pure_eq_ok.mp h)
      · exact Prod.mk.inj (pure_eq_ok.mp h)
    exact ⟨rowBound_short (sendable_get hspec _) hlow, rowBound_short (sendable_get hspec _) hhigh⟩

theorem buildGroup_sendable {g : Group} (hc : r.Countable) (hspec : (record spec).Sendable)
    (h : r.buildGroup typeId id spec = .ok g) : (FieldGroup.toValue { toGroup := g }).Sendable := by
  unfold buildGroup at h
  simp only [↓check_eq_ok, bind_eq_ok] at h
  obtain ⟨name, -, label, -, -, -, -, -, ⟨low, high⟩, hrows, h⟩ := h
  obtain ⟨hlow, hhigh⟩ := rowBounds_short hspec hrows
  have hdescription := sendable_orNull (sendable_get hspec "description")
  split at h <;> simp only [bind_eq_ok, pure_eq_ok] at h
  · obtain ⟨order, rfl, rfl⟩ := h
    exact Group.sendable_toValue.mpr
      ⟨hdescription, hlow, hhigh, hc.groups.of_le (List.length_filter_le ..)⟩
  · obtain ⟨order, horder, rfl⟩ := h
    exact Group.sendable_toValue.mpr
      ⟨hdescription, hlow, hhigh, short_of_toInteger (sendable_get hspec _) horder⟩

/-! ### Operations -/

theorem Sendable.putType (h : r.Sendable) {t : DocumentType} (ht : t.toValue.Sendable) :
    Sendable { r with types := upsert DocumentType.id t r.types } :=
  { h with type := forall_mem_upsert ht h.type }

theorem Sendable.putField (h : r.Sendable) {f : Field} (hf : f.toValue.Sendable) :
    Sendable { r with fields := upsert Field.id f r.fields } :=
  { h with field := forall_mem_upsert hf h.field }

theorem Sendable.putGroup (h : r.Sendable) {g : Group}
    (hg : (FieldGroup.toValue { toGroup := g }).Sendable) :
    Sendable { r with groups := upsert Group.id g r.groups } :=
  { h with group := forall_mem_upsert hg h.group }

theorem Sendable.putTemplate (h : r.Sendable) {t : Template} (ht : t.toValue.Sendable) :
    Sendable { r with templates := upsert Prod.fst (id, t) r.templates } :=
  { h with template := forall_mem_upsert ht h.template }

theorem Sendable.mapFields (h : r.Sendable) {change : Field → Field}
    (hf : ∀ f ∈ r.fields, (change f).toValue.Sendable) :
    Sendable { r with fields := r.fields.map change } :=
  { h with field := List.forall_mem_map.mpr hf }

theorem Sendable.mapGroups (h : r.Sendable) {change : Group → Group}
    (hg : ∀ g ∈ r.groups, (FieldGroup.toValue { toGroup := change g }).Sendable) :
    Sendable { r with groups := r.groups.map change } :=
  { h with group := List.forall_mem_map.mpr hg }

/-- A group that is listed is one of the registry with fields of it. -/
theorem Sendable.withFields (h : r.Sendable) {g : Group} (hg : g ∈ r.groups) :
    (r.withFields typeId g).toValue.Sendable := by
  refine FieldGroup.sendable_toValue.mpr ⟨h.group g hg, fun f hf => h.field f ?_⟩
  exact (List.mem_filter.mp (List.mem_filter.mp (List.mem_mergeSort.mp hf)).1).1

section Types
variable {body : Entries} {out : Registry × DocumentType}

theorem requireType_mem {t : DocumentType} (h : r.requireType id = .ok t) : t ∈ r.types := by
  unfold requireType at h
  split at h
  · rename_i u hu
    obtain rfl := Except.ok.inj h
    exact List.mem_of_find?_eq_some hu
  · exact absurd h refuse_ne_ok

theorem addType_sendable (hr : r.Sendable) (hbody : (record body).Sendable)
    (h : r.addType id (.record body) = .ok out) : out.1.Sendable ∧ out.2.toValue.Sendable := by
  obtain ⟨entries, hentries, h⟩ := bind_eq_ok.mp h
  obtain rfl := Except.ok.inj hentries
  obtain ⟨t, ht, h⟩ := bind_eq_ok.mp h
  obtain rfl := pure_eq_ok.mp h
  have hsends := buildType_sendable hbody ht
  exact ⟨hr.putType hsends, hsends⟩

theorem updateType_sendable (hr : r.Sendable) (hbody : (record body).Sendable)
    (h : r.updateType id (.record body) = .ok out) : out.1.Sendable ∧ out.2.toValue.Sendable := by
  obtain ⟨current, hcurrent, h⟩ := bind_eq_ok.mp h
  obtain ⟨changes, hchanges, h⟩ := bind_eq_ok.mp h
  obtain rfl := Except.ok.inj hchanges
  obtain ⟨t, ht, h⟩ := bind_eq_ok.mp h
  obtain rfl := pure_eq_ok.mp h
  have hmerged := sendable_merge (hr.type current (requireType_mem hcurrent)) hbody
  have hsends := buildType_sendable hmerged ht
  exact ⟨hr.putType hsends, hsends⟩

theorem deleteType_sendable (hr : r.Sendable) (h : r.deleteType id = .ok r') : r'.Sendable := by
  obtain ⟨_, -, h⟩ := bind_eq_ok.mp h
  obtain rfl := pure_eq_ok.mp h
  exact ⟨fun t ht => hr.type t (List.mem_of_mem_filter ht),
    fun g hg => hr.group g (List.mem_of_mem_filter hg),
    fun f hf => hr.field f (List.mem_of_mem_filter hf),
    fun p hp => hr.template p (List.mem_of_mem_filter hp)⟩

end Types

theorem length_completeOrder {scope names : List String} {ids : Value} {e : Refusal}
    (h : completeOrder scope ids e = .ok names) : names.length = scope.length := by
  simp only [completeOrder, ↓check_eq_ok, bind_eq_ok] at h
  obtain ⟨vs, -, hlength, keys, -, h⟩ := h
  split at h
  · rename_i hcomplete
    obtain rfl := pure_eq_ok.mp h
    simp only [Bool.and_eq_true, decide_eq_true_eq] at hcomplete
    exact hcomplete.1.1.trans (by simpa using hlength)
  · exact absurd h refuse_ne_ok

theorem short_positionIn {scope names : List String} {ids : Value} {e : Refusal}
    (hscope : Decimal.Short scope.length) (h : completeOrder scope ids e = .ok names)
    (name : String) : Decimal.Short (positionIn names name) :=
  hscope.of_le (length_completeOrder h ▸ List.idxOf_le_length)

section Fields
variable {body : Entries} {out : Registry × Field}

theorem addField_sendable {strict : Bool} (hr : r.Sendable) (hc : r.Countable)
    (hbody : (record body).Sendable) (h : r.addField typeId id (.record body) strict = .ok out) :
    out.1.Sendable ∧ out.2.toValue.Sendable := by
  obtain ⟨_, -, h⟩ := bind_eq_ok.mp h
  obtain ⟨entries, hentries, h⟩ := bind_eq_ok.mp h
  obtain rfl := Except.ok.inj hentries
  obtain ⟨f, hf, h⟩ := bind_eq_ok.mp h
  obtain rfl := pure_eq_ok.mp h
  have hsends := buildField_sendable hc hbody hf
  exact ⟨hr.putField hsends, hsends⟩

theorem updateField_sendable (hr : r.Sendable) (hc : r.Countable) (hbody : (record body).Sendable)
    (h : r.updateField id (.record body) = .ok out) :
    out.1.Sendable ∧ out.2.toValue.Sendable := by
  obtain ⟨current, hcurrent, h⟩ := bind_eq_ok.mp h
  obtain ⟨entries, hentries, h⟩ := bind_eq_ok.mp h
  obtain rfl := Except.ok.inj hentries
  obtain ⟨changes, hchanges, h⟩ := bind_eq_ok.mp h
  obtain rfl := Except.ok.inj hchanges
  obtain ⟨f, hf, h⟩ := bind_eq_ok.mp h
  obtain rfl := pure_eq_ok.mp h
  have hmerged := sendable_merge (hr.field current (requireField_ok hcurrent).1) hbody
  have hsends := buildField_sendable hc hmerged hf
  exact ⟨hr.putField hsends, hsends⟩

theorem deleteField_sendable (hr : r.Sendable) (h : r.deleteField id = .ok r') : r'.Sendable := by
  obtain ⟨_, -, h⟩ := bind_eq_ok.mp h
  obtain rfl := pure_eq_ok.mp h
  exact { hr with field := fun f hf => hr.field f (List.mem_of_mem_filter hf) }

theorem reorderFields_sendable {ids : Value} {group : Option String} {out : Registry × List Field}
    (hr : r.Sendable) (hc : r.Countable) (h : r.reorderFields typeId ids group = .ok out) :
    out.1.Sendable ∧ ∀ f ∈ out.2, f.toValue.Sendable := by
  simp only [reorderFields, bind_eq_ok, pure_eq_ok] at h
  obtain ⟨_, -, _, -, names, hnames, rfl⟩ := h
  have hscope : Decimal.Short ((r.scope typeId group).map (·.id)).length :=
    hc.fields.of_le (by rw [List.length_map]; exact length_scope_le ..)
  have hafter : Sendable { r with fields := r.fields.map fun f => if names.contains f.id then
      { f with order := positionIn names f.id } else f } := by
    refine hr.mapFields fun f hf => ?_
    split
    · obtain ⟨hoptions, hrules, -⟩ := Field.sendable_toValue.mp (hr.field f hf)
      exact Field.sendable_toValue.mpr ⟨hoptions, hrules, short_positionIn hscope hnames f.id⟩
    · exact hr.field f hf
  refine ⟨hafter, fun f hf => hafter.field f ?_⟩
  exact (List.mem_filter.mp (List.mem_filter.mp (List.mem_mergeSort.mp hf)).1).1

end Fields

section Groups
variable {body : Entries} {out : Registry × Group}

theorem addGroup_sendable (hr : r.Sendable) (hc : r.Countable) (hbody : (record body).Sendable)
    (h : r.addGroup typeId id (.record body) = .ok out) :
    out.1.Sendable ∧ (FieldGroup.toValue { toGroup := out.2 }).Sendable := by
  obtain ⟨_, -, h⟩ := bind_eq_ok.mp h
  obtain ⟨entries, hentries, h⟩ := bind_eq_ok.mp h
  obtain rfl := Except.ok.inj hentries
  obtain ⟨g, hg, h⟩ := bind_eq_ok.mp h
  obtain rfl := pure_eq_ok.mp h
  have hsends := buildGroup_sendable hc hbody hg
  exact ⟨hr.putGroup hsends, hsends⟩

theorem updateGroup_sendable (hr : r.Sendable) (hc : r.Countable) (hbody : (record body).Sendable)
    (h : r.updateGroup id (.record body) = .ok out) : out.1.Sendable := by
  obtain ⟨current, hcurrent, h⟩ := bind_eq_ok.mp h
  obtain ⟨entries, hentries, h⟩ := bind_eq_ok.mp h
  obtain rfl := Except.ok.inj hentries
  obtain ⟨changes, hchanges, h⟩ := bind_eq_ok.mp h
  obtain rfl := Except.ok.inj hchanges
  obtain ⟨g, hg, h⟩ := bind_eq_ok.mp h
  obtain rfl := pure_eq_ok.mp h
  have hcurrent := (group?_eq_some (requireGroup_ok hcurrent)).1
  exact hr.putGroup (buildGroup_sendable hc (sendable_merge (hr.group current hcurrent) hbody) hg)

theorem deleteGroup_sendable (hr : r.Sendable) (h : r.deleteGroup id = .ok r') : r'.Sendable := by
  obtain ⟨_, -, h⟩ := bind_eq_ok.mp h
  obtain rfl := pure_eq_ok.mp h
  exact { hr with
    group := fun g hg => hr.group g (List.mem_of_mem_filter hg)
    field := fun f hf => hr.field f (List.mem_of_mem_filter hf) }

theorem getGroup_sendable (hr : r.Sendable) {g : FieldGroup} (h : r.getGroup id = .ok g) :
    g.toValue.Sendable := by
  simp only [getGroup, bind_eq_ok, pure_eq_ok] at h
  obtain ⟨g', hg', _, -, rfl⟩ := h
  exact hr.withFields (group?_eq_some (requireGroup_ok hg')).1

theorem listGroups_sendable (hr : r.Sendable) {gs : List FieldGroup}
    (h : r.listGroups typeId = .ok gs) : ∀ g ∈ gs, g.toValue.Sendable := by
  simp only [listGroups, bind_eq_ok, pure_eq_ok] at h
  obtain ⟨_, -, rfl⟩ := h
  refine List.forall_mem_map.mpr fun g hg => hr.withFields ?_
  exact (List.mem_filter.mp (List.mem_mergeSort.mp hg)).1

theorem reorderGroups_sendable {ids : Value} {out : Registry × List FieldGroup} (hr : r.Sendable)
    (hc : r.Countable) (h : r.reorderGroups typeId ids = .ok out) :
    out.1.Sendable ∧ ∀ g ∈ out.2, g.toValue.Sendable := by
  simp only [reorderGroups, bind_eq_ok, pure_eq_ok] at h
  obtain ⟨_, -, names, hnames, listed, hlisted, rfl⟩ := h
  have hscope : Decimal.Short ((r.groupsOf typeId).map (·.id)).length :=
    hc.groups.of_le (by rw [List.length_map]; exact List.length_filter_le ..)
  have hafter : Sendable { r with groups := r.groups.map fun g => if names.contains g.id then
      { g with order := positionIn names g.id } else g } := by
    refine hr.mapGroups fun g hg => ?_
    split
    · obtain ⟨hdescription, hlow, hhigh, -⟩ := Group.sendable_toValue.mp (hr.group g hg)
      exact Group.sendable_toValue.mpr
        ⟨hdescription, hlow, hhigh, short_positionIn hscope hnames g.id⟩
    · exact hr.group g hg
  exact ⟨hafter, listGroups_sendable hafter hlisted⟩

end Groups

section Templates
variable {out : Registry × Template}

theorem storeTemplate_sendable {t : Template} (hr : r.Sendable) (ht : t.toValue.Sendable)
    (h : r.storeTemplate typeId t = .ok out) : out.1.Sendable ∧ out.2.toValue.Sendable := by
  simp only [storeTemplate, bind_eq_ok, pure_eq_ok] at h
  obtain ⟨_, -, _, -, rfl⟩ := h
  exact ⟨hr.putTemplate ht, ht⟩

theorem saveTemplate_sendable {payload : Value} (hr : r.Sendable) (hpayload : payload.Sendable)
    (h : r.saveTemplate typeId payload = .ok out) : out.1.Sendable ∧ out.2.toValue.Sendable := by
  obtain ⟨t, ht, h⟩ := bind_eq_ok.mp h
  exact storeTemplate_sendable hr (Template.sendable_of_payload hpayload ht) h

theorem createStarterTemplate_sendable (hr : r.Sendable)
    (h : r.createStarterTemplate typeId = .ok out) :
    out.1.Sendable ∧ out.2.toValue.Sendable := by
  simp only [createStarterTemplate, ↓check_eq_ok, bind_eq_ok] at h
  obtain ⟨form, -, -, h⟩ := h
  refine storeTemplate_sendable hr (Template.sendable_toValue.mpr ?_) h
  exact ⟨Template.sendable_defaultMargins, sendable_list.mpr (List.forall_mem_nil _)⟩

theorem duplicateTemplate_sendable {targetId : String} (hr : r.Sendable)
    (h : r.duplicateTemplate typeId targetId = .ok out) :
    out.1.Sendable ∧ out.2.toValue.Sendable := by
  simp only [duplicateTemplate, ↓check_eq_ok, bind_eq_ok] at h
  obtain ⟨t, ht, -, h⟩ := h
  refine storeTemplate_sendable hr ?_ h
  obtain ⟨_, -, ht⟩ := bind_eq_ok.mp ht
  split at ht
  · rename_i t' hlookup
    obtain rfl := pure_eq_ok.mp ht
    obtain ⟨_, _, heq, -⟩ := List.lookup_eq_some_iff.mp hlookup
    exact hr.template _ (heq ▸ List.mem_append_right _ (List.mem_cons_self ..))
  · exact absurd ht refuse_ne_ok

end Templates

end Registry
end DocForms
