import DocForms.Proofs.Keyed
import DocForms.Proofs.Registry.Assembly

/-! An operation on one document type leaves the forms, the templates and the order of the others as
they are. -/
namespace DocForms

section Lists
variable {α : Type} {p : α → Bool} {as : List α}

theorem filter_upsert {id : α → String} {a : α} (ha : p a = false)
    (has : ∀ b ∈ as, id b = id a → p b = false) : (upsert id a as).filter p = as.filter p := by
  induction as with
  | nil => simp [upsert, ha]
  | cons b as ih =>
    have hrest := ih fun c hc => has c (List.mem_cons_of_mem _ hc)
    unfold upsert
    split
    · rename_i hb
      have hpb := has b (List.mem_cons_self ..) (by simpa using hb)
      rw [List.filter_cons_of_neg (by simp [ha]), List.filter_cons_of_neg (by simp [hpb])]
    · rw [List.filter_cons, List.filter_cons, hrest]

/-- Dropping none of the elements that are kept. -/
theorem filter_filter_of_imp {q : α → Bool} (h : ∀ a ∈ as, p a = true → q a = true) :
    (as.filter q).filter p = as.filter p := by
  rw [List.filter_filter]
  refine List.filter_congr fun a ha => ?_
  cases hp : p a with
  | false => rfl
  | true => rw [h a ha hp]; rfl

/-- Changing none of the elements that are kept. -/
theorem filter_map_of_fixed {f : α → α} (hp : ∀ a, p (f a) = p a)
    (hf : ∀ a ∈ as, p a = true → f a = a) : (as.map f).filter p = as.filter p := by
  rw [List.filter_map, show p ∘ f = p from funext hp]
  refine (List.map_congr_left fun a ha => ?_).trans (List.map_id _)
  obtain ⟨ha, hpa⟩ := List.mem_filter.mp ha
  exact hf a ha hpa

end Lists

/-- The document type that an operation acts on. The first identifier that it may ask for is given. -/
def Operation.subject? (r : Registry) (newId : String) : Operation → Option String
  | .defineType _ => some newId
  | .updateType id _ | .deleteType id => some id
  | .defineField typeId .. | .reorderFields typeId .. => some typeId
  | .updateField id _ | .deleteField id => (r.field? id).map (·.typeId)
  | .defineGroup typeId _ | .reorderGroups typeId _ => some typeId
  | .updateGroup id _ | .deleteGroup id => (r.group? id).map (·.typeId)
  | .saveTemplate typeId _ | .storeTemplate typeId _ | .createStarterTemplate typeId => some typeId
  | .duplicateTemplate _ targetId => some targetId

namespace Registry

/-- The records of all types but one are the same, in the same order. -/
structure SameBeside (typeId : String) (r r' : Registry) : Prop where
  types : r'.types.filter (·.id != typeId) = r.types.filter (·.id != typeId)
  groups : r'.groups.filter (·.typeId != typeId) = r.groups.filter (·.typeId != typeId)
  fields : r'.fields.filter (·.typeId != typeId) = r.fields.filter (·.typeId != typeId)
  templates : r'.templates.filter (·.1 != typeId) = r.templates.filter (·.1 != typeId)

namespace SameBeside
variable {r r' : Registry} {a b : String}

theorem trans {r'' : Registry} (h : SameBeside a r r') (h' : SameBeside a r' r'') :
    SameBeside a r r'' :=
  ⟨h'.types.trans h.types, h'.groups.trans h.groups, h'.fields.trans h.fields,
    h'.templates.trans h.templates⟩

/-! ### What is read of the other types -/

theorem requireType (h : SameBeside a r r') (hb : b ≠ a) : r'.requireType b = r.requireType b := by
  have found (s : Registry) : s.type? b = (s.types.filter (·.id != a)).find? (·.id == b) := by
    rw [List.find?_filter, type?]
    congr 1
    funext t
    by_cases ht : t.id = b <;> simp [ht, hb]
  rw [Registry.requireType, Registry.requireType, found r', h.types, ← found r]

theorem fieldsOf (h : SameBeside a r r') (hb : b ≠ a) : r'.fieldsOf b = r.fieldsOf b := by
  have kept (s : Registry) : s.fieldsOf b = (s.fields.filter (·.typeId != a)).filter (·.typeId == b) :=
    (filter_filter_of_imp (by simp +contextual [hb])).symm
  rw [kept r', h.fields, ← kept r]

theorem groupsOf (h : SameBeside a r r') (hb : b ≠ a) : r'.groupsOf b = r.groupsOf b := by
  have kept (s : Registry) : s.groupsOf b = (s.groups.filter (·.typeId != a)).filter (·.typeId == b) :=
    (filter_filter_of_imp (by simp +contextual [hb])).symm
  rw [kept r', h.groups, ← kept r]

theorem getForm (h : SameBeside a r r') (hb : b ≠ a) : r'.getForm b = r.getForm b := by
  have hscope : r'.scope b = r.scope b := by
    funext group
    rw [scope, scope, h.fieldsOf hb]
  have hwith : r'.withFields b = r.withFields b := by
    funext g
    rw [withFields, withFields, hscope]
  simp only [Registry.getForm, listFields, listGroups, h.requireType hb, h.groupsOf hb,
    hscope, hwith]

theorem getTemplate (h : SameBeside a r r') (hb : b ≠ a) : r'.getTemplate b = r.getTemplate b := by
  have found (s : Registry) : s.templates.lookup b = (s.templates.filter (·.1 != a)).lookup b := by
    have herase := Keyed.get?_erase s.templates a b
    rw [if_neg hb] at herase
    exact herase.symm
  rw [Registry.getTemplate, Registry.getTemplate, h.requireType hb, found r', h.templates, ← found r]

/-! ### What operations do to records -/

theorem putType {t : DocumentType} (ht : t.id = a) :
    SameBeside a r { r with types := upsert DocumentType.id t r.types } where
  types := filter_upsert (by simp [ht]) fun u _ hu => by simp [hu, ht]
  groups := rfl
  fields := rfl
  templates := rfl

theorem dropType : SameBeside a r {
    types := r.types.filter (·.id != a)
    groups := r.groups.filter (·.typeId != a)
    fields := r.fields.filter (·.typeId != a)
    templates := r.templates.filter (·.1 != a) } where
  types := filter_filter_of_imp fun _ _ h => h
  groups := filter_filter_of_imp fun _ _ h => h
  fields := filter_filter_of_imp fun _ _ h => h
  templates := filter_filter_of_imp fun _ _ h => h

theorem putField {f : Field} (hf : f.typeId = a)
    (hsame : ∀ g ∈ r.fields, g.id = f.id → g.typeId = a) :
    SameBeside a r { r with fields := upsert Field.id f r.fields } where
  types := rfl
  groups := rfl
  fields := filter_upsert (by simp [hf]) fun g hg hid => by simp [hsame g hg hid]
  templates := rfl

theorem putGroup {g : Group} (hg : g.typeId = a)
    (hsame : ∀ g' ∈ r.groups, g'.id = g.id → g'.typeId = a) :
    SameBeside a r { r with groups := upsert Group.id g r.groups } where
  types := rfl
  groups := filter_upsert (by simp [hg]) fun g' hg' hid => by simp [hsame g' hg' hid]
  fields := rfl
  templates := rfl

theorem putTemplate (t : Template) :
    SameBeside a r { r with templates := upsert Prod.fst (a, t) r.templates } where
  types := rfl
  groups := rfl
  fields := rfl
  templates := filter_upsert (by simp) fun e _ he => by simp [he]

theorem dropField {id : String} (hsame : ∀ f ∈ r.fields, f.id = id → f.typeId = a) :
    SameBeside a r { r with fields := r.fields.filter (·.id != id) } where
  types := rfl
  groups := rfl
  fields := filter_filter_of_imp fun f hf hne => by
    have hid : f.id ≠ id := fun hid => by simp [hsame f hf hid] at hne
    simpa using hid
  templates := rfl

/-- The fields of a group that is deleted are fields of its type, since a field lies in a group of
its own type only. -/
theorem dropGroup (ho : r.Owned) {id : String} (hsame : ∀ g ∈ r.groups, g.id = id → g.typeId = a) :
    SameBeside a r { r with
      fields := r.fields.filter (·.groupId != some id)
      groups := r.groups.filter (·.id != id) } where
  types := rfl
  groups := filter_filter_of_imp fun g hg hne => by
    have hid : g.id ≠ id := fun hid => by simp [hsame g hg hid] at hne
    simpa using hid
  fields := filter_filter_of_imp fun f hf hne => by
    have hgroup : f.groupId ≠ some id := by
      intro hid
      obtain ⟨g, hg, hgid, htype⟩ := ho.grouped f hf id hid
      simp [← htype, hsame g hg hgid] at hne
    simpa using hgroup
  templates := rfl

theorem orderFields {names : List String} {order : Field → Int}
    (hnames : ∀ f ∈ r.fields, f.id ∈ names → f.typeId = a) :
    SameBeside a r { r with
      fields := r.fields.map fun f =>
        if names.contains f.id then { f with order := order f } else f } where
  types := rfl
  groups := rfl
  fields := by
    refine filter_map_of_fixed (fun f => by split <;> rfl) fun f hf hne => if_neg ?_
    intro hmem
    simp [hnames f hf (by simpa using hmem)] at hne
  templates := rfl

theorem orderGroups {names : List String} {order : Group → Int}
    (hnames : ∀ g ∈ r.groups, g.id ∈ names → g.typeId = a) :
    SameBeside a r { r with
      groups := r.groups.map fun g =>
        if names.contains g.id then { g with order := order g } else g } where
  types := rfl
  groups := by
    refine filter_map_of_fixed (fun g => by split <;> rfl) fun g hg hne => if_neg ?_
    intro hmem
    simp [hnames g hg (by simpa using hmem)] at hne
  fields := rfl
  templates := rfl

end SameBeside

variable {r r' : Registry} {id typeId : String}

/-! ### What operations build -/

theorem buildType_id {spec : Entries} {t : DocumentType} (h : r.buildType id spec = .ok t) :
    t.id = id := by
  unfold buildType at h
  simp only [↓check_eq_ok, bind_eq_ok] at h
  obtain ⟨name, -, code, -, -, -, -, h⟩ := h
  split at h
  · exact absurd h refuse_ne_ok
  · obtain rfl := pure_eq_ok.mp h
    rfl

theorem buildField_owner {spec : Entries} {strict : Bool} {f : Field}
    (h : r.buildField typeId id spec strict = .ok f) : f.id = id ∧ f.typeId = typeId := by
  unfold buildField at h
  simp only [↓check_eq_ok, bind_eq_ok, pure_eq_ok] at h
  obtain ⟨_, -, _, -, -, -, _, -, -, -, -, -, _, -, _, -, _, -, rfl⟩ := h
  exact ⟨rfl, rfl⟩

theorem buildGroup_owner {spec : Entries} {g : Group}
    (h : r.buildGroup typeId id spec = .ok g) : g.id = id ∧ g.typeId = typeId := by
  unfold buildGroup at h
  simp only [↓check_eq_ok, bind_eq_ok] at h
  obtain ⟨_, -, _, -, -, -, -, -, _, -, h⟩ := h
  split at h <;> simp only [bind_eq_ok, pure_eq_ok] at h
  all_goals
    obtain ⟨_, -, rfl⟩ := h
    exact ⟨rfl, rfl⟩

/-- A new order names records of its scope only, whatever a request lists. -/
theorem mem_of_completeOrder {scope names : List String} {ids : Value} {e : Refusal}
    (h : completeOrder scope ids e = .ok names) {n : String} (hn : n ∈ names) : n ∈ scope := by
  simp only [completeOrder, ↓check_eq_ok, bind_eq_ok] at h
  obtain ⟨vs, -, -, keys, -, h⟩ := h
  split at h
  · rename_i hall
    simp only [Bool.and_eq_true, List.all_eq_true] at hall
    obtain rfl := pure_eq_ok.mp h
    simpa using hall.1.2 n hn
  · exact absurd h refuse_ne_ok

theorem field_of_id (hi : r.Identified) {f g : Field} (hf : r.field? id = some f)
    (hg : g ∈ r.fields) (hid : g.id = id) : g = f := by
  have hfid : f.id = id := by simpa using List.find?_some hf
  exact List.inj_on_of_nodup_map hi.fields hg (List.mem_of_find?_eq_some hf) (hid.trans hfid.symm)

theorem group_of_id (hi : r.Identified) {g g' : Group} (hg : r.group? id = some g)
    (hg' : g' ∈ r.groups) (hid : g'.id = id) : g' = g := by
  have hfound := group?_of_mem hi hg'
  rw [hid, hg] at hfound
  exact (Option.some.inj hfound).symm

/-! ### Operations -/

theorem addType_isolated {spec : Value} {out : Registry × DocumentType}
    (h : r.addType id spec = .ok out) : SameBeside id r out.1 := by
  simp only [addType, bind_eq_ok, pure_eq_ok] at h
  obtain ⟨_, -, t, ht, rfl⟩ := h
  exact .putType (buildType_id ht)

theorem updateType_isolated {changes : Value} {out : Registry × DocumentType}
    (h : r.updateType id changes = .ok out) : SameBeside id r out.1 := by
  simp only [updateType, bind_eq_ok, pure_eq_ok] at h
  obtain ⟨_, -, _, -, t, ht, rfl⟩ := h
  exact .putType (buildType_id ht)

theorem deleteType_isolated (h : r.deleteType id = .ok r') : SameBeside id r r' := by
  simp only [deleteType, bind_eq_ok, pure_eq_ok] at h
  obtain ⟨_, -, rfl⟩ := h
  exact .dropType

theorem addField_isolated {spec : Value} {strict : Bool} {out : Registry × Field}
    (fresh : r.field? id = none) (h : r.addField typeId id spec strict = .ok out) :
    SameBeside typeId r out.1 := by
  simp only [addField, bind_eq_ok, pure_eq_ok] at h
  obtain ⟨_, -, _, -, f, hf, rfl⟩ := h
  obtain ⟨hid, htype⟩ := buildField_owner hf
  refine .putField htype fun g hg hgid => ?_
  simpa [hgid, hid] using List.find?_eq_none.mp fresh g hg

theorem updateField_isolated (hi : r.Identified) {changes : Value} {out : Registry × Field}
    (h : r.updateField id changes = .ok out) :
    ∃ f, r.field? id = some f ∧ SameBeside f.typeId r out.1 := by
  simp only [updateField, bind_eq_ok, pure_eq_ok] at h
  obtain ⟨current, hcurrent, _, -, _, -, f, hf, rfl⟩ := h
  obtain ⟨hid, htype⟩ := buildField_owner hf
  have hfound := field?_of_require hcurrent
  refine ⟨current, hfound, .putField htype fun g hg hgid => ?_⟩
  rw [field_of_id hi hfound hg (hgid.trans hid)]

theorem deleteField_isolated (hi : r.Identified) (h : r.deleteField id = .ok r') :
    ∃ f, r.field? id = some f ∧ SameBeside f.typeId r r' := by
  simp only [deleteField, bind_eq_ok, pure_eq_ok] at h
  obtain ⟨f, hf, rfl⟩ := h
  have hfound := field?_of_require hf
  exact ⟨f, hfound, .dropField fun g hg hgid => by rw [field_of_id hi hfound hg hgid]⟩

theorem reorderFields_isolated (hi : r.Identified) {ids : Value} {group : Option String}
    {out : Registry × List Field} (h : r.reorderFields typeId ids group = .ok out) :
    SameBeside typeId r out.1 := by
  simp only [reorderFields, bind_eq_ok, pure_eq_ok] at h
  obtain ⟨_, -, _, -, names, hnames, rfl⟩ := h
  refine .orderFields fun f hf hmem => ?_
  obtain ⟨f', hf', hid⟩ := List.mem_map.mp (mem_of_completeOrder hnames hmem)
  obtain ⟨hf', htype⟩ := List.mem_filter.mp (List.mem_filter.mp hf').1
  obtain rfl := List.inj_on_of_nodup_map hi.fields hf' hf hid
  simpa using htype

theorem addGroup_isolated {spec : Value} {out : Registry × Group} (fresh : r.group? id = none)
    (h : r.addGroup typeId id spec = .ok out) : SameBeside typeId r out.1 := by
  simp only [addGroup, bind_eq_ok, pure_eq_ok] at h
  obtain ⟨_, -, _, -, g, hg, rfl⟩ := h
  obtain ⟨hid, htype⟩ := buildGroup_owner hg
  refine .putGroup htype fun g' hg' hgid => ?_
  simpa [hgid, hid] using List.find?_eq_none.mp fresh g' hg'

theorem updateGroup_isolated (hi : r.Identified) {changes : Value} {out : Registry × Group}
    (h : r.updateGroup id changes = .ok out) :
    ∃ g, r.group? id = some g ∧ SameBeside g.typeId r out.1 := by
  simp only [updateGroup, bind_eq_ok, pure_eq_ok] at h
  obtain ⟨current, hcurrent, _, -, _, -, g, hg, rfl⟩ := h
  obtain ⟨hid, htype⟩ := buildGroup_owner hg
  have hfound := requireGroup_ok hcurrent
  refine ⟨current, hfound, .putGroup htype fun g' hg' hgid => ?_⟩
  rw [group_of_id hi hfound hg' (hgid.trans hid)]

theorem deleteGroup_isolated (hi : r.Identified) (ho : r.Owned) (h : r.deleteGroup id = .ok r') :
    ∃ g, r.group? id = some g ∧ SameBeside g.typeId r r' := by
  simp only [deleteGroup, bind_eq_ok, pure_eq_ok] at h
  obtain ⟨g, hg, rfl⟩ := h
  have hfound := requireGroup_ok hg
  exact ⟨g, hfound, .dropGroup ho fun g' hg' hgid => by rw [group_of_id hi hfound hg' hgid]⟩

theorem reorderGroups_isolated (hi : r.Identified) {ids : Value} {out : Registry × List FieldGroup}
    (h : r.reorderGroups typeId ids = .ok out) : SameBeside typeId r out.1 := by
  simp only [reorderGroups, bind_eq_ok, pure_eq_ok] at h
  obtain ⟨_, -, names, hnames, _, -, rfl⟩ := h
  refine .orderGroups fun g hg hmem => ?_
  obtain ⟨g', hg', hid⟩ := List.mem_map.mp (mem_of_completeOrder hnames hmem)
  obtain ⟨hg', htype⟩ := List.mem_filter.mp hg'
  obtain rfl := List.inj_on_of_nodup_map hi.groups hg' hg hid
  simpa using htype

theorem storeTemplate_isolated {t : Template} {out : Registry × Template}
    (h : r.storeTemplate typeId t = .ok out) : SameBeside typeId r out.1 := by
  simp only [storeTemplate, bind_eq_ok, pure_eq_ok] at h
  obtain ⟨_, -, _, -, rfl⟩ := h
  exact .putTemplate t

theorem saveTemplate_isolated {payload : Value} {out : Registry × Template}
    (h : r.saveTemplate typeId payload = .ok out) : SameBeside typeId r out.1 := by
  simp only [saveTemplate, bind_eq_ok] at h
  obtain ⟨_, -, h⟩ := h
  exact storeTemplate_isolated h

theorem createStarterTemplate_isolated {out : Registry × Template}
    (h : r.createStarterTemplate typeId = .ok out) : SameBeside typeId r out.1 := by
  simp only [createStarterTemplate, ↓check_eq_ok, bind_eq_ok] at h
  obtain ⟨_, -, -, h⟩ := h
  exact storeTemplate_isolated h

theorem duplicateTemplate_isolated {targetId : String} {out : Registry × Template}
    (h : r.duplicateTemplate typeId targetId = .ok out) : SameBeside targetId r out.1 := by
  simp only [duplicateTemplate, ↓check_eq_ok, bind_eq_ok] at h
  obtain ⟨_, -, -, h⟩ := h
  exact storeTemplate_isolated h

/-- A successful operation acts on one type, and keeps the records of all others. -/
theorem perform_isolated (hc : r.Consistent) {s : Ids} {op : Operation}
    (fresh : r.Fresh s.take.1 op) (h : ((r.perform op).run.run s).1 = .ok r') :
    ∃ typeId, op.subject? r s.take.1 = some typeId ∧ SameBeside typeId r r' := by
  have hi := hc.identified
  have ofField {id : String} (h : ∃ f, r.field? id = some f ∧ SameBeside f.typeId r r') :
      ∃ typeId, (r.field? id).map (·.typeId) = some typeId ∧ SameBeside typeId r r' := by
    obtain ⟨f, hf, hsame⟩ := h
    exact ⟨f.typeId, by rw [hf]; rfl, hsame⟩
  have ofGroup {id : String} (h : ∃ g, r.group? id = some g ∧ SameBeside g.typeId r r') :
      ∃ typeId, (r.group? id).map (·.typeId) = some typeId ∧ SameBeside typeId r r' := by
    obtain ⟨g, hg, hsame⟩ := h
    exact ⟨g.typeId, by rw [hg]; rfl, hsame⟩
  cases op <;> simp only [perform, map_result, plain_result] at h
  case deleteType => exact ⟨_, rfl, deleteType_isolated h⟩
  case deleteField => exact ofField (deleteField_isolated hi h)
  case deleteGroup => exact ofGroup (deleteGroup_isolated hi hc.owned h)
  all_goals
    obtain ⟨out, hout, rfl⟩ := map_eq_ok.mp h
  case defineType => exact ⟨_, rfl, addType_isolated (addType_of_define hout)⟩
  case updateType => exact ⟨_, rfl, updateType_isolated hout⟩
  case defineField => exact ⟨_, rfl, addField_isolated fresh (addField_of_define hout)⟩
  case updateField => exact ofField (updateField_isolated hi hout)
  case reorderFields => exact ⟨_, rfl, reorderFields_isolated hi hout⟩
  case defineGroup => exact ⟨_, rfl, addGroup_isolated fresh (addGroup_of_define hout)⟩
  case updateGroup => exact ofGroup (updateGroup_isolated hi hout)
  case reorderGroups => exact ⟨_, rfl, reorderGroups_isolated hi hout⟩
  case saveTemplate => exact ⟨_, rfl, saveTemplate_isolated hout⟩
  case storeTemplate => exact ⟨_, rfl, storeTemplate_isolated hout⟩
  case createStarterTemplate => exact ⟨_, rfl, createStarterTemplate_isolated hout⟩
  case duplicateTemplate => exact ⟨_, rfl, duplicateTemplate_isolated hout⟩

/-- A successful operation acts on one type, and whatever it is given, also identifiers of records
of other types: the form and the saved template of every other type are the same before and after
it, and so are the other types in the order in which they are listed. -/
theorem operations_isolated (hr : Reachable r) {s : Ids} {op : Operation}
    (fresh : r.Fresh s.take.1 op) (h : ((r.perform op).run.run s).1 = .ok r') :
    ∃ a, op.subject? r s.take.1 = some a ∧
      (∀ b, b ≠ a → r'.getForm b = r.getForm b ∧ r'.getTemplate b = r.getTemplate b) ∧
      r'.types.filter (·.id != a) = r.types.filter (·.id != a) := by
  obtain ⟨a, ha, hsame⟩ := perform_isolated hr.consistent fresh h
  exact ⟨a, ha, fun b hb => ⟨hsame.getForm hb, hsame.getTemplate hb⟩, hsame.types⟩

/-- A registry with orders and with notes, which have a text. -/
def ordersAndNotes : Registry :=
  let r := orders.after { given := some "u" }
    (.defineType (.named [("name", .text "Note"), ("code", .text "NOTE")]))
  let r := r.after { given := some "b" }
    (.defineField "u" (.named [("name", .text "body"), ("label", .text "Text")]) true)
  r.after {} (.createStarterTemplate "u")

theorem ordersAndNotes_reachable : Reachable ordersAndNotes := by
  unfold ordersAndNotes
  refine .step (.step (.step orders_reachable _ _ ?_) _ _ ?_) _ _ trivial
  · show Registry.type? _ "u" = none
    decide +kernel
  · show Registry.field? _ "b" = none
    decide +kernel

/-- Changes of the number of an order that name a field, a type and the template of the notes. -/
def strayChanges : Value := .named [("id", .text "b"), ("documentTypeId", .text "u"),
  ("name", .text "body"), ("label", .text "Body"), ("required", .bool true)]

theorem strayChanges_isolated :
    ∃ r', ((ordersAndNotes.perform (.updateField "n" strayChanges)).run.run {}).1 = .ok r' ∧
      r' ≠ ordersAndNotes ∧ r'.getForm "u" = ordersAndNotes.getForm "u" ∧
      r'.getTemplate "u" = ordersAndNotes.getTemplate "u" := by
  obtain ⟨r', hr', hne⟩ : ∃ r',
      ((ordersAndNotes.perform (.updateField "n" strayChanges)).run.run {}).1 = .ok r' ∧
        r' ≠ ordersAndNotes := by
    refine ⟨ordersAndNotes.after {} (.updateField "n" strayChanges), ?_, ?_⟩ <;> decide +kernel
  have fresh : ordersAndNotes.Fresh (Ids.take {}).1 (.updateField "n" strayChanges) := trivial
  obtain ⟨a, ha, hforms, -⟩ := operations_isolated ordersAndNotes_reachable fresh hr'
  obtain rfl : "t" = a := by
    have hsubject : Operation.subject? ordersAndNotes (Ids.take {}).1
        (.updateField "n" strayChanges) = some "t" := by decide +kernel
    exact Option.some.inj (hsubject.symm.trans ha)
  exact ⟨r', hr', hne, hforms "u" (by decide)⟩

end Registry
end DocForms
