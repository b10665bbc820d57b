import DocForms.Proofs.Fault
import DocForms.Registry.Minting
import DocForms.Registry.Templates

/-! The operations of a registry and the changes that they make when they succeed. An operation that
fails changes nothing. -/
namespace DocForms

/-- The operations that change a registry. -/
inductive Operation where
  | defineType (spec : Value)
  | updateType (id : String) (changes : Value)
  | deleteType (id : String)
  | defineField (typeId : String) (spec : Value) (strict : Bool)
  | updateField (id : String) (changes : Value)
  | deleteField (id : String)
  | reorderFields (typeId : String) (ids : Value) (group : Option String)
  | defineGroup (typeId : String) (spec : Value)
  | updateGroup (id : String) (changes : Value)
  | deleteGroup (id : String)
  | reorderGroups (typeId : String) (ids : Value)
  | saveTemplate (typeId : String) (payload : Value)
  | storeTemplate (typeId : String) (template : Template)
  | createStarterTemplate (typeId : String)
  | duplicateTemplate (typeId targetId : String)

/-- The options and the rules of a field are what payloads were parsed to, and its problems are the
messages of the payloads that could not be parsed. -/
def Field.Parsed (f : Field) : Prop :=
  ∃ strict options rules, Constraints.parse strict f.kind options rules (some f.name) =
    .ok ⟨f.options, f.rules, f.problems⟩

namespace Registry

/-- The registry that an operation makes, if it succeeds. -/
def perform (r : Registry) : Operation → Minting Registry
  | .defineType spec => Prod.fst <$> r.defineType spec
  | .updateType id changes => .plain (Prod.fst <$> r.updateType id changes)
  | .deleteType id => .plain (r.deleteType id)
  | .defineField typeId spec strict => Prod.fst <$> r.defineField typeId spec strict
  | .updateField id changes => .plain (Prod.fst <$> r.updateField id changes)
  | .deleteField id => .plain (r.deleteField id)
  | .reorderFields typeId ids group => .plain (Prod.fst <$> r.reorderFields typeId ids group)
  | .defineGroup typeId spec => Prod.fst <$> r.defineGroup typeId spec
  | .updateGroup id changes => .plain (Prod.fst <$> r.updateGroup id changes)
  | .deleteGroup id => .plain (r.deleteGroup id)
  | .reorderGroups typeId ids => .plain (Prod.fst <$> r.reorderGroups typeId ids)
  | .saveTemplate typeId payload => .plain (Prod.fst <$> r.saveTemplate typeId payload)
  | .storeTemplate typeId template => .plain (Prod.fst <$> r.storeTemplate typeId template)
  | .createStarterTemplate typeId => .plain (Prod.fst <$> r.createStarterTemplate typeId)
  | .duplicateTemplate typeId targetId => .plain (Prod.fst <$> r.duplicateTemplate typeId targetId)

/-- The registry after an operation, successful or not. -/
def after (r : Registry) (s : Ids) (op : Operation) : Registry :=
  match ((r.perform op).run.run s).1 with
  | .ok r' => r'
  | .error _ => r

/-- A new identifier is fresh if no record of the kind that is defined has it. -/
def Fresh (r : Registry) (id : String) : Operation → Prop
  | .defineType _ => r.type? id = none
  | .defineField .. => r.field? id = none
  | .defineGroup .. => r.group? id = none
  | _ => True

/-- The registries that operations lead to, one after another, from an empty one. -/
inductive Reachable : Registry → Prop
  | empty : Reachable Registry.empty
  | step {r : Registry} (h : Reachable r) (s : Ids) (op : Operation)
      (fresh : r.Fresh s.take.1 op) : Reachable (r.after s op)

/-! ### Changes -/

/-- A type with an identifier exists. -/
def HasType (r : Registry) (id : String) : Prop := ∃ t ∈ r.types, t.id = id

/-- A group with an identifier exists on a type. -/
def HasGroup (r : Registry) (id typeId : String) : Prop :=
  ∃ g ∈ r.groups, g.id = id ∧ g.typeId = typeId

/-- What is checked of a type before it is put into a registry. -/
structure TypeFits (r : Registry) (t : DocumentType) : Prop where
  code : isCode t.code = true
  unique : ∀ u ∈ r.types, u.code = t.code → u.id = t.id

/-- What is checked of a field before it is put into a registry. -/
structure FieldFits (r : Registry) (f : Field) : Prop where
  name : isName f.name = true
  owner : r.HasType f.typeId ∨ ∃ g ∈ r.fields, g.typeId = f.typeId
  group : ∀ id, f.groupId = some id → r.HasGroup id f.typeId
  unique : ∀ g ∈ r.fields, g.typeId = f.typeId → g.name = f.name → g.id = f.id
  ungrouped : f.groupId = none → ∀ g ∈ r.groups, g.typeId = f.typeId → g.name ≠ f.name
  parsed : f.Parsed

/-- The bounds on the rows of a group agree with each other and with its kind. -/
structure RowsFit (g : Group) : Prop where
  single : g.repeatable = false → g.minRows = none ∧ g.maxRows = none
  least : ∀ n, g.minRows = some n → 0 ≤ n
  most : ∀ n, g.maxRows = some n → 1 ≤ n
  ordered : ∀ a b, g.minRows = some a → g.maxRows = some b → a ≤ b

/-- What is checked of a group before it is put into a registry. -/
structure GroupFits (r : Registry) (g : Group) : Prop where
  name : isName g.name = true
  owner : r.HasType g.typeId ∨ ∃ g' ∈ r.groups, g'.typeId = g.typeId
  stays : ∀ g', r.group? g.id = some g' → g'.typeId = g.typeId
  unique : ∀ g' ∈ r.groups, g'.typeId = g.typeId → g'.name = g.name → g'.id = g.id
  apart : ∀ f ∈ r.fields, f.typeId = g.typeId → f.groupId = none → f.name ≠ g.name
  rows : RowsFit g

/-- The change that a successful operation makes. -/
inductive Change (r : Registry) : Registry → Prop
  | putType (t : DocumentType) (fits : r.TypeFits t) :
      Change r { r with types := upsert DocumentType.id t r.types }
  | dropType (id : String) : Change r {
      types := r.types.filter (·.id != id)
      groups := r.groups.filter (·.typeId != id)
      fields := r.fields.filter (·.typeId != id)
      templates := r.templates.filter (·.1 != id) }
  | putField (f : Field) (fits : r.FieldFits f) :
      Change r { r with fields := upsert Field.id f r.fields }
  | dropField (id : String) : Change r { r with fields := r.fields.filter (·.id != id) }
  | orderFields (order : Field → Int) :
      Change r { r with fields := r.fields.map fun f => { f with order := order f } }
  | putGroup (g : Group) (fits : r.GroupFits g) :
      Change r { r with groups := upsert Group.id g r.groups }
  | dropGroup (id : String) : Change r { r with
      fields := r.fields.filter (·.groupId != some id)
      groups := r.groups.filter (·.id != id) }
  | orderGroups (order : Group → Int) :
      Change r { r with groups := r.groups.map fun g => { g with order := order g } }
  | putTemplate (typeId : String) (t : Template) (owner : r.HasType typeId) :
      Change r { r with templates := upsert Prod.fst (typeId, t) r.templates }

variable {r r' : Registry} {id typeId : String}

theorem requireType_ok {t : DocumentType} (h : r.requireType id = .ok t) : r.HasType id := by
  unfold requireType type? at h
  split at h
  · rename_i u hu
    exact ⟨u, List.mem_of_find?_eq_some hu, by simpa using List.find?_some hu⟩
  · exact absurd h refuse_ne_ok

theorem field?_of_require {f : Field} (h : r.requireField id = .ok f) : r.field? id = some f := by
  unfold requireField at h
  split at h
  · rename_i g hg
    obtain rfl : g = f := by simpa using h
    exact hg
  · exact absurd h refuse_ne_ok

theorem requireField_ok {f : Field} (h : r.requireField id = .ok f) :
    f ∈ r.fields ∧ f.id = id := by
  have hf := field?_of_require h
  exact ⟨List.mem_of_find?_eq_some hf, by simpa using List.find?_some hf⟩

theorem requireGroup_ok {g : Group} (h : r.requireGroup id = .ok g) : r.group? id = some g := by
  unfold requireGroup at h
  split at h
  · rename_i g' hg
    obtain rfl : g' = g := by simpa using h
    exact hg
  · exact absurd h refuse_ne_ok

theorem group?_eq_some {g : Group} (h : r.group? id = some g) : g ∈ r.groups ∧ g.id = id :=
  ⟨List.mem_of_find?_eq_some h, by simpa using List.find?_some h⟩

theorem checkGroup_ok {group : Option String} (h : r.checkGroup typeId group = .ok ()) (g : String)
    (hg : group = some g) : r.HasGroup g typeId := by
  subst hg
  simp only [checkGroup, bind_eq_ok, requireGroupOf] at h
  obtain ⟨g', hg', -⟩ := h
  split at hg'
  · rename_i g₁ hg₁
    split at hg'
    · exact ⟨g₁, (group?_eq_some hg₁).1, (group?_eq_some hg₁).2, ‹_›⟩
    · exact absurd hg' refuse_ne_ok
  · exact absurd hg' refuse_ne_ok

/-! ### What is built fits -/

theorem buildType_fits {spec : Entries} {t : DocumentType} (h : r.buildType id spec = .ok t) :
    r.TypeFits t := by
  unfold buildType at h
  simp only [↓check_eq_ok, bind_eq_ok] at h
  obtain ⟨name, -, code, -, -, hcode, htaken, h⟩ := h
  split at h
  · exact absurd h refuse_ne_ok
  · obtain rfl := pure_eq_ok.mp h
    exact ⟨by simpa using hcode, by simpa using htaken⟩

theorem checkFieldName_ok {name : String} {group : Option String}
    (h : r.checkFieldName typeId id name group = .ok ()) :
    (∀ f ∈ r.fields, f.typeId = typeId → f.name = name → f.id = id) ∧
      (group = none → ∀ g ∈ r.groups, g.typeId = typeId → g.name ≠ name) := by
  unfold checkFieldName at h
  simp only [↓check_eq_ok] at h
  obtain ⟨hfield, h⟩ := h
  refine ⟨fun f hf ht hn => ?_, fun hg g hmem ht hn => ?_⟩
  · by_cases hid : f.id = id
    · exact hid
    · refine absurd (List.any_eq_true.mpr ⟨f, ?_, by simp [hid, hn]⟩) hfield
      simp [fieldsOf, hf, ht]
  · rw [if_pos] at h
    · exact absurd h refuse_ne_ok
    · subst hg
      rw [Option.isNone_none, Bool.true_and]
      exact List.any_eq_true.mpr ⟨g, by simp [groupsOf, hmem, ht], by simp [hn]⟩

/-- A field that is built fits, if its type exists already or has fields. -/
theorem buildField_fits {spec : Entries} {strict : Bool} {f : Field}
    (owner : r.HasType typeId ∨ ∃ g ∈ r.fields, g.typeId = typeId)
    (h : r.buildField typeId id spec strict = .ok f) : r.FieldFits f := by
  unfold buildField at h
  simp only [↓check_eq_ok, bind_eq_ok, pure_eq_ok] at h
  obtain ⟨name, -, label, -, hname, -, group, -, ⟨⟩, hgroup, ⟨⟩, hfree, kind, -, constraints,
    hparse, order, -, rfl⟩ := h
  obtain ⟨hunique, hungrouped⟩ := checkFieldName_ok hfree
  exact ⟨by simpa using hname, owner, checkGroup_ok hgroup, hunique, hungrouped, _, _, _, hparse⟩

theorem rowBound_ok {b : RowBound} {v : Value} {n : Int} (h : rowBound b v = .ok (some n)) :
    b.lowest ≤ n := by
  unfold rowBound at h
  split at h
  · simp at h
  · split at h
    · exact absurd h refuse_ne_ok
    · simp_all
  · exact absurd h refuse_ne_ok

theorem rowBounds_ok {repeatable : Bool} {spec : Entries} {low high : Option Int}
    (h : rowBounds repeatable spec = .ok (low, high)) :
    (repeatable = false → low = none ∧ high = none) ∧ (∀ n, low = some n → 0 ≤ n) ∧
      (∀ n, high = some n → 1 ≤ n) ∧ ∀ a b, low = some a → high = some b → a ≤ b := by
  unfold rowBounds at h
  cases repeatable with
  | false =>
    obtain ⟨rfl, rfl⟩ : none = low ∧ none = high := by simpa [pure_eq_ok] using h
    simp
  | true =>
    simp only [Bool.not_true, Bool.false_eq_true, if_false, bind_eq_ok] at h
    obtain ⟨low', hlow, high', hhigh, h⟩ := h
    split at h
    · rename_i a b
      split at h
      · exact absurd h refuse_ne_ok
      · obtain ⟨rfl, rfl⟩ : some a = low ∧ some b = high := by simpa [pure_eq_ok] using h
        have ha := rowBound_ok hlow
        have hb := rowBound_ok hhigh
        simp_all [RowBound.lowest]
    · rename_i hnone
      obtain ⟨rfl, rfl⟩ : low' = low ∧ high' = high := by simpa [pure_eq_ok] using h
      refine ⟨by simp, ?_, ?_, fun a b ha hb => (hnone a b ha hb).elim⟩
      · rintro n rfl
        exact rowBound_ok hlow
      · rintro n rfl
        exact rowBound_ok hhigh

/-- A group that is built fits, if its type exists already or has groups, and if it stays on the
type that it is on. -/
theorem buildGroup_fits {spec : Entries} {g : Group}
    (owner : r.HasType typeId ∨ ∃ g' ∈ r.groups, g'.typeId = typeId)
    (stays : ∀ g', r.group? id = some g' → g'.typeId = typeId)
    (h : r.buildGroup typeId id spec = .ok g) : r.GroupFits g := by
  unfold buildGroup at h
  simp only [↓check_eq_ok, bind_eq_ok] at h
  obtain ⟨name, -, label, -, hname, -, hunique, hapart, ⟨low, high⟩, hrows, h⟩ := h
  obtain ⟨order, rfl⟩ : ∃ order, Group.mk id typeId name label (spec.get "description").orNull
      (spec.get "isRepeatable").isTruthy low high order = g := by
    split at h <;> simp only [bind_eq_ok, pure_eq_ok] at h
    · obtain ⟨order, -, rfl⟩ := h
      exact ⟨order, rfl⟩
    · obtain ⟨order, -, rfl⟩ := h
      exact ⟨order, rfl⟩
  obtain ⟨hsingle, hleast, hmost, hordered⟩ := rowBounds_ok hrows
  refine ⟨by simpa using hname, owner, stays, fun g' hg' ht hn => ?_, fun f hf ht hg hn => ?_,
    ⟨hsingle, hleast, hmost, hordered⟩⟩
  · have hunique : ∀ g' ∈ r.groupsOf typeId, g'.name = name → g'.id = id := by simpa using hunique
    exact hunique g' (by simp [groupsOf, hg', show g'.typeId = typeId from ht]) hn
  · have hapart : ∀ f ∈ r.scope typeId none, f.name ≠ name := by simpa using hapart
    exact hapart f (by simp [scope, fieldsOf, hf, show f.typeId = typeId from ht, hg]) hn

/-! ### Operations make changes -/

theorem storeTemplate_change {t : Template} {out : Registry × Template}
    (h : r.storeTemplate typeId t = .ok out) : r.Change out.1 := by
  simp only [storeTemplate, getForm, bind_eq_ok, pure_eq_ok] at h
  obtain ⟨form, ⟨type, htype, -⟩, -, -, rfl⟩ := h
  exact .putTemplate typeId t (requireType_ok htype)

theorem addType_change {spec : Value} {out : Registry × DocumentType}
    (h : r.addType id spec = .ok out) : r.Change out.1 := by
  simp only [addType, bind_eq_ok, pure_eq_ok] at h
  obtain ⟨entries, -, t, ht, rfl⟩ := h
  exact .putType t (buildType_fits ht)

theorem updateType_change {changes : Value} {out : Registry × DocumentType}
    (h : r.updateType id changes = .ok out) : r.Change out.1 := by
  simp only [updateType, bind_eq_ok, pure_eq_ok] at h
  obtain ⟨current, -, merged, -, t, ht, rfl⟩ := h
  exact .putType t (buildType_fits ht)

theorem deleteType_change (h : r.deleteType id = .ok r') : r.Change r' := by
  simp only [deleteType, bind_eq_ok, pure_eq_ok] at h
  obtain ⟨-, -, rfl⟩ := h
  exact .dropType id

theorem addField_change {spec : Value} {strict : Bool} {out : Registry × Field}
    (h : r.addField typeId id spec strict = .ok out) : r.Change out.1 := by
  simp only [addField, bind_eq_ok, pure_eq_ok] at h
  obtain ⟨t, ht, entries, -, f, hf, rfl⟩ := h
  exact .putField f (buildField_fits (.inl (requireType_ok ht)) hf)

theorem updateField_change {changes : Value} {out : Registry × Field}
    (h : r.updateField id changes = .ok out) : r.Change out.1 := by
  simp only [updateField, bind_eq_ok, pure_eq_ok] at h
  obtain ⟨current, hcurrent, entries, -, merged, -, f, hf, rfl⟩ := h
  exact .putField f (buildField_fits (.inr ⟨current, (requireField_ok hcurrent).1, rfl⟩) hf)

theorem deleteField_change (h : r.deleteField id = .ok r') : r.Change r' := by
  simp only [deleteField, bind_eq_ok, pure_eq_ok] at h
  obtain ⟨-, -, rfl⟩ := h
  exact .dropField id

theorem reorderFields_change {ids : Value} {group : Option String} {out : Registry × List Field}
    (h : r.reorderFields typeId ids group = .ok out) : r.Change out.1 := by
  simp only [reorderFields, bind_eq_ok, pure_eq_ok] at h
  obtain ⟨-, -, -, -, names, -, rfl⟩ := h
  have hmap : r.fields.map (fun f => if names.contains f.id then
      { f with order := positionIn names f.id } else f) = r.fields.map fun f =>
        { f with order := if names.contains f.id then positionIn names f.id else f.order } :=
    List.map_congr_left fun f _ => by split <;> rfl
  simp only [hmap]
  exact .orderFields _

theorem addGroup_change {spec : Value} {out : Registry × Group} (fresh : r.group? id = none)
    (h : r.addGroup typeId id spec = .ok out) : r.Change out.1 := by
  simp only [addGroup, bind_eq_ok, pure_eq_ok] at h
  obtain ⟨t, ht, entries, -, g, hg, rfl⟩ := h
  exact .putGroup g (buildGroup_fits (.inl (requireType_ok ht)) (by simp [fresh]) hg)

theorem updateGroup_change {changes : Value} {out : Registry × Group}
    (h : r.updateGroup id changes = .ok out) : r.Change out.1 := by
  simp only [updateGroup, bind_eq_ok, pure_eq_ok] at h
  obtain ⟨current, hcurrent, entries, -, merged, -, g, hg, rfl⟩ := h
  have hcurrent := requireGroup_ok hcurrent
  exact .putGroup g (buildGroup_fits (.inr ⟨current, (group?_eq_some hcurrent).1, rfl⟩)
    (by simp [hcurrent]) hg)

theorem deleteGroup_change (h : r.deleteGroup id = .ok r') : r.Change r' := by
  simp only [deleteGroup, bind_eq_ok, pure_eq_ok] at h
  obtain ⟨-, -, rfl⟩ := h
  exact .dropGroup id

theorem reorderGroups_change {ids : Value} {out : Registry × List FieldGroup}
    (h : r.reorderGroups typeId ids = .ok out) : r.Change out.1 := by
  simp only [reorderGroups, bind_eq_ok, pure_eq_ok] at h
  obtain ⟨-, -, names, -, -, -, rfl⟩ := h
  have hmap : r.groups.map (fun g => if names.contains g.id then
      { g with order := positionIn names g.id } else g) = r.groups.map fun g =>
        { g with order := if names.contains g.id then positionIn names g.id else g.order } :=
    List.map_congr_left fun g _ => by split <;> rfl
  simp only [hmap]
  exact .orderGroups _

theorem saveTemplate_change {payload : Value} {out : Registry × Template}
    (h : r.saveTemplate typeId payload = .ok out) : r.Change out.1 := by
  simp only [saveTemplate, bind_eq_ok] at h
  obtain ⟨t, -, h⟩ := h
  exact storeTemplate_change h

theorem createStarterTemplate_change {out : Registry × Template}
    (h : r.createStarterTemplate typeId = .ok out) : r.Change out.1 := by
  simp only [createStarterTemplate, ↓check_eq_ok, bind_eq_ok] at h
  obtain ⟨form, -, -, h⟩ := h
  exact storeTemplate_change h

theorem duplicateTemplate_change {targetId : String} {out : Registry × Template}
    (h : r.duplicateTemplate typeId targetId = .ok out) : r.Change out.1 := by
  simp only [duplicateTemplate, ↓check_eq_ok, bind_eq_ok] at h
  obtain ⟨t, -, -, h⟩ := h
  exact storeTemplate_change h

/-! ### Operations that ask for an identifier -/

theorem map_result {α β : Type} (f : α → β) (m : Minting α) (s : Ids) :
    ((f <$> m).run.run s).1 = f <$> (m.run.run s).1 := by
  rw [ExceptT.run_map, StateT.run_map]
  rfl

theorem plain_result {α : Type} (e : Except Fault α) (s : Ids) :
    ((Minting.plain e).run.run s).1 = e := rfl

/-- A definition that succeeds takes one identifier. -/
theorem addType_of_define {s : Ids} {spec : Value} {out : Registry × DocumentType}
    (h : ((r.defineType spec).run.run s).1 = .ok out) : r.addType s.take.1 spec = .ok out := h

theorem addField_of_define {s : Ids} {spec : Value} {strict : Bool} {out : Registry × Field}
    (h : ((r.defineField typeId spec strict).run.run s).1 = .ok out) :
    r.addField typeId s.take.1 spec strict = .ok out := by
  unfold defineField at h
  cases ht : r.requireType typeId with
  | error e => rw [ht] at h; cases h
  | ok t => rw [ht] at h; exact h

theorem addGroup_of_define {s : Ids} {spec : Value} {out : Registry × Group}
    (h : ((r.defineGroup typeId spec).run.run s).1 = .ok out) :
    r.addGroup typeId s.take.1 spec = .ok out := by
  unfold defineGroup at h
  cases ht : r.requireType typeId with
  | error e => rw [ht] at h; cases h
  | ok t => rw [ht] at h; exact h

/-- A successful operation makes one change. -/
theorem perform_change {s : Ids} {op : Operation} (fresh : r.Fresh s.take.1 op)
    (h : ((r.perform op).run.run s).1 = .ok r') : r.Change r' := by
  cases op <;> simp only [perform, map_result, plain_result] at h
  case deleteType => exact deleteType_change h
  case deleteField => exact deleteField_change h
  case deleteGroup => exact deleteGroup_change h
  all_goals
    obtain ⟨out, hout, rfl⟩ := map_eq_ok.mp h
  case defineType => exact addType_change (addType_of_define hout)
  case updateType => exact updateType_change hout
  case defineField => exact addField_change (addField_of_define hout)
  case updateField => exact updateField_change hout
  case reorderFields => exact reorderFields_change hout
  case defineGroup => exact addGroup_change fresh (addGroup_of_define hout)
  case updateGroup => exact updateGroup_change hout
  case reorderGroups => exact reorderGroups_change hout
  case saveTemplate => exact saveTemplate_change hout
  case storeTemplate => exact storeTemplate_change hout
  case createStarterTemplate => exact createStarterTemplate_change hout
  case duplicateTemplate => exact duplicateTemplate_change hout

/-- What changes preserve holds of every registry that operations lead to. -/
theorem Reachable.induct {P : Registry → Prop} (empty : P Registry.empty)
    (change : ∀ r r', P r → r.Change r' → P r') (h : Reachable r) : P r := by
  induction h with
  | empty => exact empty
  | @step r _ s op fresh ih =>
    unfold after
    split
    · rename_i r' hr'
      exact change r r' ih (perform_change fresh hr')
    · exact ih

end Registry
end DocForms
