import DocForms.Proofs.Registry.Forms
import DocForms.Proofs.Registry.Ordering
import DocForms.Proofs.Service.Absence
import DocForms.Proofs.Service.Refusals

/-! What the lookups of the service come to, and what they blame. A lookup succeeds just when what it
looks for exists, and it is refused for nothing else; what follows it is refused for other reasons,
so that a refusal tells whether everything was found. -/
namespace DocForms

namespace Registry

/-- A field with an identifier exists on a type. -/
def HasField (r : Registry) (id typeId : String) : Prop :=
  ∃ f ∈ r.fields, f.id = id ∧ f.typeId = typeId

end Registry

namespace Service
variable {q : Request} {w : Workspace} {r : Registry} {t id : String}

/-! ### Outcomes -/

/-- If a computation is refused, then on account of something that does not exist just when `p`
holds. -/
def Blames {α : Type} (p : Prop) (x : Except Fault α) : Prop :=
  ∀ e, x = .error (.refused e) → (e.isAbsence = true ↔ p)

/-- A computation that is refused on account of something that does not exist, if at all. -/
abbrev Absent {α : Type} (x : Except Fault α) : Prop := RefusesOnly Refusal.isAbsence x

section Outcomes
variable {α β : Type} {p : Prop} {x : Except Fault α} {f : α → Building β}

theorem blames_of_present (hx : Present x) (hp : ¬ p) : Blames p x := by
  intro e he
  have habsence : e.isAbsence = false := by simpa using hx e he
  rw [habsence]
  exact iff_of_false Bool.false_ne_true hp

theorem blames_of_absent (hx : Absent x) (hp : p) : Blames p x :=
  fun e he => iff_of_true (hx e he) hp

theorem Blames.congr {p' : Prop} (h : p ↔ p') (hx : Blames p x) : Blames p' x :=
  fun e he => (hx e he).trans h

theorem blames_of_silent (hx : RefusesOnly (fun _ => false) x) : Blames p x :=
  fun e he => Bool.noConfusion (hx e he)

theorem Blames.check {c : Prop} [Decidable c] {e : Refusal} {k : β → Except Fault α}
    (he : c → Blames p (refuse e : Except Fault α)) (hx : ¬ c → Blames p x) :
    Blames p (if c then refuse e >>= k else x) := by
  split
  · rename_i hc
    exact fun d hd => he hc d (congrArg Except.error (Except.error.inj hd))
  · rename_i hc
    exact hx hc

theorem Blames.bind {f : α → Except Fault β} (hx : Blames p x)
    (hf : ∀ a, x = .ok a → Blames p (f a)) : Blames p (x >>= f) := by
  cases x with
  | error e => exact fun d hd => hx d (congrArg Except.error (Except.error.inj hd))
  | ok a => exact hf a rfl

theorem blames_plain (hx : Blames p x) (hf : ∀ a, x = .ok a → Blames p ((f a).run.run w).1) :
    Blames p ((Building.plain x >>= f).run.run w).1 := by
  rw [Building.run_bind, Building.run_plain]
  cases x with
  | error e => exact fun d hd => hx d (congrArg Except.error (Except.error.inj hd))
  | ok a => exact hf a rfl

theorem blames_read {g : Registry → Except Fault α} (hx : Blames p (g w.registry))
    (hf : ∀ a, g w.registry = .ok a → Blames p ((f a).run.run w).1) :
    Blames p ((Building.read g >>= f).run.run w).1 := blames_plain hx hf

theorem blames_change {g : Registry → Except Fault (Registry × α)} (hx : Blames p (g w.registry))
    (hf : ∀ r a, g w.registry = .ok (r, a) → Blames p ((f a).run.run { w with registry := r }).1) :
    Blames p ((Building.change g >>= f).run.run w).1 := by
  rw [Building.run_bind, Building.run_change]
  cases hg : g w.registry with
  | error e => exact fun d hd => hx d (hg.trans (congrArg Except.error (Except.error.inj hd)))
  | ok out => exact hf out.1 out.2 hg

theorem blames_mint {g : Registry → Minting (Registry × α)}
    (hx : Blames p ((g w.registry).run.run w.ids).1)
    (hf : ∀ a w', Blames p ((f a).run.run w').1) :
    Blames p ((Building.mint g >>= f).run.run w).1 := by
  rw [Building.run_bind, Building.run_mint]
  rcases hg : (g w.registry).run.run w.ids with ⟨e | out, ids⟩
  · exact fun d hd => hx d ((congrArg Prod.fst hg).trans (congrArg Except.error (Except.error.inj hd)))
  · exact hf out.2 _

/-- What succeeds blames nothing. -/
theorem Shows.blames {b : Building Result} (h : Shows b w) : Blames p (b.run.run w).1 := by
  obtain ⟨res, hres, -⟩ := h
  rw [hres]
  exact nofun

end Outcomes

theorem itemsOf_refusesOnly {own : Refusal → Bool} (v : Value) : RefusesOnly own (itemsOf v) :=
  (elements_refusesOnly _).bind fun _ _ => .pure _

theorem record_present (q : Request) : Present q.record := by
  unfold Request.record
  split
  · exact .ok _
  · exact .refuse rfl

/-! ### Lookups -/

section Lookups
variable {α : Type}

theorem requireType_ok_iff : (∃ u, r.requireType t = .ok u) ↔ r.HasType t := by
  refine ⟨fun ⟨u, hu⟩ => Registry.requireType_ok hu, fun ⟨u, hu, hid⟩ => ?_⟩
  unfold Registry.requireType
  cases hfind : r.type? t with
  | none => exact absurd hid (by simpa using List.find?_eq_none.mp hfind u hu)
  | some u => exact ⟨u, rfl⟩

theorem getForm_ok_iff : (∃ form, r.getForm t = .ok form) ↔ r.HasType t := by
  rw [← requireType_ok_iff]
  constructor
  · rintro ⟨form, hform⟩
    obtain ⟨u, hu, -⟩ := Registry.getForm_eq_ok hform
    exact ⟨u, hu⟩
  · rintro ⟨u, hu⟩
    exact ⟨_, Registry.getForm_eq hu⟩

theorem listGroups_ok_iff : (∃ gs, r.listGroups t = .ok gs) ↔ r.HasType t := by
  rw [← requireType_ok_iff]
  constructor
  · rintro ⟨gs, hgs⟩
    obtain ⟨u, hu, -⟩ := bind_eq_ok.mp hgs
    exact ⟨u, hu⟩
  · rintro ⟨u, hu⟩
    exact ⟨_, Registry.listGroups_eq hu⟩

theorem checkField_ok_iff (hi : r.Identified) :
    checkField r t id = .ok () ↔ r.HasType t ∧ r.HasField id t := by
  constructor
  · intro h
    obtain ⟨u, hu, h⟩ := bind_eq_ok.mp h
    obtain ⟨f, hf, h⟩ := bind_eq_ok.mp h
    obtain ⟨hmem, hid⟩ := Registry.requireField_ok hf
    refine ⟨Registry.requireType_ok hu, f, hmem, hid, ?_⟩
    by_contra hne
    rw [if_pos (bne_iff_ne.mpr hne)] at h
    cases h
  · rintro ⟨htype, f, hf, hid, howner⟩
    obtain ⟨u, hu⟩ := requireType_ok_iff.mpr htype
    cases hfind : r.field? id with
    | none => exact absurd hid (by simpa using List.find?_eq_none.mp hfind f hf)
    | some g =>
      obtain rfl := Registry.field_of_id hi hfind hf hid
      simp [checkField, hu, Registry.requireField, hfind, howner, bind, Except.bind, pure,
        Except.pure]

theorem mem_listGroups {gs : List FieldGroup} (h : r.listGroups t = .ok gs) :
    (∃ g ∈ gs, g.id = id) ↔ r.HasGroup id t := by
  obtain ⟨u, hu, hgs⟩ := bind_eq_ok.mp h
  obtain rfl := pure_eq_ok.mp hgs
  have hperm := Registry.sortGroups_perm (r.groupsOf t)
  constructor
  · rintro ⟨_, hg, hid⟩
    obtain ⟨g, hsorted, rfl⟩ := List.mem_map.mp hg
    obtain ⟨hmem, htype⟩ := List.mem_filter.mp (hperm.mem_iff.mp hsorted)
    exact ⟨g, hmem, hid, beq_iff_eq.mp htype⟩
  · rintro ⟨g, hg, hid, htype⟩
    have hmem := hperm.mem_iff.mpr (List.mem_filter.mpr ⟨hg, beq_iff_eq.mpr htype⟩)
    exact ⟨r.withFields t g, List.mem_map_of_mem hmem, hid⟩

theorem groupOf_ok_iff : (∃ g, groupOf r t id = .ok g) ↔ r.HasType t ∧ r.HasGroup id t := by
  constructor
  · rintro ⟨g, h⟩
    obtain ⟨gs, hgs, h⟩ := bind_eq_ok.mp h
    refine ⟨listGroups_ok_iff.mp ⟨gs, hgs⟩, (mem_listGroups hgs).mp ?_⟩
    split at h
    · rename_i g' hg'
      exact ⟨g', List.mem_of_find?_eq_some hg', by simpa using List.find?_some hg'⟩
    · cases h
  · rintro ⟨htype, hgroup⟩
    obtain ⟨gs, hgs⟩ := listGroups_ok_iff.mpr htype
    obtain ⟨g, hg, hid⟩ := (mem_listGroups hgs).mpr hgroup
    cases hfind : gs.find? (·.id == id) with
    | none => exact absurd hid (by simpa using List.find?_eq_none.mp hfind g hg)
    | some g => exact ⟨g, by simp [groupOf, hgs, hfind, bind, Except.bind, pure, Except.pure]⟩

/-! A lookup is refused for nothing but what it does not find. -/

theorem requireType_absent : Absent (r.requireType t) := Registry.requireType_refusesOnly r t rfl

theorem absent_of_type {f : DocumentType → Except Fault α} (h : ¬ r.HasType t) :
    Absent (r.requireType t >>= f) :=
  requireType_absent.bind fun _ hu => absurd (Registry.requireType_ok hu) h

theorem absent_map {β : Type} {f : α → β} {x : Except Fault α} (hx : Absent x) :
    Absent (x.map f) := hx.bind fun a _ => .pure (f a)

theorem absent_of_form {f : Form → Except Fault α} (h : ¬ r.HasType t) :
    Absent (r.getForm t >>= f) := by
  have hform : Absent (r.getForm t) := absent_of_type h
  exact hform.bind fun form hok => absurd (getForm_ok_iff.mp ⟨form, hok⟩) h

theorem checkField_absent : Absent (checkField r t id) := by
  refine requireType_absent.bind fun _ _ => ?_
  have hfield : Absent (r.requireField id) := by
    unfold Registry.requireField
    split
    · exact .ok _
    · exact .refuse rfl
  refine hfield.bind fun f _ => ?_
  split
  · exact .refuse rfl
  · exact .pure _

theorem groupOf_absent : Absent (groupOf r t id) := by
  have hlist : Absent (r.listGroups t) := requireType_absent.bind fun _ _ => .pure _
  refine hlist.bind fun gs _ => ?_
  split
  · exact .pure _
  · exact .refuse rfl

theorem getTemplate_absent : Absent (r.getTemplate t) := by
  refine requireType_absent.bind fun _ _ => ?_
  split
  · exact .pure _
  · exact .refuse rfl

theorem type_of_bind_ok {f : DocumentType → Except Fault α} {a : α}
    (h : (r.requireType t >>= f) = .ok a) : r.HasType t := by
  obtain ⟨u, hu, -⟩ := bind_eq_ok.mp h
  exact Registry.requireType_ok hu

theorem type_of_form_ok {f : Form → Except Fault α} {a : α}
    (h : (r.getForm t >>= f) = .ok a) : r.HasType t := by
  obtain ⟨form, hform, -⟩ := bind_eq_ok.mp h
  exact getForm_ok_iff.mp ⟨form, hform⟩

end Lookups

/-! ### Steps that follow a lookup -/

section Steps

theorem defineField_result (r : Registry) (t : String) (spec : Value) (strict : Bool) (s : Ids) :
    ((r.defineField t spec strict).run.run s).1 =
      (r.requireType t >>= fun _ => r.addField t s.take.1 spec strict) := by
  unfold Registry.defineField
  cases r.requireType t <;> rfl

theorem defineGroup_result (r : Registry) (t : String) (spec : Value) (s : Ids) :
    ((r.defineGroup t spec).run.run s).1 =
      (r.requireType t >>= fun _ => r.addGroup t s.take.1 spec) := by
  unfold Registry.defineGroup
  cases r.requireType t <;> rfl

theorem duplicateTemplate_untargeted {es : Entries}
    (h : (Entries.get es "targetDocumentTypeId").isTruthy = false) :
    duplicateTemplate r t es = refuse .targetTypeMissing := by
  simp [duplicateTemplate, h, refuse, bind, Except.bind]

theorem duplicateTemplate_targeted {es : Entries}
    (h : (Entries.get es "targetDocumentTypeId").isTruthy = true) :
    duplicateTemplate r t es = (do
      let _ ← r.getTemplate t
      let targetId ← (Entries.get es "targetDocumentTypeId").idText
      let (r, template) ← r.duplicateTemplate t targetId
      return (r, targetId, template)) := by
  simp [duplicateTemplate, h]

theorem getForm_present (h : r.HasType t) : Present (r.getForm t) :=
  .of_ok (getForm_ok_iff.mpr h)

theorem requireType_present (h : r.HasType t) : Present (r.requireType t) :=
  .of_ok (requireType_ok_iff.mpr h)

theorem listGroups_present (h : r.HasType t) : Present (r.listGroups t) :=
  .of_ok (listGroups_ok_iff.mpr h)

theorem addType_present (r : Registry) (id : String) (spec : Value) : Present (r.addType id spec) :=
  entries_refusesOnly.bind fun _ _ => (Registry.buildType_present r id _).bind fun _ _ => .pure _

theorem updateType_present (h : r.HasType t) (v : Value) : Present (r.updateType t v) :=
  (requireType_present h).bind fun _ _ => (changes_refusesOnly v).bind fun _ _ =>
    (Registry.buildType_present r t _).bind fun _ _ => .pure _

theorem addField_present (h : r.HasType t) (id : String) (spec : Value) (strict : Bool) :
    Present (r.addField t id spec strict) :=
  (requireType_present h).bind fun _ _ => entries_refusesOnly.bind fun _ _ =>
    (Registry.buildField_present r t id _ strict).bind fun _ _ => .pure _

theorem addGroup_present (h : r.HasType t) (id : String) (spec : Value) :
    Present (r.addGroup t id spec) :=
  (requireType_present h).bind fun _ _ => entries_refusesOnly.bind fun _ _ =>
    (Registry.buildGroup_present r t id _).bind fun _ _ => .pure _

theorem requireField_present (h : r.HasField id t) : Present (r.requireField id) := by
  obtain ⟨f, hf, hid, -⟩ := h
  unfold Registry.requireField
  cases hfind : r.field? id with
  | none => exact absurd hid (by simpa using List.find?_eq_none.mp hfind f hf)
  | some g => exact .ok g

theorem updateField_present (h : r.HasField id t) (v : Value) : Present (r.updateField id v) :=
  (requireField_present h).bind fun f _ => entries_refusesOnly.bind fun _ _ =>
    (changes_refusesOnly v).bind fun _ _ =>
      (Registry.buildField_present r f.typeId id _ true).bind fun _ _ => .pure _

/-- A group that is not there is blamed on the body. -/
theorem requireGroup_present (r : Registry) (id : String) : Present (r.requireGroup id) := by
  unfold Registry.requireGroup
  split
  · exact .ok _
  · exact .refuse rfl

theorem updateGroup_present (r : Registry) (id : String) (v : Value) : Present (r.updateGroup id v) :=
  (requireGroup_present r id).bind fun g _ => entries_refusesOnly.bind fun _ _ =>
    (changes_refusesOnly v).bind fun _ _ =>
      (Registry.buildGroup_present r g.typeId id _).bind fun _ _ => .pure _

theorem orderFields_present (h : r.HasType t) (body : Entries) : Present (orderFields r t body) := by
  unfold orderFields
  refine (itemsOf_refusesOnly _).bind fun ids _ => (requireType_present h).bind fun _ _ => ?_
  have hreorder (group : Option String) : Present (r.reorderFields t ids group) :=
    (requireType_present h).bind fun _ _ =>
      (Registry.checkGroup_refusesOnly r t group fun _ => rfl).bind fun _ _ =>
        (Registry.completeOrder_present _ ids rfl).bind fun _ _ => .pure _
  dsimp only
  split
  · exact RefusesOnly.bind ((idText_refusesOnly _).bind fun _ _ => .pure _) fun group _ => hreorder group
  · exact RefusesOnly.bind (.pure _) fun group _ => hreorder group

theorem reorderGroups_present (h : r.HasType t) (ids : Value) : Present (r.reorderGroups t ids) := by
  refine (requireType_present h).bind fun _ _ => ?_
  refine (Registry.completeOrder_present _ ids rfl).bind fun names _ => ?_
  have hsame (groups : List Group) : Registry.HasType { r with groups } t := h
  exact (listGroups_present (hsame _)).bind fun _ _ => .pure _

theorem lookup_of_getTemplate {template : Template} (h : r.getTemplate t = .ok template) :
    r.templates.lookup t = some template := by
  obtain ⟨u, -, h⟩ := bind_eq_ok.mp h
  split at h
  · rename_i hlookup
    rw [hlookup, pure_eq_ok.mp h]
  · cases h

theorem getTemplate_blames (h : r.HasType t) :
    Blames (r.templates.lookup t = none) (r.getTemplate t) := by
  cases hlookup : r.templates.lookup t with
  | none => exact blames_of_absent getTemplate_absent rfl
  | some template =>
    refine blames_of_present ((requireType_present h).bind fun _ _ => ?_) nofun
    rw [hlookup]
    exact .pure _

theorem storeTemplate_present (h : r.HasType t) (template : Template) :
    Present (r.storeTemplate t template) :=
  (getForm_present h).bind fun form _ =>
    (unknownPlaceholders_refusesOnly template form).bind fun _ _ => .pure _

theorem snapshotValues_refusesOnly {own : Refusal → Bool} (s : Snapshot) :
    RefusesOnly own s.toValues :=
  entries_refusesOnly.bind fun _ _ => (changes_refusesOnly _).bind fun _ _ => .pure _

theorem boundBody_present (form : Form) (s : Snapshot) (template : Template) :
    Present (boundBody form s template) := by
  have htokens : Present (tokensBody form template.content) :=
    (scan_refusesOnly _).bind fun _ _ => .pure _
  have hbound : Present (template.bound .standard s (some form)) :=
    (bindTemplate_refusesOnly _ _ _ _).bind fun _ _ => .pure _
  refine hbound.bind fun _ _ => ?_
  exact htokens.bind fun _ _ => (unknownPlaceholders_refusesOnly template form).bind fun _ _ => .pure _

theorem templateBody_present (h : r.HasType t) (template : Template) :
    Present (templateBody r t template) :=
  (getForm_present h).bind fun form _ => entries_refusesOnly.bind fun _ _ =>
    (unknownPlaceholders_refusesOnly template form).bind fun _ _ => .pure _

end Steps
end Service
end DocForms
