import DocForms.Proofs.Definition.Fitting

/-! Definitions that pass the check can be loaded, as far as the check sees what the registry asks
for. The payloads of fields are only parsed when the fields are defined. -/
namespace DocForms.Definition
variable {strict : Bool} {typeId : String} {group : Option String} {types : List DocumentType}
  {fields groups : List String} {es raw : Entries} {v : Value} {vs : List Value}
  {w w' : Workspace} {r : Registry}

/-! ### Room for names -/

/-- No two of the names that the members of a type have, or are still to get, are equal. -/
def Apart (r : Registry) (typeId : String) (fields groups : List String) : Prop :=
  ((r.fieldsOf typeId).map (·.name) ++ fields ++
    ((r.groupsOf typeId).map (·.name) ++ groups)).Nodup

namespace Apart
variable {n : String}

theorem new_field (h : Apart r typeId (n :: fields) groups) :
    (∀ f ∈ r.fieldsOf typeId, f.name ≠ n) ∧ ∀ g ∈ r.groupsOf typeId, g.name ≠ n := by
  rw [Apart, List.append_assoc, List.cons_append, List.nodup_middle, List.nodup_cons] at h
  refine ⟨fun f hf he => h.1 ?_, fun g hg he => h.1 ?_⟩
  · exact List.mem_append_left _ (List.mem_map.mpr ⟨f, hf, he⟩)
  · refine List.mem_append_right _ (List.mem_append_right _ (List.mem_append_left _ ?_))
    exact List.mem_map.mpr ⟨g, hg, he⟩

theorem new_group (h : Apart r typeId fields (n :: groups)) :
    (∀ g ∈ r.groupsOf typeId, g.name ≠ n) ∧ ∀ f ∈ r.fieldsOf typeId, f.name ≠ n := by
  rw [Apart, ← List.append_assoc, List.nodup_middle, List.nodup_cons] at h
  refine ⟨fun g hg he => h.1 ?_, fun f hf he => h.1 ?_⟩
  · exact List.mem_append_left _ (List.mem_append_right _ (List.mem_map.mpr ⟨g, hg, he⟩))
  · refine List.mem_append_left _ (List.mem_append_left _ (List.mem_append_left _ ?_))
    exact List.mem_map.mpr ⟨f, hf, he⟩

theorem addField {f : Field} (h : Apart r typeId (f.name :: fields) groups)
    (hf : f.typeId = typeId) : Apart (r.extend [] [f]) typeId fields groups := by
  simpa [Apart, Registry.fieldsOf, Registry.groupsOf, hf] using h

theorem addGroup {g : Group} (h : Apart r typeId fields (g.name :: groups))
    (hg : g.typeId = typeId) : Apart (r.extend [g] []) typeId fields groups := by
  simpa [Apart, Registry.fieldsOf, Registry.groupsOf, hg] using h

end Apart

/-- A type is there and has room for members with some names. -/
structure Room (typeId : String) (types : List DocumentType) (fields groups : List String)
    (w : Workspace) : Prop where
  ready : w.Ready
  types : w.registry.types = types
  known : ∃ t, w.registry.requireType typeId = .ok t
  apart : Apart w.registry typeId fields groups

/-! ### Members -/

theorem checkGroup_congr {r' : Registry} (h : r'.groups = r.groups) :
    r'.checkGroup typeId group = r.checkGroup typeId group := by
  cases group with
  | none => rfl
  | some g => simp only [Registry.checkGroup, Registry.requireGroupOf, Registry.group?, h]

/-- A field that can be defined is defined where there is room for its name. -/
theorem defineField_room (strict : Bool)
    (hw : Room typeId types (nameOf (.record es) :: fields) groups w) (h : Definable types es)
    (hg : group ≠ some "") (hgroup : w.registry.checkGroup typeId group = .ok ()) :
    ∃ w', (defineField strict typeId group (.record es)).run.run w = (.ok (), w') ∧
      Room typeId types fields groups w' ∧ w'.registry.groups = w.registry.groups := by
  obtain ⟨hready, rfl, ⟨t, ht⟩, hapart⟩ := hw
  obtain ⟨f, hf⟩ : ∃ f, builtField w strict typeId group (.record es) = .ok f :=
    builtField_ok h hg hgroup hapart.new_field.1 hapart.new_field.2
  rcases defineField_cases hready ht (.record es) with
    ⟨f', hf', hrun, hready', htype⟩ | ⟨e, ids, he, -⟩
  · obtain ⟨⟨_, hes, hdescribes⟩, -⟩ := builtField_describes hready hg hf'
    obtain rfl := Value.record.inj hes
    rw [nameOf_of_trimmed hdescribes.name] at hapart
    exact ⟨_, hrun, ⟨hready', rfl, ⟨t, ht⟩, hapart.addField htype⟩, List.append_nil _⟩
  · cases he.symm.trans hf

theorem defineFields_room (strict : Bool) (hw : Room typeId types (vs.map nameOf ++ fields) groups w)
    (h : ∀ v ∈ vs, ∃ es, v = .record es ∧ Definable types es) (hg : group ≠ some "")
    (hgroup : w.registry.checkGroup typeId group = .ok ()) :
    ∃ w', (vs.forM (defineField strict typeId group)).run.run w = (.ok (), w') ∧
      Room typeId types fields groups w' := by
  -- Each entry takes its own name, and there is room for the others after it.
  induction vs generalizing w with
  | nil => exact ⟨w, rfl, hw⟩
  | cons v vs ih =>
    obtain ⟨⟨es, rfl, hfirst⟩, hrest⟩ := List.forall_mem_cons.mp h
    obtain ⟨w₁, hrun, hroom, hgroups⟩ := defineField_room strict hw hfirst hg hgroup
    obtain ⟨w₂, hruns, hroom⟩ := ih hroom hrest ((checkGroup_congr hgroups).trans hgroup)
    refine ⟨w₂, ?_, hroom⟩
    rw [Building.run_forM_cons, hrun]
    exact hruns

theorem builtGroup_name {g : Group} (h : builtGroup w typeId (.record es) = .ok g) :
    g.name = nameOf (.record es) := by
  obtain ⟨spec, hspec, h⟩ := bind_eq_ok.mp h
  obtain ⟨gs, hgs, h⟩ := bind_eq_ok.mp h
  simp only [groupSpec, bind_eq_ok, pure_eq_ok] at hspec
  obtain ⟨name, hname, _, -, _, -, rfl⟩ := hspec
  obtain rfl := part_eq_ok hname
  obtain rfl := Except.ok.inj hgs
  obtain ⟨hname, -⟩ := buildGroup_gives h
  exact (nameOf_of_trimmed ((congrArg Value.trimmed (Entries.get_ofNames ..)).symm.trans hname)).symm

/-- A group that is built can have fields at once. -/
theorem checkGroup_new {g : Group} (hw : w.Ready) (hid : g.id = w.nextId)
    (htype : g.typeId = typeId) :
    (w.registry.extend [g] []).checkGroup typeId (some g.id) = .ok () := by
  have hfound : (w.registry.extend [g] []).group? g.id = some g := by
    have hnone : w.registry.groups.find? (·.id == g.id) = none := hid ▸ hw.fresh_group
    rw [Registry.group?, Registry.extend_groups, List.find?_append, hnone]
    simp
  rw [Registry.checkGroup, Registry.requireGroupOf, hfound]
  show (if g.typeId = typeId then _ else _) >>= _ = _
  rw [if_pos htype]
  rfl

/-- A group that can be defined is defined with its fields where there is room for their names. -/
theorem defineGroup_room (strict : Bool)
    (hw : Room typeId types ((fieldsIn (.record es)).map nameOf ++ fields)
      (nameOf (.record es) :: groups) w) (h : DefinableGroup types es) :
    ∃ w', (defineGroup strict typeId (.record es)).run.run w = (.ok (), w') ∧
      Room typeId types fields groups w' := by
  obtain ⟨hready, rfl, ⟨t, ht⟩, hapart⟩ := hw
  obtain ⟨g, hg⟩ := builtGroup_ok (w := w) h hapart.new_group.1 hapart.new_group.2
  rcases @defineGroup_cases strict typeId w hready t ht (.record es) with
    ⟨g', _, vs, hg', hes, hvs, htype, hready', hrun⟩ | ⟨e, w', hfailed, -⟩
  · obtain rfl := Value.record.inj hes
    obtain rfl := Except.ok.inj (hg.symm.trans hg')
    obtain ⟨_, hes, hid, -⟩ := builtGroup_describes hg
    have hne : some g.id ≠ some "" := fun he =>
      hready.nextId_ne_empty (hid.symm.trans (Option.some.inj he))
    rw [← builtGroup_name hg, fieldsIn_record hvs] at hapart
    rw [hrun]
    exact defineFields_room strict ⟨hready', rfl, ⟨t, ht⟩, hapart.addGroup htype⟩ (h.fields vs hvs)
      hne (checkGroup_new hready hid htype)
  -- Neither the group nor the list of its fields can fail.
  · obtain ⟨_, hes, hentry⟩ := groupEntry_of_meets h.shape
    obtain rfl := Value.record.inj hes
    obtain ⟨vs, hvs, -⟩ := hentry.fields
    rcases hfailed with he | ⟨_, hes, he⟩
    · cases he.symm.trans hg
    · obtain rfl := Value.record.inj hes
      cases he.symm.trans hvs

theorem defineGroups_room (strict : Bool)
    (hw : Room typeId types ((vs.flatMap fieldsIn).map nameOf ++ fields) (vs.map nameOf ++ groups) w)
    (h : ∀ v ∈ vs, ∃ es, v = .record es ∧ DefinableGroup types es) :
    ∃ w', (vs.forM (defineGroup strict typeId)).run.run w = (.ok (), w') ∧
      Room typeId types fields groups w' := by
  induction vs generalizing w with
  | nil => exact ⟨w, rfl, hw⟩
  | cons v vs ih =>
    obtain ⟨⟨es, rfl, hfirst⟩, hrest⟩ := List.forall_mem_cons.mp h
    rw [List.flatMap_cons, List.map_append, List.append_assoc] at hw
    obtain ⟨w₁, hrun, hroom⟩ := defineGroup_room strict hw hfirst
    obtain ⟨w₂, hruns, hroom⟩ := ih hroom hrest
    refine ⟨w₂, ?_, hroom⟩
    rw [Building.run_forM_cons, hrun]
    exact hruns

/-! ### Definitions -/

/-- What the registry asks of a definition beyond the check: texts that are not blank, names that
differ once they are trimmed, and bounds that are integers. -/
structure Tidy (raw : Entries) : Prop where
  trims : TrimsApart raw
  name : (Entries.get raw "name").trimmed ≠ .ok ""
  field : ∀ es, HasEntry raw es → (Entries.get es "label").trimmed ≠ .ok ""
  group : ∀ gs es, members raw "groups" = .ok gs → .record es ∈ gs →
    (Entries.get es "label").trimmed ≠ .ok "" ∧
      ((Entries.get es "repeatable").isTruthy = true → IntegerBounds es)

/-- The target codes of link fields are codes of types. -/
def TargetsIn (types : List DocumentType) (raw : Entries) : Prop :=
  ∀ es, HasEntry raw es → Entries.get es "type" = .text FieldKind.documentLink.name →
    (Entries.get es "target_code").isTruthy = true →
      ∃ t ∈ types, Entries.get es "target_code" = .text t.code

theorem field_definable (ht : Tidy raw) (hk : TargetsIn types raw)
    (hp : ∀ es, HasEntry raw es → PayloadsParsed es) (hentry : HasEntry raw es)
    (h : fieldShape.Meets (.record es)) : Definable types es :=
  ⟨h, ht.field es hentry, hp es hentry, hk es hentry⟩

/-- A clean definition consists of entries that can be defined. -/
theorem members_definable (h : problems formats raw = .ok []) (ht : Tidy raw)
    (hk : TargetsIn types raw) (hp : ∀ es, HasEntry raw es → PayloadsParsed es) :
    (∃ vs, members raw "fields" = .ok vs ∧ ∀ v ∈ vs, ∃ es, v = .record es ∧ Definable types es) ∧
      ∃ gs, members raw "groups" = .ok gs ∧
        ∀ g ∈ gs, ∃ es, g = .record es ∧ DefinableGroup types es := by
  obtain ⟨_, _, _, hpassed⟩ := passed_of_problems h
  obtain ⟨vs, hvs, hfields⟩ := members_of_meets fun v hv => part_of_meets 6 hpassed.shape rfl hv
  obtain ⟨gs, hgs, hgroups⟩ := members_of_meets fun v hv => part_of_meets 7 hpassed.shape rfl hv
  refine ⟨⟨vs, hvs, fun v hv => ?_⟩, gs, hgs, fun g hg => ?_⟩
  · obtain ⟨es, rfl, -⟩ := fieldEntry_of_meets (hfields v hv)
    exact ⟨es, rfl, field_definable ht hk hp (.alone hvs hv) (hfields _ hv)⟩
  · have hshape := hgroups g hg
    obtain ⟨es, rfl, -⟩ := groupEntry_of_meets hshape
    obtain ⟨inner, hfs, hinner⟩ := members_of_meets fun v hv => part_of_meets 6 hshape rfl hv
    obtain rfl := Except.ok.inj (hgs.symm.trans hpassed.entries)
    obtain ⟨hlabel, hbounds⟩ := ht.group gs es hgs hg
    refine ⟨es, rfl, hshape, hlabel, hbounds, hpassed.bounds _ hg, fun vs hvs v hv => ?_⟩
    obtain rfl := Except.ok.inj (hvs.symm.trans hfs)
    obtain ⟨fs, rfl, -⟩ := fieldEntry_of_meets (hinner v hv)
    exact ⟨fs, rfl, field_definable ht hk hp (.grouped hgs hg hfs hv) (hinner _ hv)⟩

/-- The members of a clean definition can be defined for a type that has none. -/
theorem defineMembers_clean (strict : Bool) (hw : w.Ready) {t : DocumentType}
    (ht : w.registry.requireType typeId = .ok t) (hfields : w.registry.fieldsOf typeId = [])
    (hgroups : w.registry.groupsOf typeId = []) (h : problems formats raw = .ok [])
    (htidy : Tidy raw) (hk : TargetsIn w.registry.types raw)
    (hp : ∀ es, HasEntry raw es → PayloadsParsed es) :
    ∃ w', (defineMembers strict typeId raw).run.run w = (.ok (), w') := by
  obtain ⟨⟨vs, hvs, hdefinable⟩, gs, hgs, hdefinableGroups⟩ := members_definable h htidy hk hp
  obtain ⟨vs', gs', hvs', hgs', hnames⟩ := names_apart h htidy.trims
  obtain rfl := Except.ok.inj (hvs.symm.trans hvs')
  obtain rfl := Except.ok.inj (hgs.symm.trans hgs')
  have hroom : Room typeId w.registry.types
      (vs.map nameOf ++ ((gs.flatMap fieldsIn).map nameOf ++ [])) (gs.map nameOf ++ []) w := by
    refine ⟨hw, rfl, ⟨t, ht⟩, ?_⟩
    rw [Apart, hfields, hgroups]
    simpa using hnames
  have hungrouped : (none : Option String) ≠ some "" := nofun
  obtain ⟨w₁, hrun, hroom⟩ := defineFields_room strict hroom hdefinable hungrouped rfl
  obtain ⟨w₂, hruns, -⟩ := defineGroups_room strict hroom hdefinableGroups
  refine ⟨w₂, ?_⟩
  rw [defineMembers, Building.run_bind, Building.run_plain, hvs]
  dsimp only
  rw [Building.run_bind, hrun]
  dsimp only
  rw [Building.run_bind, Building.run_plain, hgs]
  exact hruns

/-! ### Payloads of what is loaded -/

theorem DescribesMembers.field {form : Form} (h : DescribesMembers strict types raw form)
    (he : HasEntry raw es) : ∃ f, DescribesField strict types es f := by
  have found {vs : List Value} {fs : List Field} (hv : .record es ∈ vs)
      (hlisted : Listed (DescribesField strict types) vs fs) :
      ∃ f, DescribesField strict types es f := by
    obtain ⟨f, -, _, hes, hdescribes⟩ := exists_of_forall₂ hlisted hv
    obtain rfl := Value.record.inj hes
    exact ⟨f, hdescribes⟩
  cases he with
  | alone hvs hv =>
    obtain ⟨vs, hvs', hlisted⟩ := h.fields
    obtain rfl := Except.ok.inj (hvs.symm.trans hvs')
    exact found hv hlisted
  | grouped hgs hg hvs hv =>
    obtain ⟨gs, hgs', hlisted⟩ := h.groups
    obtain rfl := Except.ok.inj (hgs.symm.trans hgs')
    obtain ⟨g, -, _, hes, hdescribes⟩ := exists_of_forall₂ hlisted hg
    obtain rfl := Value.record.inj hes
    obtain ⟨vs, hvs', hlisted⟩ := hdescribes.fields
    obtain rfl := Except.ok.inj (hvs.symm.trans hvs')
    exact found hv hlisted

theorem parsed_of_takenAs {α : Type} {parsed : Except Fault (Option α)} {a : Option α}
    (h : TakenAs true parsed a) : ∃ a, parsed = .ok a := by
  rcases h with h | ⟨hstrict, -⟩
  · exact ⟨a, h⟩
  · cases hstrict

/-- The payloads of a field that is described strictly have been parsed. -/
theorem payloads_of_describes {f : Field} (h : DescribesField true types es f) :
    PayloadsParsed es := by
  have hname := nameOf_of_trimmed h.name
  refine ⟨fun kind hkind hlink => ?_, ?_⟩
  · have hsame : kind = f.kind := by
      have htext := h.kind
      rw [hkind, orElse_name] at htext
      exact name_inj (Atom.text.inj (Value.atom.inj htext))
    rw [hname, hsame]
    exact parsed_of_takenAs (h.options (hsame ▸ hlink))
  · rw [hname]
    exact parsed_of_takenAs h.rules

/-! ### Loading -/

/-- The target codes of link fields are codes of registered types, or the definition's own one. -/
def TargetsKnown (r : Registry) (raw : Entries) : Prop :=
  ∀ es, HasEntry raw es → Entries.get es "type" = .text FieldKind.documentLink.name →
    ∀ c, Entries.get es "target_code" = .text c →
      (∃ t ∈ r.types, t.code = c) ∨ (Entries.get raw "code").trimmed = .ok c

theorem Admitted.entry (h : Admitted raw) (he : HasEntry raw es) : FieldEntry es := by
  cases he with
  | alone hvs hv =>
    obtain ⟨vs, hvs', hfields⟩ := h.fields
    obtain rfl := Except.ok.inj (hvs.symm.trans hvs')
    obtain ⟨_, hes, hentry⟩ := hfields _ hv
    exact Value.record.inj hes ▸ hentry
  | grouped hgs hg hvs hv =>
    obtain ⟨gs, hgs', hgroups⟩ := h.groups
    obtain rfl := Except.ok.inj (hgs.symm.trans hgs')
    obtain ⟨_, hes, hgroup⟩ := hgroups _ hg
    obtain rfl := Value.record.inj hes
    obtain ⟨vs, hvs', hfields⟩ := hgroup.fields
    obtain rfl := Except.ok.inj (hvs.symm.trans hvs')
    obtain ⟨_, hes, hentry⟩ := hfields _ hv
    exact Value.record.inj hes ▸ hentry

/-- Once the type is there, the target codes are codes of types. -/
theorem targetsIn_of_known {t : DocumentType} (h : TargetsKnown r raw) (hraw : Admitted raw)
    (ht : (Entries.get raw "code").trimmed = .ok t.code) : TargetsIn (r.types ++ [t]) raw := by
  intro es hentry hlink hcode
  obtain ⟨c, hc⟩ : ∃ c, Entries.get es "target_code" = .text c := by
    cases hv : Entries.get? es "target_code" with
    | none => simp [Entries.get, hv, Value.isTruthy] at hcode
    | some v =>
      obtain ⟨c, rfl⟩ := (hraw.entry hentry).target v hv
      exact ⟨c, get_of_get? hv⟩
  rcases h es hentry hlink c hc with ⟨u, hu, rfl⟩ | hown
  · exact ⟨u, List.mem_append_left _ hu, hc⟩
  · exact ⟨t, by simp, by rw [hc, Except.ok.inj (hown.symm.trans ht)]⟩

theorem typeOf_id {id : String} {t : DocumentType} (h : typeOf r id raw = .ok t) : t.id = id := by
  obtain ⟨_, -, h⟩ := bind_eq_ok.mp h
  obtain ⟨_, -, h⟩ := bind_eq_ok.mp h
  exact Registry.buildType_id h

/-- The workspace once a type has come. -/
def withType (w : Workspace) (t : DocumentType) : Workspace :=
  ⟨{ w.registry with types := w.registry.types ++ [t] }, w.nextIds⟩

/-- A definition has given its type, which has no members yet. -/
structure Begun (w : Workspace) (raw : Entries) (t : DocumentType) : Prop where
  type : typeOf w.registry w.nextId raw = .ok t
  ready : (withType w t).Ready
  known : (withType w t).registry.requireType t.id = .ok t
  fields : (withType w t).registry.fieldsOf t.id = []
  groups : (withType w t).registry.groupsOf t.id = []

/-- Members belong to types that exist, so a type that is new has none. -/
theorem begun_of_typeOf (hw : w.Ready) {t : DocumentType}
    (ht : typeOf w.registry w.nextId raw = .ok t) : Begun w raw t := by
  have unknown {id : String} (h : w.registry.HasType id) : id ≠ t.id := by
    obtain ⟨u, hu, rfl⟩ := h
    exact typeOf_id ht ▸ hw.ne_nextId (hw.type u hu)
  rcases run_typeOf hw raw with ⟨u, hu, -, hready⟩ | ⟨e, ids, he, -⟩
  · obtain rfl := Except.ok.inj (ht.symm.trans hu)
    refine ⟨ht, hready, Registry.requireType_of_mem hready.consistent.identified (by simp), ?_, ?_⟩
    · exact List.filter_eq_nil_iff.mpr fun f hf => by
        simpa using unknown (hw.consistent.owned.field f hf)
    · exact List.filter_eq_nil_iff.mpr fun g hg => by
        simpa using unknown (hw.consistent.owned.group g hg)
  · cases he.symm.trans ht

/-- Loading one file defines its type and then its members. -/
theorem load_single {formats : Formats} (hw : w.Ready) {f : File} {t : DocumentType}
    (hcontent : f.content = .ok raw) (hcheck : problems formats raw = .ok [])
    (ht : typeOf w.registry w.nextId raw = .ok t)
    (hmembers : (defineMembers strict t.id raw).run.run (withType w t) = (.ok (), w')) :
    (load formats strict [f]).run.run w = (.ok [t], w') := by
  have hdefine : (defineType formats f).run.run w = (.ok (.ok t), withType w t) := by
    unfold defineType
    rw [Building.run_bind, Building.run_attempt, Building.run_bind, Building.run_plain, hcontent]
    dsimp only
    rw [Building.run_bind, Building.run_plain, hcheck]
    rcases run_typeOf hw raw with ⟨u, hu, hrun, -⟩ | ⟨e, ids, he, -⟩
    · obtain rfl := Except.ok.inj (ht.symm.trans hu)
      simp only [hrun]
      rfl
    · cases he.symm.trans ht
  have hcomplete : (completeTypes strict [(f, t)]).run.run (withType w t) =
      (.ok ([t], []), w') := by
    have hattempt : (Building.plain f.content >>= defineMembers strict t.id).run.run
        (withType w t) = (.ok (), w') := by
      rw [Building.run_bind, Building.run_plain, hcontent]
      exact hmembers
    rw [completeTypes, Building.run_bind, Building.run_attempt, hattempt]
    rfl
  have hdefines : (defineTypes formats [f]).run.run w = (.ok ([(f, t)], []), withType w t) := by
    rw [defineTypes, Building.run_bind, hdefine]
    rfl
  rw [load, Building.run_bind, hdefines]
  dsimp only
  rw [Building.run_bind, hcomplete]
  rfl

/-- The type of a file has been registered after all others, with the form that the file describes,
and the forms of the others are as before. -/
structure Registered (w w' : Workspace) (f : File) (t : DocumentType) : Prop where
  ready : w'.Ready
  types : w'.registry.types = w.registry.types ++ [t]
  shown : Shows true w'.registry w'.registry.types f t
  others : ∀ u ∈ w.registry.types, w'.registry.getForm u.id = w.registry.getForm u.id

/-- A file is registered when the members of its type have been defined. -/
theorem registered_of_members {f : File} {t : DocumentType} (hw : w.Ready)
    (hcontent : f.content = .ok raw) (h : Begun w raw t)
    (hmembers : (defineMembers true t.id raw).run.run (withType w t) = (.ok (), w')) :
    Registered w w' f t := by
  obtain ⟨form, hform, hof, hdescribes⟩ :=
    defineMembers_ok h.ready h.known h.fields h.groups hmembers
  have hextends := defineMembers_extending true t.id raw _ h.ready t h.known
  rw [hmembers] at hextends
  have hdescribed := typeOf_describes h.type
  refine ⟨hextends.ready, hextends.types, ⟨raw, form, hcontent, hdescribed, hform, hof, ?_⟩,
    fun u hu => ?_⟩
  · rw [hextends.types]
    exact hdescribes
  · have hbeside : Registry.SameBeside t.id w.registry (withType w t).registry :=
      ⟨by simp [withType], rfl, rfl, rfl⟩
    have hne : u.id ≠ t.id := typeOf_id h.type ▸ hw.ne_nextId (hw.type u hu)
    exact (hbeside.trans hextends.beside).getForm hne

/-- A clean definition with a new code, whose targets are known, is loaded just when the payloads of
its fields are parsed. -/
theorem clean_loads_iff (hw : w.Ready) {f : File} (hcontent : f.content = .ok raw)
    (hclean : problems formats raw = .ok []) (htidy : Tidy raw)
    (hnew : ∀ t ∈ w.registry.types, (Entries.get raw "code").trimmed ≠ .ok t.code)
    (htargets : TargetsKnown w.registry raw) :
    (∃ t w', (load formats true [f]).run.run w = (.ok [t], w') ∧ Registered w w' f t) ↔
      ∀ es, HasEntry raw es → PayloadsParsed es := by
  constructor
  · rintro ⟨t, w', -, -, -, ⟨raw', form, hcontent', -, -, -, hdescribes⟩, -⟩ es hentry
    obtain rfl := Except.ok.inj (hcontent.symm.trans hcontent')
    obtain ⟨f, hf⟩ := hdescribes.field hentry
    exact payloads_of_describes hf
  · intro hpayloads
    obtain ⟨_, _, _, hpassed⟩ := passed_of_problems hclean
    obtain ⟨t, ht⟩ : ∃ t, typeOf w.registry w.nextId raw = .ok t :=
      typeOf_ok hpassed.shape htidy.name hnew
    have hbegun := begun_of_typeOf hw ht
    have htargetsIn : TargetsIn (withType w t).registry.types raw :=
      targetsIn_of_known htargets (admitted_of_meets hpassed.shape) (typeOf_describes ht).code
    obtain ⟨w', hrun⟩ := defineMembers_clean true hbegun.ready hbegun.known hbegun.fields
      hbegun.groups hclean htidy htargetsIn hpayloads
    exact ⟨t, w', load_single hw hcontent hclean ht hrun,
      registered_of_members hw hcontent hbegun hrun⟩

theorem HasEntry.mem {gs : List Value} (h : HasEntry raw es) (hvs : members raw "fields" = .ok vs)
    (hgs : members raw "groups" = .ok gs) : .record es ∈ vs ++ gs.flatMap fieldsIn := by
  cases h with
  | alone hvs' hv =>
    obtain rfl := Except.ok.inj (hvs'.symm.trans hvs)
    exact List.mem_append_left _ hv
  | grouped hgs' hg hinner hv =>
    obtain rfl := Except.ok.inj (hgs'.symm.trans hgs)
    rw [← fieldsIn_record hinner] at hv
    exact List.mem_append_right _ (List.mem_flatMap.mpr ⟨_, hg, hv⟩)

/-- A field of a note that leads to an order. -/
def orderField : Entries := Entries.ofNames [("name", .text "order"), ("label", .text "Order"),
  ("type", .text "document_link"), ("target_code", .text "ORDER")]

/-- A field of a note with two choices. -/
def sizeField : Entries := Entries.ofNames [("name", .text "size"), ("label", .text "Size"),
  ("type", .text "select"), ("options", .list [.text "S", .text "M"])]

/-- A field in the lines of a note. -/
def amountField : Entries := Entries.ofNames [("name", .text "amount"), ("label", .text "Amount"),
  ("type", .text "number"), ("validation_rules", .named [("min", .int 0)])]

/-- The lines of a note. -/
def linesGroup : Entries := Entries.ofNames [("name", .text "lines"), ("label", .text "Lines"),
  ("repeatable", .bool true), ("min_repeats", .int 1), ("max_repeats", .int 3),
  ("fields", .list [.record amountField])]

/-- The definition of notes. -/
def note : Entries := Entries.ofNames [("code", .text "NOTE"), ("name", .text "Note"),
  ("fields", .list [.record orderField, .record sizeField]), ("groups", .list [.record linesGroup])]

/-- A workspace with a type for orders. -/
def withOrders : Workspace := ⟨{ types := [{ id := "id-1", name := "Order", code := "ORDER" }] },
  { count := 1 }⟩

theorem withOrders_ready : withOrders.Ready := by
  have hbuild : Registry.buildType {} "id-1" (Entries.ofNames [("name", .text "Order"),
      ("code", .text "ORDER")]) = .ok { id := "id-1", name := "Order", code := "ORDER" } := by
    decide +kernel
  exact (Workspace.ready_empty 0).addType hbuild

theorem note_entry (h : HasEntry note es) : es = orderField ∨ es = sizeField ∨ es = amountField := by
  have hmem : .record es ∈ [.record orderField, .record sizeField] ++
      [Value.record linesGroup].flatMap fieldsIn := h.mem rfl rfl
  have hlines : [Value.record linesGroup].flatMap fieldsIn = [.record amountField] := by
    decide +kernel
  rw [hlines] at hmem
  simpa using hmem

theorem note_tidy : Tidy note where
  trims fs gs hfs hgs := by
    have hfields : fieldNames note = .ok [.text "order", .text "size", .text "amount"] := by
      decide +kernel
    have hgroups : groupNames note = .ok [.text "lines"] := by decide +kernel
    obtain rfl := Except.ok.inj (hfields.symm.trans hfs)
    obtain rfl := Except.ok.inj (hgroups.symm.trans hgs)
    decide +kernel
  name := by decide +kernel
  field es h := by
    rcases note_entry h with rfl | rfl | rfl <;> decide +kernel
  group gs es hgs hg := by
    obtain rfl : [.record linesGroup] = gs := Except.ok.inj hgs
    obtain rfl := Value.record.inj (List.mem_singleton.mp hg)
    refine ⟨by decide +kernel, fun _ b => ?_⟩
    cases b
    · exact ⟨some 1, rfl⟩
    · exact ⟨some 3, rfl⟩

theorem note_parsed (h : HasEntry note es) : PayloadsParsed es := by
  rcases note_entry h with rfl | rfl | rfl
  · refine ⟨fun kind hkind hlink => ?_, none, by decide +kernel⟩
    obtain rfl : FieldKind.documentLink = kind := name_inj (Atom.text.inj (Value.atom.inj hkind))
    exact absurd rfl hlink
  · refine ⟨fun kind hkind _ => ?_, none, by decide +kernel⟩
    obtain rfl : FieldKind.select = kind := name_inj (Atom.text.inj (Value.atom.inj hkind))
    exact ⟨some (.choices [⟨"S", "S"⟩, ⟨"M", "M"⟩]), by decide +kernel⟩
  · refine ⟨fun kind hkind _ => ?_, some { minimum := some (.int 0) }, by decide +kernel⟩
    obtain rfl : FieldKind.number = kind := name_inj (Atom.text.inj (Value.atom.inj hkind))
    exact ⟨none, by decide +kernel⟩

/-- Notes are loaded beside orders. -/
theorem clean_loads_note : withOrders.Ready ∧ problems formats note = .ok [] ∧ Tidy note ∧
    (∀ t ∈ withOrders.registry.types, (Entries.get note "code").trimmed ≠ .ok t.code) ∧
    TargetsKnown withOrders.registry note ∧ ∃ t w',
      (load formats true [⟨"note.yml", .ok note⟩]).run.run withOrders = (.ok [t], w') ∧
        Registered withOrders w' ⟨"note.yml", .ok note⟩ t := by
  have hclean : problems formats note = .ok [] := by decide +kernel
  have hnew : ∀ t ∈ withOrders.registry.types, (Entries.get note "code").trimmed ≠ .ok t.code := by
    decide +kernel
  have htargets : TargetsKnown withOrders.registry note := by
    intro es hentry hlink c hc
    refine .inl ⟨_, List.mem_singleton_self _, ?_⟩
    rcases note_entry hentry with rfl | rfl | rfl
    · exact Atom.text.inj (Value.atom.inj hc)
    · cases hc
    · cases hc
  refine ⟨withOrders_ready, hclean, note_tidy, hnew, htargets, ?_⟩
  exact (clean_loads_iff withOrders_ready rfl hclean note_tidy hnew htargets).mpr
    fun es => note_parsed

/-- A field with choices that are no list. -/
def sizeRecord : Entries := Entries.ofNames [("name", .text "size"), ("label", .text "Size"),
  ("type", .text "select"), ("options", .named [("S", .text "Small")])]

/-- A definition with nothing but this field. -/
def sizes : Entries := Entries.ofNames [("code", .text "A"), ("name", .text "A"),
  ("fields", .list [.record sizeRecord])]

/-- A definition can be clean and not be loaded. The check takes the choices as they are. -/
theorem clean_not_loaded : Workspace.Ready {} ∧ problems formats sizes = .ok [] ∧
    (∀ t ∈ ({} : Workspace).registry.types, (Entries.get sizes "code").trimmed ≠ .ok t.code) ∧
    TargetsKnown ({} : Workspace).registry sizes ∧ ∃ w',
      (load formats true [⟨"a.yml", .ok sizes⟩]).run.run {} = (.error (.refused (.definitions
        ["a.yml: Options for select field 'size' must be a JSON array"])), w') ∧
      w'.registry.types = [] := by
  refine ⟨Workspace.ready_empty 0, by decide +kernel, by simp, fun es hentry hlink => ?_, _,
    Prod.ext ?_ rfl, ?_⟩
  · have hmem : .record es ∈ [Value.record sizeRecord] ++ [].flatMap fieldsIn := hentry.mem rfl rfl
    obtain rfl : es = sizeRecord := by simpa using hmem
    exact absurd hlink (by decide +kernel)
  · decide +kernel
  · decide +kernel

end DocForms.Definition
