import DocForms.Proofs.Definition.Descriptions

/-! Defining the members of a type. However that ends, nothing else is touched; and when it
succeeds, the form of the type is as the definition describes it. -/
namespace DocForms

namespace Building
variable {α β : Type} {R : Workspace → Workspace → Prop}

/-- Whatever is carried out from a workspace leads to a related one, also when it fails. -/
def Within (R : Workspace → Workspace → Prop) (b : Building α) : Prop :=
  ∀ w, R w (b.run.run w).2

theorem within_plain (hrefl : ∀ w, R w w) (e : Except Fault α) : Within R (plain e) :=
  fun w => hrefl w

theorem within_bind (htrans : ∀ w w' w'', R w w' → R w' w'' → R w w'') {b : Building α}
    {f : α → Building β} (hb : Within R b) (hf : ∀ a, Within R (f a)) : Within R (b >>= f) := by
  intro w
  have hfirst := hb w
  rw [run_bind]
  rcases hrun : b.run.run w with ⟨e | a, w'⟩
  · rw [hrun] at hfirst
    exact hfirst
  · rw [hrun] at hfirst
    exact htrans w w' _ hfirst (hf a w')

theorem within_forM (hrefl : ∀ w, R w w) (htrans : ∀ w w' w'', R w w' → R w' w'' → R w w'')
    {f : α → Building PUnit} (hf : ∀ a, Within R (f a)) (as : List α) : Within R (as.forM f) := by
  induction as with
  | nil => exact fun w => hrefl w
  | cons a as ih => exact within_bind htrans (hf a) fun _ => ih

end Building

namespace Definition
open Registry (SameBeside)
variable {strict : Bool} {typeId : String} {group : Option String} {w w' : Workspace}

/-! ### What is touched -/

/-- Members of one type have come, and nothing else has changed. -/
structure Extends (typeId : String) (w w' : Workspace) : Prop where
  ready : w'.Ready
  types : w'.registry.types = w.registry.types
  beside : SameBeside typeId w.registry w'.registry

/-- Nothing but members of a type that exists can come. -/
def Extending (typeId : String) (w w' : Workspace) : Prop :=
  w.Ready → ∀ t, w.registry.requireType typeId = .ok t → Extends typeId w w'

theorem extends_ids {ids : Ids} (h : Workspace.Ready ⟨w.registry, ids⟩) :
    Extends typeId w ⟨w.registry, ids⟩ := ⟨h, rfl, rfl, rfl, rfl, rfl⟩

theorem extending_refl (w : Workspace) : Extending typeId w w := fun hw _ _ => extends_ids hw

theorem requireType_congr {r r' : Registry} (h : r'.types = r.types) (id : String) :
    r'.requireType id = r.requireType id := by
  rw [Registry.requireType, Registry.requireType, Registry.type?, Registry.type?, h]

theorem extending_trans (w w' w'' : Workspace) (h : Extending typeId w w')
    (h' : Extending typeId w' w'') : Extending typeId w w'' := by
  intro hw t ht
  have hfirst := h hw t ht
  have hsecond := h' hfirst.ready t ((requireType_congr hfirst.types typeId).trans ht)
  exact ⟨hsecond.ready, hsecond.types.trans hfirst.types, hfirst.beside.trans hsecond.beside⟩

/-! ### One field -/

/-- The field that is built from an entry in a workspace. -/
def builtField (w : Workspace) (strict : Bool) (typeId : String) (group : Option String)
    (entry : Value) : Except Fault Field := do
  let spec ← fieldSpec w.registry group entry
  w.registry.buildField typeId w.nextId (← spec.entries) strict

theorem run_defineField (hw : w.Ready) {t : DocumentType}
    (ht : w.registry.requireType typeId = .ok t) {entry : Value} {fs : Entries}
    (hspec : fieldSpec w.registry group entry = .ok (.record fs)) :
    (defineField strict typeId group entry).run.run w =
      match w.registry.buildField typeId w.nextId fs strict with
      | .ok f => (.ok (), ⟨w.registry.extend [] [f], w.nextIds⟩)
      | .error e => (.error e, ⟨w.registry, w.nextIds⟩) := by
  rw [defineField, Building.run_bind, Building.run_read, hspec]
  show (Building.mint (·.defineField typeId (.record fs) strict) >>= _ :
    Building Unit).run.run w = _
  rw [Building.run_bind, Building.run_defineField hw ht]
  cases w.registry.buildField typeId w.nextId fs strict <;> rfl

/-- A field that is built comes after all others; a failure changes no record. -/
theorem defineField_cases (hw : w.Ready) {t : DocumentType}
    (ht : w.registry.requireType typeId = .ok t) (entry : Value) :
    (∃ f, builtField w strict typeId group entry = .ok f ∧
      (defineField strict typeId group entry).run.run w =
        (.ok (), ⟨w.registry.extend [] [f], w.nextIds⟩) ∧
      Workspace.Ready ⟨w.registry.extend [] [f], w.nextIds⟩ ∧
      f.typeId = typeId) ∨
    ∃ e ids, builtField w strict typeId group entry = .error e ∧
      (defineField strict typeId group entry).run.run w = (.error e, ⟨w.registry, ids⟩) ∧
      Workspace.Ready ⟨w.registry, ids⟩ := by
  cases hspec : fieldSpec w.registry group entry with
  | error e =>
    refine .inr ⟨e, w.ids, ?_, ?_, hw⟩
    · rw [builtField, hspec]
      rfl
    · rw [defineField, Building.run_bind, Building.run_read, hspec]
  | ok spec =>
    obtain ⟨fs, rfl⟩ : ∃ fs, spec = .record fs := by
      obtain ⟨es, options, -, -, -, rfl⟩ := fieldSpec_eq_ok hspec
      exact ⟨_, rfl⟩
    have hbuilt : builtField w strict typeId group entry =
        w.registry.buildField typeId w.nextId fs strict := by
      rw [builtField, hspec]
      rfl
    rw [hbuilt, run_defineField hw ht hspec]
    cases hf : w.registry.buildField typeId w.nextId fs strict with
    | error e => exact .inr ⟨e, w.nextIds, rfl, rfl, hw.skip⟩
    | ok f => exact .inl ⟨f, rfl, rfl, hw.addField ht hf, (Registry.buildField_owner hf).2⟩

theorem extends_extend {gs : List Group} {fs : List Field} {ids : Ids}
    (hgs : ∀ g ∈ gs, g.typeId = typeId) (hfs : ∀ f ∈ fs, f.typeId = typeId)
    (h : Workspace.Ready ⟨w.registry.extend gs fs, ids⟩) :
    Extends typeId w ⟨w.registry.extend gs fs, ids⟩ where
  ready := h
  types := rfl
  beside := by
    have hgroups : gs.filter (·.typeId != typeId) = [] :=
      List.filter_eq_nil_iff.mpr fun g hg => by simp [hgs g hg]
    have hfields : fs.filter (·.typeId != typeId) = [] :=
      List.filter_eq_nil_iff.mpr fun f hf => by simp [hfs f hf]
    refine ⟨rfl, ?_, ?_, rfl⟩
    · rw [Registry.extend_groups, List.filter_append, hgroups, List.append_nil]
    · rw [Registry.extend_fields, List.filter_append, hfields, List.append_nil]

theorem defineField_extending (strict : Bool) (typeId : String) (group : Option String)
    (entry : Value) :
    Building.Within (Extending typeId) (defineField strict typeId group entry) := by
  intro w hw t ht
  rcases defineField_cases hw ht entry with ⟨f, -, hrun, hready, hf⟩ | ⟨e, ids, -, hrun, hready⟩
  · rw [hrun]
    exact extends_extend (by simp) (by simpa using hf) hready
  · rw [hrun]
    exact extends_ids hready

theorem Workspace.Ready.id_ne_empty (hw : w.Ready) {t : DocumentType} (ht : t ∈ w.registry.types) :
    t.id ≠ "" := (hw.type t ht).some

/-- A field that is built is as its entry describes it, and comes last in its scope. -/
theorem builtField_describes (hw : w.Ready) (hg : group ≠ some "") {entry : Value} {f : Field}
    (h : builtField w strict typeId group entry = .ok f) :
    (∃ es, entry = .record es ∧ DescribesField strict w.registry.types es f) ∧ f.groupId = group ∧
      f.order = (w.registry.scope typeId group).length := by
  obtain ⟨spec, hspec, h⟩ := bind_eq_ok.mp h
  obtain ⟨fs, hfs, h⟩ := bind_eq_ok.mp h
  obtain ⟨es, fs', rfl, rfl, hbuild⟩ :=
    fieldSpec_describes hg (fun t ht => Workspace.Ready.id_ne_empty hw ht) hspec
  obtain rfl := Except.ok.inj hfs
  obtain ⟨hdescribes, hgroup, horder⟩ := hbuild _ _ _ _ _ h
  refine ⟨⟨es, rfl, hdescribes⟩, hgroup, ?_⟩
  have hothers : (w.registry.scope typeId group).filter (·.id != w.nextId) =
      w.registry.scope typeId group := by
    rw [List.filter_eq_self]
    intro g hg
    have hmem := (List.mem_filter.mp (List.mem_filter.mp hg).1).1
    simpa using hw.ne_nextId (hw.field g hmem)
  have horder := Except.ok.inj horder
  rw [hothers] at horder
  exact horder.symm

/-! ### The fields of a scope -/

/-- The fields are those of a scope of a type, numbered on from a number. -/
structure Scoped (typeId : String) (group : Option String) (start : Nat) (fs : List Field) :
    Prop where
  type : ∀ f ∈ fs, f.typeId = typeId
  group : ∀ f ∈ fs, f.groupId = group
  order : fs.map Field.order = (List.range' start fs.length).map Int.ofNat

theorem scope_extend (r : Registry) (gs : List Group) {fs : List Field}
    (htype : ∀ f ∈ fs, f.typeId = typeId) (hgroup : ∀ f ∈ fs, f.groupId = group) :
    (r.extend gs fs).scope typeId group = r.scope typeId group ++ fs := by
  have hown : fs.filter (·.typeId == typeId) = fs :=
    List.filter_eq_self.mpr fun f hf => by simp [htype f hf]
  have hscope : fs.filter (·.groupId == group) = fs :=
    List.filter_eq_self.mpr fun f hf => by simp [hgroup f hf]
  simp only [Registry.scope, Registry.fieldsOf, Registry.extend_fields, List.filter_append, hown,
    hscope]

/-- Fields that are defined in turn come after all others, and are as their entries describe
them. -/
theorem defineFields_ok {entries : List Value} (hw : w.Ready) {t : DocumentType}
    (ht : w.registry.requireType typeId = .ok t) (hg : group ≠ some "")
    (h : (entries.forM (defineField strict typeId group)).run.run w = (.ok (), w')) :
    w'.Ready ∧ ∃ fs, w'.registry = w.registry.extend [] fs ∧
      Listed (DescribesField strict w.registry.types) entries fs ∧
      Scoped typeId group (w.registry.scope typeId group).length fs := by
  induction entries generalizing w with
  | nil =>
    obtain rfl : w = w' := congrArg Prod.snd h
    exact ⟨hw, [], by simp, .nil, by simp, by simp, rfl⟩
  | cons entry entries ih =>
    rw [Building.run_forM_cons] at h
    rcases defineField_cases hw ht entry with ⟨f, hf, hrun, hready, htype⟩ | ⟨e, ids, -, hrun, -⟩
    · rw [hrun] at h
      obtain ⟨hdescribes, hgroup, horder⟩ := builtField_describes hw hg hf
      obtain ⟨hready, fs, hfs, hlisted, hscoped⟩ := ih hready ht h
      have hscope : (w.registry.extend [] [f]).scope typeId group =
          w.registry.scope typeId group ++ [f] :=
        scope_extend _ _ (by simpa using htype) (by simpa using hgroup)
      rw [hscope] at hscoped
      refine ⟨hready, f :: fs, by simpa using hfs, .cons hdescribes hlisted, ?_, ?_, ?_⟩
      · simpa using ⟨htype, hscoped.type⟩
      · simpa using ⟨hgroup, hscoped.group⟩
      · rw [List.map_cons, hscoped.order, horder, List.length_append]
        rfl
    · rw [hrun] at h
      cases congrArg Prod.fst h

/-! ### One group -/

/-- The group that is built from an entry in a workspace. -/
def builtGroup (w : Workspace) (typeId : String) (entry : Value) : Except Fault Group := do
  let spec ← groupSpec entry
  w.registry.buildGroup typeId w.nextId (← spec.entries)

theorem run_defineGroup (hw : w.Ready) {t : DocumentType}
    (ht : w.registry.requireType typeId = .ok t) {es gs : Entries}
    (hspec : groupSpec (.record es) = .ok (.record gs)) :
    (defineGroup strict typeId (.record es)).run.run w =
      match w.registry.buildGroup typeId w.nextId gs with
      | .ok g =>
        match members es "fields" with
        | .ok fields => (fields.forM (defineField strict typeId (some g.id))).run.run
            ⟨w.registry.extend [g] [], w.nextIds⟩
        | .error e => (.error e, ⟨w.registry.extend [g] [], w.nextIds⟩)
      | .error e => (.error e, ⟨w.registry, w.nextIds⟩) := by
  rw [defineGroup, Building.run_bind, Building.run_plain, hspec]
  show (Building.mint (·.defineGroup typeId (.record gs)) >>= _ : Building Unit).run.run w = _
  rw [Building.run_bind, Building.run_defineGroup hw ht]
  cases w.registry.buildGroup typeId w.nextId gs with
  | error e => rfl
  | ok g =>
    show (Building.plain (members es "fields") >>= _ : Building Unit).run.run _ = _
    rw [Building.run_bind, Building.run_plain]
    cases members es "fields" <;> rfl

/-- A group that is built comes after all others, and then its fields are defined. -/
theorem defineGroup_cases (hw : w.Ready) {t : DocumentType}
    (ht : w.registry.requireType typeId = .ok t) (entry : Value) :
    (∃ g es fields, builtGroup w typeId entry = .ok g ∧ entry = .record es ∧
      members es "fields" = .ok fields ∧ g.typeId = typeId ∧
      Workspace.Ready ⟨w.registry.extend [g] [], w.nextIds⟩ ∧
      (defineGroup strict typeId entry).run.run w =
        (fields.forM (defineField strict typeId (some g.id))).run.run
          ⟨w.registry.extend [g] [], w.nextIds⟩) ∨
    ∃ e w', (builtGroup w typeId entry = .error e ∨
        ∃ es, entry = .record es ∧ members es "fields" = .error e) ∧
      (defineGroup strict typeId entry).run.run w = (.error e, w') ∧ Extends typeId w w' := by
  cases hspec : groupSpec entry with
  | error e =>
    refine .inr ⟨e, w, .inl ?_, ?_, extends_ids hw⟩
    · rw [builtGroup, hspec]
      rfl
    · rw [defineGroup, Building.run_bind, Building.run_plain, hspec]
  | ok spec =>
    obtain ⟨es, gs, rfl, rfl, -⟩ := groupSpec_describes hspec
    have hbuilt : builtGroup w typeId (.record es) = w.registry.buildGroup typeId w.nextId gs := by
      rw [builtGroup, hspec]
      rfl
    rw [hbuilt, run_defineGroup hw ht hspec]
    cases hg : w.registry.buildGroup typeId w.nextId gs with
    | error e => exact .inr ⟨e, _, .inl rfl, rfl, extends_ids hw.skip⟩
    | ok g =>
      have htype := (Registry.buildGroup_owner hg).2
      have hready := hw.addGroup ht hg
      cases hfields : members es "fields" with
      | error e =>
        exact .inr ⟨e, _, .inr ⟨es, rfl, hfields⟩, rfl,
          extends_extend (by simpa using htype) (by simp) hready⟩
      | ok fields => exact .inl ⟨g, es, fields, rfl, rfl, hfields, htype, hready, rfl⟩

theorem defineGroup_extending (strict : Bool) (typeId : String) (entry : Value) :
    Building.Within (Extending typeId) (defineGroup strict typeId entry) := by
  intro w hw t ht
  rcases defineGroup_cases hw ht entry with
    ⟨g, es, fields, -, -, -, htype, hready, hrun⟩ | ⟨e, w', -, hrun, hextends⟩
  · rw [hrun]
    have hgroup : Extending typeId w ⟨w.registry.extend [g] [], w.nextIds⟩ :=
      fun _ _ _ => extends_extend (by simpa using htype) (by simp) hready
    have hfields := Building.within_forM extending_refl extending_trans
      (defineField_extending strict typeId (some g.id)) fields
    exact extending_trans _ _ _ hgroup (hfields _) hw t ht
  · rw [hrun]
    exact hextends

theorem defineMembers_extending (strict : Bool) (typeId : String) (raw : Entries) :
    Building.Within (Extending typeId) (defineMembers strict typeId raw) := by
  have bind {α β : Type} {b : Building α} {f : α → Building β} :=
    Building.within_bind (b := b) (f := f) (@extending_trans typeId)
  have each {f : Value → Building PUnit} := Building.within_forM (f := f)
    (@extending_refl typeId) extending_trans
  refine bind (Building.within_plain extending_refl _) fun entries => ?_
  refine bind (each (defineField_extending strict typeId none) entries) fun _ => ?_
  refine bind (Building.within_plain extending_refl _) fun entries => ?_
  exact each (defineGroup_extending strict typeId) entries

theorem builtGroup_describes {entry : Value} {g : Group} (h : builtGroup w typeId entry = .ok g) :
    ∃ es, entry = .record es ∧ g.id = w.nextId ∧
      g.order = (w.registry.groupsOf typeId).length ∧
      ∀ (strict : Bool) (types : List DocumentType) (entries : List Value) (fields : List Field),
        members es "fields" = .ok entries → Listed (DescribesField strict types) entries fields →
          DescribesGroup strict types es { toGroup := g, fields } := by
  obtain ⟨spec, hspec, h⟩ := bind_eq_ok.mp h
  obtain ⟨gs, hgs, h⟩ := bind_eq_ok.mp h
  obtain ⟨es, gs', rfl, rfl, hbuild⟩ := groupSpec_describes hspec
  obtain rfl := Except.ok.inj hgs
  obtain ⟨horder, hdescribes⟩ := hbuild _ _ _ _ h
  exact ⟨es, rfl, (Registry.buildGroup_owner h).1, horder, hdescribes⟩

/-- No field lies in a group that is only being defined. -/
theorem scope_nextId (hw : w.Ready) (typeId : String) :
    w.registry.scope typeId (some w.nextId) = [] :=
  Registry.scope_of_fresh hw.consistent.owned hw.fresh_group typeId

/-- The fields of a group of a type, numbered from zero. -/
def OwnFields (typeId : String) (g : FieldGroup) : Prop :=
  g.typeId = typeId ∧ Scoped typeId (some g.id) 0 g.fields

/-- A group that is defined comes after all others and is as its entry describes it. -/
theorem defineGroup_ok {entry : Value} (hw : w.Ready) {t : DocumentType}
    (ht : w.registry.requireType typeId = .ok t)
    (h : (defineGroup strict typeId entry).run.run w = (.ok (), w')) :
    w'.Ready ∧ ∃ g : FieldGroup, w'.registry = w.registry.extend [g.toGroup] g.fields ∧
      (∃ es, entry = .record es ∧ DescribesGroup strict w.registry.types es g) ∧
      OwnFields typeId g ∧ g.order = (w.registry.groupsOf typeId).length := by
  rcases defineGroup_cases hw ht entry with
    ⟨g, es, fields, hg, rfl, hfields, htype, hready, hrun⟩ | ⟨e, w', -, hrun, -⟩
  · obtain ⟨es', hes, hid, horder, hdescribes⟩ := builtGroup_describes hg
    obtain rfl := Value.record.inj hes
    have hne : some g.id ≠ some "" := fun he =>
      hw.nextId_ne_empty (hid.symm.trans (Option.some.inj he))
    rw [hrun] at h
    obtain ⟨hready, fs, hfs, hlisted, hscoped⟩ := defineFields_ok hready ht hne h
    have hempty : (w.registry.extend [g] []).scope typeId (some g.id) = [] := by
      rw [scope_extend _ _ (by simp) (by simp), hid, scope_nextId hw, List.append_nil]
    rw [hempty] at hscoped
    refine ⟨hready, { toGroup := g, fields := fs }, by simpa using hfs, ⟨es, rfl, ?_⟩,
      ⟨htype, hscoped⟩, horder⟩
    exact hdescribes strict _ fields fs hfields hlisted
  · rw [hrun] at h
    cases congrArg Prod.fst h

theorem groupsOf_extend {r : Registry} {gs : List Group} (fs : List Field)
    (hgs : ∀ g ∈ gs, g.typeId = typeId) :
    (r.extend gs fs).groupsOf typeId = r.groupsOf typeId ++ gs := by
  have hown : gs.filter (·.typeId == typeId) = gs :=
    List.filter_eq_self.mpr fun g hg => by simp [hgs g hg]
  rw [Registry.groupsOf, Registry.extend_groups, List.filter_append, hown]
  rfl

/-- Groups that are defined in turn come after all others, and are as their entries describe
them. -/
theorem defineGroups_ok {entries : List Value} (hw : w.Ready) {t : DocumentType}
    (ht : w.registry.requireType typeId = .ok t)
    (h : (entries.forM (defineGroup strict typeId)).run.run w = (.ok (), w')) :
    w'.Ready ∧ ∃ gs : List FieldGroup,
      w'.registry = w.registry.extend (gs.map (·.toGroup)) (gs.flatMap (·.fields)) ∧
      Listed (DescribesGroup strict w.registry.types) entries gs ∧
      (∀ g ∈ gs, OwnFields typeId g) ∧
      gs.map (·.order) =
        (List.range' (w.registry.groupsOf typeId).length gs.length).map Int.ofNat := by
  induction entries generalizing w with
  | nil =>
    obtain rfl : w = w' := congrArg Prod.snd h
    exact ⟨hw, [], by simp, .nil, by simp, rfl⟩
  | cons entry entries ih =>
    rw [Building.run_forM_cons] at h
    rcases hrun : (defineGroup strict typeId entry).run.run w with ⟨e | u, w₁⟩
    · rw [hrun] at h
      cases congrArg Prod.fst h
    · rw [hrun] at h
      obtain ⟨hready, g, hg, hdescribes, hown, horder⟩ := defineGroup_ok hw ht hrun
      have htypes : w₁.registry.types = w.registry.types := by rw [hg, Registry.extend_types]
      have hgroups : w₁.registry.groupsOf typeId = w.registry.groupsOf typeId ++ [g.toGroup] := by
        rw [hg]
        exact groupsOf_extend _ (by simpa using hown.1)
      obtain ⟨hready, gs, hgs, hlisted, howns, horders⟩ :=
        ih hready ((requireType_congr htypes typeId).trans ht) h
      rw [htypes] at hlisted
      rw [hgroups] at horders
      refine ⟨hready, g :: gs, by simpa [hg] using hgs, .cons hdescribes hlisted, ?_, ?_⟩
      · simpa using ⟨hown, howns⟩
      · rw [List.map_cons, horders, horder, List.length_append]
        rfl

/-! ### The form -/

theorem ascending_of_range' {α : Type} {order : α → Int} {as : List α} {start : Nat}
    (h : as.map order = (List.range' start as.length).map Int.ofNat) :
    as.Pairwise fun a b => order a < order b := by
  rw [← List.pairwise_map (f := order) (R := (· < ·)), h, List.pairwise_map]
  exact (List.pairwise_lt_range' ..).imp fun h => Int.ofNat_lt.mpr h

/-- Of the fields of groups with different identifiers, those of one group are its own. -/
theorem filter_flatMap_own {gs : List FieldGroup} (hids : (gs.map (·.id)).Nodup)
    (hown : ∀ g ∈ gs, OwnFields typeId g) {g : FieldGroup} (hg : g ∈ gs) :
    (gs.flatMap (·.fields)).filter (·.groupId == some g.id) = g.fields := by
  induction gs with
  | nil => cases hg
  | cons g' gs ih =>
    obtain ⟨hnew, hids⟩ := List.nodup_cons.mp hids
    obtain ⟨hfirst, hrest⟩ := List.forall_mem_cons.mp hown
    have hother {h : FieldGroup} (hh : h ∈ gs) : h.id ≠ g'.id := by
      intro he
      exact hnew (List.mem_map.mpr ⟨h, hh, he⟩)
    rw [List.flatMap_cons, List.filter_append]
    rcases List.mem_cons.mp hg with rfl | hmem
    · have hself : g.fields.filter (·.groupId == some g.id) = g.fields :=
        List.filter_eq_self.mpr fun f hf => by simp [hfirst.2.group f hf]
      have hothers : (gs.flatMap (·.fields)).filter (·.groupId == some g.id) = [] := by
        refine List.filter_eq_nil_iff.mpr fun f hf => ?_
        obtain ⟨g'', hg'', hf⟩ := List.mem_flatMap.mp hf
        simpa [(hrest g'' hg'').2.group f hf] using hother hg''
      rw [hself, hothers, List.append_nil]
    · have hothers : g'.fields.filter (·.groupId == some g.id) = [] :=
        List.filter_eq_nil_iff.mpr fun f hf => by
          simpa [hfirst.2.group f hf] using (hother hmem).symm
      rw [hothers, List.nil_append, ih hids hrest hmem]

/-- The form of a type without members, after fields and groups with their fields have been
added. -/
theorem getForm_extend {r : Registry} {t : DocumentType} {fs : List Field} {gs : List FieldGroup}
    (ht : r.requireType typeId = .ok t) (hfields : r.fieldsOf typeId = [])
    (hgroups : r.groupsOf typeId = []) (hfs : Scoped typeId none 0 fs)
    (hown : ∀ g ∈ gs, OwnFields typeId g)
    (horder : gs.map (·.order) = (List.range' 0 gs.length).map Int.ofNat)
    (hids : (gs.map (·.id)).Nodup) :
    (r.extend (gs.map (·.toGroup)) (fs ++ gs.flatMap (·.fields))).getForm typeId =
      .ok ⟨t, fs, gs⟩ := by
  let r' := r.extend (gs.map (·.toGroup)) (fs ++ gs.flatMap (·.fields))
  have hreq : r'.requireType typeId = .ok t := (requireType_congr rfl typeId).trans ht
  have hmembers : ∀ f ∈ fs ++ gs.flatMap (·.fields), f.typeId = typeId := by
    intro f hf
    rcases List.mem_append.mp hf with hf | hf
    · exact hfs.type f hf
    · obtain ⟨g, hg, hf⟩ := List.mem_flatMap.mp hf
      exact (hown g hg).2.type f hf
  have hall : r'.fieldsOf typeId = fs ++ gs.flatMap (·.fields) := by
    have hself : (fs ++ gs.flatMap (·.fields)).filter (·.typeId == typeId) =
        fs ++ gs.flatMap (·.fields) :=
      List.filter_eq_self.mpr fun f hf => by simpa using hmembers f hf
    show (r.fields ++ _).filter _ = _
    rw [List.filter_append, hself, show r.fields.filter _ = [] from hfields, List.nil_append]
  have hgroupsOf : r'.groupsOf typeId = gs.map (·.toGroup) := by
    rw [groupsOf_extend _ (by simpa using fun g hg => (hown g hg).1), hgroups, List.nil_append]
  have hnone : r'.scope typeId none = fs := by
    have hself : fs.filter (·.groupId == none) = fs :=
      List.filter_eq_self.mpr fun f hf => by simp [hfs.group f hf]
    have hothers : (gs.flatMap (·.fields)).filter (·.groupId == none) = [] := by
      refine List.filter_eq_nil_iff.mpr fun f hf => ?_
      obtain ⟨g, hg, hf⟩ := List.mem_flatMap.mp hf
      simp [(hown g hg).2.group f hf]
    rw [Registry.scope, hall, List.filter_append, hself, hothers, List.append_nil]
  have hwith : ∀ g ∈ gs, r'.withFields typeId g.toGroup = g := by
    intro g hg
    have hothers : fs.filter (·.groupId == some g.id) = [] :=
      List.filter_eq_nil_iff.mpr fun f hf => by simp [hfs.group f hf]
    have hscope : r'.scope typeId (some g.id) = g.fields := by
      rw [Registry.scope, hall, List.filter_append, hothers, filter_flatMap_own hids hown hg,
        List.nil_append]
    rw [Registry.withFields, hscope,
      Registry.sortFields_of_ascending (ascending_of_range' (hown g hg).2.order)]
  have hascending : (gs.map (·.toGroup)).Pairwise fun a b => a.order < b.order :=
    List.pairwise_map.mpr (ascending_of_range' horder)
  rw [Registry.getForm_eq hreq, hnone, hgroupsOf, Registry.sortGroups_of_ascending hascending,
    Registry.sortFields_of_ascending (ascending_of_range' hfs.order), List.map_map]
  congr 2
  exact (List.map_congr_left hwith).trans (List.map_id _)

/-- When the members of a type without any have been defined, the form of the type is as the
definition describes it. -/
theorem defineMembers_ok {raw : Entries} (hw : w.Ready) {t : DocumentType}
    (ht : w.registry.requireType typeId = .ok t) (hfields : w.registry.fieldsOf typeId = [])
    (hgroups : w.registry.groupsOf typeId = [])
    (h : (defineMembers strict typeId raw).run.run w = (.ok (), w')) :
    ∃ form, w'.registry.getForm typeId = .ok form ∧ form.type = t ∧
      DescribesMembers strict w.registry.types raw form := by
  obtain ⟨top, w₀, hread, h⟩ := Building.run_bind_eq_ok.mp h
  obtain ⟨htop, rfl⟩ := Building.run_plain_eq_ok.mp hread
  obtain ⟨_, w₁, hfirst, h⟩ := Building.run_bind_eq_ok.mp h
  obtain ⟨inner, w₂, hread, hsecond⟩ := Building.run_bind_eq_ok.mp h
  obtain ⟨hinner, rfl⟩ := Building.run_plain_eq_ok.mp hread
  obtain ⟨hready, fs, hfs, hlisted, hscoped⟩ := defineFields_ok hw ht (by simp) hfirst
  have htypes : w₁.registry.types = w.registry.types := by rw [hfs, Registry.extend_types]
  have hnone : w₁.registry.groupsOf typeId = [] := by
    rw [hfs, groupsOf_extend _ (by simp), hgroups, List.append_nil]
  obtain ⟨hready, gs, hgs, hdescribes, hown, horder⟩ :=
    defineGroups_ok hready ((requireType_congr htypes typeId).trans ht) hsecond
  rw [hfs, Registry.extend_extend, List.nil_append] at hgs
  rw [htypes] at hdescribes
  rw [hnone] at horder
  rw [Registry.scope, hfields] at hscoped
  have hids : (gs.map (·.id)).Nodup := by
    have hall := hready.consistent.identified.groups
    rw [hgs, Registry.extend_groups, List.map_append, List.map_map] at hall
    exact (List.nodup_append.mp hall).2.1
  refine ⟨⟨t, fs, gs⟩, ?_, rfl, ⟨top, htop, hlisted⟩, ⟨inner, hinner, hdescribes⟩⟩
  rw [hgs]
  exact getForm_extend ht hfields hgroups hscoped hown horder hids

end Definition
end DocForms
