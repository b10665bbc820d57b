import DocForms.Proofs.Definition.Passes

/-! Where the link fields lead that are registered when loading has ended. -/
namespace DocForms.Definition
variable {formats : Formats} {strict : Bool} {r : Registry} {types : List DocumentType}

theorem mem_allFields (hc : r.Consistent) {id : String} {form : Form} (h : r.getForm id = .ok form)
    {f : Field} (hf : f ∈ r.fields) (hid : f.typeId = id) : f ∈ form.allFields.map (·.2) := by
  obtain ⟨t, -, rfl⟩ := Registry.getForm_eq_ok h
  rw [Registry.allFields_eq, Registry.mem_scopes hc]
  exact List.mem_filter.mpr ⟨hf, by simp [hid]⟩

theorem pair_sublist {α : Type} {later : List α} (earlier : List α) (a : α) {b : α}
    (hb : b ∈ later) : [a, b].Sublist (earlier ++ a :: later) :=
  ((List.singleton_sublist.mpr hb).cons_cons a).trans (List.sublist_append_right ..)

/-! ### Targets -/

/-- A link leads to the type of a file with the target code. It dangles if and only if that file
comes after the one with the link, and its type has been deleted. -/
def Leads (r : Registry) (defined : List (File × DocumentType)) (own : File × DocumentType)
    (code : Value) (o : LinkOptions) : Prop :=
  ∃ b u, (b, u) ∈ defined ∧ code = .text u.code ∧ o.target = some u.id ∧
    (¬ r.HasType u.id ↔ [own, (b, u)].Sublist defined ∧ u ∉ r.types)

/-- What a registered type knew of links when its members were defined. -/
theorem Loaded.leads {files : List File} {defined : List (File × DocumentType)}
    {lines : List String} (h : Loaded formats strict files r defined lines) {t : DocumentType} (ht : t ∈ r.types) :
    ∃ a known, (a, t) ∈ defined ∧ Shows strict r known a t ∧ ∀ es o, DescribesLink known es o →
      (Entries.get es "target_code").isTruthy = true →
        Leads r defined (a, t) (Entries.get es "target_code") o := by
  obtain ⟨first, second, -, hsecond, -⟩ := h.passes
  have hids := h.defining.identified.types
  have hregistered := hsecond.types_sublist.subset
  obtain ⟨a, earlier, later, complete, rfl, hcomplete, hshows⟩ := h.shown ht
  refine ⟨a, _, by simp, hshows, fun es o hlink hcode => ?_⟩
  obtain ⟨u, hu, htext, htarget⟩ := hlink.target hcode
  by_cases hreg : u ∈ r.types
  · obtain ⟨⟨b, _⟩, hb, rfl⟩ := List.mem_map.mp (hregistered hreg)
    exact ⟨b, _, hb, htext, htarget, fun hno => absurd ⟨_, hreg, rfl⟩ hno,
      fun hdeleted => absurd hreg hdeleted.2⟩
  · have hlater : u ∈ later.map Prod.snd := by
      rcases List.mem_append.mp hu with hu | hu
      · exact absurd (hcomplete hu) hreg
      · rcases List.mem_cons.mp hu with rfl | hu
        · exact absurd ht hreg
        · exact hu
    obtain ⟨⟨b, _⟩, hb, rfl⟩ := List.mem_map.mp hlater
    have hpair := pair_sublist earlier (a, t) hb
    have hmem := hpair.subset (List.mem_cons_of_mem _ (List.mem_cons_self ..))
    refine ⟨b, _, hmem, htext, htarget, fun _ => ⟨hpair, hreg⟩, fun _ ⟨v, hv, hid⟩ => hreg ?_⟩
    obtain rfl := List.inj_on_of_nodup_map hids (hregistered hv) (List.mem_map_of_mem hmem) hid
    exact hv

/-- What is registered when loading ends has links to the types of files, and when it comes to
types, none of them dangles. -/
theorem registered_link_targets (formats : Formats) (strict : Bool) (files : List File) (n : Nat)
    {outcome : Except Fault (List DocumentType)} {w : Workspace}
    (h : (load formats strict files).run.run { ids := { count := n } } = (outcome, w))
    (ended : ∀ m, outcome ≠ .error (.misuse m)) :
    ∃ defined first w', (defineTypes formats files).run.run { ids := { count := n } } =
        (.ok (defined, first), w') ∧
      w.registry.types.Sublist (defined.map Prod.snd) ∧
      (∀ types, outcome = .ok types → w.registry.types = defined.map Prod.snd) ∧
      ∀ f ∈ w.registry.fields, f.kind = .documentLink →
        ∃ a t raw es, (a, t) ∈ defined ∧ t ∈ w.registry.types ∧ t.id = f.typeId ∧
          a.content = .ok raw ∧ HasEntry raw es ∧ (Entries.get es "name").trimmed = .ok f.name ∧
          ((∃ o, f.options = some (.link o) ∧ ((Entries.get es "target_code").isTruthy = true →
              Leads w.registry defined (a, t) (Entries.get es "target_code") o)) ∨
            strict = false ∧ f.options = none) := by
  rcases load_cases formats strict files n with
    ⟨defined, lines, w, first, w', hloaded, hdefine, hrun⟩ | ⟨m, w', -, hrun⟩
  · rw [hrun] at h
    obtain ⟨rfl, rfl⟩ := Prod.mk.inj h
    obtain ⟨first', second, -, hsecond, hlines⟩ := hloaded.passes
    refine ⟨defined, first, w', hdefine, hsecond.types_sublist, fun types hok => ?_,
      fun f hf hkind => ?_⟩
    · split at hok
      · rename_i hnone
        obtain ⟨-, rfl⟩ := List.append_eq_nil_iff.mp (hlines.symm.trans hnone)
        exact (hsecond.all_kept).1
      · cases hok
    · obtain ⟨t, ht, hid⟩ := hloaded.consistent.owned.field f hf
      obtain ⟨a, known, hdefined, ⟨raw, form, hcontent, -, hform, -, hmembers⟩, hleads⟩ :=
        hloaded.leads ht
      obtain ⟨es, hentry, hdescribes⟩ :=
        hmembers.entry (mem_allFields hloaded.consistent hform hf hid.symm)
      refine ⟨a, t, raw, es, hdefined, ht, hid, hcontent, hentry, hdescribes.name, ?_⟩
      rcases hdescribes.link hkind with ⟨o, ho, hlink⟩ | hnone
      · exact .inl ⟨o, ho, hleads es o hlink⟩
      · exact .inr hnone
  · rw [hrun] at h
    exact absurd (congrArg Prod.fst h).symm (ended m)

/-! ### A target that is deleted -/

/-- A definition with a link to another type. -/
def referring (name : String) : File := ⟨name, .ok (Entries.ofNames [
  ("code", .text "A"), ("name", .text "A"),
  ("fields", .list [.named [("name", .text "ref"), ("label", .text "Ref"),
    ("type", .text "document_link"), ("target_code", .text "B")]])])⟩

/-- The definition of that type, with choices that cannot be read. -/
def failing (name : String) : File := ⟨name, .ok (Entries.ofNames [
  ("code", .text "B"), ("name", .text "B"),
  ("fields", .list [.named [("name", .text "size"), ("label", .text "Size"),
    ("type", .text "select"), ("options", .text "not json")]])])⟩

/-- Loading ends also when the type of a file is deleted. -/
theorem registered_link_targets_referring : ∃ w,
    (load Definition.formats true [referring "a.yml", failing "b.yml"]).run.run
      { ids := { count := 0 } } = (.error (.refused (.definitions
        ["b.yml: Options for field 'size' is not valid JSON: Expecting value"])), w) ∧
    ∃ defined first w',
      (defineTypes Definition.formats [referring "a.yml", failing "b.yml"]).run.run
        { ids := { count := 0 } } = (.ok (defined, first), w') ∧
      w.registry.types.Sublist (defined.map Prod.snd) ∧
      ∀ f ∈ w.registry.fields, f.kind = .documentLink →
        ∃ t ∈ w.registry.types, t.id = f.typeId := by
  have hcome : ((load Definition.formats true [referring "a.yml", failing "b.yml"]).run.run {}).1 =
      .error (.refused (.definitions
        ["b.yml: Options for field 'size' is not valid JSON: Expecting value"])) := by
    decide +kernel
  have hload : (load Definition.formats true [referring "a.yml", failing "b.yml"]).run.run
      { ids := { count := 0 } } = (_, _) := Prod.ext hcome rfl
  obtain ⟨defined, first, w', hdefine, htypes, -, hfields⟩ :=
    registered_link_targets Definition.formats true _ 0 hload (by simp)
  refine ⟨_, hload, defined, first, w', hdefine, htypes, fun f hf hkind => ?_⟩
  obtain ⟨_, t, _, _, -, ht, hid, -⟩ := hfields f hf hkind
  exact ⟨t, ht, hid⟩

/-- Whether a definition is registered depends on whether the one that it refers to, which fails,
comes before it. When it comes after, a link to a type stays that is not registered. -/
theorem target_deleted : ∃ w w',
    (load Definition.formats true [referring "a.yml", failing "b.yml"]).run.run
      { ids := { count := 0 } } = (.error (.refused (.definitions
        ["b.yml: Options for field 'size' is not valid JSON: Expecting value"])), w) ∧
    w.registry.types.map (·.code) = ["A"] ∧
    w.registry.fields.map (·.options) = [some (.link { target := some "id-2" })] ∧
    ¬ w.registry.HasType "id-2" ∧
    (load Definition.formats true [failing "a.yml", referring "b.yml"]).run.run
      { ids := { count := 0 } } = (.error (.refused (.definitions
        ["a.yml: Options for field 'size' is not valid JSON: Expecting value",
          "b.yml: Field 'ref' targets unknown document type 'B'"])), w') ∧
    w'.registry.types = [] := by
  refine ⟨_, _, Prod.ext ?_ rfl, ?_, ?_, ?_, Prod.ext ?_ rfl, ?_⟩
  · decide +kernel
  · decide +kernel
  · decide +kernel
  · unfold Registry.HasType
    decide +kernel
  · decide +kernel
  · decide +kernel

end DocForms.Definition
