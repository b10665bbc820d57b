import DocForms.Proofs.Definition.Admission
import DocForms.Proofs.Definition.Passes
import DocForms.Proofs.Schema.Payload

/-! Loading ends as long as the payloads of fields are read or refused and no integer is too long to
be written. Each step of defining a type and its members comes to a result or to a refusal. -/
namespace DocForms.Definition
variable {strict : Bool} {r : Registry} {typeId id : String} {group : Option String}
  {es raw : Entries} {v : Value} {w : Workspace}

/-! ### Types -/

theorem get_of_get? {name : String} (h : Entries.get? es name = some v) :
    Entries.get es name = v := by
  rw [Entries.get, h]
  rfl

theorem trimmed_graceful (s : String) : Graceful (Value.text s).trimmed := by
  unfold Value.trimmed Value.orElse
  split
  · exact graceful_ok _
  · rename_i hno
    split at hno
    · exact absurd rfl (hno s)
    · exact absurd rfl (hno "")

theorem typeOf_graceful (h : Admitted raw) : Graceful (typeOf r id raw) := by
  obtain ⟨code, hcode⟩ := h.code
  obtain ⟨name, hname⟩ := h.name
  have hspec : typeSpec raw = .ok (.named [("code", .text code), ("name", .text name),
      ("description", Entries.get raw "description"), ("categoryId", Entries.get raw "category_id"),
      ("status", (Entries.get? raw "status").getD (.text "active"))]) := by
    rw [typeSpec, part_of_get? hcode, part_of_get? hname]
    rfl
  refine .after hspec (.after rfl ?_)
  unfold Registry.buildType
  simp only [Entries.get_ofNames]
  refine (trimmed_graceful name).bind fun _ _ => (trimmed_graceful code).bind fun _ _ => ?_
  refine .check (.check (.check ?_))
  split
  · exact graceful_refuse _
  · exact graceful_pure _

/-! ### Groups -/

theorem rowBound_graceful (b : RowBound) (v : Value) : Graceful (Registry.rowBound b v) := by
  unfold Registry.rowBound
  split
  · exact graceful_ok _
  · split
    · exact graceful_refuse _
    · exact graceful_ok _
  · exact graceful_refuse _

theorem rowBounds_graceful (repeatable : Bool) (spec : Entries) :
    Graceful (Registry.rowBounds repeatable spec) := by
  unfold Registry.rowBounds
  split
  · exact graceful_pure _
  · refine (rowBound_graceful _ _).bind fun low _ => (rowBound_graceful _ _).bind fun high _ => ?_
    split
    · split
      · exact graceful_refuse _
      · exact graceful_pure _
    · exact graceful_pure _

theorem builtGroup_graceful (h : GroupEntry es) : Graceful (builtGroup w typeId (.record es)) := by
  obtain ⟨name, hname⟩ := h.name
  obtain ⟨label, hlabel⟩ := h.label
  have hspec : groupSpec (.record es) = .ok (.named [("name", .text name), ("label", .text label),
      ("description", Entries.get es "description"),
      ("isRepeatable", (Entries.get? es "repeatable").getD (.bool false)),
      ("minRepeats", Entries.get es "min_repeats"),
      ("maxRepeats", Entries.get es "max_repeats")]) := by
    rw [groupSpec, part_of_get? hname, part_of_get? hlabel]
    rfl
  refine .after hspec (.after rfl ?_)
  unfold Registry.buildGroup
  simp only [Entries.get_ofNames]
  refine (trimmed_graceful name).bind fun _ _ => (trimmed_graceful label).bind fun _ _ => ?_
  refine .check (.check (.check (.check ?_)))
  refine (rowBounds_graceful _ _).bind fun bounds _ => ?_
  exact graceful_pure _

/-! ### Fields -/

/-- The payloads of a field are read or refused. The options of a link field are not its own. -/
structure Payable (es : Entries) : Prop where
  options (kind : FieldKind) : Entries.get es "type" = .text kind.name → kind ≠ .documentLink →
    ∀ field, Graceful (Options.parse kind (Entries.get es "options") field)
  rules (field : Option String) : Graceful (Rules.parse (Entries.get es "validation_rules") field)

theorem name_inj {j k : FieldKind} (h : j.name = k.name) : j = k :=
  Option.some.inj (j.ofName?_name.symm.trans ((congrArg _ h).trans k.ofName?_name))

/-- Payloads that are no JSON texts stick for two reasons only: options that have to be kept have no
canonical form, or a pattern is beyond the limits of patterns. -/
theorem payable_iff (ht : (Value.record es).hasText = true) {kind : FieldKind}
    (hkind : Entries.get es "type" = .text kind.name)
    (hoptions : ∀ s, Entries.get es "options" ≠ .text s)
    (hrules : ∀ s, Entries.get es "validation_rules" ≠ .text s) : Payable es ↔
      (kind = .documentLink ∨ kind = .select ∨ (Entries.get es "options").isNull = true ∨
        (Entries.get es "options").canonical?.isSome = true) ∧
      ∀ field data, Entries.get es "validation_rules" = .record data →
        Rules.shape.Meets (.record data) →
          Graceful (Rules.parsePattern field (Entries.get data "pattern")) := by
  have hread (hlink : kind ≠ .documentLink) (field : Option String) :
      Graceful (Options.parse kind (Entries.get es "options") field) ↔ _ :=
    Options.parse_graceful_iff hlink (Value.hasText_get ht "options") hoptions
  have hruled (field : Option String) :
      Graceful (Rules.parse (Entries.get es "validation_rules") field) ↔ _ :=
    Rules.parse_graceful_iff (Value.hasText_get ht "validation_rules") hrules
  constructor
  · rintro ⟨hparsed, hchecked⟩
    refine ⟨?_, fun field data hdata hmeets => ?_⟩
    · by_cases hlink : kind = .documentLink
      · exact .inl hlink
      · exact .inr ((hread hlink none).mp (hparsed kind hkind hlink none))
    · exact (hruled field).mp (hchecked field) data hdata (hdata ▸ hmeets)
  · rintro ⟨hkept, hpattern⟩
    refine ⟨fun kind' hkind' hlink field => ?_, fun field => (hruled field).mpr ?_⟩
    · obtain rfl := name_inj (Atom.text.inj (Value.atom.inj (hkind.symm.trans hkind')))
      exact (hread hlink field).mpr (hkept.resolve_left hlink)
    · intro data hdata hmeets
      exact hpattern field data hdata (hdata ▸ hmeets)

theorem hasText_of_get {name : String}
    (h : ∀ v, Entries.get? es name = some v → ∃ s, v = .text s) :
    (Entries.get es name).hasText = true := by
  rw [Entries.get]
  cases hv : Entries.get? es name with
  | none => rfl
  | some v =>
    obtain ⟨s, rfl⟩ := h v hv
    rfl

theorem linkOptions_graceful (h : FieldEntry es) : Graceful (linkOptions r es) := by
  obtain ⟨name, hname⟩ := h.name
  have hunknown : Graceful (do
      let name ← (← part (.record es) "name").written .loose
      refuse (.targetCodeUnknown name (← (Entries.get es "target_code").written .loose)) :
        Except Fault (List (String × Value))) := by
    refine .after (part_of_get? hname) ((Value.written_graceful rfl).bind fun _ _ => ?_)
    refine (Value.written_graceful (hasText_of_get h.target)).bind fun _ _ => ?_
    exact graceful_refuse _
  refine Graceful.bind ?_ fun target _ => graceful_pure _
  split
  · dsimp only
    split
    · exact graceful_pure _
    · exact hunknown
  · exact graceful_pure _

/-- The options of a link field are made of texts. -/
theorem linkOptions_texts (h : FieldEntry es) {options : Value}
    (hoptions : linkOptions r es = .ok options) : options = .null ∨
      ∃ data, options = .named data ∧ ∀ e ∈ data, e.2.hasText = true := by
  obtain ⟨target, htarget, hnone, rfl⟩ := linkOptions_eq_ok hoptions
  have htexts : ∀ e ∈ target ++ if (Entries.get es "link_type").isTruthy then
      [("linkType", Entries.get es "link_type")] else [], e.2.hasText = true := by
    refine List.forall_mem_append.mpr ⟨?_, ?_⟩
    · cases hcode : (Entries.get es "target_code").isTruthy with
      | false => simp [hnone hcode]
      | true =>
        obtain ⟨t, -, -, rfl⟩ := htarget hcode
        exact List.forall_mem_singleton.mpr rfl
    · split
      · exact List.forall_mem_singleton.mpr (hasText_of_get h.relation)
      · simp
  generalize (target ++ if (Entries.get es "link_type").isTruthy then
      [("linkType", Entries.get es "link_type")] else []) = data at htexts ⊢
  split
  · exact .inl rfl
  · exact .inr ⟨data, rfl, htexts⟩

theorem linkPayload_graceful {options : Value} (h : FieldEntry es)
    (hoptions : linkOptions r es = .ok options) (field : Option String) :
    Graceful (Options.parse .documentLink options field) := by
  rcases linkOptions_texts h hoptions with rfl | ⟨data, rfl, hdata⟩
  · exact graceful_ok _
  · suffices hread : Graceful (LinkOptions.ofValue field (.named data)) from
      .after rfl (hread.bind fun _ _ => graceful_pure _)
    refine (Shape.report_graceful (Value.hasText_named.mpr hdata) _).bind fun problem _ => ?_
    split
    · exact graceful_refuse _
    · exact graceful_ok _

theorem fieldSpec_graceful (h : FieldEntry es) : Graceful (fieldSpec r group (.record es)) := by
  obtain ⟨name, hname⟩ := h.name
  obtain ⟨label, hlabel⟩ := h.label
  obtain ⟨kind, hkind⟩ := h.kind
  refine .after rfl (.after (part_of_get? hkind) ?_)
  dsimp only
  split
  · refine (linkOptions_graceful h).bind fun _ _ => ?_
    exact .after (part_of_get? hname) (.after (part_of_get? hlabel) (graceful_pure _))
  · refine (graceful_pure _).bind fun _ _ => ?_
    exact .after (part_of_get? hname) (.after (part_of_get? hlabel) (graceful_pure _))

theorem orElse_name (k : FieldKind) (v : Value) : (Value.text k.name).orElse v = .text k.name := by
  cases k <;> rfl

theorem recordRefusal_graceful {α : Type} {own : Refusal → Bool} {x : Except Fault (Option α)}
    (h : Graceful x) : Graceful (recordRefusal strict own x) := by
  unfold recordRefusal
  split
  · exact graceful_ok _
  · split
    · exact graceful_ok _
    · exact graceful_refuse _
  · rename_i e hno
    cases e with
    | refused e => exact absurd rfl (hno e)
    | misuse m => exact absurd rfl (h m)

theorem groupIdOf_graceful {spec : Entries}
    (h : Entries.get spec "documentFieldGroupId" = .text? group) :
    Graceful (Registry.groupIdOf spec) := by
  unfold Registry.groupIdOf
  rw [h]
  dsimp only
  split
  · cases group with
    | none => rename_i hno; cases hno
    | some g => exact graceful_ok _
  · exact graceful_ok _

theorem checkGroup_graceful : Graceful (r.checkGroup typeId group) := by
  cases group with
  | none => exact graceful_ok _
  | some g =>
    refine Graceful.bind ?_ fun _ _ => graceful_pure _
    unfold Registry.requireGroupOf
    split
    · split
      · exact graceful_ok _
      · exact graceful_refuse _
    · exact graceful_refuse _

theorem checkFieldName_graceful {name : String} :
    Graceful (r.checkFieldName typeId id name group) := by
  unfold Registry.checkFieldName
  refine .check ?_
  split
  · exact graceful_refuse _
  · exact graceful_pure _

theorem buildField_graceful {spec : Entries} {name label : String} {kind : FieldKind}
    (hname : Entries.get spec "name" = .text name) (hlabel : Entries.get spec "label" = .text label)
    (hgroup : Entries.get spec "documentFieldGroupId" = .text? group)
    (hkind : Entries.get spec "type" = .text kind.name)
    (horder : (Entries.get spec "order").isNull = true)
    (hoptions : ∀ field, Graceful (Options.parse kind (Entries.get spec "options") field))
    (hrules : ∀ field, Graceful (Rules.parse (Entries.get spec "validationRules") field)) :
    Graceful (r.buildField typeId id spec strict) := by
  have hkindOf (field : Option String) :
      FieldKind.ofValue ((Entries.get spec "type").orElse (.text "text")) field = .ok kind := by
    rw [hkind, orElse_name, FieldKind.ofValue, FieldKind.ofName?_name]
  have horderOf (group : Option String) :
      Graceful (r.fieldOrder typeId id group (Entries.get spec "order")) := by
    rw [Registry.fieldOrder, if_pos horder]
    exact graceful_ok _
  unfold Registry.buildField
  rw [hname, hlabel]
  refine (trimmed_graceful name).bind fun name _ => (trimmed_graceful label).bind fun label _ => ?_
  refine .check (.check ?_)
  refine (groupIdOf_graceful hgroup).bind fun group _ => checkGroup_graceful.bind fun _ _ => ?_
  refine checkFieldName_graceful.bind fun _ _ => .after (hkindOf _) ?_
  refine Graceful.bind ?_ fun constraints _ => (horderOf group).bind fun _ _ => graceful_pure _
  refine (recordRefusal_graceful (hoptions _)).bind fun _ _ => ?_
  exact (recordRefusal_graceful (hrules _)).bind fun _ _ => graceful_pure _

theorem builtField_graceful (h : FieldEntry es) (hp : Payable es) :
    Graceful (builtField w strict typeId group (.record es)) := by
  obtain ⟨name, hname⟩ := h.name
  obtain ⟨label, hlabel⟩ := h.label
  obtain ⟨k, hk⟩ := h.kind
  have htype := get_of_get? hk
  refine (fieldSpec_graceful h).bind fun spec hspec => ?_
  obtain ⟨_, options, hes, hlinkOptions, hown, rfl⟩ := fieldSpec_eq_ok hspec
  obtain rfl := Value.record.inj hes
  have hoptions (field : Option String) : Graceful (Options.parse k options field) := by
    by_cases hlink : k = .documentLink
    · subst hlink
      exact linkPayload_graceful h (hlinkOptions htype) field
    · rw [hown fun hsame => hlink ((isLink_iff (by rw [htype, orElse_name])).mp hsame)]
      exact hp.options k htype hlink field
  refine .after rfl (buildField_graceful ((Entries.get_ofNames _ _).trans (get_of_get? hname))
    ((Entries.get_ofNames _ _).trans (get_of_get? hlabel)) (Entries.get_ofNames _ _)
    ((Entries.get_ofNames _ _).trans htype) (congrArg Value.isNull (Entries.get_ofNames _ _))
    (fun field => ?_) fun field => ?_)
  · rw [Entries.get_ofNames]
    exact hoptions field
  · rw [Entries.get_ofNames]
    exact hp.rules field

/-! ### Members -/

/-- Where the type exists, an operation comes to a result or to a refusal. -/
def Settles (typeId : String) {α : Type} (b : Building α) : Prop :=
  ∀ w : Workspace, w.Ready → ∀ t, w.registry.requireType typeId = .ok t → Graceful (b.run.run w).1

theorem settles_after {α β : Type} {x : Except Fault α} {a : α} {f : α → Building β}
    (hx : x = .ok a) (hf : Settles typeId (f a)) : Settles typeId (Building.plain x >>= f) := by
  intro w hw t ht
  rw [Building.run_bind, Building.run_plain, hx]
  exact hf w hw t ht

theorem settles_bind {α β : Type} {b : Building α} {f : α → Building β}
    (hextends : Building.Within (Extending typeId) b) (hb : Settles typeId b)
    (hf : ∀ a, Settles typeId (f a)) : Settles typeId (b >>= f) := by
  intro w hw t ht
  have hfirst := hb w hw t ht
  have hafter := hextends w hw t ht
  rw [Building.run_bind]
  rcases hrun : b.run.run w with ⟨e | a, w'⟩
  · rw [hrun] at hfirst
    exact hfirst.error rfl
  · rw [hrun] at hafter
    exact hf a w' hafter.ready t ((requireType_congr hafter.types typeId).trans ht)

theorem settles_forM {f : Value → Building PUnit} {vs : List Value}
    (hextends : ∀ v, Building.Within (Extending typeId) (f v))
    (hf : ∀ v ∈ vs, Settles typeId (f v)) : Settles typeId (vs.forM f) := by
  induction vs with
  | nil => exact fun _ _ _ _ => graceful_ok _
  | cons v vs ih =>
    obtain ⟨hfirst, hrest⟩ := List.forall_mem_cons.mp hf
    exact settles_bind (hextends v) hfirst fun _ => ih hrest

theorem defineField_settles (h : FieldEntry es) (hp : Payable es) :
    Settles typeId (defineField strict typeId group (.record es)) := by
  intro w hw t ht
  rcases defineField_cases hw ht (.record es) with ⟨f, -, hrun, -⟩ | ⟨e, ids, hbuilt, hrun, -⟩
  · rw [hrun]
    exact graceful_ok _
  · rw [hrun]
    exact (builtField_graceful h hp).error hbuilt

theorem defineFields_settles {vs : List Value}
    (h : ∀ v ∈ vs, ∃ es, v = .record es ∧ FieldEntry es)
    (hp : ∀ es, .record es ∈ vs → Payable es) :
    Settles typeId (vs.forM (defineField strict typeId group)) := by
  refine settles_forM (defineField_extending strict typeId group) fun v hv => ?_
  obtain ⟨es, rfl, hentry⟩ := h v hv
  exact defineField_settles hentry (hp es hv)

theorem defineGroup_settles (h : GroupEntry es)
    (hp : ∀ vs fs, members es "fields" = .ok vs → .record fs ∈ vs → Payable fs) :
    Settles typeId (defineGroup strict typeId (.record es)) := by
  intro w hw t ht
  obtain ⟨vs, hvs, hfields⟩ := h.fields
  rcases defineGroup_cases hw ht (.record es) with
    ⟨g, _, fields, -, hes, hmembers, -, hready, hrun⟩ | ⟨e, w', hfailed, hrun, -⟩
  · obtain rfl := Value.record.inj hes
    obtain rfl := Except.ok.inj (hvs.symm.trans hmembers)
    rw [hrun]
    exact defineFields_settles hfields (hp vs · hvs) _ hready t ht
  · rw [hrun]
    rcases hfailed with hbuilt | ⟨_, hes, hmembers⟩
    · exact (builtGroup_graceful h).error hbuilt
    · obtain rfl := Value.record.inj hes
      cases hvs.symm.trans hmembers

theorem defineMembers_settles (h : Admitted raw) (hp : ∀ es, HasEntry raw es → Payable es) :
    Settles typeId (defineMembers strict typeId raw) := by
  obtain ⟨vs, hvs, hfields⟩ := h.fields
  obtain ⟨gs, hgs, hgroups⟩ := h.groups
  refine settles_after hvs (settles_bind ?_ ?_ fun _ => settles_after hgs ?_)
  · exact Building.within_forM extending_refl extending_trans
      (defineField_extending strict typeId none) vs
  · exact defineFields_settles hfields fun es hes => hp es (.alone hvs hes)
  · refine settles_forM (defineGroup_extending strict typeId) fun g hg => ?_
    obtain ⟨es, rfl, hentry⟩ := hgroups g hg
    exact defineGroup_settles hentry fun vs fs hvs hfs => hp fs (.grouped hgs hg hvs hfs)

/-! ### Files -/

/-- No integer in a file is too long to be written, and the payloads of its fields are read or
refused. -/
structure File.Payable (f : File) : Prop where
  content : Graceful f.content
  texts (raw : Entries) : f.content = .ok raw → (Value.record raw).hasText = true
  fields (raw es : Entries) : f.content = .ok raw → HasEntry raw es → Definition.Payable es

theorem File.Payable.not_sticks {f : File} (h : f.Payable) {m : Misuse} :
    ¬ Sticks formats strict f m := by
  rintro (hcontent | ⟨hcontent, hcheck⟩ | ⟨hcontent, hcheck, r, id, htype⟩ |
    ⟨hcontent, hcheck, w, hready, t, typeId, hknown, hmembers⟩)
  · exact h.content m hcontent
  · exact problems_graceful (h.texts _ hcontent) m hcheck
  · exact typeOf_graceful (admitted_of_problems hcheck) m htype
  · exact defineMembers_settles (admitted_of_problems hcheck) (fun es => h.fields _ es hcontent)
      w hready t hknown m hmembers

end DocForms.Definition
