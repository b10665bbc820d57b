import DocForms.Proofs.Definition.Apart
import DocForms.Proofs.Schema.Rereading

/-! Entries that can be defined. An entry of the right shape whose payloads are parsed gives a field,
and one with bounds in order gives a group, when its label is not blank and its name is a new one. -/
namespace DocForms.Definition
variable {strict : Bool} {r : Registry} {typeId id : String} {group : Option String}
  {types : List DocumentType} {es raw : Entries} {w : Workspace} {s : String}

/-! ### What the shapes ask for -/

theorem isName_of_field (h : fieldShape.Meets (.record es))
    (hs : Entries.get? es "name" = some (.text s)) : isName (Text.trim s) = true :=
  Pattern.isName_trim (Shape.met_matching.mp (part_of_meets 0 h rfl hs _ (.tail _ (.head _))))

theorem isName_of_group (h : groupShape.Meets (.record es))
    (hs : Entries.get? es "name" = some (.text s)) : isName (Text.trim s) = true :=
  Pattern.isName_trim (Shape.met_matching.mp (part_of_meets 0 h rfl hs _ (.tail _ (.head _))))

theorem isCode_of_meets (h : Definition.shape.Meets (.record raw))
    (hs : Entries.get? raw "code" = some (.text s)) : isCode (Text.trim s) = true :=
  Pattern.isCode_trim (Shape.met_matching.mp (part_of_meets 1 h rfl hs _ (.tail _ (.head _))))

theorem status_of_meets (h : Definition.shape.Meets (.record raw)) : ∃ status,
    TypeStatus.ofValue? ((Entries.get? raw "status").getD (.text "active")) = some status := by
  cases hv : Entries.get? raw "status" with
  | none => exact ⟨.active, rfl⟩
  | some v =>
    obtain ⟨n, hn, rfl⟩ := choice_of_meets (part_of_meets 5 h rfl hv)
    rcases List.mem_cons.mp hn with rfl | hn
    · exact ⟨.active, rfl⟩
    · obtain rfl := List.mem_singleton.mp hn
      exact ⟨.inactive, rfl⟩

theorem relation_of_field (h : fieldShape.Meets (.record es)) {v : Value}
    (hv : Entries.get? es "link_type" = some v) : ∃ t : LinkType, v = .text t.name := by
  obtain ⟨n, hn, rfl⟩ := choice_of_meets (part_of_meets 6 h rfl hv)
  obtain ⟨t, -, rfl⟩ := List.mem_map.mp hn
  exact ⟨t, rfl⟩

/-- The entries of a group under the names of its bounds. -/
def boundName : RowBound → String
  | .least => "min_repeats"
  | .most => "max_repeats"

theorem bound_of_group (h : groupShape.Meets (.record es)) (b : RowBound) {n : Int}
    (hn : Entries.get es (boundName b) = .int n) : b.lowest ≤ n := by
  have hsome : Entries.get? es (boundName b) = some (.int n) := by
    rw [Entries.get] at hn
    cases hv : Entries.get? es (boundName b) with
    | none => simp [hv] at hn
    | some v => simpa [hv] using hn
  have hlt : (Number.int n).lt (.int b.lowest) = false := by
    cases b with
    | least => exact (Shape.met_minimum rfl).mp (part_of_meets 4 h rfl hsome _ (.tail _ (.head _)))
    | most => exact (Shape.met_minimum rfl).mp (part_of_meets 5 h rfl hsome _ (.tail _ (.head _)))
  exact Int.not_lt.mp fun hn => by simp [lt_int_iff.mpr hn] at hlt

/-! ### Types -/

theorem trimmed_ne_empty {name : String} (hs : Entries.get? es name = some (.text s))
    (h : (Entries.get es name).trimmed ≠ .ok "") : Text.trim s ≠ "" := by
  rw [get_of_get? hs, trimmed_text] at h
  exact fun he => h (congrArg Except.ok he)

theorem buildType_ok {spec : Entries} {name code : String} {status : TypeStatus}
    (hname : (Entries.get spec "name").trimmed = .ok name) (hsome : name ≠ "")
    (hcode : (Entries.get spec "code").trimmed = .ok code) (hshape : isCode code = true)
    (hnew : ∀ t ∈ r.types, t.code ≠ code)
    (hstatus : TypeStatus.ofValue? (Entries.get spec "status") = some status) :
    ∃ t, r.buildType id spec = .ok t := by
  have htaken : (r.types.any fun t => t.code == code && t.id != id) = false :=
    List.any_eq_false.mpr fun t ht => by simp [hnew t ht]
  unfold Registry.buildType
  simp only [↓check_eq_ok, bind_eq_ok, hstatus]
  exact ⟨_, name, hname, code, hcode, hsome, by simp [hshape], by simp [htaken], rfl⟩

/-- A definition of the right shape gives a type, when its name is not blank and its code is a new
one. -/
theorem typeOf_ok (h : Definition.shape.Meets (.record raw))
    (hname : (Entries.get raw "name").trimmed ≠ .ok "")
    (hnew : ∀ t ∈ r.types, (Entries.get raw "code").trimmed ≠ .ok t.code) :
    ∃ t, typeOf r id raw = .ok t := by
  obtain ⟨code, hcode⟩ := (admitted_of_meets h).code
  obtain ⟨name, hs⟩ := (admitted_of_meets h).name
  obtain ⟨status, hstatus⟩ := status_of_meets h
  have hother : ∀ t ∈ r.types, t.code ≠ Text.trim code := by
    intro t ht he
    refine hnew t ht ?_
    rw [get_of_get? hcode, trimmed_text, he]
  rw [typeOf, typeSpec, part_of_get? hcode, part_of_get? hs]
  exact buildType_ok ((congrArg Value.trimmed (Entries.get_ofNames ..)).trans (trimmed_text name))
    (trimmed_ne_empty hs hname)
    ((congrArg Value.trimmed (Entries.get_ofNames ..)).trans (trimmed_text code))
    (isCode_of_meets h hcode) hother
    ((congrArg TypeStatus.ofValue? (Entries.get_ofNames ..)).trans hstatus)

/-! ### Links -/

/-- Options that name a target or a relation are parsed. -/
theorem parse_link_ok {data : List (String × Value)} {field : Option String}
    (hlink : ∀ v, data.lookup "linkType" = some v → ∃ t : LinkType, v = .text t.name)
    (htarget : ∀ v, data.lookup "targetDocumentTypeId" = some v → ∃ s, v = .text s) :
    ∃ o, Options.parse .documentLink (.named data) field = .ok o := by
  have hmeets := linkOptionsShape_meets hlink htarget
  obtain ⟨o, ho⟩ : ∃ o, LinkOptions.ofValue field (.named data) = .ok o := by
    rw [LinkOptions.ofValue.eq_def, Shape.report_eq_none.mpr hmeets]
    exact ⟨_, rfl⟩
  refine ⟨some (.link o), ?_⟩
  show (LinkOptions.ofValue field (.named data) >>= fun o => pure (some (Options.link o))) = _
  rw [ho]
  rfl

/-- The options of a link field whose target is known can be made, and are parsed. -/
theorem linkOptions_ok (h : fieldShape.Meets (.record es))
    (htarget : (Entries.get es "target_code").isTruthy = true →
      ∃ t ∈ r.types, Entries.get es "target_code" = .text t.code) :
    ∃ options, linkOptions r es = .ok options ∧
      ∀ field, ∃ o, Options.parse .documentLink options field = .ok o := by
  have relation (v : Value) (hv : Entries.get es "link_type" = v) (hsome : v.isTruthy = true) :
      ∃ t : LinkType, v = .text t.name := by
    rw [Entries.get] at hv
    cases hget : Entries.get? es "link_type" with
    | none =>
      obtain rfl : .null = v := by simpa [hget] using hv
      cases hsome
    | some w =>
      obtain rfl : w = v := by simpa [hget] using hv
      exact relation_of_field h hget
  obtain ⟨options, hoptions⟩ : ∃ options, linkOptions r es = .ok options := by
    unfold linkOptions
    simp only [bind_eq_ok, pure_eq_ok]
    cases hcode : (Entries.get es "target_code").isTruthy with
    | false => exact ⟨_, _, rfl, rfl⟩
    | true =>
      obtain ⟨t, ht, htext⟩ := htarget hcode
      rw [htext]
      cases hfound : r.typeWithCode? t.code with
      | none => simpa using List.find?_eq_none.mp hfound t ht
      | some u =>
        simp only [if_true, hfound]
        exact ⟨_, _, rfl, rfl⟩
  refine ⟨options, hoptions, fun field => ?_⟩
  obtain ⟨target, hlead, hnone, rfl⟩ := linkOptions_eq_ok hoptions
  cases hcode : (Entries.get es "target_code").isTruthy with
  | false =>
    obtain rfl := hnone hcode
    cases hrelation : (Entries.get es "link_type").isTruthy with
    | false => exact ⟨_, rfl⟩
    | true =>
      refine parse_link_ok (fun v hv => ?_) nofun
      exact relation v (Option.some.inj hv) (Option.some.inj hv ▸ hrelation)
  | true =>
    obtain ⟨t, -, -, rfl⟩ := hlead hcode
    cases hrelation : (Entries.get es "link_type").isTruthy with
    | false => exact parse_link_ok nofun fun v hv => ⟨t.id, (Option.some.inj hv).symm⟩
    | true =>
      refine parse_link_ok (fun v hv => ?_) fun v hv => ⟨t.id, (Option.some.inj hv).symm⟩
      exact relation v (Option.some.inj hv) (Option.some.inj hv ▸ hrelation)

/-! ### Fields -/

/-- The payloads of the entry of a field are parsed. The options of a link field are not its own. -/
structure PayloadsParsed (es : Entries) : Prop where
  options (kind : FieldKind) : Entries.get es "type" = .text kind.name → kind ≠ .documentLink →
    ∃ o, Options.parse kind (Entries.get es "options") (some (nameOf (.record es))) = .ok o
  rules : ∃ rs, Rules.parse (Entries.get es "validation_rules") (some (nameOf (.record es))) = .ok rs

/-- An entry that can be defined as a field where some types are known. -/
structure Definable (types : List DocumentType) (es : Entries) : Prop where
  shape : fieldShape.Meets (.record es)
  label : (Entries.get es "label").trimmed ≠ .ok ""
  payloads : PayloadsParsed es
  target : Entries.get es "type" = .text FieldKind.documentLink.name →
    (Entries.get es "target_code").isTruthy = true →
      ∃ t ∈ types, Entries.get es "target_code" = .text t.code

theorem constraints_ok {kind : FieldKind} {rawOptions rawRules : Value} {field : Option String}
    (hoptions : ∃ o, Options.parse kind rawOptions field = .ok o)
    (hrules : ∃ rs, Rules.parse rawRules field = .ok rs) :
    ∃ c, Constraints.parse strict kind rawOptions rawRules field = .ok c := by
  obtain ⟨o, ho⟩ := hoptions
  obtain ⟨rs, hrs⟩ := hrules
  rw [Constraints.parse, ho, hrs]
  exact ⟨_, rfl⟩

theorem checkFieldName_ok {name : String} (hfields : ∀ f ∈ r.fieldsOf typeId, f.name ≠ name)
    (hgroups : ∀ g ∈ r.groupsOf typeId, g.name ≠ name) :
    r.checkFieldName typeId id name group = .ok () := by
  have hfield : ((r.fieldsOf typeId).any fun f => f.id != id && f.name == name) = false :=
    List.any_eq_false.mpr fun f hf => by simp [hfields f hf]
  have hgroup : ((r.groupsOf typeId).any (·.name == name)) = false :=
    List.any_eq_false.mpr fun g hg => by simp [hgroups g hg]
  rw [Registry.checkFieldName, hfield, hgroup, Bool.and_false]
  rfl

/-- An entry that can be defined gives a specification with options that are parsed. -/
theorem fieldSpec_ok (group : Option String) (h : Definable r.types es) {name label : String} {kind : FieldKind}
    (hname : Entries.get? es "name" = some (.text name))
    (hlabel : Entries.get? es "label" = some (.text label))
    (hkind : Entries.get? es "type" = some (.text kind.name)) :
    ∃ options, fieldSpec r group (.record es) = .ok (.named [("name", .text name),
        ("label", .text label), ("type", .text kind.name),
        ("required", (Entries.get? es "required").getD (.bool false)),
        ("documentFieldGroupId", .text? group), ("options", options),
        ("validationRules", Entries.get es "validation_rules")]) ∧
      ∃ o, Options.parse kind options (some (nameOf (.record es))) = .ok o := by
  have htype := get_of_get? hkind
  by_cases hlink : kind = .documentLink
  · subst hlink
    obtain ⟨options, hoptions, hparsed⟩ := linkOptions_ok h.shape (h.target htype)
    refine ⟨options, ?_, hparsed _⟩
    show (part (.record es) "type" >>= _) = _
    rw [part_of_get? hkind]
    show (linkOptions r es >>= _) = _
    rw [hoptions, part_of_get? hname, part_of_get? hlabel]
    rfl
  · refine ⟨Entries.get es "options", ?_, h.payloads.options kind htype hlink⟩
    have hplain : Value.text kind.name ≠ .text FieldKind.documentLink.name :=
      fun he => hlink (name_inj (Atom.text.inj (Value.atom.inj he)))
    show (part (.record es) "type" >>= _) = _
    rw [part_of_get? hkind, part_of_get? hname, part_of_get? hlabel]
    show (if Value.text kind.name = _ then _ else _ : Except Fault Value) = _
    rw [if_neg hplain]
    rfl

/-- An entry that can be defined gives a field, when its name is a new one. -/
theorem builtField_ok (h : Definable w.registry.types es) (hg : group ≠ some "")
    (hgroup : w.registry.checkGroup typeId group = .ok ())
    (hfields : ∀ f ∈ w.registry.fieldsOf typeId, f.name ≠ nameOf (.record es))
    (hgroups : ∀ g ∈ w.registry.groupsOf typeId, g.name ≠ nameOf (.record es)) :
    ∃ f, builtField w strict typeId group (.record es) = .ok f := by
  obtain ⟨_, hes, hentry⟩ := fieldEntry_of_meets h.shape
  obtain rfl := Value.record.inj hes
  obtain ⟨name, hname⟩ := hentry.name
  obtain ⟨label, hlabel⟩ := hentry.label
  obtain ⟨kind, hkind⟩ := hentry.kind
  obtain ⟨options, hspec, hparsed⟩ := fieldSpec_ok group h hname hlabel hkind
  obtain ⟨constraints, hconstraints⟩ : ∃ c, Constraints.parse strict kind options
      (Entries.get es "validation_rules") (some (nameOf (.record es))) = .ok c :=
    constraints_ok hparsed h.payloads.rules
  have hkindOf : FieldKind.ofValue ((Value.text kind.name).orElse (.text "text"))
      (some (nameOf (.record es))) = .ok kind := by
    rw [orElse_name, FieldKind.ofValue, FieldKind.ofName?_name]
  rw [nameOf_record hname] at hfields hgroups hconstraints hkindOf
  rw [builtField, hspec]
  show ∃ f, w.registry.buildField typeId w.nextId (Entries.ofNames _) strict = .ok f
  unfold Registry.buildField
  simp only [↓check_eq_ok, bind_eq_ok, pure_eq_ok, Entries.get_ofNames]
  exact ⟨_, _, trimmed_text name, _, trimmed_text label, by simp [isName_of_field h.shape hname],
    trimmed_ne_empty hlabel h.label, group, groupIdOf_text? hg (Entries.get_ofNames ..), (), hgroup,
    (), checkFieldName_ok hfields hgroups, kind, hkindOf, constraints, hconstraints, _, rfl, rfl⟩

/-! ### Groups -/

/-- The bounds of a group are integers, if it gives any. -/
def IntegerBounds (es : Entries) : Prop :=
  ∀ b : RowBound, ∃ n, Entries.get es (boundName b) = .int? n

/-- An entry that can be defined as a group, and its fields with it, where some types are known. -/
structure DefinableGroup (types : List DocumentType) (es : Entries) : Prop where
  shape : groupShape.Meets (.record es)
  label : (Entries.get es "label").trimmed ≠ .ok ""
  bounds : (Entries.get es "repeatable").isTruthy = true → IntegerBounds es
  ordered : boundsProblem (.record es) = .ok []
  fields : ∀ vs, members es "fields" = .ok vs → ∀ v ∈ vs, ∃ fs, v = .record fs ∧ Definable types fs

theorem rowBound_of_group (h : groupShape.Meets (.record es)) (b : RowBound) {n : Option Int}
    (hn : Entries.get es (boundName b) = .int? n) :
    Registry.rowBound b (Entries.get es (boundName b)) = .ok n := by
  cases n with
  | none =>
    rw [hn]
    rfl
  | some a =>
    rw [hn]
    show (if a < b.lowest then _ else _) = _
    rw [if_neg (Int.not_lt.mpr (bound_of_group h b hn))]

theorem rowBounds_ok (h : DefinableGroup types es) : ∃ bounds, ∀ spec : Entries,
    Entries.get spec "minRepeats" = Entries.get es "min_repeats" →
    Entries.get spec "maxRepeats" = Entries.get es "max_repeats" →
    Registry.rowBounds (Entries.get es "repeatable").isTruthy spec = .ok bounds := by
  cases hrepeatable : (Entries.get es "repeatable").isTruthy with
  | false => exact ⟨_, fun _ _ _ => rfl⟩
  | true =>
    obtain ⟨low, hleast⟩ := h.bounds hrepeatable .least
    obtain ⟨high, hmost⟩ := h.bounds hrepeatable .most
    have hlow : Registry.rowBound .least (Entries.get es "min_repeats") = .ok low :=
      rowBound_of_group h.shape .least hleast
    have hhigh : Registry.rowBound .most (Entries.get es "max_repeats") = .ok high :=
      rowBound_of_group h.shape .most hmost
    have hordered : ∀ a ∈ low, ∀ b ∈ high, ¬ b < a := by
      rintro a rfl b rfl
      exact Int.not_lt.mpr (le_of_bounds h.ordered hleast hmost)
    refine ⟨(low, high), fun spec hleast hmost => ?_⟩
    rw [Registry.rowBounds, hleast, hmost, hlow, hhigh]
    cases low with
    | none => rfl
    | some a =>
      cases high with
      | none => rfl
      | some b => exact if_neg (hordered a rfl b rfl)

/-- An entry that can be defined gives a group, when its name is a new one. -/
theorem builtGroup_ok (h : DefinableGroup types es)
    (hgroups : ∀ g ∈ w.registry.groupsOf typeId, g.name ≠ nameOf (.record es))
    (hfields : ∀ f ∈ w.registry.fieldsOf typeId, f.name ≠ nameOf (.record es)) :
    ∃ g, builtGroup w typeId (.record es) = .ok g := by
  obtain ⟨_, hes, hentry⟩ := groupEntry_of_meets h.shape
  obtain rfl := Value.record.inj hes
  obtain ⟨name, hname⟩ := hentry.name
  obtain ⟨label, hlabel⟩ := hentry.label
  rw [nameOf_record hname] at hgroups hfields
  obtain ⟨bounds, hbounds⟩ := rowBounds_ok h
  have hother : ((w.registry.groupsOf typeId).any
      fun g => g.name == Text.trim name && g.id != w.nextId) = false :=
    List.any_eq_false.mpr fun g hg => by simp [hgroups g hg]
  have hapart : ((w.registry.scope typeId none).any (·.name == Text.trim name)) = false :=
    List.any_eq_false.mpr fun f hf => by simp [hfields f (List.mem_filter.mp hf).1]
  rw [builtGroup, groupSpec, part_of_get? hname, part_of_get? hlabel]
  show ∃ g, w.registry.buildGroup typeId w.nextId (Entries.ofNames _) = .ok g
  unfold Registry.buildGroup
  simp only [↓check_eq_ok, bind_eq_ok, Entries.get_ofNames]
  refine ⟨_, _, trimmed_text name, _, trimmed_text label, by simp [isName_of_group h.shape hname],
    trimmed_ne_empty hlabel h.label, by simp [hother], by simp [hapart], bounds, ?_, rfl⟩
  exact (congrArg (Registry.rowBounds · _) (getD_isTruthy es "repeatable")).trans
    (hbounds _ (Entries.get_ofNames ..) (Entries.get_ofNames ..))

end DocForms.Definition
